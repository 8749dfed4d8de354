import VgiCompress.Stored

/-!
# The list of codecs

`codecs()` answers every row with the names of the codecs, in a list
column: the names of all rows one behind the other, and the offsets where
each row's names begin and end. `codecs_answers` reads the rows back
through the offsets and says what a caller may do with the names.
-/

namespace VgiCompress

open RustStd

/-! ## List columns -/

/-- A list column without NULL lists: the items of all rows, and the offset
where each list ends, behind a zero. -/
structure ListArray (α : Type) where
  offsets : List Nat
  values : List (Option α)

namespace ListArray

variable {α : Type}

def len (col : ListArray α) : Nat := col.offsets.length - 1

/-- The list of a row, cut from the items. -/
def value (col : ListArray α) (i : Nat) : Option (List (Option α)) := do
  let start ← col.offsets[i]?
  let stop ← col.offsets[i + 1]?
  pure ((col.values.take stop).drop start)

/-- The column that the batch holds. -/
def toArray (debug : String) (col : ListArray String) : ArrayRef :=
  ⟨.listUtf8 debug, (List.range col.len).map col.value⟩

end ListArray

/-- `GenericListBuilder` with `i32` offsets over a byte builder. -/
structure ListBuilder (α : Type) where
  values : ByteBuilder α
  offsets : List Nat

namespace ListBuilder

variable {α : Type}

def new : ListBuilder α := ⟨.new, [0]⟩

/-- `append(true)`: the list ends behind the last item. The offset is a
checked `i32`. -/
def append (b : ListBuilder α) : Outcome RpcError (ListBuilder α) :=
  if b.values.cells.length > i32Max then .panic
  else .ok { b with offsets := b.offsets ++ [b.values.cells.length] }

def finish (b : ListBuilder α) : ListArray α := ⟨b.offsets, b.values.cells⟩

/-- `for v in values { b.values().append_value(v) } b.append(true)`. -/
def appendRow (size : α → Nat) (values : List α) (b : ListBuilder α) :
    Outcome RpcError (ListBuilder α) := do
  let items ← ByteBuilder.appendEach size (values.map some) b.values
  append { b with values := items }

/-- `for _ in 0..rows`, from the row that `b` has reached. -/
def appendRows (size : α → Nat) (values : List α) :
    Nat → ListBuilder α → Outcome RpcError (ListBuilder α)
  | 0, b => .ok b
  | rows + 1, b => do
      let b ← b.appendRow size values
      appendRows size values rows b

end ListBuilder

/-- One list, repeated for each row. -/
def listStringSingle (values : List String) (rows : Nat) :
    Outcome RpcError (ListArray String) := do
  let b ← ListBuilder.appendRows String.utf8ByteSize values rows .new
  pure b.finish

/-! ## The builder after some rows -/

namespace ListBuilder

variable {α : Type} {size : α → Nat} {values : List α} {rows n : Nat}

/-- The value buffer and the item count of this many rows have `i32` ends. -/
def Fits (size : α → Nat) (values : List α) (rows : Nat) : Prop :=
  rows * (values.map size).sum ≤ i32Max ∧ rows * values.length ≤ i32Max

/-- The builder after this many rows. -/
def repeated (size : α → Nat) (values : List α) (rows : Nat) : ListBuilder α where
  values := ⟨(List.replicate rows (values.map some)).flatten, rows * (values.map size).sum⟩
  offsets := (List.range (rows + 1)).map (· * values.length)

theorem repeated_zero : repeated size values 0 = new := by
  simp [repeated, new, ByteBuilder.new]

theorem Fits.le (h : Fits size values rows) (hle : n ≤ rows) : Fits size values n :=
  ⟨(Nat.mul_le_mul_right _ hle).trans h.1, (Nat.mul_le_mul_right _ hle).trans h.2⟩

instance : Decidable (Fits size values rows) := inferInstanceAs (Decidable (_ ∧ _))

theorem sum_cellSize :
    ((values.map some).map (ByteBuilder.cellSize size)).sum = (values.map size).sum := by
  rw [List.map_map]
  rfl

/-- One more row, where there is room for it. -/
theorem appendRow_repeated (h : Fits size values rows) :
    appendRow size values (repeated size values rows) =
      if Fits size values (rows + 1) then .ok (repeated size values (rows + 1)) else .panic := by
  have hitems : (repeated size values rows).values.cells ++ values.map some
      = (repeated size values (rows + 1)).values.cells := by
    simp [repeated, List.replicate_succ']
  have hlen : (repeated size values (rows + 1)).values.cells.length
      = (rows + 1) * values.length := by
    simp [repeated]
  have hbytes : (repeated size values rows).values.valueLen + (values.map size).sum
      = (rows + 1) * (values.map size).sum := by
    rw [repeated, Nat.succ_mul]
  rw [appendRow, ByteBuilder.appendEach_eq _ _ h.1, sum_cellSize, hbytes, hitems]
  by_cases hsum : (rows + 1) * (values.map size).sum ≤ i32Max
  · rw [if_pos hsum, Outcome.ok_bind, append]
    dsimp only
    rw [hlen]
    by_cases hcount : (rows + 1) * values.length ≤ i32Max
    · rw [if_neg (Nat.not_lt.mpr hcount), if_pos ⟨hsum, hcount⟩]
      simp [repeated, List.range_succ]
    · rw [if_pos (Nat.not_le.mp hcount), if_neg fun hfits => hcount hfits.2]
  · rw [if_neg hsum, if_neg fun hfits => hsum hfits.1, Outcome.panic_bind]

theorem appendRows_repeated (h : Fits size values n) :
    appendRows size values rows (repeated size values n) =
      if Fits size values (n + rows) then .ok (repeated size values (n + rows)) else .panic := by
  induction rows generalizing n with
  | zero => rw [appendRows, Nat.add_zero, if_pos h]
  | succ rows ih =>
      rw [appendRows, appendRow_repeated h]
      by_cases hnext : Fits size values (n + 1)
      · rw [if_pos hnext, Outcome.ok_bind, ih hnext, Nat.add_assoc n 1 rows, Nat.add_comm 1 rows]
      · have hlast : ¬Fits size values (n + (rows + 1)) := fun hlast => hnext (hlast.le (by omega))
        rw [if_neg hnext, if_neg hlast, Outcome.panic_bind]

/-- All rows from the first, where all of them have room. -/
theorem appendRows_new :
    appendRows size values rows new =
      if Fits size values rows then .ok (repeated size values rows) else .panic := by
  have hzero : Fits size values 0 := ⟨by simp, by simp⟩
  rw [← repeated_zero, appendRows_repeated hzero, Nat.zero_add]

/-- A row of the finished column is the list it was built from. -/
theorem value_repeated {i : Nat} (h : i < rows) :
    (repeated size values rows).finish.value i = some (values.map some) := by
  obtain ⟨k, rfl⟩ : ∃ k, rows = i + (1 + k) := ⟨rows - (i + 1), by omega⟩
  have hoffset (j : Nat) (hj : j < i + (1 + k) + 1) :
      (repeated size values (i + (1 + k))).finish.offsets[j]? = some (j * values.length) := by
    simp [finish, repeated, hj]
  have hitems : (repeated size values (i + (1 + k))).finish.values
      = (List.replicate i (values.map some)).flatten
        ++ (values.map some ++ (List.replicate k (values.map some)).flatten) := by
    rw [finish, repeated, ← List.replicate_append_replicate, ← List.replicate_append_replicate]
    simp
  rw [ListArray.value, hoffset i (by omega), hoffset (i + 1) (by omega), hitems]
  dsimp only [Option.bind_eq_bind, Option.bind_some, Option.pure_def]
  rw [← List.append_assoc, List.take_left' (by simp [Nat.succ_mul]), List.drop_left' (by simp)]

theorem len_repeated : (repeated size values rows).finish.len = rows := by
  simp [ListArray.len, finish, repeated]

end ListBuilder

/-! ## `codecs()` -/

section Codecs

variable {host : Host} {debug : String} {params : ProcessParams (.listUtf8 debug)}
  {batch : RecordBatch}

def Codecs.process (host : Host) (params : ProcessParams (.listUtf8 debug))
    (batch : RecordBatch) : Outcome RpcError RecordBatch := do
  let arr ← listStringSingle codecs batch.numRows
  (Outcome.ofExcept
    (RecordBatch.tryNew host.refusal params.outputSchema [arr.toArray debug])).mapErr .runtimeError

/-- The twelve names have 64 bytes. -/
theorem fits_codecs {rows : Nat} :
    ListBuilder.Fits String.utf8ByteSize codecs rows ↔ 64 * rows ≤ i32Max := by
  have hbytes : (codecs.map String.utf8ByteSize).sum = 64 := by decide +kernel
  have hcount : codecs.length = 12 := rfl
  rw [ListBuilder.Fits, hbytes, hcount]
  omega

theorem listStringSingle_codecs (rows : Nat) :
    listStringSingle codecs rows =
      if 64 * rows ≤ i32Max then
        .ok (ListBuilder.repeated String.utf8ByteSize codecs rows).finish
      else .panic := by
  rw [listStringSingle, ListBuilder.appendRows_new]
  by_cases hfit : 64 * rows ≤ i32Max
  · rw [if_pos hfit, if_pos (fits_codecs.mpr hfit)]
    rfl
  · rw [if_neg hfit, if_neg fun hfits => hfit (fits_codecs.mp hfits)]
    rfl

theorem toArray_repeated (rows : Nat) :
    (ListBuilder.repeated String.utf8ByteSize codecs rows).finish.toArray debug =
      ⟨.listUtf8 debug, List.replicate rows (some (codecs.map some))⟩ := by
  have hvalues : (List.range rows).map
      (ListBuilder.repeated String.utf8ByteSize codecs rows).finish.value
        = List.replicate rows (some (codecs.map some)) := by
    refine List.eq_replicate_iff.mpr ⟨by simp, ?_⟩
    simp only [List.forall_mem_map, List.mem_range]
    exact fun i hi => ListBuilder.value_repeated hi
  rw [ListArray.toArray, ListBuilder.len_repeated, hvalues]

theorem answer_codecs {rows : Nat} :
    answer (cellWeight (.listUtf8 debug)) i32Max (List.replicate rows (some (codecs.map some))) =
      if 64 * rows ≤ i32Max then
        .ok (.single ⟨.listUtf8 debug, List.replicate rows (some (codecs.map some))⟩)
      else .panic := by
  have hbytes : ((codecs.map some).map (ByteBuilder.cellSize String.utf8ByteSize)).sum = 64 := by
    decide +kernel
  have hweight : cellWeight (.listUtf8 debug) (some (codecs.map some)) = 64 := hbytes
  rw [answer, List.map_replicate, hweight, List.sum_replicate_nat, Nat.mul_comm]

/-- The call answers the same list for each row. -/
theorem Codecs.process_eq :
    Codecs.process host params batch =
      answer (cellWeight (.listUtf8 debug)) i32Max
        (List.replicate batch.numRows (some (codecs.map some))) := by
  rw [Codecs.process, listStringSingle_codecs, answer_codecs]
  by_cases hfit : 64 * batch.numRows ≤ i32Max
  · rw [if_pos hfit, if_pos hfit, Outcome.ok_bind, toArray_repeated, tryNew_eq_single]
    rfl
  · rw [if_neg hfit, if_neg hfit]
    rfl

theorem mem_codecs (c : Codec) : c.name ∈ codecs :=
  List.mem_map_of_mem (by cases c <;> decide)

theorem parse_of_mem_codecs {name : String} (h : name ∈ codecs) :
    ∃ c, Codec.parse name = .ok c ∧ c.name = name := by
  obtain ⟨c, -, rfl⟩ := List.mem_map.mp h
  exact ⟨c, c.parse_name, rfl⟩

theorem nodup_codecs : codecs.Nodup := by decide +kernel

/-- **`codecs()` answers every row with the names that the other functions
take**, each once and in canonical spelling: every spelling they take is of
a codec in the list, and `detect_codec` tells no other. The call panics
from the row on whose names have no `i32` offset. -/
theorem codecs_answers (params : ProcessParams (.listUtf8 debug)) (batch : RecordBatch) :
    (i32Max < 64 * batch.numRows → Codecs.process host params batch = .panic)
    ∧ (64 * batch.numRows ≤ i32Max → ∃ col out, listStringSingle codecs batch.numRows = .ok col
      ∧ Codecs.process host params batch = .ok out ∧ out.columns = [col.toArray debug]
      ∧ out.numRows = batch.numRows ∧ col.len = batch.numRows
      ∧ ∀ i < batch.numRows, ∃ names : List String, col.value i = some (names.map some)
        ∧ names.Nodup
        ∧ (∀ name ∈ names, ∃ c, Codec.parse name = .ok c ∧ c.name = name)
        ∧ (∀ name c, Codec.parse name = .ok c → c.name ∈ names)
        ∧ ∀ be x name, detectCodec be x = some name → name ∈ names) := by
  have hsingle := listStringSingle_codecs batch.numRows
  constructor
  · intro hover
    rw [Codecs.process, hsingle, if_neg (Nat.not_le.mpr hover)]
    rfl
  · intro hfit
    rw [if_pos hfit] at hsingle
    refine ⟨_, .single ⟨.listUtf8 debug, _⟩, hsingle, ?_,
      congrArg (· :: []) (toArray_repeated batch.numRows).symm, List.length_replicate,
      ListBuilder.len_repeated, fun i hi => ⟨codecs, ?_, nodup_codecs, ?_, ?_, ?_⟩⟩
    · rw [Codecs.process, hsingle, Outcome.ok_bind, toArray_repeated, tryNew_eq_single]
      rfl
    · exact ListBuilder.value_repeated hi
    · exact fun _ => parse_of_mem_codecs
    · exact fun _ c _ => mem_codecs c
    · intro be x name hname
      obtain ⟨c, -, rfl⟩ := Option.map_eq_some_iff.mp hname
      exact mem_codecs c

end Codecs

end VgiCompress
