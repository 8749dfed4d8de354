import Mathlib.Algebra.Order.BigOperators.Group.List
import Mathlib.Algebra.Order.Group.Nat
import Mathlib.Data.List.Perm.Subperm
import VgiCompress.Discovery

/-!
# Picking rows before a call or after it

A query filters, sorts, limits and joins rows around the calls it makes,
and the engine is free to do so on either side of a call. `select` picks
rows of a batch by their numbers, in any order and as often as they are
named. `selecting_rows` says that picking commutes with every function of
the worker, `codecs()` included, as long as the picked values fit one
column. They do where no row is picked twice.
-/

namespace VgiCompress

open RustStd

/-! ## Picked rows -/

/-- The cells of these rows, in this order. -/
def ArrayRef.select (is : List Nat) (col : ArrayRef) : ArrayRef :=
  ⟨col.dataType, is.map fun i => col.cells[i]?.join⟩

/-- The rows with these numbers, in this order. -/
def RecordBatch.select (is : List Nat) (batch : RecordBatch) : RecordBatch where
  columns := batch.columns.map (·.select is)
  numRows := is.length
  lengths := by
    simp only [List.forall_mem_map, ArrayRef.len, ArrayRef.select, List.length_map]
    exact fun _ _ => trivial

theorem ArrayRef.cell?_select {col : ArrayRef} {is : List Nat} {k i : Nat} (hk : is[k]? = some i)
    (hi : i < col.len) : (col.select is).cell? k = col.cell? i := by
  have hcell : col.cells[i]? = some col.cells[i] := List.getElem?_eq_getElem hi
  have hcells : (is.map fun i => col.cells[i]?.join)[k]? = col.cells[i]? := by
    rw [List.getElem?_map, hk, hcell]
    exact congrArg some (congrArg Option.join hcell)
  exact congrArg (Option.map (Sigma.mk col.dataType)) hcells

section Select

variable {b : RecordBatch} {is : List Nat}

theorem sameRow_select {k i : Nat} (hk : is[k]? = some i) (hi : i < b.numRows) :
    SameRow (b.select is) k b i := by
  rw [SameRow, RecordBatch.select, List.map_map]
  refine List.map_congr_left fun col hcol => ArrayRef.cell?_select hk ?_
  rwa [b.lengths col hcol]

theorem rows_select {ω : Type} {f : RecordBatch → Nat → Outcome RpcError ω} (hf : RowLocal f)
    (h : ∀ i ∈ is, i < b.numRows) : rows f (b.select is) = is.map (f b) := by
  apply List.ext_getElem
  · simp [rows, RecordBatch.select]
  · intro k h₁ h₂
    have hk : k < is.length := by simpa using h₂
    have hrow := sameRow_select (b := b) (List.getElem?_eq_getElem hk) (h _ (List.getElem_mem hk))
    simpa [rows] using hf _ _ _ _ hrow

theorem RecordBatch.select_single {col : ArrayRef} :
    (RecordBatch.single col).select is = .single (col.select is) := by
  simp [RecordBatch.select, RecordBatch.single, ArrayRef.len, ArrayRef.select]

end Select

/-- Of the rows of a batch, those picked once weigh no more than all. -/
theorem sum_select_le {α : Type} {vs : List (Option α)} {is : List Nat}
    (hnodup : is.Nodup) (h : ∀ i ∈ is, i < vs.length) (w : Option α → Nat) :
    (is.map fun i => w vs[i]?.join).sum ≤ (vs.map w).sum := by
  have hall : (List.range vs.length).map (fun i => w vs[i]?.join) = vs.map w := by
    apply List.ext_getElem
    · simp
    · intro i h₁ h₂
      have hi : i < vs.length := by simpa using h₂
      simp [hi]
  have hsub : is ⊆ List.range vs.length := fun i hi => List.mem_range.mpr (h i hi)
  obtain ⟨js, hperm, hsublist⟩ := List.subperm_of_subset hnodup hsub
  rw [← hall, ← (hperm.map fun i => w vs[i]?.join).sum_eq]
  exact (hsublist.map _).sum_le_sum fun _ _ => Nat.zero_le _

/-! ## Every function works by rows -/

section Local

variable (be : Backends) (host : Host)

theorem ScalarFunction.rowLocal (f : ScalarFunction) (params : ProcessParams f.onBind) :
    RowLocal (f.rowAt be host params) := by
  cases f with
  | compress self =>
      show RowLocal (rowOf (blobCodecArgs self.withLevel) (Compress.row be))
      apply rowLocal_blobCodecArgs
      intro c d c' d' x x' i j hc hd hx
      simp only [Compress.row, blobBytes_congr hc, requireCodec_congr hd, optIntVal_congr hx]
  | decompress self => exact Decompress.rowLocal be host self.withCap params
  | decompressAuto self => exact DecompressAuto.rowLocal be host self.withCap params
  | detectCodec =>
      show RowLocal (rowOf blobArg (DetectCodec.row be))
      intro b b' i j hrow
      refine column_bind_congr hrow (fun c c' hc => ?_) 0
      simp only [DetectCodec.row, blobBytes_congr hc]
  | compressedSize self =>
      show RowLocal (rowOf (blobCodecArgs self.withLevel) (CompressedSize.row be))
      apply rowLocal_blobCodecArgs
      intro c d c' d' x x' i j hc hd hx
      simp only [CompressedSize.row, blobBytes_congr hc, requireCodec_congr hd,
        optIntVal_congr hx]
  | decompressedSize self => exact DecompressedSize.rowLocal be host self.withCap params
  | ratio self =>
      show RowLocal (rowOf (blobCodecArgs self.withLevel) (Ratio.row be))
      apply rowLocal_blobCodecArgs
      intro c d c' d' x x' i j hc hd hx
      simp only [Ratio.row, blobBytes_congr hc, requireCodec_congr hd, optIntVal_congr hx]
  | isValid =>
      show RowLocal (rowOf (blobCodecArgs false) (IsValid.row be))
      apply rowLocal_blobCodecArgs
      intro c d c' d' x x' i j hc hd hx
      simp only [IsValid.row, blobBytes_congr hc, textStr_congr hd]

end Local

/-! ## Calls on picked rows -/

section Call

variable {be : Backends} {host : Host} {b out : RecordBatch} {is : List Nat}

/-- A call with its arguments there is its rows in order, and its answer. -/
theorem ScalarFunction.process_rows (f : ScalarFunction) (params : ProcessParams f.onBind)
    (h : f.argumentSpecs.length ≤ b.columns.length) :
    f.process be host params b =
      (Outcome.sequence (rows (f.rowAt be host params) b)
        >>= answer (cellWeight f.onBind) i32Max) := by
  obtain ⟨args, hargs⟩ : ∃ args, (f.parts be host params).arguments b = .ok args :=
    f.exists_args params h
  have hrow : f.rowAt be host params b = (f.parts be host params).row args := by
    funext i
    rw [rowAt, rowOf, hargs, Outcome.ok_bind]
  rw [f.process_eq, processRows_answer (f.parts be host params).builds, hargs, Outcome.ok_bind,
    rows, hrow]

/-- Picking rows of the answer and asking for the picked rows come to the
same: where no row is picked twice, and otherwise if the picked values fit
the column. If they do not fit, the call panics. -/
def CommutesWithPicking (process : RecordBatch → Outcome RpcError RecordBatch) (t : DataType)
    (b out : RecordBatch) (is : List Nat) : Prop :=
  (is.Nodup → process (b.select is) = .ok (out.select is))
  ∧ ∃ vs : List (Option t.Val), out = .single ⟨t, vs⟩
    ∧ process (b.select is) =
      if (is.map fun i => cellWeight t vs[i]?.join).sum ≤ i32Max then .ok (out.select is)
      else .panic

theorem commutesWithPicking_of_answer {process : RecordBatch → Outcome RpcError RecordBatch}
    {t : DataType} {vs : List (Option t.Val)} (hlen : vs.length = b.numRows)
    (hall : process b = answer (cellWeight t) i32Max vs)
    (hpicked : process (b.select is) =
      answer (cellWeight t) i32Max (is.map fun i => vs[i]?.join))
    (hout : process b = .ok out) (h : ∀ i ∈ is, i < b.numRows) :
    CommutesWithPicking process t b out is := by
  rw [hall, answer] at hout
  split at hout
  · next hfit =>
      obtain rfl : .single ⟨t, vs⟩ = out := Outcome.ok.inj hout
      have hcall : process (b.select is) =
          if (is.map fun i => cellWeight t vs[i]?.join).sum ≤ i32Max then
            .ok ((RecordBatch.single ⟨t, vs⟩).select is)
          else .panic := by
        rw [hpicked, answer, List.map_map, RecordBatch.select_single]
        rfl
      refine ⟨fun hnodup => ?_, vs, rfl, hcall⟩
      rw [hcall, if_pos]
      have hbound : ∀ i ∈ is, i < vs.length := fun i hi => hlen.symm ▸ h i hi
      exact (sum_select_le hnodup hbound _).trans hfit
  · cases hout

theorem ScalarFunction.commutesWithPicking {f : ScalarFunction} {params : ProcessParams f.onBind}
    (harity : f.argumentSpecs.length ≤ b.columns.length)
    (hout : f.process be host params b = .ok out) (h : ∀ i ∈ is, i < b.numRows) :
    CommutesWithPicking (f.process be host params) f.onBind b out is := by
  have harity' : f.argumentSpecs.length ≤ (b.select is).columns.length := by
    simpa [RecordBatch.select] using harity
  have hseq := hout
  rw [f.process_rows params harity] at hseq
  obtain ⟨vs, hvs, -⟩ := Outcome.bind_eq_ok.mp hseq
  have hrows : rows (f.rowAt be host params) b = vs.map .ok := Outcome.sequence_eq_ok hvs
  have hpicked : rows (f.rowAt be host params) (b.select is)
      = (is.map fun i => vs[i]?.join).map .ok := by
    rw [rows_select (f.rowLocal be host params) h, List.map_map]
    refine List.map_congr_left fun i hi => ?_
    obtain ⟨v, hget, hrow⟩ := get_of_rows hrows (h i hi)
    rw [hrow, Function.comp_apply, hget]
    rfl
  refine commutesWithPicking_of_answer (length_of_rows hrows) ?_ ?_ hout h
  · rw [f.process_rows params harity, hvs, Outcome.ok_bind]
  · rw [f.process_rows params harity', hpicked, Outcome.sequence_map_ok, Outcome.ok_bind]

theorem Codecs.commutesWithPicking {debug : String} {params : ProcessParams (.listUtf8 debug)}
    (hout : Codecs.process host params b = .ok out) (h : ∀ i ∈ is, i < b.numRows) :
    CommutesWithPicking (Codecs.process host params) (.listUtf8 debug) b out is := by
  have hpicked : (is.map fun i => (List.replicate b.numRows (some (codecs.map some)))[i]?.join)
      = List.replicate (b.select is).numRows (some (codecs.map some)) := by
    refine List.eq_replicate_iff.mpr ⟨List.length_map _, ?_⟩
    simp only [List.forall_mem_map]
    intro i hi
    rw [List.getElem?_replicate, if_pos (h i hi)]
    rfl
  refine commutesWithPicking_of_answer List.length_replicate Codecs.process_eq ?_ hout h
  rw [Codecs.process_eq, hpicked]

/-- **Picking rows commutes with every call that succeeds**, of every overload
on the worker: filtered, sorted or repeated before the call, they have the
values they had in it. Picked once each they always fit; repeated, they
have to. -/
theorem selecting_rows (h : ∀ i ∈ is, i < b.numRows) :
    (∀ (be : Backends) (name : String) (f : ScalarFunction) (params : ProcessParams f.onBind),
      overload name b.columns.length = some (.scalar f) →
      f.process be host params b = .ok out →
      CommutesWithPicking (f.process be host params) f.onBind b out is)
    ∧ ∀ (debug : String) (params : ProcessParams (.listUtf8 debug)),
      Codecs.process host params b = .ok out →
      CommutesWithPicking (Codecs.process host params) (.listUtf8 debug) b out is := by
  refine ⟨fun be name f params hf hout => ?_, fun debug params hout => ?_⟩
  · exact f.commutesWithPicking (Nat.le_of_eq (arity_of_overload hf)) hout h
  · exact Codecs.commutesWithPicking hout h

end Call

/-- Two rows without columns, as `codecs()` is called. -/
def Sample.bareRows : RecordBatch := ⟨[], 2, nofun⟩

/-- `selecting_rows` on the two rows of a batch, the other way round, and on
the names of the codecs, one row asked for twice. -/
theorem selecting_rows_sample :
    (ScalarFunction.decompress ⟨false⟩).process Sample.build Sample.host (Sample.params .binary)
        (Sample.gzipRows.select [1, 0])
      = .ok (.single ⟨.binary, [none, some [0x61]]⟩)
    ∧ CommutesWithPicking (Codecs.process Sample.host (Sample.params (.listUtf8 "List")))
        (.listUtf8 "List") Sample.bareRows
        (.single ⟨.listUtf8 "List", List.replicate 2 (some (codecs.map some))⟩) [1, 1] := by
  have hf : overload "decompress" Sample.gzipRows.columns.length
      = some (.scalar (.decompress ⟨false⟩)) := rfl
  have hout : (ScalarFunction.decompress ⟨false⟩).process Sample.build Sample.host
      (Sample.params .binary) Sample.gzipRows
        = .ok (.single ⟨.binary, [some [0x61], none]⟩) := rfl
  have hin : ∀ i ∈ [1, 0], i < Sample.gzipRows.numRows := by decide
  have hfit : 64 * Sample.bareRows.numRows ≤ i32Max := by decide
  have hnames : Codecs.process Sample.host (Sample.params (.listUtf8 "List")) Sample.bareRows
      = .ok (.single ⟨.listUtf8 "List", List.replicate 2 (some (codecs.map some))⟩) :=
    Codecs.process_eq.trans (answer_codecs.trans (if_pos hfit))
  have htwice : ∀ i ∈ [1, 1], i < Sample.bareRows.numRows := by decide
  refine ⟨?_, (selecting_rows htwice).2 "List" _ hnames⟩
  exact ((selecting_rows hin).1 Sample.build "decompress" (.decompress ⟨false⟩) _ hf hout).1
    (by decide)

end VgiCompress
