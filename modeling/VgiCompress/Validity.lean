import VgiCompress.Caps
import VgiCompress.Compression

/-!
# Validity under its own cap

`is_valid` decodes under the built-in cap, whatever the setting and the
environment variable say; `decompress` resolves its cap from them. Both
reach the same decoder with the same bytes, so they agree where the caps
do, and where they do not the larger cap accepts more
(`validity_is_a_default_decode`).
-/

namespace VgiCompress

open RustStd

/-! ## A row in a batch of its own -/

section OwnBatch

variable {κ : Type} {bound : DataType} {host : Host} {params : ProcessParams bound}
  {arguments : RecordBatch → Outcome RpcError κ}
  {row : κ → Nat → Outcome RpcError (Option bound.Val)}
  {column : List (Option bound.Val) → Outcome RpcError ArrayRef}
  {weight : Option bound.Val → Nat} {limit : Nat} {b : RecordBatch} {i : Nat}

/-- The batch of one row. -/
def ownBatch (b : RecordBatch) (i : Nat) : RecordBatch := (b.drop i).take 1

theorem rows_ownBatch (hlocal : RowLocal (rowOf arguments row)) (hi : i < b.numRows) :
    rows (rowOf arguments row) (ownBatch b i) = [rowOf arguments row b i] := by
  have hlen : i < (rows (rowOf arguments row) b).length := by simpa [rows] using hi
  rw [ownBatch, rows_take hlocal, rows_drop hlocal, List.drop_eq_getElem_cons hlen]
  simp [rows]

/-- Such a call succeeds with its row, if the column has room for it. -/
theorem isOk_ownBatch (hcol : BuildsUnder column weight limit)
    (hlocal : RowLocal (rowOf arguments row)) (hi : i < b.numRows) :
    (processRows host params arguments row column (ownBatch b i)).isOk = true ↔
      ∃ v, rowOf arguments row b i = .ok v ∧ weight v ≤ limit := by
  have hnum : 0 < (ownBatch b i).numRows := by
    show 0 < min 1 (b.numRows - i)
    omega
  rw [processRows_eq host params arguments row column _ (.inl hnum)]
  change (Outcome.sequence (rows (rowOf arguments row) (ownBatch b i)) >>= _).isOk = true ↔ _
  rw [rows_ownBatch hlocal hi]
  cases rowOf arguments row b i with
  | err e => simp [Outcome.sequence, Outcome.isOk]
  | panic => simp [Outcome.sequence, Outcome.isOk]
  | ok v =>
      have hsum : (([v] : List (Option bound.Val)).map weight).sum = weight v := by simp
      have hone : Outcome.sequence [(.ok v : Outcome RpcError (Option bound.Val))] = .ok [v] := rfl
      rw [hone, Outcome.ok_bind, hcol [v], hsum]
      by_cases hfit : weight v ≤ limit
      · obtain ⟨out, hout, -, -⟩ := tryNew_bound host params [v]
        rw [if_pos hfit, Outcome.ok_bind, hout]
        exact iff_of_true rfl ⟨v, rfl, hfit⟩
      · rw [if_neg hfit]
        refine iff_of_false Bool.false_ne_true ?_
        rintro ⟨w, hw, hw'⟩
        exact hfit (Outcome.ok.inj hw ▸ hw')

end OwnBatch

/-! ## Columns that can be read -/

theorem ArrayRef.cell?_of_lt {col : ArrayRef} {j : Nat} (h : j < col.len) :
    ∃ v, col.cell? j = some ⟨col.dataType, v⟩ := by
  have hj : j < col.cells.length := h
  refine ⟨col.cells[j], ?_⟩
  rw [ArrayRef.cell?, List.getElem?_eq_getElem hj]
  rfl

theorem ArrayRef.cell?_eq_none {col : ArrayRef} {j : Nat} (h : col.len ≤ j) :
    col.cell? j = none := by
  rw [ArrayRef.cell?, List.getElem?_eq_none h]
  rfl

/-- A column that yields one blob is of a type that yields them all. -/
theorem blobBytes_of_some {col : ArrayRef} {i j : Nat} {x : Bytes}
    (h : blobBytes col i = .ok (some x)) (hj : j < col.len) :
    ∃ payload, blobBytes col j = .ok payload := by
  obtain ⟨v, hv⟩ := ArrayRef.cell?_of_lt hj
  rcases Nat.lt_or_ge i col.len with hi | hi
  · obtain ⟨u, hu⟩ := ArrayRef.cell?_of_lt hi
    unfold blobBytes at h ⊢
    rw [hu] at h
    rw [hv]
    obtain ⟨t, cells⟩ := col
    cases t with
    | binary | largeBinary | utf8 | largeUtf8 => cases v <;> exact ⟨_, rfl⟩
    | _ => cases u <;> cases h
  · rw [blobBytes, ArrayRef.cell?_eq_none hi] at h
    cases h

theorem textStr_of_some {col : ArrayRef} {i j : Nat} {name : String}
    (h : textStr col i = .ok (some name)) (hj : j < col.len) :
    ∃ text, textStr col j = .ok text := by
  obtain ⟨v, hv⟩ := ArrayRef.cell?_of_lt hj
  rcases Nat.lt_or_ge i col.len with hi | hi
  · obtain ⟨u, hu⟩ := ArrayRef.cell?_of_lt hi
    unfold textStr at h ⊢
    rw [hu] at h
    rw [hv]
    obtain ⟨t, cells⟩ := col
    cases t with
    | utf8 | largeUtf8 => cases v <;> exact ⟨_, rfl⟩
    | _ => cases u <;> cases h
  · rw [textStr, ArrayRef.cell?_eq_none hi] at h
    cases h

theorem RecordBatch.len_of_column {b : RecordBatch} {k : Nat} {col : ArrayRef}
    (h : b.column k = .ok col) : col.len = b.numRows := by
  rw [RecordBatch.column] at h
  cases hc : b.columns[k]? with
  | none => rw [hc] at h; cases h
  | some c =>
      rw [hc] at h
      obtain rfl := Outcome.ok.inj h
      exact b.lengths c (List.mem_of_getElem? hc)

theorem len_of_blobCodecArgs {withExtra : Bool} {b : RecordBatch} {input codec : ArrayRef}
    {extra : Option ArrayRef} (h : blobCodecArgs withExtra b = .ok (input, codec, extra)) :
    input.len = b.numRows ∧ codec.len = b.numRows := by
  obtain ⟨c, hc, h⟩ := Outcome.bind_eq_ok.mp h
  obtain ⟨d, hd, h⟩ := Outcome.bind_eq_ok.mp h
  obtain ⟨x, -, h⟩ := Outcome.bind_eq_ok.mp h
  cases h
  exact ⟨b.len_of_column hc, b.len_of_column hd⟩

/-- A codec cell that is required is one that is there. -/
theorem requireCodec_eq_ok {col : ArrayRef} {i : Nat} {name : String} :
    requireCodec col i = .ok name ↔ textStr col i = .ok (some name) := by
  rw [requireCodec]
  rcases textStr col i with (_ | text) | e | _
  · simp
  · simp
  · simp
  · simp

/-! ## The two functions on a row -/

section Rows

variable {be : Backends} {host : Host} {b : RecordBatch} {i : Nat} {input codec : ArrayRef}

theorem isValid_eq_true {name : String} {x : Bytes} :
    isValid be name x = true ↔ ∃ v, decompress be name x defaultMaxOutputBytes = .ok v := by
  unfold isValid decompress
  rcases Codec.parse name with c | e | _
  · simp only [Outcome.ok_bind]
    cases c.decompress be x defaultMaxOutputBytes <;> simp [Outcome.isOk]
  · simp
  · simp

theorem IsValid.row_eq_true :
    IsValid.row be (input, codec, none) i = .ok (some true) ↔
      ∃ x name v, blobBytes input i = .ok (some x) ∧ textStr codec i = .ok (some name)
        ∧ decompress be name x defaultMaxOutputBytes = .ok v := by
  simp only [IsValid.row]
  rcases blobBytes input i with (_ | x) | e | _
  · simp
  · rcases textStr codec i with (_ | name) | e | _
    · simp
    · simp [isValid_eq_true]
    · simp
    · simp
  · simp
  · simp

theorem Decompress.row_eq_ok {params : ProcessParams .binary} {v : Option Bytes} :
    Decompress.row be host params (input, codec, none) i = .ok v ↔
      (blobBytes input i = .ok none ∧ v = none)
      ∨ ∃ x name s, blobBytes input i = .ok (some x) ∧ textStr codec i = .ok (some name)
        ∧ decompress be name x (resolveCap host.env none params) = .ok s ∧ v = some s := by
  rw [Decompress.row]
  refine Iff.trans (blobRow_eq_ok (by rfl)) (or_congr_right ?_)
  simp only [optIntVal, Outcome.ok_bind, Outcome.bind_eq_ok, Outcome.mapErr_eq_ok,
    requireCodec_eq_ok]
  constructor
  · rintro ⟨x, hblob, name, htext, s, hs, h⟩
    exact ⟨x, name, s, hblob, htext, hs, (Outcome.ok.inj h).symm⟩
  · rintro ⟨x, name, s, hblob, htext, hs, rfl⟩
    exact ⟨x, hblob, name, htext, s, hs, rfl⟩

end Rows

/-! ## The answers -/

section Answers

variable (be : Backends) (host : Host)

/-- `is_valid` answers TRUE at the row. -/
def SaysValid (params : ProcessParams .boolean) (b : RecordBatch) (i : Nat) : Prop :=
  ∃ out, IsValid.process be host params b = .ok out ∧ cellAt out i = some ⟨.boolean, some true⟩

/-- The two-argument `decompress` succeeds on the row. -/
def Decodes (params : ProcessParams .binary) (b : RecordBatch) (i : Nat) : Prop :=
  (Decompress.process be host ⟨false⟩ params (ownBatch b i)).isOk = true

variable {be host} {b : RecordBatch} {i : Nat} {input codec : ArrayRef}

theorem saysValid_iff {params : ProcessParams .boolean} (hi : i < b.numRows)
    (hargs : blobCodecArgs false b = .ok (input, codec, none)) :
    SaysValid be host params b i ↔
      ∃ x name v, blobBytes input i = .ok (some x) ∧ textStr codec i = .ok (some name)
        ∧ decompress be name x defaultMaxOutputBytes = .ok v := by
  rw [← IsValid.row_eq_true]
  constructor
  · rintro ⟨out, hout, hcell⟩
    obtain ⟨-, args, hargs', hrows⟩ := cellAt_processRows (fixedWidth_builds .boolean) hout
    obtain rfl : args = (input, codec, none) := Outcome.ok.inj (hargs'.symm.trans hargs)
    obtain ⟨v, hrow, -, hv⟩ := hrows i hi
    obtain rfl : v = some true := asCell_injective .boolean (hv.symm.trans hcell)
    exact hrow
  · intro hrow
    obtain ⟨x, name, -, hblob, htext, -⟩ := IsValid.row_eq_true.mp hrow
    obtain ⟨hinput, hcodec⟩ := len_of_blobCodecArgs hargs
    have hrows : ∀ j < b.numRows, (IsValid.row be (input, codec, none) j).isOk = true := by
      intro j hj
      obtain ⟨payload, hpayload⟩ := blobBytes_of_some hblob (hinput ▸ hj)
      obtain ⟨text, htext'⟩ := textStr_of_some htext (hcodec ▸ hj)
      cases payload with
      | none => simp only [IsValid.row, hpayload]; rfl
      | some y => cases text <;> simp only [IsValid.row, hpayload, htext'] <;> rfl
    obtain ⟨out, hout⟩ : ∃ out, IsValid.process be host params b = .ok out :=
      processRows_isOk (fixedWidth_builds .boolean) hargs (fitsColumn_fixedWidth _ _ _) hrows
    refine ⟨out, hout, ?_⟩
    obtain ⟨-, args, hargs', hcells⟩ := cellAt_processRows (fixedWidth_builds .boolean) hout
    obtain rfl : args = (input, codec, none) := Outcome.ok.inj (hargs'.symm.trans hargs)
    obtain ⟨v, hv, -, hcell⟩ := hcells i hi
    obtain rfl : v = some true := Outcome.ok.inj (hv.symm.trans hrow)
    exact hcell

theorem decodes_iff {params : ProcessParams .binary} (hi : i < b.numRows)
    (hargs : blobCodecArgs false b = .ok (input, codec, none))
    (hnull : blobBytes input i ≠ .ok none) :
    Decodes be host params b i ↔
      ∃ x name v, blobBytes input i = .ok (some x) ∧ textStr codec i = .ok (some name)
        ∧ decompress be name x (resolveCap host.env none params) = .ok v
        ∧ v.length ≤ i32Max := by
  have hrow : rowOf (blobCodecArgs false) (Decompress.row be host params) b i
      = Decompress.row be host params (input, codec, none) i := by
    rw [rowOf, hargs, Outcome.ok_bind]
  have hcall : Decodes be host params b i ↔ _ :=
    isOk_ownBatch binaryArray_builds (Decompress.rowLocal be host false params) hi
  rw [hrow] at hcall
  refine hcall.trans ?_
  constructor
  · rintro ⟨v, hv, hfit⟩
    rcases Decompress.row_eq_ok.mp hv with ⟨hblob, -⟩ | ⟨x, name, s, hblob, htext, hs, rfl⟩
    · exact absurd hblob hnull
    · exact ⟨x, name, s, hblob, htext, hs, hfit⟩
  · rintro ⟨x, name, s, hblob, htext, hs, hfit⟩
    exact ⟨some s, Decompress.row_eq_ok.mpr (.inr ⟨x, name, s, hblob, htext, hs, rfl⟩), hfit⟩

/-- What one cap lets through, a larger one does. -/
theorem decompress_of_le (hscript : be.lzmaRs.IsScripted) {name : String} {x v : Bytes}
    {c₁ c₂ : UInt64} (hle : c₁ ≤ c₂) (h : decompress be name x c₁ = .ok v) :
    decompress be name x c₂ = .ok v := by
  obtain ⟨c, hc, h⟩ := decompress_eq_ok.mp h
  rw [decompress_of_parse hc]
  rcases c.decompress_mono hscript x hle with htooLarge | heq
  · rw [htooLarge] at h
    cases h
  · rw [heq, h]

theorem length_le_of_decompress (hlz4 : be.lz4Flex.PrefixBounds) (hsnap : be.snap.LenExact)
    {name : String} {x v : Bytes} {cap : UInt64} (h : decompress be name x cap = .ok v) :
    v.length ≤ cap.toNat := by
  obtain ⟨c, -, h⟩ := decompress_eq_ok.mp h
  exact (c.decompress_withinCap hlz4 hsnap x cap).1 v h

/-- **Validity is a decode under the default cap.** Whatever the setting
and the environment variable are, TRUE at a row with a blob means that
`decompress` succeeds on the row under every configuration that resolves
to the default cap or more, and is implied by a success under any that
resolves to the default cap or less. Every decode that it starts accepts
at most the default cap, whatever comes of it; what TRUE rests on is that
long too. -/
theorem validity_is_a_default_decode (hscript : be.lzmaRs.IsScripted)
    (hlz4 : be.lz4Flex.PrefixBounds) (hsnap : be.snap.LenExact) (host host' : Host)
    (params : ProcessParams .boolean) (params' : ProcessParams .binary) (hi : i < b.numRows)
    (hargs : blobCodecArgs false b = .ok (input, codec, none))
    (hnull : blobBytes input i ≠ .ok none) :
    (resolveCap host'.env none params' = defaultMaxOutputBytes →
      (SaysValid be host params b i ↔ Decodes be host' params' b i))
    ∧ (defaultMaxOutputBytes ≤ resolveCap host'.env none params' →
      SaysValid be host params b i → Decodes be host' params' b i)
    ∧ (resolveCap host'.env none params' ≤ defaultMaxOutputBytes →
      Decodes be host' params' b i → SaysValid be host params b i)
    ∧ (SaysValid be host params b i → ∃ x name v, blobBytes input i = .ok (some x)
      ∧ textStr codec i = .ok (some name)
      ∧ decompress be name x defaultMaxOutputBytes = .ok v
      ∧ v.length ≤ defaultMaxOutputBytes.toNat)
    ∧ ∀ x name c, blobBytes input i = .ok (some x) → textStr codec i = .ok (some name) →
      Codec.parse name = .ok c →
      isValid be name x = (c.decompress be x defaultMaxOutputBytes).isOk
      ∧ (c.accepted be x defaultMaxOutputBytes).length ≤ defaultMaxOutputBytes.toNat := by
  have hsays : SaysValid be host params b i ↔ _ := saysValid_iff hi hargs
  have hdecodes : Decodes be host' params' b i ↔ _ := decodes_iff hi hargs hnull
  have hlen {name : String} {x v : Bytes}
      (h : decompress be name x defaultMaxOutputBytes = .ok v) :
      v.length ≤ defaultMaxOutputBytes.toNat := length_le_of_decompress hlz4 hsnap h
  have hforth (hle : defaultMaxOutputBytes ≤ resolveCap host'.env none params')
      (h : SaysValid be host params b i) : Decodes be host' params' b i := by
    obtain ⟨x, name, v, hblob, htext, hv⟩ := hsays.mp h
    have hfit : v.length ≤ i32Max := Nat.le_trans (hlen hv) (by decide)
    exact hdecodes.mpr ⟨x, name, v, hblob, htext, decompress_of_le hscript hle hv, hfit⟩
  have hback (hle : resolveCap host'.env none params' ≤ defaultMaxOutputBytes)
      (h : Decodes be host' params' b i) : SaysValid be host params b i := by
    obtain ⟨x, name, v, hblob, htext, hv, -⟩ := hdecodes.mp h
    exact hsays.mpr ⟨x, name, v, hblob, htext, decompress_of_le hscript hle hv⟩
  refine ⟨?_, hforth, hback, ?_, ?_⟩
  · intro hcap
    exact ⟨hforth (hcap ▸ UInt64.le_refl _), hback (hcap ▸ UInt64.le_refl _)⟩
  · intro h
    obtain ⟨x, name, v, hblob, htext, hv⟩ := hsays.mp h
    exact ⟨x, name, v, hblob, htext, hv, hlen hv⟩
  · intro x name c _ _ hc
    refine ⟨?_, c.length_accepted_le hlz4 hsnap x defaultMaxOutputBytes⟩
    simp only [isValid, hc]

end Answers

/-- The lz4 block of `"aa"`. -/
def Sample.twoBytes : RecordBatch where
  columns := [⟨.binary, [some (lz4Block [0x61, 0x61])]⟩, ⟨.utf8, [some "lz4_block"]⟩]
  numRows := 1
  lengths := by simp [ArrayRef.len]

/-- `validity_is_a_default_decode` on that block, where the setting is 1 for
`is_valid` and there is none for `decompress`. -/
theorem validity_sample :
    SaysValid Sample.build Sample.host ⟨fun _ => some 1, _, rfl⟩ Sample.twoBytes 0
      ↔ Decodes Sample.build Sample.host (Sample.params .binary) Sample.twoBytes 0 := by
  have hargs : blobCodecArgs false Sample.twoBytes = .ok
      (⟨.binary, [some (Sample.lz4Block [0x61, 0x61])]⟩, ⟨.utf8, [some "lz4_block"]⟩, none) := rfl
  have hcap : resolveCap Sample.host.env none (Sample.params .binary) = defaultMaxOutputBytes :=
    rfl
  exact (validity_is_a_default_decode Sample.isScripted Sample.prefixBounds Sample.lenExact
    Sample.host Sample.host ⟨fun _ => some 1, _, rfl⟩ (Sample.params .binary)
    (Nat.lt_succ_self 0) hargs (by decide)).1 hcap

/-- With a setting of 1 the block is valid and does not decode. -/
theorem valid_block_exceeds_the_setting :
    SaysValid Sample.build Sample.host ⟨fun _ => some 1, _, rfl⟩ Sample.twoBytes 0
      ∧ ¬Decodes Sample.build Sample.host ⟨fun _ => some 1, _, rfl⟩ Sample.twoBytes 0 := by
  have hargs : blobCodecArgs false Sample.twoBytes = .ok
      (⟨.binary, [some (Sample.lz4Block [0x61, 0x61])]⟩, ⟨.utf8, [some "lz4_block"]⟩, none) := rfl
  constructor
  · refine (saysValid_iff (Nat.lt_succ_self 0) hargs).mpr ?_
    exact ⟨_, "lz4_block", [0x61, 0x61], rfl, rfl, by decide +kernel⟩
  · unfold Decodes
    decide +kernel

end VgiCompress
