import Mathlib.Algebra.Group.Int.Defs
import VgiCompress.Batches

/-!
# Numbers in argument columns

An integer argument goes through `intVal`, whatever the width and sign of
its column. `intVal_eq` says what becomes of the number: nothing below
`2 ^ 63`, and a wrap to the negatives from there on (`asI64`).

For the cap of a decode this is followed by the chain of `resolveCap`,
the first positive number of four sources (`resolveCap_eq`).
-/

namespace VgiCompress

open RustStd

/-! ## The number in a cell -/

/-- The number an integer cell holds. -/
def Cell.int? : Cell → Option Int
  | ⟨.int64, some v⟩ => some v.toInt
  | ⟨.int32, some v⟩ => some v.toInt
  | ⟨.int16, some v⟩ => some v.toInt
  | ⟨.int8, some v⟩ => some v.toInt
  | ⟨.uint64, some v⟩ => some v.toNat
  | ⟨.uint32, some v⟩ => some v.toNat
  | ⟨.uint16, some v⟩ => some v.toNat
  | ⟨.uint8, some v⟩ => some v.toNat
  | _ => none

/-- `as i64`, on the numbers of any of these columns. -/
def asI64 (z : Int) : Int := if z < 2 ^ 63 then z else z - 2 ^ 64

theorem asI64_of_lt {z : Int} (h : z < 2 ^ 63) : asI64 z = z := if_pos h

theorem toInt_toInt64 (v : UInt64) : v.toInt64.toInt = asI64 v.toNat := by
  have hlt := v.toNat_lt
  show v.toBitVec.toInt = _
  rw [BitVec.toInt_eq_toNat_cond]
  show (if 2 * v.toNat < 2 ^ 64 then (v.toNat : Int) else v.toNat - (2 ^ 64 : Nat)) = _
  unfold asI64
  split <;> split <;> omega

/-- What `intVal` makes of an integer cell: one case for each column type. -/
theorem intVal_eq {col : ArrayRef} {i : Nat} {cell : Cell} {z : Int}
    (hcell : col.cell? i = some cell) (hz : Cell.int? cell = some z) :
    ∃ k : Int64, intVal col i = .ok (some k) ∧ k.toInt = asI64 z := by
  obtain ⟨t, v⟩ := cell
  unfold intVal
  rw [hcell]
  cases v with
  | none => cases t <;> cases hz
  | some v =>
      cases t with
      | int64 =>
          cases hz
          exact ⟨v, rfl, (asI64_of_lt v.toInt_lt).symm⟩
      | int32 =>
          cases hz
          have hlt : v.toInt < 2 ^ 31 := v.toInt_lt
          exact ⟨_, rfl, by rw [Int32.toInt_toInt64, asI64_of_lt (by omega)]⟩
      | int16 =>
          cases hz
          have hlt : v.toInt < 2 ^ 15 := v.toInt_lt
          exact ⟨_, rfl, by rw [Int16.toInt_toInt64, asI64_of_lt (by omega)]⟩
      | int8 =>
          cases hz
          have hlt : v.toInt < 2 ^ 7 := v.toInt_lt
          exact ⟨_, rfl, by rw [Int8.toInt_toInt64, asI64_of_lt (by omega)]⟩
      | uint64 =>
          cases hz
          exact ⟨_, rfl, toInt_toInt64 v⟩
      | uint32 =>
          cases hz
          exact ⟨_, rfl, toInt_toInt64 _⟩
      | uint16 =>
          cases hz
          exact ⟨_, rfl, toInt_toInt64 _⟩
      | uint8 =>
          cases hz
          exact ⟨_, rfl, toInt_toInt64 _⟩
      | _ => cases hz

theorem Cell.int?_lt {cell : Cell} {z : Int} (hz : Cell.int? cell = some z) : z < 2 ^ 64 := by
  obtain ⟨t, v⟩ := cell
  cases v with
  | none => cases t <;> cases hz
  | some v =>
      cases t with
      | int64 | int32 | int16 | int8 =>
          cases hz
          have hlt := v.toInt_lt
          omega
      | uint64 | uint32 | uint16 | uint8 =>
          cases hz
          have hlt := v.toNat_lt
          omega
      | _ => cases hz

/-- A NULL of any column type is no number. -/
theorem intVal_null {col : ArrayRef} {i : Nat} {cell : Cell} (hcell : col.cell? i = some cell)
    (hnull : cell.2 = none) : intVal col i = .ok none := by
  obtain ⟨t, v⟩ := cell
  obtain rfl : v = none := hnull
  unfold intVal
  rw [hcell]

/-- The overload has no such column, or the cell is NULL. -/
def NamesNothing (col : Option ArrayRef) (i : Nat) : Prop :=
  ∀ c, col = some c → ∃ cell, c.cell? i = some cell ∧ cell.2 = none

theorem optIntVal_of_namesNothing {col : Option ArrayRef} {i : Nat} (h : NamesNothing col i) :
    optIntVal col i = .ok none := by
  cases col with
  | none => rfl
  | some c =>
      obtain ⟨cell, hcell, hnull⟩ := h c rfl
      exact intVal_null hcell hnull

/-! ## The cap of a call -/

section Caps

variable {bound : DataType}

/-- The sources behind the argument, in their order: the setting, the
environment variable if it parses, and the built-in default. -/
def capSources (env : String → Option String) (settings : String → Option Int64) : List Int :=
  ((settings "compress_max_output_bytes").map Int64.toInt).toList
    ++ ((env "VGI_COMPRESS_MAX_OUTPUT_BYTES").bind fun s =>
        (parseU64 (trim s.toList)).map fun v => (v.toNat : Int)).toList
    ++ [(defaultMaxOutputBytes.toNat : Int)]

theorem positive_eq (v : Option Int64) :
    (positive v).map (fun c => (c.toNat : Int)) = (v.map Int64.toInt).toList.find? (0 < ·) := by
  cases v with
  | none => rfl
  | some v =>
      have hiff : v > 0 ↔ 0 < v.toInt := Int64.lt_iff_toInt_lt
      by_cases hv : v > 0
      · have hpos := hiff.mp hv
        have hnat : (v.toUInt64.toNat : Int) = v.toInt := by
          rw [Int64.toNat_toUInt64_of_le (Int64.le_of_lt hv)]
          exact Int.toNat_of_nonneg (Int.le_of_lt hpos)
        rw [positive, if_pos hv]
        simp [hpos, hnat]
      · rw [positive, if_neg hv]
        simp [mt hiff.mpr hv]

/-- The cap is the first positive number of the argument and the sources
behind it. -/
theorem resolveCap_eq (env : String → Option String) (perCall : Option Int64)
    (params : ProcessParams bound) :
    some ((resolveCap env perCall params).toNat : Int)
      = ((perCall.map Int64.toInt).toList ++ capSources env params.settings).find? (0 < ·) := by
  have hdefault : some (defaultMaxOutputBytes.toNat : Int)
      = [(defaultMaxOutputBytes.toNat : Int)].find? (0 < ·) := by decide
  rw [List.find?_append, ← positive_eq]
  unfold resolveCap
  cases positive perCall with
  | some v => rfl
  | none =>
      unfold capSources
      rw [List.append_assoc, List.find?_append, ← positive_eq]
      cases positive (params.settings "compress_max_output_bytes") with
      | some v => rfl
      | none =>
          rw [List.find?_append]
          cases env "VGI_COMPRESS_MAX_OUTPUT_BYTES" with
          | none => exact hdefault
          | some s =>
              simp only [Option.bind_some]
              cases parseU64 (trim s.toList) with
              | none => exact hdefault
              | some v =>
                  have hiff : v > 0 ↔ 0 < v.toNat := UInt64.lt_iff_toNat_lt
                  have hpos : 0 < defaultMaxOutputBytes.toNat := by decide
                  by_cases hv : v > 0
                  · simp [hv, hiff.mp hv]
                  · simp [hv, mt hiff.mpr hv, hpos]

/-- At this row the three decoding functions decode a blob under this cap. -/
structure UsesCap (host : Host) (settings : String → Option Int64) (capCol : Option ArrayRef)
    (i : Nat) (cap : UInt64) : Prop where
  decompress : ∀ be (params : ProcessParams .binary) input codec bytes name,
    params.settings = settings → blobBytes input i = .ok (some bytes) →
    requireCodec codec i = .ok name →
    Decompress.row be host params (input, codec, capCol) i =
      ((VgiCompress.decompress be name bytes cap).mapErr codecErr >>= fun v => .ok (some v))
  decompressAuto : ∀ be (params : ProcessParams .binary) input bytes,
    params.settings = settings → blobBytes input i = .ok (some bytes) →
    DecompressAuto.row be host params (input, capCol) i =
      ((VgiCompress.decompressAuto be bytes cap).mapErr codecErr >>= fun v => .ok (some v))
  decompressedSize : ∀ be (params : ProcessParams .uint64) input codec bytes name,
    params.settings = settings → blobBytes input i = .ok (some bytes) →
    requireCodec codec i = .ok name →
    DecompressedSize.row be host params (input, codec, capCol) i =
      (VgiCompress.decompressedSize be name bytes cap).mapErr codecErr

/-- The chain from what was read off the cap column. -/
theorem usesCap_of_sources (host : Host) (settings : String → Option Int64)
    {capCol : Option ArrayRef} {i : Nat} {perCall : Option Int64}
    (hread : optIntVal capCol i = .ok perCall) :
    ∃ cap : UInt64, ((perCall.map Int64.toInt).toList ++ capSources host.env settings).find?
        (0 < ·) = some (cap.toNat : Int) ∧ UsesCap host settings capCol i cap := by
  have hcap {b : DataType} (params : ProcessParams b) (h : params.settings = settings) :
      resolveCap host.env perCall params
        = resolveCap host.env perCall (⟨settings, _, rfl⟩ : ProcessParams .binary) := by
    subst h
    rw [← UInt64.toNat_inj]
    have heq := (resolveCap_eq host.env perCall params).trans
      (resolveCap_eq host.env perCall (⟨params.settings, _, rfl⟩ : ProcessParams .binary)).symm
    exact Int.natCast_inj.mp (Option.some.inj heq)
  refine ⟨_, (resolveCap_eq host.env perCall (⟨settings, _, rfl⟩ : ProcessParams .binary)).symm,
    ?_, ?_, ?_⟩
  · intro be params input codec bytes name hset hblob hcodec
    simp only [Decompress.row, hblob, hcodec, hread, Outcome.ok_bind, hcap params hset,
      Outcome.pure_eq]
  · intro be params input bytes hset hblob
    simp only [DecompressAuto.row, hblob, hread, Outcome.ok_bind, hcap params hset,
      Outcome.pure_eq]
  · intro be params input codec bytes name hset hblob hcodec
    simp only [DecompressedSize.row, hblob, hcodec, hread, Outcome.ok_bind, hcap params hset]

/-- The call names no cap for the row, or zero. -/
def NamesNoCap (capCol : Option ArrayRef) (i : Nat) : Prop :=
  NamesNothing capCol i
    ∨ ∃ col cell, capCol = some col ∧ col.cell? i = some cell ∧ Cell.int? cell = some 0

theorem optIntVal_of_namesNoCap {capCol : Option ArrayRef} {i : Nat}
    (h : NamesNoCap capCol i) :
    ∃ perCall, optIntVal capCol i = .ok perCall ∧ ∀ k, perCall = some k → k.toInt = 0 := by
  rcases h with hnone | ⟨col, cell, rfl, hcell, hzero⟩
  · exact ⟨none, optIntVal_of_namesNothing hnone, nofun⟩
  · obtain ⟨k, hk, hint⟩ := intVal_eq hcell hzero
    refine ⟨some k, hk, ?_⟩
    intro k' hk'
    obtain rfl := Option.some.inj hk'
    exact hint

theorem usesCap_of_pos (host : Host) (settings : String → Option Int64) {col : ArrayRef}
    {i : Nat} {cell : Cell} {z : Int} (hcell : col.cell? i = some cell)
    (hz : Cell.int? cell = some z) (hpos : 0 < z) (hlt : z < 2 ^ 63) :
    ∃ cap : UInt64, (cap.toNat : Int) = z ∧ UsesCap host settings (some col) i cap := by
  obtain ⟨k, hk, hint⟩ := intVal_eq hcell hz
  have hread : optIntVal (some col) i = .ok (some k) := hk
  obtain ⟨cap, hcap, huses⟩ := usesCap_of_sources host settings hread
  rw [asI64_of_lt hlt] at hint
  refine ⟨cap, ?_, huses⟩
  simpa [hint, hpos, eq_comm] using hcap

/-- **A positive `max_output_bytes` is the cap**, and the caps are in the
order of the cells. A row that names none, or zero, gets the first positive
number of the sources behind the argument. -/
theorem positive_cap_is_the_cap (host : Host) (settings : String → Option Int64) :
    (∀ col i cell z, col.cell? i = some cell → Cell.int? cell = some z → 0 < z → z < 2 ^ 63 →
      ∃ cap : UInt64, (cap.toNat : Int) = z ∧ UsesCap host settings (some col) i cap)
    ∧ (∀ col col' i j cell cell' a b, col.cell? i = some cell → col'.cell? j = some cell' →
      Cell.int? cell = some a → Cell.int? cell' = some b → 0 < a → a ≤ b → b < 2 ^ 63 →
      ∃ cap cap' : UInt64, cap ≤ cap' ∧ UsesCap host settings (some col) i cap
        ∧ UsesCap host settings (some col') j cap')
    ∧ ∀ capCol i, NamesNoCap capCol i →
      ∃ cap : UInt64, (capSources host.env settings).find? (0 < ·) = some (cap.toNat : Int)
        ∧ UsesCap host settings capCol i cap := by
  refine ⟨?_, ?_, ?_⟩
  · intro col i cell z hcell hz hpos hlt
    exact usesCap_of_pos host settings hcell hz hpos hlt
  · intro col col' i j cell cell' a b hcell hcell' ha hb hpos hab hlt
    obtain ⟨cap, hcap, huses⟩ := usesCap_of_pos host settings hcell ha hpos (by omega)
    obtain ⟨cap', hcap', huses'⟩ := usesCap_of_pos host settings hcell' hb (by omega) hlt
    exact ⟨cap, cap', UInt64.le_iff_toNat_le.mpr (by omega), huses, huses'⟩
  · intro capCol i hnone
    obtain ⟨perCall, hread, hzero⟩ := optIntVal_of_namesNoCap hnone
    obtain ⟨cap, hcap, huses⟩ := usesCap_of_sources host settings hread
    refine ⟨cap, ?_, huses⟩
    cases perCall with
    | none => simpa using hcap
    | some k => simpa [hzero k rfl] using hcap

end Caps

/-- `positive_cap_is_the_cap` on a cell of 5, on 5 below 7, and on a NULL. -/
theorem positive_cap_sample :
    (∃ cap : UInt64, (cap.toNat : Int) = 5
      ∧ UsesCap Sample.host (fun _ => none) (some ⟨.int32, [some 5]⟩) 0 cap)
    ∧ (∃ cap cap' : UInt64, cap ≤ cap'
      ∧ UsesCap Sample.host (fun _ => none) (some ⟨.int32, [some 5]⟩) 0 cap
      ∧ UsesCap Sample.host (fun _ => none) (some ⟨.uint64, [some 7]⟩) 0 cap')
    ∧ ∃ cap : UInt64, (capSources Sample.host.env fun _ => none).find? (0 < ·)
        = some (cap.toNat : Int)
      ∧ UsesCap Sample.host (fun _ => none) (some ⟨.int32, [none]⟩) 0 cap := by
  obtain ⟨hpos, hmono, hnone⟩ := positive_cap_is_the_cap Sample.host fun _ => none
  have hfive : (⟨.int32, [some 5]⟩ : ArrayRef).cell? 0 = some ⟨.int32, some 5⟩ := rfl
  have hseven : (⟨.uint64, [some 7]⟩ : ArrayRef).cell? 0 = some ⟨.uint64, some 7⟩ := rfl
  refine ⟨hpos _ 0 _ 5 hfive rfl (by decide) (by decide),
    hmono _ _ 0 0 _ _ 5 7 hfive hseven rfl rfl (by decide) (by decide) (by decide),
    hnone (some ⟨.int32, [none]⟩) 0 (.inl ?_)⟩
  rintro _ ⟨⟩
  exact ⟨⟨.int32, none⟩, rfl, rfl⟩

/-- With a setting of 5, a cap of 0 does not refuse one byte, and a cap of
`2 ^ 63` refuses six. -/
theorem zero_and_huge_caps_fall_through :
    (¬∃ cap : UInt64, (cap.toNat : Int) = 0
      ∧ UsesCap Sample.host (fun _ => some 5) (some ⟨.int64, [some 0]⟩) 0 cap)
    ∧ ¬∃ cap : UInt64, (cap.toNat : Int) = 2 ^ 63
      ∧ UsesCap Sample.host (fun _ => some 5) (some ⟨.uint64, [some 0x8000000000000000]⟩) 0
        cap := by
  constructor
  · rintro ⟨cap, hcap, h⟩
    obtain rfl : cap = 0 := UInt64.toNat_inj.mp (Int.natCast_inj.mp hcap)
    have hrow := h.decompress Sample.build ⟨fun _ => some 5, _, rfl⟩
      ⟨.binary, [some (Sample.lz4Block [0x61])]⟩ ⟨.utf8, [some "lz4_block"]⟩
      (Sample.lz4Block [0x61]) "lz4_block" rfl rfl rfl
    exact absurd hrow (by decide +kernel)
  · rintro ⟨cap, hcap, h⟩
    have hhuge : ((0x8000000000000000 : UInt64).toNat : Int) = 2 ^ 63 := rfl
    obtain rfl : cap = 0x8000000000000000 :=
      UInt64.toNat_inj.mp (Int.natCast_inj.mp (hcap.trans hhuge.symm))
    have hrow := h.decompress Sample.build ⟨fun _ => some 5, _, rfl⟩
      ⟨.binary, [some (Sample.lz4Block (List.replicate 6 0x61))]⟩ ⟨.utf8, [some "lz4_block"]⟩
      (Sample.lz4Block (List.replicate 6 0x61)) "lz4_block" rfl rfl rfl
    exact absurd hrow (by decide +kernel)

end VgiCompress
