import VgiCompress.Registry

/-!
# The rows that are NULL

A NULL payload answers NULL before any other cell of its row is read. The
other NULLs are few, and `null_iff` has them all: the ratio of an empty
payload, the size of a stream that decodes past its cap, and the validity
for a codec that is not named.
-/

namespace VgiCompress

open RustStd

/-! ## Sizes that are NULL -/

section Size

variable {be : Backends}

theorem countUnderGuard_eq_none {c : Codec} {x : Bytes} {cap : UInt64} :
    countUnderGuard be c x cap = .ok none ↔ IsTooLarge (c.decompress be x cap) := by
  rw [countUnderGuard, IsTooLarge]
  rcases c.decompress be x cap with v | (_ | cap' | _ | _) | _ <;> simp

/-- The bytes decode past the cap, and no trailer gives a size within it. -/
def DecodesPast (be : Backends) (name : String) (x : Bytes) (cap : UInt64) : Prop :=
  ∃ c, Codec.parse name = .ok c ∧ IsTooLarge (c.decompress be x cap)
    ∧ (c = .gzip → ∀ n, Flate.gzipIsize x = some n → cap < n)

theorem decompressedSize_eq_none {name : String} {x : Bytes} {cap : UInt64} :
    decompressedSize be name x cap = .ok none ↔ DecodesPast be name x cap := by
  rw [decompressedSize, Outcome.bind_eq_ok, DecodesPast]
  refine exists_congr fun c => and_congr_right fun _ => ?_
  by_cases hgzip : c = .gzip
  · rw [if_pos hgzip]
    cases hn : Flate.gzipIsize x with
    | none => simp [countUnderGuard_eq_none]
    | some n =>
        by_cases hle : n ≤ cap
        · have hlt : ¬cap < n := UInt64.not_lt.mpr hle
          simp [hle, hlt, hgzip]
        · have hlt : cap < n := UInt64.not_le.mp hle
          simp [hle, hlt, countUnderGuard_eq_none]
  · rw [if_neg hgzip, countUnderGuard_eq_none]
    simp [hgzip]

end Size

/-! ## Rows that are NULL -/

section Rows

variable {be : Backends} {host : Host} {input codec : ArrayRef} {extra : Option ArrayRef} {i : Nat}

theorem some_bind_ne_null {ε α : Type} {res : Outcome ε α} :
    (res >>= fun v => (pure (some v) : Outcome ε (Option α))) ≠ .ok none := by
  cases res <;> exact nofun

/-- A row that is NULL only on NULL. -/
theorem blobRow_eq_null {ω : Type} {rest : Option Bytes → Outcome RpcError (Option ω)}
    (hnull : rest none = .ok none) (hsome : ∀ x, rest (some x) ≠ .ok none) :
    (blobBytes input i >>= rest) = .ok none ↔ blobBytes input i = .ok none := by
  rw [blobRow_eq_ok hnull]
  constructor
  · rintro (⟨hblob, -⟩ | ⟨x, -, hx⟩)
    · exact hblob
    · exact absurd hx (hsome x)
  · intro hblob
    exact .inl ⟨hblob, rfl⟩

/-- What the codec and the last argument are read for. -/
theorem codec_bind_ne_null {ω : Type} {rest : String → Option Int64 → Outcome RpcError (Option ω)}
    (hrest : ∀ name k, rest name k ≠ .ok none) :
    (requireCodec codec i >>= fun name => optIntVal extra i >>= rest name) ≠ .ok none := by
  intro h
  obtain ⟨name, -, h⟩ := Outcome.bind_eq_ok.mp h
  obtain ⟨k, -, h⟩ := Outcome.bind_eq_ok.mp h
  exact hrest name k h

theorem Compress.row_eq_null :
    Compress.row be (input, codec, extra) i = .ok none ↔ blobBytes input i = .ok none := by
  rw [Compress.row]
  refine blobRow_eq_null rfl fun x => ?_
  dsimp only
  exact codec_bind_ne_null fun _ _ => some_bind_ne_null

theorem Decompress.row_eq_null {params : ProcessParams .binary} :
    Decompress.row be host params (input, codec, extra) i = .ok none ↔
      blobBytes input i = .ok none := by
  rw [Decompress.row]
  refine blobRow_eq_null rfl fun x => ?_
  dsimp only
  exact codec_bind_ne_null fun _ _ => some_bind_ne_null

theorem DecompressAuto.row_eq_null {params : ProcessParams .binary} :
    DecompressAuto.row be host params (input, extra) i = .ok none ↔
      blobBytes input i = .ok none := by
  rw [DecompressAuto.row]
  refine blobRow_eq_null rfl fun x h => ?_
  obtain ⟨k, -, h⟩ := Outcome.bind_eq_ok.mp h
  exact some_bind_ne_null h

theorem DetectCodec.row_eq_null :
    DetectCodec.row be input i = .ok none ↔ blobBytes input i = .ok none := by
  rw [DetectCodec.row]
  exact blobRow_eq_null rfl fun _ => nofun

theorem CompressedSize.row_eq_null :
    CompressedSize.row be (input, codec, extra) i = .ok none ↔ blobBytes input i = .ok none := by
  rw [CompressedSize.row]
  refine blobRow_eq_null rfl fun x => ?_
  dsimp only
  exact codec_bind_ne_null fun _ _ => some_bind_ne_null

/-- Sizes are NULL on NULL and past the cap. -/
theorem DecompressedSize.row_eq_null {params : ProcessParams .uint64} :
    DecompressedSize.row be host params (input, codec, extra) i = .ok none ↔
      blobBytes input i = .ok none
      ∨ ∃ x name k, blobBytes input i = .ok (some x) ∧ requireCodec codec i = .ok name
        ∧ optIntVal extra i = .ok k ∧ DecodesPast be name x (resolveCap host.env k params) := by
  rw [DecompressedSize.row]
  refine (blobRow_eq_ok (by rfl)).trans ?_
  rw [and_iff_left rfl]
  refine or_congr_right (exists_congr fun x => ?_)
  simp only [Outcome.bind_eq_ok, Outcome.mapErr_eq_ok, decompressedSize_eq_none]
  constructor
  · rintro ⟨hblob, name, hcodec, k, hk, hpast⟩
    exact ⟨name, k, hblob, hcodec, hk, hpast⟩
  · rintro ⟨name, k, hblob, hcodec, hk, hpast⟩
    exact ⟨hblob, name, hcodec, k, hk, hpast⟩

/-- Ratios are NULL on NULL and on nothing, of the rows that have one. -/
theorem Ratio.row_eq_null {v : Option Float} (h : Ratio.row be (input, codec, extra) i = .ok v) :
    v = none ↔ blobBytes input i = .ok none ∨ blobBytes input i = .ok (some []) := by
  obtain ⟨payload, hblob, -⟩ := Outcome.bind_eq_ok.mp h
  rw [hblob]
  by_cases hempty : payload = some []
  · subst hempty
    rw [Ratio.row_empty be hblob] at h
    obtain ⟨_, -, h⟩ := Outcome.bind_eq_ok.mp h
    obtain ⟨_, -, h⟩ := Outcome.bind_eq_ok.mp h
    exact iff_of_true (Outcome.ok.inj h).symm (.inr rfl)
  · rw [Ratio.row_of_ne be hblob hempty] at h
    obtain ⟨s, hs, rfl⟩ := Outcome.map_eq_ok.mp h
    have hcompress : s = none ↔ blobBytes input i = .ok none := by
      rw [← Compress.row_eq_null, hs]
      simp
    rw [Option.map_eq_none_iff, hcompress, hblob]
    simp [hempty]

/-- Validity is NULL on NULL and for no codec. -/
theorem IsValid.row_eq_null {v : Option Bool}
    (h : IsValid.row be (input, codec, extra) i = .ok v) :
    v = none ↔ blobBytes input i = .ok none ∨ textStr codec i = .ok none := by
  rw [IsValid.row] at h
  rcases (blobRow_eq_ok (by rfl)).mp h with ⟨hblob, rfl⟩ | ⟨x, hblob, h⟩
  · exact iff_of_true rfl (.inl hblob)
  · obtain ⟨text, htext, h⟩ := Outcome.bind_eq_ok.mp h
    rw [hblob, htext]
    cases text with
    | none => exact iff_of_true (Outcome.ok.inj h).symm (.inr rfl)
    | some name =>
        obtain rfl := Outcome.ok.inj h
        simp

end Rows

/-! ## The NULLs of an answer -/

/-- The row's payload is NULL. -/
def PayloadNull (b : RecordBatch) (i : Nat) : Prop :=
  ∃ input, b.column 0 = .ok input ∧ blobBytes input i = .ok none

/-- The rows for which a function has no value to give. -/
def ScalarFunction.NullAt (be : Backends) (host : Host) : (f : ScalarFunction) →
    ProcessParams f.onBind → RecordBatch → Nat → Prop
  | .decompressedSize self, params, b, i =>
      PayloadNull b i ∨ ∃ input codec extra x name k,
        blobCodecArgs self.withCap b = .ok (input, codec, extra)
        ∧ blobBytes input i = .ok (some x) ∧ requireCodec codec i = .ok name
        ∧ optIntVal extra i = .ok k ∧ DecodesPast be name x (resolveCap host.env k params)
  | .ratio _, _, b, i =>
      PayloadNull b i ∨ ∃ input, b.column 0 = .ok input ∧ blobBytes input i = .ok (some [])
  | .isValid, _, b, i =>
      PayloadNull b i ∨ ∃ codec, b.column 1 = .ok codec ∧ textStr codec i = .ok none
  | .compress _, _, b, i | .decompress _, _, b, i | .decompressAuto _, _, b, i
  | .detectCodec, _, b, i | .compressedSize _, _, b, i => PayloadNull b i

section Answers

variable {be : Backends} {host : Host} {b out : RecordBatch} {i : Nat}

theorem payloadNull_iff {input : ArrayRef} (h : b.column 0 = .ok input) :
    PayloadNull b i ↔ blobBytes input i = .ok none := by
  constructor
  · rintro ⟨input', h', hblob⟩
    obtain rfl := Outcome.ok.inj (h'.symm.trans h)
    exact hblob
  · intro hblob
    exact ⟨input, h, hblob⟩

/-- A row's value is NULL at the rows of `NullAt`. -/
theorem ScalarFunction.rowAt_null_iff (f : ScalarFunction) (params : ProcessParams f.onBind)
    {v : Option f.onBind.Val} (h : f.rowAt be host params b i = .ok v) :
    v = none ↔ f.NullAt be host params b i := by
  obtain ⟨args, hargs, hrow⟩ := Outcome.bind_eq_ok.mp h
  have hnull {rest : Prop} (hiff : (f.parts be host params).row args i = .ok none ↔ rest) :
      v = none ↔ rest := by
    rw [← hiff, hrow]
    exact Outcome.ok.injEq v none ▸ Iff.rfl
  cases f with
  | compress self =>
      obtain ⟨input, codec, extra⟩ := args
      rw [NullAt, payloadNull_iff (blobCodecArgs_eq_ok hargs).1]
      exact hnull Compress.row_eq_null
  | decompress self =>
      obtain ⟨input, codec, extra⟩ := args
      rw [NullAt, payloadNull_iff (blobCodecArgs_eq_ok hargs).1]
      exact hnull Decompress.row_eq_null
  | decompressAuto self =>
      obtain ⟨input, extra⟩ := args
      rw [NullAt, payloadNull_iff (blobArgs_eq_ok hargs).1]
      exact hnull DecompressAuto.row_eq_null
  | detectCodec =>
      rw [NullAt, payloadNull_iff hargs]
      exact hnull DetectCodec.row_eq_null
  | compressedSize self =>
      obtain ⟨input, codec, extra⟩ := args
      rw [NullAt, payloadNull_iff (blobCodecArgs_eq_ok hargs).1]
      exact hnull CompressedSize.row_eq_null
  | decompressedSize self =>
      obtain ⟨input, codec, extra⟩ := args
      have hargs : blobCodecArgs self.withCap b = .ok (input, codec, extra) := hargs
      rw [NullAt, payloadNull_iff (blobCodecArgs_eq_ok hargs).1]
      refine (hnull DecompressedSize.row_eq_null).trans (or_congr_right ?_)
      constructor
      · rintro ⟨x, name, k, hx⟩
        exact ⟨input, codec, extra, x, name, k, hargs, hx⟩
      · rintro ⟨_, _, _, x, name, k, hargs', hx⟩
        cases hargs'.symm.trans hargs
        exact ⟨x, name, k, hx⟩
  | ratio self =>
      obtain ⟨input, codec, extra⟩ := args
      have hinput := (blobCodecArgs_eq_ok hargs).1
      rw [NullAt, payloadNull_iff hinput]
      refine (Ratio.row_eq_null hrow).trans (or_congr_right ?_)
      constructor
      · intro hempty
        exact ⟨input, hinput, hempty⟩
      · rintro ⟨_, hinput', hempty⟩
        cases hinput'.symm.trans hinput
        exact hempty
  | isValid =>
      obtain ⟨input, codec, extra⟩ := args
      obtain ⟨hinput, hcodec, -⟩ := blobCodecArgs_eq_ok hargs
      rw [NullAt, payloadNull_iff hinput]
      have hrow : IsValid.row be (input, codec, extra) i = .ok v := hrow
      refine (IsValid.row_eq_null hrow).trans (or_congr_right ?_)
      constructor
      · intro hnone
        exact ⟨codec, hcodec, hnone⟩
      · rintro ⟨_, hcodec', hnone⟩
        cases hcodec'.symm.trans hcodec
        exact hnone

/-- **A function is NULL on a NULL payload**, whatever else the row holds,
and otherwise only where it has no value to give. -/
theorem null_iff (f : ScalarFunction) (params : ProcessParams f.onBind)
    (h : f.process be host params b = .ok out) (hi : i < b.numRows) :
    cellAt out i = some ⟨f.onBind, none⟩ ↔ f.NullAt be host params b i := by
  rw [f.process_eq] at h
  obtain ⟨-, args, hargs, hrows⟩ := cellAt_processRows (f.parts be host params).builds h
  obtain ⟨v, hrow, -, hcell⟩ := hrows i hi
  have hat : f.rowAt be host params b i = .ok v := by
    rw [ScalarFunction.rowAt, rowOf, hargs]
    exact hrow
  rw [hcell, ← f.rowAt_null_iff params hat]
  constructor
  · intro heq
    exact eq_of_heq (Sigma.mk.inj (Option.some.inj heq)).2
  · rintro rfl
    rfl

/-- `null_iff` on a NULL below the gzip stream of `"a"`. -/
theorem null_iff_sample :
    (ScalarFunction.decompress ⟨false⟩).NullAt Sample.build Sample.host (Sample.params .binary)
      Sample.gzipRows 1 := by
  obtain ⟨out, hout, hcell⟩ : ∃ out, (ScalarFunction.decompress ⟨false⟩).process Sample.build
      Sample.host (Sample.params .binary) Sample.gzipRows = .ok out
      ∧ cellAt out 1 = some ⟨.binary, none⟩ := ⟨_, rfl, rfl⟩
  exact (null_iff _ _ hout (Nat.lt_succ_self 1)).mp hcell

end Answers

end VgiCompress
