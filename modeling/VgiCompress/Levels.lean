import VgiCompress.Arguments
import VgiCompress.Encoders

/-!
# The level a backend is handed

A level cell passes four conversions: its column's width to `i64`, to
`i32`, into the codec's range, and to what the backend takes. The last
three saturate (`resolveLevel_levelI32`) or change nothing
(`compress_eq_encodeAt`), so the level that arrives is the cell's number
brought into the range, unless the first one has already lost its sign.
-/

namespace VgiCompress

open RustStd

/-! ## From the cell to the range -/

theorem toInt_levelI32 (k : Int64) :
    ∃ v : Int32, levelI32 (some k) = some v
      ∧ v.toInt = max (-2 ^ 31) (min (2 ^ 31 - 1) k.toInt) := by
  have hclamp : (clamp k (-2 ^ 31) (2 ^ 31 - 1)).toInt = max (-2 ^ 31) (min (2 ^ 31 - 1) k.toInt) :=
    map_clamp (f := Int64.toInt) (fun _ _ => Int64.lt_iff_toInt_lt) (by decide) k
  refine ⟨_, rfl, ?_⟩
  rw [Int64.toInt_toInt32, hclamp, Int.bmod_eq_of_le]
  · omega
  · omega

theorem resolveLevel_some {c : Codec} {lo hi : Int32} (hc : c.levelRange = some (lo, hi))
    (v : Int32) : (c.resolveLevel (some v)).1 = clamp v lo hi := by
  rw [Codec.resolveLevel, hc, clamp]
  simp only
  split
  · rfl
  · split <;> rfl

/-- A level is brought into the codec's range, from any distance. -/
theorem resolveLevel_levelI32 {c : Codec} {lo hi : Int32} (hc : c.levelRange = some (lo, hi))
    (k : Int64) :
    (c.resolveLevel (levelI32 (some k))).1.toInt = max lo.toInt (min hi.toInt k.toInt) := by
  obtain ⟨v, hv, hint⟩ := toInt_levelI32 k
  have hlohi : lo ≤ hi := by
    obtain ⟨h₁, h₂⟩ := Codec.resolveLevel_mem hc none
    exact Int32.le_trans h₁ h₂
  have hlo := lo.le_toInt
  have hhi : hi.toInt < 2 ^ 31 := hi.toInt_lt
  rw [hv, resolveLevel_some hc, map_clamp (f := Int32.toInt) (fun _ _ => Int32.lt_iff_toInt_lt)
    (Int32.le_iff_toInt_le.mp hlohi), hint]
  rw [Int32.le_iff_toInt_le] at hlohi
  omega

/-! ## From the range to the backend -/

/-- The codecs of which some build's encoder takes a level. -/
def Codec.passesLevel : Codec → Bool
  | .lz4 | .lz4Block | .lzma | .snappy | .snappyRaw => false
  | _ => true

/-- At this row the three compressing functions hand the encoder of `c`
the level `n`, where they call it. -/
structure DeliversLevel (c : Codec) (levelCol : Option ArrayRef) (i : Nat) (n : Int) :
    Prop where
  compress : ∀ be input codec bytes name, blobBytes input i = .ok (some bytes) →
    requireCodec codec i = .ok name → Codec.parse name = .ok c →
    Compress.row be (input, codec, levelCol) i =
      ((c.encodeAt be n bytes).mapErr codecErr >>= fun s => .ok (some s))
  compressedSize : ∀ be input codec bytes name, blobBytes input i = .ok (some bytes) →
    requireCodec codec i = .ok name → Codec.parse name = .ok c →
    CompressedSize.row be (input, codec, levelCol) i =
      ((c.encodeAt be n bytes).mapErr codecErr >>= fun s => .ok (some (.ofNat s.length)))
  ratio : ∀ be input codec bytes name, blobBytes input i = .ok (some bytes) → bytes ≠ [] →
    requireCodec codec i = .ok name → Codec.parse name = .ok c →
    Ratio.row be (input, codec, levelCol) i =
      ((c.encodeAt be n bytes).mapErr codecErr >>= fun s =>
        .ok (some (UInt64.toFloat (.ofNat s.length) / UInt64.toFloat (.ofNat bytes.length))))

/-- What the level column reads as is resolved, and that arrives. -/
theorem delivers_resolved {c : Codec} {levelCol : Option ArrayRef} {i : Nat}
    {level : Option Int64} (hread : optIntVal levelCol i = .ok level) :
    DeliversLevel c levelCol i (c.resolveLevel (levelI32 level)).1.toInt := by
  have hcompress (be : Backends) (bytes : Bytes) (name : String)
      (hparse : Codec.parse name = .ok c) :
      VgiCompress.compress be name bytes (levelI32 level)
        = c.encodeAt be (c.resolveLevel (levelI32 level)).1.toInt bytes := by
    rw [compress_of_parse hparse, Codec.compress_eq_encodeAt]
  constructor
  · intro be input codec bytes name hblob hcodec hparse
    simp only [Compress.row, hblob, hcodec, hread, Outcome.ok_bind, hcompress be bytes name hparse]
    rfl
  · intro be input codec bytes name hblob hcodec hparse
    simp only [CompressedSize.row, hblob, hcodec, hread, Outcome.ok_bind,
      VgiCompress.compressedSize, hcompress be bytes name hparse]
    cases c.encodeAt be (c.resolveLevel (levelI32 level)).1.toInt bytes <;> rfl
  · intro be input codec bytes name hblob hne hcodec hparse
    have hempty : bytes.isEmpty = false := by simpa using hne
    simp only [Ratio.row, hblob, hcodec, hread, Outcome.ok_bind, VgiCompress.ratio, hempty,
      Bool.false_eq_true, if_false, VgiCompress.compressedSize, hcompress be bytes name hparse]
    cases c.encodeAt be (c.resolveLevel (levelI32 level)).1.toInt bytes <;> rfl

/-! ## A build that shows the level -/

namespace Sample

/-- An encoder that emits its level, moved up so that none is negative. -/
def levelEncoder (u : UInt32) : Encoder where
  writeAll _ := .ok ()
  finish _ := .ok [.ofNat (u.toNat + 22)]

/-- A build whose encoders emit the level they are handed. -/
def levelBuild : Backends :=
  { build with
    zstd := { build.zstd with encodeAll := fun _ lvl => .ok [.ofNat (lvl.toInt + 22).toNat] }
    flate2 :=
      { build.flate2 with
        gzEncoder := levelEncoder
        zlibEncoder := levelEncoder
        deflateEncoder := levelEncoder }
    brotli := { build.brotli with compressorWriter := fun _ quality _ => levelEncoder quality }
    liblzma := { build.liblzma with xzEncoder := fun _ preset => .ok [.ofNat (preset.toNat + 22)] }
    bzip2 := { build.bzip2 with bzEncoder := levelEncoder }
    xzBackend := .liblzma }

theorem encodeAt_levelBuild {c : Codec} {lo hi : Int32} (hc : c.levelRange = some (lo, hi))
    (hpass : c.passesLevel = true) {n : Int} (hlo : lo.toInt ≤ n) (hhi : n ≤ hi.toInt)
    (x : Bytes) : c.encodeAt levelBuild n x = .ok [.ofNat (n + 22).toNat] := by
  have hcast (hlo : 0 ≤ n) (hhi : n ≤ 22) : (UInt32.ofNat n.toNat).toNat + 22 = (n + 22).toNat := by
    rw [UInt32.toNat_ofNat']
    omega
  cases c with
  | zstd =>
      cases hc
      have hlo : -22 ≤ n := hlo
      have hhi : n ≤ 22 := hhi
      show Outcome.ok [UInt8.ofNat ((Int32.ofInt n).toInt + 22).toNat] = _
      rw [Int32.toInt_ofInt_of_le]
      · omega
      · omega
  | gzip | zlib | deflate | xz =>
      cases hc
      have hlo : 0 ≤ n := hlo
      have hhi : n ≤ 9 := hhi
      show Outcome.ok [UInt8.ofNat ((UInt32.ofNat n.toNat).toNat + 22)] = _
      rw [hcast hlo (by omega)]
  | brotli =>
      cases hc
      have hlo : 0 ≤ n := hlo
      have hhi : n ≤ 11 := hhi
      show Outcome.ok [UInt8.ofNat ((UInt32.ofNat n.toNat).toNat + 22)] = _
      rw [hcast hlo (by omega)]
  | bzip2 =>
      cases hc
      have hlo : 1 ≤ n := hlo
      have hhi : n ≤ 9 := hhi
      show Outcome.ok [UInt8.ofNat ((UInt32.ofNat n.toNat).toNat + 22)] = _
      rw [hcast (by omega) (by omega)]
  | lz4 | lz4Block | lzma | snappy | snappyRaw => cases hpass

end Sample

/-! ## Saturation -/

/-- A level delivered where the backend takes one cannot be delivered as
another. -/
theorem DeliversLevel.unique {c : Codec} {lo hi : Int32} (hc : c.levelRange = some (lo, hi))
    (hpass : c.passesLevel = true) {levelCol : Option ArrayRef} {i : Nat} {n n' : Int}
    (h : DeliversLevel c levelCol i n) (h' : DeliversLevel c levelCol i n')
    (hn : lo.toInt ≤ n ∧ n ≤ hi.toInt) (hn' : lo.toInt ≤ n' ∧ n' ≤ hi.toInt) : n = n' := by
  have hblob := Sample.blobBytes_replicate [] (Nat.lt_succ_self i)
  have hcodec := Sample.requireCodec_replicate c.name (Nat.lt_succ_self i)
  have hrow := (h.compress Sample.levelBuild _ _ _ _ hblob hcodec c.parse_name).symm.trans
    (h'.compress Sample.levelBuild _ _ _ _ hblob hcodec c.parse_name)
  rw [Sample.encodeAt_levelBuild hc hpass hn.1 hn.2,
    Sample.encodeAt_levelBuild hc hpass hn'.1 hn'.2] at hrow
  have hbyte : UInt8.ofNat (n + 22).toNat = UInt8.ofNat (n' + 22).toNat := by
    simpa using hrow
  have hrange : -22 ≤ lo.toInt ∧ hi.toInt ≤ 22 := by
    cases c <;> cases hc <;> decide
  rw [← UInt8.toNat_inj, UInt8.toNat_ofNat', UInt8.toNat_ofNat'] at hbyte
  omega

theorem delivers_asI64 {c : Codec} {lo hi : Int32} (hc : c.levelRange = some (lo, hi))
    {col : ArrayRef} {i : Nat} {cell : Cell} {z : Int} (hcell : col.cell? i = some cell)
    (hz : Cell.int? cell = some z) :
    DeliversLevel c (some col) i (max lo.toInt (min hi.toInt (asI64 z))) := by
  obtain ⟨k, hk, hint⟩ := intVal_eq hcell hz
  have hread : optIntVal (some col) i = .ok (some k) := hk
  have h := delivers_resolved (c := c) hread
  rwa [resolveLevel_levelI32 hc, hint] at h

/-- **Levels saturate** up to `2 ^ 63`, where a `UBIGINT` cell turns
negative; a row that names no level gets the default, which is in the
range; what arrives is in the range and in the order of the cells; and no
range but that of zstd goes below zero. -/
theorem level_saturates_iff {c : Codec} {lo hi : Int32} (hc : c.levelRange = some (lo, hi)) :
    (∀ col i cell z, col.cell? i = some cell → Cell.int? cell = some z →
      (DeliversLevel c (some col) i (max lo.toInt (min hi.toInt z))
        ↔ z < 2 ^ 63 ∨ c.passesLevel = false))
    ∧ (∀ levelCol i, NamesNothing levelCol i → ∃ d, c.defaultLevel = some d ∧ lo ≤ d ∧ d ≤ hi
        ∧ DeliversLevel c levelCol i d.toInt)
    ∧ (∀ col col' i j cell cell' a b, col.cell? i = some cell → col'.cell? j = some cell' →
      Cell.int? cell = some a → Cell.int? cell' = some b → a ≤ b → b < 2 ^ 63 →
      ∃ n n', lo.toInt ≤ n ∧ n ≤ n' ∧ n' ≤ hi.toInt
        ∧ DeliversLevel c (some col) i n ∧ DeliversLevel c (some col') j n')
    ∧ (c ≠ .zstd → 0 ≤ lo.toInt) := by
  have hlohi : lo.toInt < hi.toInt := by
    cases c <;> cases hc <;> decide
  have hhi : 0 < hi.toInt ∧ hi.toInt < 2 ^ 63 := by
    cases c <;> cases hc <;> decide
  refine ⟨?_, ?_, ?_, ?_⟩
  · intro col i cell z hcell hz
    have hat := delivers_asI64 hc hcell hz
    constructor
    · intro h
      by_contra hnot
      obtain ⟨hge, hpass⟩ := not_or.mp hnot
      have hpass : c.passesLevel = true := by simpa using hpass
      have heq := h.unique hc hpass hat (by omega) (by omega)
      -- the wrapped number is negative, and every range has levels above it
      have hlt := Cell.int?_lt hz
      rw [asI64, if_neg hge] at heq
      omega
    · rintro (hlt | hpass)
      · rwa [asI64_of_lt hlt] at hat
      · have hsame (n n' : Int) (be : Backends) (x : Bytes) :
            c.encodeAt be n x = c.encodeAt be n' x := by
          cases c <;> first | rfl | cases hpass
        constructor
        · intro be input codec bytes name hblob hcodec hparse
          rw [hat.compress be input codec bytes name hblob hcodec hparse, hsame]
        · intro be input codec bytes name hblob hcodec hparse
          rw [hat.compressedSize be input codec bytes name hblob hcodec hparse, hsame]
        · intro be input codec bytes name hblob hne hcodec hparse
          rw [hat.ratio be input codec bytes name hblob hne hcodec hparse, hsame]
  · intro levelCol i hnone
    have h := delivers_resolved (c := c) (optIntVal_of_namesNothing hnone)
    obtain ⟨d, hd, hres⟩ : ∃ d, c.defaultLevel = some d ∧ (c.resolveLevel none).1 = d := by
      cases c <;> cases hc <;> exact ⟨_, rfl, rfl⟩
    obtain ⟨hdlo, hdhi⟩ := Codec.resolveLevel_mem hc none
    rw [hres] at hdlo hdhi
    refine ⟨d, hd, hdlo, hdhi, ?_⟩
    rw [← hres]
    exact h
  · intro col col' i j cell cell' a b hcell hcell' ha hb hab hlt
    refine ⟨_, _, ?_, ?_, ?_, delivers_asI64 hc hcell ha, delivers_asI64 hc hcell' hb⟩
    · exact Int.le_max_left _ _
    · rw [asI64_of_lt hlt, asI64_of_lt (by omega)]
      omega
    · omega
  · intro hne
    cases c <;> cases hc <;> first | decide | exact absurd rfl hne

/-- `level_saturates_iff` on gzip: 99 in a narrow column, a NULL, and 3
below 99. -/
theorem level_saturates_sample :
    DeliversLevel .gzip (some ⟨.int8, [some 99]⟩) 0 9
      ∧ (∃ d : Int32, DeliversLevel .gzip (some ⟨.utf8, [none]⟩) 0 d.toInt)
      ∧ (∃ n n', (0 : Int32).toInt ≤ n ∧ n ≤ n' ∧ n' ≤ (9 : Int32).toInt
        ∧ DeliversLevel .gzip (some ⟨.uint64, [some 3]⟩) 0 n
        ∧ DeliversLevel .gzip (some ⟨.int8, [some 99]⟩) 0 n')
      ∧ 0 ≤ (0 : Int32).toInt := by
  have hrange : Codec.gzip.levelRange = some (0, 9) := rfl
  obtain ⟨hcell, hnone, hmono, hlo⟩ := level_saturates_iff hrange
  have h99 : (⟨.int8, [some 99]⟩ : ArrayRef).cell? 0 = some ⟨.int8, some 99⟩ := rfl
  have h3 : (⟨.uint64, [some 3]⟩ : ArrayRef).cell? 0 = some ⟨.uint64, some 3⟩ := rfl
  refine ⟨(hcell _ 0 _ 99 h99 rfl).mpr (.inl (by decide)), ?_,
    hmono _ _ 0 0 _ _ 3 99 h3 h99 rfl rfl (by decide) (by decide), hlo nofun⟩
  obtain ⟨d, -, -, -, hd⟩ := hnone (some ⟨.utf8, [none]⟩) 0 (by
    rintro _ ⟨⟩
    exact ⟨⟨.utf8, none⟩, rfl, rfl⟩)
  exact ⟨d, hd⟩

/-- A level of `2 ^ 63` in a `UBIGINT` column reaches gzip as 0. -/
theorem huge_level_reaches_gzip_as_zero :
    DeliversLevel .gzip (some ⟨.uint64, [some 0x8000000000000000]⟩) 0 0
      ∧ ¬DeliversLevel .gzip (some ⟨.uint64, [some 0x8000000000000000]⟩) 0 9 := by
  have hrange : Codec.gzip.levelRange = some (0, 9) := rfl
  have hcell : (⟨.uint64, [some 0x8000000000000000]⟩ : ArrayRef).cell? 0
      = some ⟨.uint64, some 0x8000000000000000⟩ := rfl
  have hz : Cell.int? ⟨.uint64, some 0x8000000000000000⟩ = some 9223372036854775808 := rfl
  have hzero := delivers_asI64 hrange hcell hz
  -- the wrapped number is `-2 ^ 63`, below the range
  have hlevel : max (0 : Int32).toInt (min (9 : Int32).toInt (asI64 9223372036854775808)) = 0 := by
    decide
  rw [hlevel] at hzero
  refine ⟨hzero, ?_⟩
  intro hnine
  have heq : (0 : Int) = 9 := hzero.unique hrange rfl hnine (by decide) (by decide)
  cases heq

end VgiCompress
