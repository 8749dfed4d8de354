import VgiCompress.RoundTrip

/-!
# The encoders and their levels

`encodeAt` hands a backend an integer as its level, with no clamp on the
way. `compress_eq_encodeAt` says that this is what the dispatch does with
the resolved level: it lies in the codec's range, so the second clamp in
the codec module keeps it and the cast to `u32` finds nothing negative.

`Encoded` is what results: a stream the codec's encoder made of a payload
at some resolved level.
-/

namespace VgiCompress

open RustStd

/-! ## Clamps, read as integers -/

/-- A clamp saturates, read through any map that keeps the order. -/
theorem map_clamp {α : Type} [LT α] [DecidableLT α] {f : α → Int}
    (hf : ∀ a b, a < b ↔ f a < f b) {lo hi : α} (h : f lo ≤ f hi) (v : α) :
    f (clamp v lo hi) = max (f lo) (min (f hi) (f v)) := by
  unfold clamp
  split
  · next hlo =>
      have hlo := (hf v lo).mp hlo
      omega
  · next hlo =>
      have hlo := mt (hf v lo).mpr hlo
      split
      · next hhi =>
          have hhi := (hf hi v).mp hhi
          omega
      · next hhi =>
          have hhi := mt (hf hi v).mpr hhi
          omega

/-- A value in range is left alone. -/
theorem clamp_of_mem {lo hi v : Int32} (hlo : lo ≤ v) (hhi : v ≤ hi) : clamp v lo hi = v := by
  unfold clamp
  rw [if_neg (Int32.not_lt.mpr hlo), if_neg (Int32.not_lt.mpr hhi)]

theorem toUInt32_eq {v : Int32} (h : 0 ≤ v) : v.toUInt32 = .ofNat v.toInt.toNat := by
  have hlt := v.toInt_lt
  rw [← UInt32.toNat_inj, Int32.toNat_toUInt32_of_le h, UInt32.toNat_ofNat']
  show v.toInt.toNat = v.toInt.toNat % 2 ^ 32
  omega

/-! ## The encoder at a level -/

section Encode

variable (be : Backends)

/-- The backend's encoder of the codec at the level `n`, as an integer. The
block and frame encoders of lz4, both snappy encoders and those of lzma-rs
take no level. -/
def Codec.encodeAt (c : Codec) (n : Int) (input : Bytes) : Outcome CodecError Bytes :=
  match c with
  | .zstd => corruptErr (be.zstd.encodeAll input (.ofInt n))
  | .gzip => (be.flate2.gzEncoder (.ofNat n.toNat)).encode input
  | .zlib => (be.flate2.zlibEncoder (.ofNat n.toNat)).encode input
  | .deflate => (be.flate2.deflateEncoder (.ofNat n.toNat)).encode input
  | .brotli =>
      (be.brotli.compressorWriter Brotli.buf (.ofNat n.toNat) Brotli.lgwin).encode input
  | .lz4 => be.lz4Flex.frameEncoder.encode input
  | .lz4Block => .ok (be.lz4Flex.compressPrependSize input)
  | .snappy => be.snap.frameEncoder.encode input
  | .snappyRaw => corruptErr (be.snap.compressVec input)
  | .xz =>
      match be.xzBackend with
      | .lzmaRs => corruptErr (be.lzmaRs.xzCompress input)
      | .liblzma => corruptErr (be.liblzma.xzEncoder input (.ofNat n.toNat))
  | .lzma => corruptErr (be.lzmaRs.lzmaCompress input)
  | .bzip2 => (be.bzip2.bzEncoder (.ofNat n.toNat)).encode input

/-- What the codec module makes of a level in range, as the backend sees it. -/
theorem clamp_level_eq {lo hi lvl : Int32} (h0 : 0 ≤ lo) (hlo : lo ≤ lvl) (hhi : lvl ≤ hi) :
    (clamp lvl lo hi).toUInt32 = .ofNat lvl.toInt.toNat := by
  rw [clamp_of_mem hlo hhi, toUInt32_eq (Int32.le_trans h0 hlo)]

/-- **The resolved level is what reaches the backend.** -/
theorem Codec.compress_eq_encodeAt (c : Codec) (input : Bytes) (level : Option Int32) :
    c.compress be input level = c.encodeAt be (c.resolveLevel level).1.toInt input := by
  cases c with
  | zstd =>
      rw [Codec.compress, Codec.encodeAt, Zstd.compress, Int32.ofInt_toInt]
  | gzip =>
      obtain ⟨hlo, hhi⟩ := resolveLevel_mem (c := .gzip) rfl level
      rw [Codec.compress, Codec.encodeAt, Flate.compressGzip, Flate.level,
        clamp_level_eq (by decide) hlo hhi]
  | zlib =>
      obtain ⟨hlo, hhi⟩ := resolveLevel_mem (c := .zlib) rfl level
      rw [Codec.compress, Codec.encodeAt, Flate.compressZlib, Flate.level,
        clamp_level_eq (by decide) hlo hhi]
  | deflate =>
      obtain ⟨hlo, hhi⟩ := resolveLevel_mem (c := .deflate) rfl level
      rw [Codec.compress, Codec.encodeAt, Flate.compressDeflate, Flate.level,
        clamp_level_eq (by decide) hlo hhi]
  | brotli =>
      obtain ⟨hlo, hhi⟩ := resolveLevel_mem (c := .brotli) rfl level
      rw [Codec.compress, Codec.encodeAt, Brotli.compress, clamp_level_eq (by decide) hlo hhi]
  | lz4 | lz4Block | snappy | snappyRaw | lzma => rfl
  | xz =>
      obtain ⟨hlo, hhi⟩ := resolveLevel_mem (c := .xz) rfl level
      have hlevel := clamp_level_eq (by decide) hlo hhi
      cases hx : be.xzBackend with
      | lzmaRs => simp only [Codec.compress, Codec.encodeAt, Xz.compressXz, hx]
      | liblzma => simp only [Codec.compress, Codec.encodeAt, Xz.compressXz, hx, hlevel]
  | bzip2 =>
      obtain ⟨hlo, hhi⟩ := resolveLevel_mem (c := .bzip2) rfl level
      rw [Codec.compress, Codec.encodeAt, Bzip2.compress, clamp_level_eq (by decide) hlo hhi]

/-- `s` is what the codec's encoder makes of `x`, at some level in range. -/
def Encoded (c : Codec) (x s : Bytes) : Prop :=
  ∃ lvl : Int32, (∀ lo hi, c.levelRange = some (lo, hi) → lo ≤ lvl ∧ lvl ≤ hi)
    ∧ c.encodeAt be lvl.toInt x = .ok s

theorem Codec.encoded_compress {c : Codec} {x s : Bytes} {level : Option Int32}
    (hs : c.compress be x level = .ok s) : Encoded be c x s := by
  rw [compress_eq_encodeAt] at hs
  exact ⟨_, fun lo hi hc => resolveLevel_mem hc level, hs⟩

end Encode

end VgiCompress
