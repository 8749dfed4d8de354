import VgiCompress.Samples

/-!
# Decoding what was encoded

`EncodersInvert` is what the backends are trusted with: at every level in
range, a decoder run on its own encoder's output yields the payload and
then ends well. The two 12-arm dispatches pair each encoder with its own
decoder and hand it a level in its range (`Codec.yields_compress`), so a
payload comes back exactly when the cap allows it.
-/

namespace VgiCompress

open RustStd

/-! ## Levels in range -/

theorem clamp_mem {lo hi : Int32} (h : lo ≤ hi) (v : Int32) :
    lo ≤ clamp v lo hi ∧ clamp v lo hi ≤ hi := by
  unfold clamp
  split
  · exact ⟨Int32.le_refl lo, h⟩
  · next hlo =>
      split
      · exact ⟨h, Int32.le_refl hi⟩
      · next hhi => exact ⟨Int32.not_lt.mp hlo, Int32.not_lt.mp hhi⟩

theorem clamp_toUInt32_le {hi : Int32} (h : 0 ≤ hi) (v : Int32) :
    (clamp v 0 hi).toUInt32 ≤ hi.toUInt32 :=
  Int32.toUInt32_le (clamp_mem h v).1 (clamp_mem h v).2

/-! ## What the backends are trusted with -/

/-- The backend of a streaming codec decodes `s` to `x`, in some chunking,
and then ends without error. -/
def Yields (be : Backends) (c : Codec) (s x : Bytes) : Prop :=
  ∃ ds, Streams be c s ds (.ok ()) ∧ ds.flatten = x

/-- The encoder took all of `x` and finished with `s`. -/
def Encoder.Encodes (enc : Encoder) (x s : Bytes) : Prop :=
  enc.writeAll x = .ok () ∧ enc.finish x = .ok s

/-- The block encoder puts the payload's length, as a `u32`, in front. -/
def Crate.Lz4Flex.WritesPrefix (lz : Crate.Lz4Flex) : Prop :=
  ∀ x, u32ToLeBytes x.length <+: lz.compressPrependSize x

/-- Each decoder inverts its own encoder at every level in range. -/
structure EncodersInvert (be : Backends) : Prop where
  zstd : ∀ x lvl s, -22 ≤ lvl → lvl ≤ 22 → be.zstd.encodeAll x lvl = .ok s →
    Yields be .zstd s x
  gzip : ∀ x lvl s, lvl ≤ 9 → (be.flate2.gzEncoder lvl).Encodes x s → Yields be .gzip s x
  zlib : ∀ x lvl s, lvl ≤ 9 → (be.flate2.zlibEncoder lvl).Encodes x s → Yields be .zlib s x
  deflate : ∀ x lvl s, lvl ≤ 9 → (be.flate2.deflateEncoder lvl).Encodes x s →
    Yields be .deflate s x
  brotli : ∀ x quality s, quality ≤ 11 →
    (be.brotli.compressorWriter Brotli.buf quality Brotli.lgwin).Encodes x s →
    Yields be .brotli s x
  lz4 : ∀ x s, be.lz4Flex.frameEncoder.Encodes x s → Yields be .lz4 s x
  lz4Prefix : be.lz4Flex.WritesPrefix
  lz4Block : ∀ x, x.length < 2 ^ 32 →
    be.lz4Flex.decompressSizePrepended (be.lz4Flex.compressPrependSize x) = .ok x
  snappy : ∀ x s, be.snap.frameEncoder.Encodes x s → Yields be .snappy s x
  snappyLen : ∀ x s, be.snap.compressVec x = .ok s → be.snap.decompressLen s = .ok x.length
  snappyRaw : ∀ x s, be.snap.compressVec x = .ok s → be.snap.decompressVec s = .ok x
  xzLzmaRs : be.xzBackend = .lzmaRs → ∀ x s, be.lzmaRs.xzCompress x = .ok s →
    Yields be .xz s x
  xzLiblzma : be.xzBackend = .liblzma → ∀ x preset s, preset ≤ 9 →
    be.liblzma.xzEncoder x preset = .ok s → Yields be .xz s x
  lzma : ∀ x s, be.lzmaRs.lzmaCompress x = .ok s → Yields be .lzma s x
  bzip2 : ∀ x lvl s, 1 ≤ lvl → lvl ≤ 9 → (be.bzip2.bzEncoder lvl).Encodes x s →
    Yields be .bzip2 s x

/-! ## The way back through the named codec -/

section RoundTrip

variable {be : Backends}

theorem Encoder.encode_eq_ok {enc : Encoder} {x s : Bytes} :
    enc.encode x = .ok s ↔ enc.Encodes x s := by
  rw [encode, Outcome.bind_eq_ok, Encodes]
  simp only [corruptErr_eq_ok]
  exact ⟨fun ⟨_, hw, hf⟩ => ⟨hw, hf⟩, fun ⟨hw, hf⟩ => ⟨(), hw, hf⟩⟩

/-- The dispatch of `compress` and that of `decompress` agree on which
decoder belongs to which encoder. -/
theorem Codec.yields_compress (h : EncodersInvert be) {c : Codec} (hb : c ≠ .lz4Block)
    (hr : c ≠ .snappyRaw) {x s : Bytes} {level : Option Int32}
    (hs : c.compress be x level = .ok s) : Yields be c s x := by
  cases c with
  | zstd =>
      obtain ⟨hlo, hhi⟩ := resolveLevel_mem (c := .zstd) rfl level
      exact h.zstd x _ s hlo hhi (corruptErr_eq_ok.mp hs)
  | gzip => exact h.gzip x _ s (clamp_toUInt32_le (by decide) _) (Encoder.encode_eq_ok.mp hs)
  | zlib => exact h.zlib x _ s (clamp_toUInt32_le (by decide) _) (Encoder.encode_eq_ok.mp hs)
  | deflate =>
      exact h.deflate x _ s (clamp_toUInt32_le (by decide) _) (Encoder.encode_eq_ok.mp hs)
  | brotli =>
      exact h.brotli x _ s (clamp_toUInt32_le (by decide) _) (Encoder.encode_eq_ok.mp hs)
  | lz4 => exact h.lz4 x s (Encoder.encode_eq_ok.mp hs)
  | lz4Block => exact absurd rfl hb
  | snappy => exact h.snappy x s (Encoder.encode_eq_ok.mp hs)
  | snappyRaw => exact absurd rfl hr
  | xz =>
      rw [Codec.compress, Xz.compressXz] at hs
      cases hx : be.xzBackend with
      | lzmaRs => rw [hx] at hs; exact h.xzLzmaRs hx x s (corruptErr_eq_ok.mp hs)
      | liblzma =>
          rw [hx] at hs
          exact h.xzLiblzma hx x _ s (clamp_toUInt32_le (by decide) _) (corruptErr_eq_ok.mp hs)
  | lzma => exact h.lzma x s (corruptErr_eq_ok.mp hs)
  | bzip2 =>
      obtain ⟨hlo, hhi⟩ := clamp_mem (show (1 : Int32) ≤ 9 by decide)
        (Codec.bzip2.resolveLevel level).1
      exact h.bzip2 x _ s (Int32.toUInt32_le (by decide) hlo)
        (Int32.toUInt32_le (Int32.le_trans (by decide) hlo) hhi) (Encoder.encode_eq_ok.mp hs)

/-- The payload under a cap. -/
def payloadUnder (x : Bytes) (cap : UInt64) : Outcome CodecError Bytes :=
  if x.length ≤ cap.toNat then .ok x else .err (.outputTooLarge cap)

theorem Yields.decompress_eq {c : Codec} {s x : Bytes} (h : Yields be c s x)
    (hx : x.length ≤ isizeMax) (cap : UInt64) :
    c.decompress be s cap = payloadUnder x cap := by
  obtain ⟨ds, hs, rfl⟩ := h
  rw [hs.decompress_eq, (settle_refines ds (.ok ()) cap).eq_under (.inl hx), payloadUnder]
  by_cases hle : ds.flatten.length ≤ cap.toNat
  · rw [if_pos hle, Decoding.under_of_le rfl hle]
  · rw [if_neg hle, Decoding.under_of_lt (Nat.not_le.mp hle)]

theorem declaredSize_of_prefix {n : Nat} {s : Bytes} (h : u32ToLeBytes n <+: s) :
    ∃ d, Lz4.declaredSize s = some d ∧ d.toNat = n % 2 ^ 32 := by
  obtain ⟨t, rfl⟩ := h
  exact ⟨_, rfl, by rw [UInt32.toNat_toUInt64, u32FromLeBytes_ofNat]⟩

/-- What is behind the size prefix does not change it. -/
theorem declaredSize_append {p s : Bytes} {n : UInt64} (hp : p <+: s)
    (hn : Lz4.declaredSize p = some n) : Lz4.declaredSize s = some n := by
  obtain ⟨rest, rfl⟩ := hp
  rcases p with _ | ⟨_, _ | ⟨_, _ | ⟨_, _ | ⟨_, p⟩⟩⟩⟩
  iterate 4 · cases hn
  exact hn

theorem Lz4.decompressBlock_compressBlock (hwrites : be.lz4Flex.WritesPrefix) {x : Bytes}
    (hx : x.length < 2 ^ 32)
    (hinv : be.lz4Flex.decompressSizePrepended (be.lz4Flex.compressPrependSize x) = .ok x)
    (cap : UInt64) :
    Lz4.decompressBlock be (be.lz4Flex.compressPrependSize x) cap = payloadUnder x cap := by
  obtain ⟨d, hd, hlen⟩ := declaredSize_of_prefix (hwrites x)
  rw [Nat.mod_eq_of_lt hx] at hlen
  rw [Lz4.decompressBlock, hd, hinv, payloadUnder, ← hlen]
  by_cases hle : d.toNat ≤ cap.toNat
  · have hnot : ¬d > cap := fun hgt => Nat.not_lt.mpr hle (UInt64.lt_iff_toNat_lt.mp hgt)
    rw [if_pos hle]
    exact if_neg hnot
  · rw [if_neg hle]
    exact if_pos (UInt64.lt_iff_toNat_lt.mpr (Nat.not_le.mp hle))

theorem Snappy.decompressRaw_compressRaw (h : EncodersInvert be) {x s : Bytes}
    (hs : be.snap.compressVec x = .ok s) (cap : UInt64) :
    Snappy.decompressRaw be s cap = payloadUnder x cap := by
  rw [Snappy.decompressRaw, h.snappyLen x s hs, h.snappyRaw x s hs, payloadUnder]
  by_cases hle : x.length ≤ cap.toNat
  · rw [if_pos hle]
    exact if_neg (Nat.not_lt.mpr hle)
  · rw [if_neg hle]
    exact if_pos (Nat.not_le.mp hle)

theorem Codec.decompress_compress (h : EncodersInvert be) {c : Codec} {x s : Bytes}
    (hx : x.length < 2 ^ 32) {level : Option Int32} (hs : c.compress be x level = .ok s)
    (cap : UInt64) : c.decompress be s cap = payloadUnder x cap := by
  by_cases hb : c = .lz4Block
  · subst hb
    obtain rfl : be.lz4Flex.compressPrependSize x = s := Outcome.ok.inj hs
    exact Lz4.decompressBlock_compressBlock h.lz4Prefix hx (h.lz4Block x hx) cap
  by_cases hr : c = .snappyRaw
  · subst hr
    exact Snappy.decompressRaw_compressRaw h (corruptErr_eq_ok.mp hs) cap
  have hmax : x.length ≤ isizeMax := by rw [isizeMax]; omega
  exact (yields_compress h hb hr hs).decompress_eq hmax cap

/-- **Decode undoes encode**, with the cap's boundary at the payload's
length, for every codec and every requested level. -/
theorem decompress_undoes_compress (h : EncodersInvert be) (codec : String) (x : Bytes)
    (hx : x.length < 2 ^ 32) (level : Option Int32) (cap : UInt64) {s : Bytes}
    (hs : compress be codec x level = .ok s) :
    decompress be codec s cap =
      if x.length ≤ cap.toNat then .ok x else .err (.outputTooLarge cap) := by
  obtain ⟨c, hc, hs⟩ := compress_eq_ok.mp hs
  rw [decompress_of_parse hc]
  exact Codec.decompress_compress h hx hs cap

end RoundTrip

namespace Sample

/-- The sample build meets the assumption: an encoder that finished was
given a payload of its table, and its decoder knows the stream. -/
theorem encodersInvert : EncodersInvert build where
  zstd x lvl s _ _ hs :=
    ⟨chunks x, whole_delivers (by decide) (mem_of_encode hs), chunks_flatten x⟩
  gzip x lvl s _ hs := ⟨chunks x, first_stream (by decide) (mem_of_encode hs.2), chunks_flatten x⟩
  zlib x lvl s _ hs := ⟨chunks x, first_stream (by decide) (mem_of_encode hs.2), chunks_flatten x⟩
  deflate x lvl s _ hs :=
    ⟨chunks x, first_stream (by decide) (mem_of_encode hs.2), chunks_flatten x⟩
  brotli x quality s _ hs :=
    ⟨chunks x, first_stream (by decide) (mem_of_encode hs.2), chunks_flatten x⟩
  lz4 x s hs := ⟨chunks x, first_stream (by decide) (mem_of_encode hs.2), chunks_flatten x⟩
  lz4Prefix x := List.prefix_append _ _
  lz4Block x hx := lz4Unblock_lz4Block hx
  snappy x s hs := ⟨chunks x, whole_delivers (by decide) (mem_of_encode hs.2), chunks_flatten x⟩
  snappyLen x s hs := knownLen_stream (by decide) (mem_of_encode hs)
  snappyRaw x s hs := (known_eq_ok (by decide)).mpr (mem_of_encode hs)
  xzLzmaRs _ x s hs :=
    ⟨chunks x, driven_scripts (by decide) (mem_of_encode hs), chunks_flatten x⟩
  xzLiblzma hx := by cases hx
  lzma x s hs := by
    have hmem : (x, s) ∈ lzmaTable := mem_of_encode hs
    refine ⟨chunks x, ?_, chunks_flatten x⟩
    have hsized : ∀ p ∈ lzmaTable, ¬lzmaSized.isPrefixOf p.2 = true := by decide
    show Writes.Scripted (if lzmaSized.isPrefixOf s then _ else driven lzmaTable s) _ _
    rw [if_neg (hsized (x, s) hmem)]
    exact driven_scripts (by decide) hmem
  bzip2 x lvl s _ _ hs :=
    ⟨chunks x, first_stream (by decide) (mem_of_encode hs.2), chunks_flatten x⟩

end Sample

/-- `decompress_undoes_compress` on `"a"` and xz, on both sides of the
boundary. -/
theorem decompress_undoes_compress_sample :
    compress Sample.build "xz" [0x61] (some 99) = .ok Sample.xz
      ∧ decompress Sample.build "xz" Sample.xz 1 = .ok [0x61]
      ∧ decompress Sample.build "xz" Sample.xz 0 = .err (.outputTooLarge 0) := by
  have hs : compress Sample.build "xz" [0x61] (some 99) = .ok Sample.xz := by decide +kernel
  refine ⟨hs, ?_, ?_⟩
  · exact decompress_undoes_compress Sample.encodersInvert "xz" [0x61] (by decide) _ 1 hs
  · exact decompress_undoes_compress Sample.encodersInvert "xz" [0x61] (by decide) _ 0 hs

end VgiCompress
