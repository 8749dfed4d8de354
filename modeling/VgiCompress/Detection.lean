import VgiCompress.RoundTrip

/-!
# Detection by first bytes

`Header c s` says that `s` begins as a stream of `c` does. No string has
two headers (`Header.unique`), so the order of the signature tests does
not matter and `detect` is characterised by headers alone: it reports `c`
exactly when `s` has the header of `c` and, for the two weak signatures,
the trial decode does not reject it (`detect_eq_some_iff`).

From this follow both directions of auto-detection: what it makes of a
stream with a header, and of a stream whose first bytes are a length.
-/

namespace VgiCompress

open RustStd

/-! ## Headers -/

/-- A CMF/FLG pair: deflate, a window of at most 32 KiB, FCHECK. -/
def ZlibHeader (cmf flg : Nat) : Prop :=
  cmf % 16 = 8 ∧ cmf / 16 ≤ 7 ∧ (cmf * 256 + flg) % 31 = 0

instance (cmf flg : Nat) : Decidable (ZlibHeader cmf flg) :=
  inferInstanceAs (Decidable (_ ∧ _ ∧ _))

/-- How a stream of the codec begins; the headerless codecs have no such
mark. -/
def Header : Codec → Bytes → Prop
  | .zstd, s => [0x28, 0xb5, 0x2f, 0xfd] <+: s
  | .gzip, s => [0x1f, 0x8b] <+: s
  | .zlib, s => ∃ cmf flg rest, s = cmf :: flg :: rest ∧ ZlibHeader cmf.toNat flg.toNat
  | .lz4, s => [0x04, 0x22, 0x4d, 0x18] <+: s
  | .snappy, s => [0xff, 0x06, 0x00, 0x00, 0x73, 0x4e, 0x61, 0x50, 0x70, 0x59] <+: s
  | .xz, s => [0xfd, 0x37, 0x7a, 0x58, 0x5a, 0x00] <+: s
  | .lzma, s => 13 ≤ s.length ∧ [0x5d] <+: s
  | .bzip2, s => ∃ level rest, s = 0x42 :: 0x5a :: 0x68 :: level :: rest
      ∧ 0x31 ≤ level ∧ level ≤ 0x39
  | .brotli, _ | .deflate, _ | .lz4Block, _ | .snappyRaw, _ => False

/-- The only codec whose header can begin with these bytes. -/
def candidate : Bytes → Codec
  | 0xff :: _ => .snappy
  | 0xfd :: _ => .xz
  | 0x04 :: _ => .lz4
  | 0x28 :: 0xb5 :: _ => .zstd
  | 0x42 :: _ => .bzip2
  | 0x1f :: _ => .gzip
  | 0x5d :: _ => .lzma
  | _ => .zlib

theorem Header.candidate_eq {c : Codec} {s : Bytes} (h : Header c s) : candidate s = c := by
  cases c with
  | zstd | gzip | lz4 | snappy | xz => obtain ⟨rest, rfl⟩ := h; rfl
  | lzma => obtain ⟨-, rest, rfl⟩ := h; rfl
  | bzip2 => obtain ⟨level, rest, rfl, -⟩ := h; rfl
  | brotli | deflate | lz4Block | snappyRaw => exact h.elim
  | zlib =>
      obtain ⟨cmf, flg, rest, rfl, hcm, hcinfo, hcheck⟩ := h
      rw [candidate.eq_def]
      split
      · next heq => cases heq; revert hcm; decide
      · next heq => cases heq; revert hcm; decide
      · next heq => cases heq; revert hcm; decide
      · next heq => cases heq; revert hcheck; decide
      · next heq => cases heq; revert hcm; decide
      · next heq => cases heq; revert hcm; decide
      · next heq => cases heq; revert hcm; decide
      · rfl

/-- No string has two headers. -/
theorem Header.unique {c c' : Codec} {s : Bytes} (h : Header c s) (h' : Header c' s) :
    c = c' := by
  rw [← h.candidate_eq, h'.candidate_eq]

theorem looksLikeZlib_iff (s : Bytes) : looksLikeZlib s = true ↔ Header .zlib s := by
  match s with
  | [] => simp [looksLikeZlib, Header]
  | [b] => simp [looksLikeZlib, Header]
  | cmf :: flg :: rest =>
      have hcm : (cmf &&& 0x0f == 8) = true ↔ cmf.toNat % 16 = 8 := by
        rw [beq_iff_eq, ← UInt8.toNat_inj, UInt8.toNat_and]
        exact iff_of_eq (congrArg (· = 8) (Nat.and_two_pow_sub_one_eq_mod cmf.toNat 4))
      have hcinfo : cmf >>> 4 ≤ 7 ↔ cmf.toNat / 16 ≤ 7 := by
        rw [UInt8.le_iff_toNat_le, UInt8.toNat_shiftRight]
        exact iff_of_eq (congrArg (· ≤ 7) (Nat.shiftRight_eq_div_pow cmf.toNat 4))
      simp only [looksLikeZlib, Bool.and_eq_true, hcm, hcinfo, decide_eq_true_eq, beq_iff_eq,
        Header, ZlibHeader, and_assoc]
      constructor
      · intro h
        exact ⟨cmf, flg, rest, rfl, h⟩
      · rintro ⟨_, _, _, heq, h⟩
        cases heq
        exact h

section Detection

variable {be : Backends}

/-- The header is there and, where it is weak, a trial decode agrees. -/
def Marked (be : Backends) (c : Codec) (s : Bytes) : Prop :=
  Header c s ∧ (c = .zlib ∨ c = .lzma → trialOk be c s = true)

theorem bzip2_header_iff (s : Bytes) :
    (4 ≤ s.length && s.take 3 == [0x42, 0x5a, 0x68] && 0x31 ≤ s.getD 3 0
      && s.getD 3 0 ≤ 0x39) = true ↔ Header .bzip2 s := by
  match s with
  | [] | [_] | [_, _] | [_, _, _] => simp [Header]
  | b0 :: b1 :: b2 :: b3 :: rest =>
      simp only [List.length_cons, List.take_succ_cons, List.take_zero, List.getD_cons_succ,
        List.getD_cons_zero, Bool.and_eq_true, decide_eq_true_eq, beq_iff_eq, List.cons.injEq,
        and_true, Header]
      constructor
      · rintro ⟨⟨⟨-, rfl, rfl, rfl⟩, hlo⟩, hhi⟩
        exact ⟨b3, rest, ⟨rfl, rfl, rfl, rfl, rfl⟩, hlo, hhi⟩
      · rintro ⟨level, rest', ⟨rfl, rfl, rfl, rfl, rfl⟩, hlo, hhi⟩
        exact ⟨⟨⟨by omega, rfl, rfl, rfl⟩, hlo⟩, hhi⟩

theorem lzma_header_iff (s : Bytes) :
    (13 ≤ s.length && s.getD 0 0 == 0x5d) = true ↔ Header .lzma s := by
  match s with
  | [] => simp [Header]
  | b :: rest =>
      simp only [Bool.and_eq_true, decide_eq_true_eq, List.getD_cons_zero, beq_iff_eq, Header,
        List.cons_prefix_cons, List.nil_prefix, and_true]
      exact and_congr_right fun _ => eq_comm

/-- What `detect` finds is marked. -/
theorem marked_of_detect {c : Codec} {s : Bytes} (h : detect be s = some c) :
    Marked be c s := by
  unfold detect at h
  split at h
  · next hp => cases h; exact ⟨List.isPrefixOf_iff_prefix.mp hp, nofun⟩
  split at h
  · next hp => cases h; exact ⟨List.isPrefixOf_iff_prefix.mp hp, nofun⟩
  split at h
  · next hp => cases h; exact ⟨List.isPrefixOf_iff_prefix.mp hp, nofun⟩
  split at h
  · next hp => cases h; exact ⟨List.isPrefixOf_iff_prefix.mp hp, nofun⟩
  split at h
  · next hp => cases h; exact ⟨(bzip2_header_iff s).mp hp, nofun⟩
  split at h
  · next hp => cases h; exact ⟨List.isPrefixOf_iff_prefix.mp hp, nofun⟩
  split at h
  · next hp =>
      cases h
      obtain ⟨hz, ht⟩ := Bool.and_eq_true_iff.mp hp
      exact ⟨(looksLikeZlib_iff s).mp hz, fun _ => ht⟩
  split at h
  · next hp =>
      cases h
      obtain ⟨hl, ht⟩ := Bool.and_eq_true_iff.mp hp
      exact ⟨(lzma_header_iff s).mp hl, fun _ => ht⟩
  · cases h

/-- What is marked is not passed over. -/
theorem detect_ne_none {c : Codec} {s : Bytes} (h : Marked be c s) : detect be s ≠ none := by
  obtain ⟨hc, ht⟩ := h
  unfold detect
  intro hnone
  split at hnone
  · cases hnone
  next h1 =>
  split at hnone
  · cases hnone
  next h2 =>
  split at hnone
  · cases hnone
  next h3 =>
  split at hnone
  · cases hnone
  next h4 =>
  split at hnone
  · cases hnone
  next h5 =>
  split at hnone
  · cases hnone
  next h6 =>
  split at hnone
  · cases hnone
  next h7 =>
  split at hnone
  · cases hnone
  next h8 =>
  cases c with
  | snappy => exact h1 (List.isPrefixOf_iff_prefix.mpr hc)
  | xz => exact h2 (List.isPrefixOf_iff_prefix.mpr hc)
  | lz4 => exact h3 (List.isPrefixOf_iff_prefix.mpr hc)
  | zstd => exact h4 (List.isPrefixOf_iff_prefix.mpr hc)
  | bzip2 => exact h5 ((bzip2_header_iff s).mpr hc)
  | gzip => exact h6 (List.isPrefixOf_iff_prefix.mpr hc)
  | zlib => exact h7 (Bool.and_eq_true_iff.mpr ⟨(looksLikeZlib_iff s).mpr hc, ht (.inl rfl)⟩)
  | lzma => exact h8 (Bool.and_eq_true_iff.mpr ⟨(lzma_header_iff s).mpr hc, ht (.inr rfl)⟩)
  | brotli | deflate | lz4Block | snappyRaw => exact hc

/-- **Detection is by header**, in whatever order the tests are made. -/
theorem detect_eq_some_iff {c : Codec} {s : Bytes} :
    detect be s = some c ↔ Marked be c s := by
  refine ⟨marked_of_detect, fun h => ?_⟩
  cases hd : detect be s with
  | none => exact absurd hd (detect_ne_none h)
  | some c' => rw [(marked_of_detect hd).1.unique h.1]

theorem detect_eq_none_iff {s : Bytes} : detect be s = none ↔ ∀ c, ¬Marked be c s := by
  constructor
  · intro hnone c hc
    exact detect_ne_none hc hnone
  · intro h
    cases hd : detect be s with
    | none => rfl
    | some c => exact absurd (marked_of_detect hd) (h c)

/-- What is marked, header by header. -/
theorem exists_marked_iff {s : Bytes} :
    (∃ c, Marked be c s) ↔
      Header .gzip s ∨ Header .zstd s ∨ Header .lz4 s ∨ Header .bzip2 s ∨ Header .snappy s
        ∨ Header .xz s ∨ (Header .zlib s ∧ trialOk be .zlib s = true)
        ∨ (Header .lzma s ∧ trialOk be .lzma s = true) := by
  constructor
  · rintro ⟨c, hc, ht⟩
    cases c with
    | gzip => exact .inl hc
    | zstd => exact .inr (.inl hc)
    | lz4 => exact .inr (.inr (.inl hc))
    | bzip2 => exact .inr (.inr (.inr (.inl hc)))
    | snappy => exact .inr (.inr (.inr (.inr (.inl hc))))
    | xz => exact .inr (.inr (.inr (.inr (.inr (.inl hc)))))
    | zlib => exact .inr (.inr (.inr (.inr (.inr (.inr (.inl ⟨hc, ht (.inl rfl)⟩))))))
    | lzma => exact .inr (.inr (.inr (.inr (.inr (.inr (.inr ⟨hc, ht (.inr rfl)⟩))))))
    | brotli | deflate | lz4Block | snappyRaw => exact hc.elim
  · rintro (h | h | h | h | h | h | ⟨h, ht⟩ | ⟨h, ht⟩)
    · exact ⟨.gzip, h, nofun⟩
    · exact ⟨.zstd, h, nofun⟩
    · exact ⟨.lz4, h, nofun⟩
    · exact ⟨.bzip2, h, nofun⟩
    · exact ⟨.snappy, h, nofun⟩
    · exact ⟨.xz, h, nofun⟩
    · exact ⟨.zlib, h, fun _ => ht⟩
    · exact ⟨.lzma, h, fun _ => ht⟩

end Detection

/-! ## Streams with a header -/

/-- The codecs whose streams `decompress_auto` can tell. -/
def MagicBearing : Codec → Prop
  | .brotli | .deflate | .lz4Block | .snappyRaw => False
  | _ => True

/-- Whatever an encoder emits begins with its format's header, if it emits
anything. snap's frame encoder emits its stream identifier with the first
block, so an empty payload leaves it with nothing to emit. -/
structure EncodersMark (be : Backends) : Prop where
  zstd : ∀ x lvl s, be.zstd.encodeAll x lvl = .ok s → s ≠ [] → Header .zstd s
  gzip : ∀ x lvl s, (be.flate2.gzEncoder lvl).Encodes x s → s ≠ [] → Header .gzip s
  zlib : ∀ x lvl s, (be.flate2.zlibEncoder lvl).Encodes x s → s ≠ [] → Header .zlib s
  lz4 : ∀ x s, be.lz4Flex.frameEncoder.Encodes x s → s ≠ [] → Header .lz4 s
  snappy : ∀ x s, be.snap.frameEncoder.Encodes x s → s ≠ [] → Header .snappy s
  snappyEmpty : ∀ x s, be.snap.frameEncoder.Encodes x s → (s = [] ↔ x = [])
  xzLzmaRs : ∀ x s, be.lzmaRs.xzCompress x = .ok s → s ≠ [] → Header .xz s
  xzLiblzma : ∀ x preset s, be.liblzma.xzEncoder x preset = .ok s → s ≠ [] → Header .xz s
  lzma : ∀ x s, be.lzmaRs.lzmaCompress x = .ok s → s ≠ [] → Header .lzma s
  bzip2 : ∀ x lvl s, (be.bzip2.bzEncoder lvl).Encodes x s → s ≠ [] → Header .bzip2 s

section Marked

variable {be : Backends} {c : Codec} {x s : Bytes} {level : Option Int32}

theorem Codec.header_compress (h : EncodersMark be) (hc : MagicBearing c)
    (hs : c.compress be x level = .ok s) (hne : s ≠ []) : Header c s := by
  cases c with
  | zstd => exact h.zstd x _ s (corruptErr_eq_ok.mp hs) hne
  | gzip => exact h.gzip x _ s (Encoder.encode_eq_ok.mp hs) hne
  | zlib => exact h.zlib x _ s (Encoder.encode_eq_ok.mp hs) hne
  | lz4 => exact h.lz4 x s (Encoder.encode_eq_ok.mp hs) hne
  | snappy => exact h.snappy x s (Encoder.encode_eq_ok.mp hs) hne
  | xz =>
      rw [Codec.compress, Xz.compressXz] at hs
      cases hx : be.xzBackend with
      | lzmaRs => rw [hx] at hs; exact h.xzLzmaRs x s (corruptErr_eq_ok.mp hs) hne
      | liblzma => rw [hx] at hs; exact h.xzLiblzma x _ s (corruptErr_eq_ok.mp hs) hne
  | lzma => exact h.lzma x s (corruptErr_eq_ok.mp hs) hne
  | bzip2 => exact h.bzip2 x _ s (Encoder.encode_eq_ok.mp hs) hne
  | brotli | deflate | lz4Block | snappyRaw => exact hc.elim

/-- A stream that decodes in full under every cap passes the trial: it
ends well, or it outgrows the trial cap. -/
theorem Yields.trialOk_eq (h : Yields be c s x) (hx : x.length ≤ isizeMax) :
    trialOk be c s = true := by
  rw [trialOk, h.decompress_eq hx trialCap, payloadUnder]
  by_cases hle : x.length ≤ trialCap.toNat
  · rw [if_pos hle]
  · rw [if_neg hle]

/-- The stream is told from its bytes and comes back as the payload. -/
def AutoInverts (be : Backends) (c : Codec) (x s : Bytes) : Prop :=
  detectCodec be s = some c.name
    ∧ ∀ cap : UInt64, x.length ≤ cap.toNat → decompressAuto be s cap = .ok x

theorem not_autoInverts_nil : ¬AutoInverts be c x [] := by
  rintro ⟨h, -⟩
  cases h

theorem autoInverts_of_detect (hd : detect be s = some c) (h : Yields be c s x)
    (hx : x.length ≤ isizeMax) : AutoInverts be c x s := by
  refine ⟨by rw [detectCodec, hd]; rfl, fun cap hcap => ?_⟩
  rw [decompressAuto_of_detect hd, h.decompress_eq hx cap, payloadUnder, if_pos hcap]

theorem autoInverts_iff_ne_nil (hinv : EncodersInvert be) (hmark : EncodersMark be)
    (hc : MagicBearing c) (x : Slice) (hs : c.compress be x.1 level = .ok s) :
    AutoInverts be c x.1 s ↔ s ≠ [] := by
  have hb : c ≠ .lz4Block := by rintro rfl; exact hc
  have hr : c ≠ .snappyRaw := by rintro rfl; exact hc
  have hyields := Codec.yields_compress hinv hb hr hs
  constructor
  · rintro h rfl
    exact not_autoInverts_nil h
  · intro hne
    have hmarked : Marked be c s :=
      ⟨Codec.header_compress hmark hc hs hne, fun _ => hyields.trialOk_eq x.2⟩
    exact autoInverts_of_detect (detect_eq_some_iff.mpr hmarked) hyields x.2

/-- All encoders but that of framed snappy emit a header for every payload. -/
def EmitsHeaders (be : Backends) : Prop :=
  ∀ c x level, MagicBearing c → c ≠ .snappy → c.compress be x level ≠ .ok []

/-- The other seven codecs with a header are inverted on every payload. -/
theorem autoInverts_of_emits (hinv : EncodersInvert be) (hmark : EncodersMark be)
    (hemits : EmitsHeaders be) (hc : MagicBearing c) (hne : c ≠ .snappy) (x : Slice)
    (hs : c.compress be x.1 level = .ok s) : AutoInverts be c x.1 s := by
  refine (autoInverts_iff_ne_nil hinv hmark hc x hs).mpr ?_
  rintro rfl
  exact hemits c x.1 level hc hne hs

/-- **Auto-decompression inverts compression** for a codec with a header
exactly when the encoder emitted anything: for snappy, when the payload
is not empty. -/
theorem auto_inverts_compress_iff (hinv : EncodersInvert be) (hmark : EncodersMark be)
    (hc : MagicBearing c) (x : Slice) (level : Option Int32)
    (hs : compress be c.name x.1 level = .ok s) :
    (AutoInverts be c x.1 s ↔ s ≠ [])
      ∧ (c = .snappy → (AutoInverts be c x.1 s ↔ x.1 ≠ [])) := by
  rw [compress_of_parse c.parse_name] at hs
  have hiff := autoInverts_iff_ne_nil hinv hmark hc x hs
  refine ⟨hiff, ?_⟩
  rintro rfl
  rw [hiff]
  exact not_congr (hmark.snappyEmpty x.1 s (Encoder.encode_eq_ok.mp hs))

end Marked

namespace Sample

theorem zlib_headers : ∀ p ∈ zlibTable, Header .zlib p.2 := by
  simp only [zlibTable, List.forall_mem_cons, List.not_mem_nil, false_imp_iff, implies_true,
    and_true]
  refine ⟨⟨0x78, 0x9c, _, rfl, ?_⟩, ⟨0x78, 0x9c, _, rfl, ?_⟩, 0x78, 0x9c, _, rfl, ?_⟩
  · decide
  · decide
  · decide

theorem bzip2_headers : ∀ p ∈ bzip2Table, Header .bzip2 p.2 := by
  simp only [bzip2Table, List.forall_mem_cons, List.not_mem_nil, false_imp_iff, implies_true,
    and_true]
  refine ⟨⟨0x39, _, rfl, ?_⟩, ⟨0x39, _, rfl, ?_⟩, 0x39, _, rfl, ?_⟩
  · decide
  · decide
  · decide

theorem xz_headers : ∀ p ∈ xzTable, [0xfd, 0x37, 0x7a, 0x58, 0x5a, 0x00] <+: p.2 := by decide

theorem encodersMark : EncodersMark build where
  zstd x lvl s hs _ := by
    have hheaders : ∀ p ∈ zstdTable, [0x28, 0xb5, 0x2f, 0xfd] <+: p.2 := by decide
    exact hheaders (x, s) (mem_of_encode hs)
  gzip x lvl s hs _ := by
    have hheaders : ∀ p ∈ gzipTable, [0x1f, 0x8b] <+: p.2 := by decide
    exact hheaders (x, s) (mem_of_encode hs.2)
  zlib x lvl s hs _ := zlib_headers (x, s) (mem_of_encode hs.2)
  lz4 x s hs _ := by
    have hheaders : ∀ p ∈ lz4Table, [0x04, 0x22, 0x4d, 0x18] <+: p.2 := by decide
    exact hheaders (x, s) (mem_of_encode hs.2)
  snappy x s hs hne := by
    have hheaders : ∀ p ∈ snappyTable, p.2 ≠ [] →
        [0xff, 0x06, 0x00, 0x00, 0x73, 0x4e, 0x61, 0x50, 0x70, 0x59] <+: p.2 := by decide
    exact hheaders (x, s) (mem_of_encode hs.2) hne
  snappyEmpty x s hs := by
    have hempty : ∀ p ∈ snappyTable, p.2 = [] ↔ p.1 = [] := by decide
    exact hempty (x, s) (mem_of_encode hs.2)
  xzLzmaRs x s hs _ := xz_headers (x, s) (mem_of_encode hs)
  xzLiblzma x preset s hs _ := xz_headers (x, s) (mem_of_encode hs)
  lzma x s hs _ := by
    have hheaders : ∀ p ∈ lzmaTable, 13 ≤ p.2.length ∧ [0x5d] <+: p.2 := by decide
    exact hheaders (x, s) (mem_of_encode hs)
  bzip2 x lvl s hs _ := bzip2_headers (x, s) (mem_of_encode hs.2)

theorem emitsHeaders : EmitsHeaders build := by
  intro c x level hc hne hs
  have hfinish {table : Table} (hs : (encoder table).encode x = .ok []) : (x, []) ∈ table :=
    mem_of_encode (Encoder.encode_eq_ok.mp hs).2
  have hsome {table : Table} (hall : ∀ p ∈ table, p.2 ≠ []) (hmem : (x, []) ∈ table) : False :=
    hall (x, []) hmem rfl
  cases c with
  | gzip | zlib | lz4 | bzip2 => exact hsome (by decide) (hfinish hs)
  | zstd | xz | lzma => exact hsome (by decide) (mem_of_encode (corruptErr_eq_ok.mp hs))
  | snappy => exact hne rfl
  | brotli | deflate | lz4Block | snappyRaw => exact hc

end Sample

/-- `auto_inverts_compress_iff` on `"a"` and zlib. -/
theorem auto_inverts_compress_sample : AutoInverts Sample.build .zlib [0x61] Sample.zlib := by
  have hs : compress Sample.build "zlib" [0x61] none = .ok Sample.zlib := by decide +kernel
  exact (auto_inverts_compress_iff Sample.encodersInvert Sample.encodersMark (c := .zlib)
    trivial ⟨[0x61], by decide⟩ none hs).1.mpr (by decide)

/-- An empty payload in framed snappy is an empty stream, which no
signature can claim. -/
theorem empty_snappy_undetected :
    compress Sample.build "snappy" [] none = .ok []
      ∧ decompress Sample.build "snappy" [] defaultMaxOutputBytes = .ok []
      ∧ detectCodec Sample.build [] = none
      ∧ decompressAuto Sample.build [] defaultMaxOutputBytes = .err .noMagic := by
  decide +kernel

end VgiCompress
