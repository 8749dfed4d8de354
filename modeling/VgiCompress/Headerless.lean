import VgiCompress.Detection

/-!
# Streams that begin with a length

`lz4_block` and `snappy_raw` streams have no signature, they begin with
the length of the payload. So the payload chooses the bytes detection
looks at, and some lengths read as another codec's header.

`Lz4Claimed` and `SnappyClaimed` list these lengths, with what of the
block has to follow; only for them is the stream taken for another codec
(`headerless_undetected_iff`).
-/

namespace VgiCompress

open RustStd

section Headerless

variable {be : Backends}

/-- Detection and auto-decompression both pass on the stream. -/
def Undetected (be : Backends) (s : Bytes) : Prop :=
  detectCodec be s = none ∧ ∀ cap, decompressAuto be s cap = .err .noMagic

theorem undetected_iff {s : Bytes} : Undetected be s ↔ ∀ c, ¬Marked be c s := by
  rw [← detect_eq_none_iff, Undetected, detectCodec, Option.map_eq_none_iff]
  constructor
  · exact And.left
  · intro h
    refine ⟨h, fun cap => ?_⟩
    rw [decompressAuto, h]

/-! ## The little-endian prefix of `lz4_block` -/

/-- A payload of `n` bytes whose block stream has another codec's header. -/
def Lz4Claimed (be : Backends) (n : Nat) (block : Bytes) : Prop :=
  n % 2 ^ 16 = 0x8b1f
    ∨ n % 2 ^ 32 = 0xfd2fb528
    ∨ n % 2 ^ 32 = 0x184d2204
    ∨ (n % 2 ^ 24 = 0x685a42 ∧ 0x31 ≤ n / 2 ^ 24 % 256 ∧ n / 2 ^ 24 % 256 ≤ 0x39)
    ∨ (n % 2 ^ 32 = 0x6ff ∧ [0x73, 0x4e, 0x61, 0x50, 0x70, 0x59] <+: block)
    ∨ (n % 2 ^ 32 = 0x587a37fd ∧ [0x5a, 0x00] <+: block)
    ∨ (ZlibHeader (n % 2 ^ 8) (n / 2 ^ 8 % 2 ^ 8) ∧ trialOk be .zlib (u32ToLeBytes n ++ block) = true)
    ∨ (n % 256 = 0x5d ∧ 9 ≤ block.length ∧ trialOk be .lzma (u32ToLeBytes n ++ block) = true)

theorem eq_ofNat_iff {n : Nat} {b : UInt8} : b = .ofNat n ↔ n % 256 = b.toNat := by
  rw [← UInt8.toNat_inj, UInt8.toNat_ofNat', eq_comm]

theorem u32ToLeBytes_append (n : Nat) (block : Bytes) :
    u32ToLeBytes n ++ block =
      .ofNat n :: .ofNat (n / 2 ^ 8) :: .ofNat (n / 2 ^ 16) :: .ofNat (n / 2 ^ 24) :: block :=
  rfl

section Lz4Block

variable (n : Nat) (block : Bytes)

/-- Four bytes fix the length, and the block has to go on as they do. -/
theorem cons_prefix_lz4Block {b0 b1 b2 b3 : UInt8} {v : Nat}
    (hv : b0.toNat + 2 ^ 8 * b1.toNat + 2 ^ 16 * b2.toNat + 2 ^ 24 * b3.toNat = v)
    (rest : Bytes) :
    b0 :: b1 :: b2 :: b3 :: rest <+: u32ToLeBytes n ++ block ↔
      n % 2 ^ 32 = v ∧ rest <+: block := by
  have h0 := b0.toNat_lt
  have h1 := b1.toNat_lt
  have h2 := b2.toNat_lt
  have h3 := b3.toNat_lt
  rw [u32ToLeBytes_append, List.cons_prefix_cons, List.cons_prefix_cons,
    List.cons_prefix_cons, List.cons_prefix_cons, eq_ofNat_iff, eq_ofNat_iff, eq_ofNat_iff,
    eq_ofNat_iff, ← and_assoc, ← and_assoc, ← and_assoc]
  refine and_congr_left fun _ => ?_
  omega

theorem header_gzip_lz4Block :
    Header .gzip (u32ToLeBytes n ++ block) ↔ n % 2 ^ 16 = 0x8b1f := by
  simp only [u32ToLeBytes_append, Header, List.cons_prefix_cons, List.nil_prefix, and_true,
    eq_ofNat_iff, UInt8.reduceToNat]
  omega

theorem header_zstd_lz4Block :
    Header .zstd (u32ToLeBytes n ++ block) ↔ n % 2 ^ 32 = 0xfd2fb528 :=
  (cons_prefix_lz4Block n block (by decide) []).trans (and_iff_left List.nil_prefix)

theorem header_lz4_lz4Block :
    Header .lz4 (u32ToLeBytes n ++ block) ↔ n % 2 ^ 32 = 0x184d2204 :=
  (cons_prefix_lz4Block n block (by decide) []).trans (and_iff_left List.nil_prefix)

theorem header_snappy_lz4Block :
    Header .snappy (u32ToLeBytes n ++ block) ↔
      n % 2 ^ 32 = 0x6ff ∧ [0x73, 0x4e, 0x61, 0x50, 0x70, 0x59] <+: block :=
  cons_prefix_lz4Block n block (by decide) _

theorem header_xz_lz4Block :
    Header .xz (u32ToLeBytes n ++ block) ↔
      n % 2 ^ 32 = 0x587a37fd ∧ [0x5a, 0x00] <+: block :=
  cons_prefix_lz4Block n block (by decide) _

theorem header_bzip2_lz4Block :
    Header .bzip2 (u32ToLeBytes n ++ block) ↔
      n % 2 ^ 24 = 0x685a42 ∧ 0x31 ≤ n / 2 ^ 24 % 256 ∧ n / 2 ^ 24 % 256 ≤ 0x39 := by
  have hlo : (0x31 : UInt8) ≤ .ofNat (n / 2 ^ 24) ↔ 0x31 ≤ n / 2 ^ 24 % 256 := by
    rw [UInt8.le_iff_toNat_le, UInt8.toNat_ofNat']; rfl
  have hhi : UInt8.ofNat (n / 2 ^ 24) ≤ 0x39 ↔ n / 2 ^ 24 % 256 ≤ 0x39 := by
    rw [UInt8.le_iff_toNat_le, UInt8.toNat_ofNat']; rfl
  have hmagic : n % 2 ^ 24 = 0x685a42 ↔ 0x42 = UInt8.ofNat n
      ∧ 0x5a = UInt8.ofNat (n / 2 ^ 8) ∧ 0x68 = UInt8.ofNat (n / 2 ^ 16) := by
    simp only [eq_ofNat_iff, UInt8.reduceToNat]
    omega
  rw [← hlo, ← hhi, hmagic, u32ToLeBytes_append]
  constructor
  · rintro ⟨level, rest, heq, hlevel⟩
    obtain ⟨h0, h1, h2, rfl, -⟩ := by simpa only [List.cons.injEq] using heq
    exact ⟨⟨h0.symm, h1.symm, h2.symm⟩, hlevel⟩
  · rintro ⟨⟨h0, h1, h2⟩, hlevel⟩
    exact ⟨_, _, by rw [← h0, ← h1, ← h2], hlevel⟩

theorem header_zlib_lz4Block :
    Header .zlib (u32ToLeBytes n ++ block) ↔ ZlibHeader (n % 2 ^ 8) (n / 2 ^ 8 % 2 ^ 8) := by
  rw [u32ToLeBytes_append]
  constructor
  · rintro ⟨cmf, flg, rest, heq, h⟩
    cases heq
    simpa only [UInt8.toNat_ofNat'] using h
  · intro h
    exact ⟨_, _, _, rfl, by simpa only [UInt8.toNat_ofNat'] using h⟩

theorem header_lzma_lz4Block :
    Header .lzma (u32ToLeBytes n ++ block) ↔ n % 256 = 0x5d ∧ 9 ≤ block.length := by
  simp only [u32ToLeBytes_append, Header, List.cons_prefix_cons, List.nil_prefix, and_true,
    eq_ofNat_iff, UInt8.reduceToNat, List.length_cons]
  omega

theorem exists_marked_lz4Block :
    (∃ c, Marked be c (u32ToLeBytes n ++ block)) ↔ Lz4Claimed be n block := by
  rw [exists_marked_iff, header_gzip_lz4Block, header_zstd_lz4Block, header_lz4_lz4Block,
    header_bzip2_lz4Block, header_snappy_lz4Block, header_xz_lz4Block, header_zlib_lz4Block,
    header_lzma_lz4Block, and_assoc, Lz4Claimed]

end Lz4Block

/-! ## The varint prefix of `snappy_raw` -/

/-- Base-128 digits, lowest first, the top bit set on all but the last. -/
def varint (n : Nat) : Bytes :=
  if n < 128 then [.ofNat n] else .ofNat (n % 128 + 128) :: varint (n / 128)

/-- A block begins with a literal, whose tag ends in two zero bits. -/
def StartsLiteral (elements : Bytes) : Prop :=
  ∀ tag rest, elements = tag :: rest → tag.toNat % 4 = 0

/-- snap's raw encoder writes the length and then a literal. -/
def Crate.Snap.WritesRaw (snap : Crate.Snap) : Prop :=
  ∀ x s, snap.compressVec x = .ok s →
    ∃ elements, s = varint x.length ++ elements ∧ StartsLiteral elements

/-- A payload of `n` bytes whose raw stream has another codec's header. -/
def SnappyClaimed (be : Backends) (n : Nat) (elements : Bytes) : Prop :=
  (n = 895 ∧ [0x00, 0x00, 0x73, 0x4e, 0x61, 0x50, 0x70, 0x59] <+: elements)
    ∨ (n < 128 ∧ (∃ tag rest, elements = tag :: rest ∧ ZlibHeader n tag.toNat)
      ∧ trialOk be .zlib (varint n ++ elements) = true)
    ∨ (n = 93 ∧ 12 ≤ elements.length ∧ trialOk be .lzma (varint n ++ elements) = true)

section SnappyRaw

variable (n : Nat) (elements : Bytes)

theorem varint_of_lt {n : Nat} (h : n < 128) : varint n = [.ofNat n] := by
  rw [varint, if_pos h]

theorem varint_of_le {n : Nat} (h : 128 ≤ n) :
    varint n = .ofNat (n % 128 + 128) :: varint (n / 128) := by
  rw [varint, if_neg (Nat.not_lt.mpr h)]

/-- A last digit in front is the whole length. -/
theorem cons_prefix_varint_last {b : UInt8} (hb : b.toNat < 128) (rest : Bytes) :
    b :: rest <+: varint n ++ elements ↔ n = b.toNat ∧ rest <+: elements := by
  by_cases hn : n < 128
  · rw [varint_of_lt hn, List.singleton_append, List.cons_prefix_cons, eq_ofNat_iff,
      Nat.mod_eq_of_lt (by omega)]
  · have hne : (n % 128 + 128) % 256 ≠ b.toNat := by omega
    rw [varint_of_le (Nat.not_lt.mp hn), List.cons_append, List.cons_prefix_cons,
      eq_ofNat_iff]
    exact iff_of_false (fun h => hne h.1) (fun h => by omega)

/-- Another digit in front is the lowest of a longer length. -/
theorem cons_prefix_varint_more {b : UInt8} (hb : 128 ≤ b.toNat) (rest : Bytes) :
    b :: rest <+: varint n ++ elements ↔
      128 ≤ n ∧ n % 128 + 128 = b.toNat ∧ rest <+: varint (n / 128) ++ elements := by
  by_cases hn : n < 128
  · rw [varint_of_lt hn, List.singleton_append, List.cons_prefix_cons, eq_ofNat_iff,
      Nat.mod_eq_of_lt (by omega)]
    exact iff_of_false (fun h => by omega) (fun h => by omega)
  · have hn := Nat.not_lt.mp hn
    rw [varint_of_le hn, List.cons_append, List.cons_prefix_cons, eq_ofNat_iff,
      Nat.mod_eq_of_lt (by omega)]
    exact ⟨fun h => ⟨hn, h⟩, And.right⟩

variable {n elements}

theorem StartsLiteral.not_prefix (h : StartsLiteral elements) {tag : UInt8} {rest : Bytes}
    (ht : tag.toNat % 4 ≠ 0) : ¬tag :: rest <+: elements := by
  rintro ⟨t, rfl⟩
  exact ht (h tag (rest ++ t) rfl)

theorem not_header_gzip_snappyRaw (h : StartsLiteral elements) :
    ¬Header .gzip (varint n ++ elements) := by
  rw [Header, cons_prefix_varint_last n elements (by decide)]
  exact fun hp => h.not_prefix (by decide) hp.2

theorem not_header_zstd_snappyRaw (h : StartsLiteral elements) :
    ¬Header .zstd (varint n ++ elements) := by
  rw [Header, cons_prefix_varint_last n elements (by decide)]
  exact fun hp => h.not_prefix (by decide) hp.2

theorem not_header_lz4_snappyRaw (h : StartsLiteral elements) :
    ¬Header .lz4 (varint n ++ elements) := by
  rw [Header, cons_prefix_varint_last n elements (by decide)]
  exact fun hp => h.not_prefix (by decide) hp.2

theorem not_header_bzip2_snappyRaw (h : StartsLiteral elements) :
    ¬Header .bzip2 (varint n ++ elements) := by
  rintro ⟨level, rest, heq, -⟩
  have hp : 0x42 :: 0x5a :: 0x68 :: level :: rest <+: varint n ++ elements :=
    heq ▸ List.prefix_refl _
  rw [cons_prefix_varint_last n elements (by decide)] at hp
  exact h.not_prefix (by decide) hp.2

theorem not_header_xz_snappyRaw (h : StartsLiteral elements) :
    ¬Header .xz (varint n ++ elements) := by
  rw [Header, cons_prefix_varint_more n elements (by decide),
    cons_prefix_varint_last (n / 128) elements (by decide)]
  exact fun hp => h.not_prefix (by decide) hp.2.2.2

theorem header_snappy_snappyRaw :
    Header .snappy (varint n ++ elements) ↔
      n = 895 ∧ [0x00, 0x00, 0x73, 0x4e, 0x61, 0x50, 0x70, 0x59] <+: elements := by
  rw [Header, cons_prefix_varint_more n elements (by decide),
    cons_prefix_varint_last (n / 128) elements (by decide), ← and_assoc, ← and_assoc]
  simp only [UInt8.reduceToNat]
  refine and_congr_left fun _ => ?_
  omega

theorem header_zlib_snappyRaw :
    Header .zlib (varint n ++ elements) ↔
      n < 128 ∧ ∃ tag rest, elements = tag :: rest ∧ ZlibHeader n tag.toNat := by
  constructor
  · rintro ⟨cmf, flg, rest, heq, h⟩
    have hcmf : cmf.toNat < 128 := by
      obtain ⟨hcm, hcinfo, -⟩ := h
      omega
    have hp : cmf :: flg :: rest <+: varint n ++ elements := heq ▸ List.prefix_refl _
    rw [cons_prefix_varint_last n elements hcmf] at hp
    obtain ⟨rfl, t, ht⟩ := hp
    exact ⟨hcmf, flg, rest ++ t, ht.symm, h⟩
  · rintro ⟨hn, tag, rest, rfl, h⟩
    refine ⟨.ofNat n, tag, rest, by rw [varint_of_lt hn]; rfl, ?_⟩
    rwa [UInt8.toNat_ofNat', Nat.mod_eq_of_lt (by omega)]

theorem header_lzma_snappyRaw :
    Header .lzma (varint n ++ elements) ↔ n = 93 ∧ 12 ≤ elements.length := by
  rw [Header, cons_prefix_varint_last n elements (by decide)]
  simp only [UInt8.reduceToNat, List.nil_prefix, and_true]
  constructor
  · rintro ⟨hlen, rfl⟩
    rw [varint_of_lt (by decide), List.singleton_append, List.length_cons] at hlen
    exact ⟨rfl, by omega⟩
  · rintro ⟨rfl, hlen⟩
    rw [varint_of_lt (by decide), List.singleton_append, List.length_cons]
    exact ⟨by omega, rfl⟩

theorem exists_marked_snappyRaw (h : StartsLiteral elements) :
    (∃ c, Marked be c (varint n ++ elements)) ↔ SnappyClaimed be n elements := by
  rw [exists_marked_iff, header_snappy_snappyRaw, header_zlib_snappyRaw,
    header_lzma_snappyRaw, SnappyClaimed]
  simp only [not_header_gzip_snappyRaw h, not_header_zstd_snappyRaw h,
    not_header_lz4_snappyRaw h, not_header_bzip2_snappyRaw h, not_header_xz_snappyRaw h,
    false_or, and_assoc]

end SnappyRaw

theorem Sample.writesRaw : Sample.build.snap.WritesRaw := by
  intro x s hs
  have hshort : ∀ p ∈ Sample.snappyRawTable, p.1.length < 128
      ∧ p.2 = .ofNat p.1.length :: p.2.tail ∧ ∀ tag ∈ p.2.tail.head?, tag.toNat % 4 = 0 := by
    decide +kernel
  obtain ⟨hlen, hs, htag⟩ := hshort (x, s) (Sample.mem_of_encode hs)
  refine ⟨s.tail, by rw [varint_of_lt hlen]; exact hs, ?_⟩
  intro tag rest heq
  exact htag tag (by rw [heq]; rfl)

/-! ## The two formats -/

/-- **A headerless stream goes undetected** exactly when its length, with
what follows, is not one that reads as another codec's header. -/
theorem headerless_undetected_iff (hlz4 : be.lz4Flex.WritesPrefix) (hsnap : be.snap.WritesRaw)
    (x : Bytes) (level : Option Int32) (s : Bytes) :
    (compress be "lz4_block" x level = .ok s →
      (Undetected be s ↔ ¬Lz4Claimed be x.length (s.drop 4)))
    ∧ (compress be "snappy_raw" x level = .ok s →
      (Undetected be s ↔ ¬SnappyClaimed be x.length (s.drop (varint x.length).length))) := by
  constructor
  · intro hs
    have hs : be.lz4Flex.compressPrependSize x = s := Outcome.ok.inj hs
    obtain ⟨block, hblock⟩ := hlz4 x
    have hdrop : s.drop 4 = block := by rw [← hs, ← hblock]; rfl
    rw [undetected_iff, hdrop, ← exists_marked_lz4Block, hblock, hs, not_exists]
  · intro hs
    have hs : be.snap.compressVec x = .ok s := corruptErr_eq_ok.mp hs
    obtain ⟨elements, rfl, hlit⟩ := hsnap x s hs
    rw [undetected_iff, List.drop_left, ← exists_marked_snappyRaw hlit, not_exists]

end Headerless

/-- `headerless_undetected_iff` on `"a"` in both formats. -/
theorem headerless_undetected_sample :
    Undetected Sample.build (Sample.lz4Block [0x61])
      ∧ Undetected Sample.build Sample.snappyRaw := by
  obtain ⟨hlz4, -⟩ := headerless_undetected_iff Sample.encodersInvert.lz4Prefix
    Sample.writesRaw [0x61] none (Sample.lz4Block [0x61])
  obtain ⟨-, hsnap⟩ := headerless_undetected_iff Sample.encodersInvert.lz4Prefix
    Sample.writesRaw [0x61] none Sample.snappyRaw
  refine ⟨(hlz4 (by decide +kernel)).mpr ?_, (hsnap (by decide +kernel)).mpr ?_⟩
  · simp [Lz4Claimed, ZlibHeader]
  · simp [SnappyClaimed, ZlibHeader]

/-- 35615 zeros as an `lz4_block`: the length prefix is `1f 8b 00 00`. -/
theorem zeros_detected_as_gzip :
    compress Sample.build "lz4_block" (List.replicate 35615 0) none
        = .ok (Sample.lz4Block (List.replicate 35615 0))
      ∧ detectCodec Sample.build (Sample.lz4Block (List.replicate 35615 0)) = some "gzip"
      ∧ ¬Undetected Sample.build (Sample.lz4Block (List.replicate 35615 0)) := by
  have hdetect : detectCodec Sample.build (Sample.lz4Block (List.replicate 35615 0))
      = some "gzip" := by
    have hgzip (rest : Bytes) : detect Sample.build (u32ToLeBytes 35615 ++ rest) = some .gzip :=
      detect_eq_some_iff.mpr ⟨(header_gzip_lz4Block 35615 rest).mpr (by decide), nofun⟩
    rw [Sample.lz4Block, List.length_replicate, detectCodec, hgzip]
    rfl
  refine ⟨rfl, hdetect, fun h => ?_⟩
  rw [h.1] at hdetect
  cases hdetect

end VgiCompress
