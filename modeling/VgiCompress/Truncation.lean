import VgiCompress.Blocks
import VgiCompress.Encoders

/-!
# Streams that are cut short

`CutsKnown` is what the backend of one codec is trusted with on a strict
prefix of a stream of its own encoder: a streaming decoder delivers some
of the payload and then fails, or it ends well, if what is left looks
whole to it. In four formats it can (`CutUnseen`), and there the drivers
report success over part of the payload (`truncation_is_corrupt_iff`):
nothing compares the output of an lz4 block with the length it declares, a
framed snappy stream declares none, and the end marks of lz4 frames and
lzma streams are not insisted on.
-/

namespace VgiCompress

open RustStd

/-- `p` is `s` cut short. -/
def CutOf (p s : Bytes) : Prop := p <+: s ∧ p ≠ s

/-- The decode reported malformed input. -/
def IsCorrupt (res : Outcome CodecError Bytes) : Prop := ∃ why, res = .err (.corrupt why)

/-! ## Cuts that go unseen -/

/-- What is left looks whole: an lz4 frame up to where a block could begin,
an lz4 block that ends after a run of literals and stays within the size it
declares, snappy chunks, or an lzma stream whose range decoder is at 0. -/
def CutUnseen : Codec → Bytes → Prop
  | .lz4, p => Lz4.atBlockInfo p = true
  | .lz4Block, p => ∃ n v, Lz4.declaredSize p = some n ∧ Lz4.blockOutput (p.drop 4) = some v
      ∧ v.length ≤ n.toNat
  | .snappy, p => Snappy.atChunkBoundary p = true
  | .lzma, p => (Lzma.flatEnd p).isSome = true
  | _, _ => False

/-! ## What the backends are trusted with -/

/-- A block may end after any run of literals. -/
structure Crate.Lz4Flex.CutsKnown (lz : Crate.Lz4Flex) : Prop where
  writes : lz.WritesPrefix
  block : ∀ x p n v, CutOf p (lz.compressPrependSize x) → Lz4.declaredSize p = some n →
    (lz.decompressSizePrepended p = .ok v
      ↔ Lz4.blockOutput (p.drop 4) = some v ∧ v.length ≤ n.toNat)

structure Crate.Snap.CutsKnown (snap : Crate.Snap) : Prop where
  exact : snap.LenExact
  /-- The length that is read, if any, is the one that was written; an empty
  input has length 0. -/
  len : ∀ x s p n, snap.compressVec x = .ok s → CutOf p s →
    snap.decompressLen p = .ok n → n = if p = [] then 0 else x.length
  /-- The elements that are left come to less than the payload, and no
  elements are no block. -/
  short : ∀ x s p v, snap.compressVec x = .ok s → CutOf p s →
    snap.decompressVec p = .ok v → p ≠ [] ∧ v.length < x.length

/-- What the decoder of one codec makes of a stream that is cut short. A
streaming decoder delivers some of the payload, and ends well where what is
left looks whole. -/
def CutsKnown (be : Backends) : Codec → Prop
  | .lz4Block => be.lz4Flex.CutsKnown
  | .snappyRaw => be.snap.CutsKnown
  | c => ∀ x s p, Encoded be c x s → CutOf p s →
      ∃ ds ending, Streams be c p ds ending ∧ ds.flatten <+: x
        ∧ (ending = .ok () ↔ CutUnseen c p)

section Truncation

variable {be : Backends} {x s p : Bytes} {cap : UInt64}

theorem isCorrupt_corruptErr_iff {r : Except String Bytes} :
    IsCorrupt (corruptErr r) ↔ ∀ v, r ≠ .ok v := by
  cases r with
  | ok v => simp [IsCorrupt, corruptErr]
  | error e => simp [IsCorrupt, corruptErr]

/-- A decode of part of the payload is as its ending is. -/
theorem isCorrupt_settle_iff {ds : List Bytes} {ending : Except String Unit}
    (hwrites : ds.flatten <+: x) (hmem : x.length ≤ isizeMax) (hcap : x.length ≤ cap.toNat) :
    IsCorrupt (settle ds ending cap) ↔ ending ≠ .ok () := by
  have hle := hwrites.length_le
  have hfit : ds.flatten.length ≤ isizeMax := Nat.le_trans hle hmem
  have hnot : ¬cap.toNat < ds.flatten.length := by omega
  rw [(settle_refines ds ending cap).eq_under (.inl hfit), Decoding.under, if_neg hnot]
  cases ending with
  | ok u => simp [IsCorrupt, corruptErr]
  | error e => simp [IsCorrupt, corruptErr]

theorem Lz4.cut_isCorrupt_iff (h : be.lz4Flex.CutsKnown)
    (hcut : CutOf p (be.lz4Flex.compressPrependSize x)) (hcap : x.length ≤ cap.toNat) :
    IsCorrupt (Lz4.decompressBlock be p cap) ↔ ¬CutUnseen .lz4Block p := by
  rw [Lz4.decompressBlock]
  cases hn : Lz4.declaredSize p with
  | none =>
      refine iff_of_true ⟨_, rfl⟩ ?_
      rintro ⟨n, v, hn', -⟩
      rw [hn] at hn'
      cases hn'
  | some n =>
      -- what is declared is the payload's length, modulo `2 ^ 32`
      obtain ⟨m, hm, hlen⟩ := declaredSize_of_prefix (h.writes x)
      obtain rfl : n = m := Option.some.inj ((declaredSize_append hcut.1 hn).symm.trans hm)
      have hnot : ¬n > cap := by
        rw [gt_iff_lt, UInt64.lt_iff_toNat_lt, hlen]
        have hmod := Nat.mod_le x.length (2 ^ 32)
        omega
      simp only [if_neg hnot]
      rw [isCorrupt_corruptErr_iff]
      constructor
      · rintro hnone ⟨n', v, hn', hv, hfit⟩
        obtain rfl : n = n' := Option.some.inj (hn.symm.trans hn')
        exact hnone v ((h.block x p n v hcut hn).mpr ⟨hv, hfit⟩)
      · intro hseen v hv
        obtain ⟨hout, hfit⟩ := (h.block x p n v hcut hn).mp hv
        exact hseen ⟨n, v, hn, hout, hfit⟩

theorem Snappy.cut_isCorrupt (h : be.snap.CutsKnown) (hs : be.snap.compressVec x = .ok s)
    (hcut : CutOf p s) (hcap : x.length ≤ cap.toNat) :
    IsCorrupt (Snappy.decompressRaw be p cap) := by
  rw [Snappy.decompressRaw]
  cases hn : be.snap.decompressLen p with
  | error e => exact ⟨e, rfl⟩
  | ok n =>
      have hlen := h.len x s p n hs hcut hn
      have hle : n ≤ x.length := by
        rw [hlen]
        split <;> omega
      have hnot : ¬n > cap.toNat := by omega
      simp only [if_neg hnot]
      refine isCorrupt_corruptErr_iff.mpr fun v hv => ?_
      obtain ⟨hne, hlt⟩ := h.short x s p v hs hcut hv
      rw [if_neg hne] at hlen
      have hexact := h.exact p v n hv hn
      omega

/-- **A truncated stream is reported as corrupt** unless what is left looks
whole, which a cut lz4 frame or block, a cut framed snappy stream and a cut
lzma stream can. -/
theorem truncation_is_corrupt_iff {codec : String} {c : Codec}
    (hc : Codec.parse codec = .ok c) (h : CutsKnown be c) (x : Slice) (level : Option Int32)
    (hs : compress be codec x.1 level = .ok s) (hp : p <+: s) (hne : p ≠ s)
    (hcap : x.1.length ≤ cap.toNat) :
    IsCorrupt (decompress be codec p cap) ↔ ¬CutUnseen c p := by
  have hcut : CutOf p s := ⟨hp, hne⟩
  rw [compress_of_parse hc] at hs
  rw [decompress_of_parse hc]
  have henc : Encoded be c x.1 s := Codec.encoded_compress be hs
  cases c with
  | lz4Block =>
      obtain rfl : be.lz4Flex.compressPrependSize x.1 = s := Outcome.ok.inj hs
      exact Lz4.cut_isCorrupt_iff h hcut hcap
  | snappyRaw =>
      exact iff_of_true (Snappy.cut_isCorrupt h (corruptErr_eq_ok.mp hs) hcut hcap) id
  | zstd | gzip | zlib | deflate | brotli | lz4 | snappy | xz | lzma | bzip2 =>
      obtain ⟨ds, ending, hds, hwrites, hend⟩ := h x.1 s p henc hcut
      rw [hds.decompress_eq, isCorrupt_settle_iff hwrites x.2 hcap]
      exact not_congr hend

end Truncation

namespace Sample

/-! The cut build meets the assumption: a cut stream starts with none that
its decoder knows. -/

theorem decode_whole_cut {table : Table} (h : PrefixFree table) {x s p : Bytes}
    (hs : (x, s) ∈ table) (hcut : CutOf p s) : decode (· = p) table = none := by
  cases hfound : decode (· = p) table with
  | none => rfl
  | some y =>
      have hy := (decode_whole h.distinct).mp hfound
      exact absurd (congrArg Prod.snd (h (y, p) hy (x, s) hs hcut.1)) hcut.2

theorem decode_first_cut {table : Table} (h : PrefixFree table) {x s p : Bytes}
    (hs : (x, s) ∈ table) (hcut : CutOf p s) : decode (·.isPrefixOf p) table = none := by
  cases hfound : decode (·.isPrefixOf p) table with
  | none => rfl
  | some y =>
      obtain ⟨s', hs', hsp⟩ := (decode_first h).mp hfound
      obtain rfl : s' = s := congrArg Prod.snd (h (y, s') hs' (x, s) hs (hsp.trans hcut.1))
      exact absurd (hcut.1.eq_of_length_le hsp.length_le) hcut.2

theorem whole_cut {table : Table} (h : PrefixFree table) {x s p : Bytes} (hs : (x, s) ∈ table)
    (hcut : CutOf p s) : Delivers (whole table p) [] (.error "invalid stream") := by
  rw [whole, decode_whole_cut h hs hcut]
  exact ⟨rfl, rfl⟩

theorem first_cut {table : Table} (h : PrefixFree table) {x s p : Bytes} (hs : (x, s) ∈ table)
    (hcut : CutOf p s) : Delivers (first table p) [] (.error "invalid stream") := by
  rw [first, decode_first_cut h hs hcut]
  exact ⟨rfl, rfl⟩

theorem driven_cut {table : Table} (h : PrefixFree table) {x s p : Bytes} (hs : (x, s) ∈ table)
    (hcut : CutOf p s) : (driven table p).Scripted [] (.error "invalid stream") := by
  rw [driven, decode_whole_cut h hs hcut]
  exact .done _

theorem exists_take_of_cut {p s : Bytes} (hcut : CutOf p s) : ∃ k < s.length, p = s.take k := by
  refine ⟨p.length, ?_, List.prefix_iff_eq_take.mp hcut.1⟩
  exact Nat.lt_of_le_of_ne hcut.1.length_le fun heq => hcut.2 (hcut.1.eq_of_length heq)

theorem lz4_cuts : ∀ q ∈ lz4Table, ∀ k < q.2.length, Lz4.atBlockInfo (q.2.take k) = true →
    (∀ d ∈ storedBlocks (q.2.take k).length ((q.2.take k).drop 7), d ≠ [])
      ∧ (storedBlocks (q.2.take k).length ((q.2.take k).drop 7)).flatten <+: q.1 := by
  decide +kernel

theorem snappy_cuts : ∀ q ∈ snappyTable, ∀ k < q.2.length,
    decode (· = q.2.take k) snappyTable = if q.2.take k = [] then some [] else none := by
  decide +kernel

theorem lzma_cuts : ∀ q ∈ zerosTable, ∀ k < q.2.length,
    ∀ v ∈ Lzma.flatEnd (q.2.take k), v <+: q.1 := by
  decide +kernel

theorem lz4_cutsKnown : CutsKnown cutBuild .lz4 := by
  rintro x s p ⟨lvl, -, henc⟩ hcut
  have hs : (x, s) ∈ lz4Table := mem_of_encode (Encoder.encode_eq_ok.mp henc).2
  have hnone := decode_first_cut (by decide) hs hcut
  obtain ⟨k, hk, rfl⟩ := exists_take_of_cut hcut
  show ∃ ds ending, Delivers (unframeLz4 _) ds ending ∧ _
  rw [unframeLz4, hnone]
  by_cases hat : Lz4.atBlockInfo (s.take k) = true
  · obtain ⟨hne, hwrites⟩ := lz4_cuts (x, s) hs k hk hat
    obtain ⟨hchunks, hending⟩ := Reads.deliver_ok hne
    refine ⟨_, .ok (), ?_, hwrites, iff_of_true rfl hat⟩
    simp only [if_pos hat]
    exact ⟨hchunks, by rw [hending]; rfl⟩
  · refine ⟨[], .error "invalid stream", ?_, List.nil_prefix, iff_of_false nofun hat⟩
    simp only [if_neg hat]
    exact ⟨rfl, rfl⟩

theorem snappy_cutsKnown : CutsKnown cutBuild .snappy := by
  rintro x s p ⟨lvl, -, henc⟩ hcut
  have hs : (x, s) ∈ snappyTable := mem_of_encode (Encoder.encode_eq_ok.mp henc).2
  obtain ⟨k, hk, rfl⟩ := exists_take_of_cut hcut
  show ∃ ds ending, Delivers (unframe _) ds ending ∧ _
  rw [unframe, snappy_cuts (x, s) hs k hk]
  by_cases hp : s.take k = []
  · rw [if_pos hp, hp]
    exact ⟨[], .ok (), ⟨rfl, rfl⟩, List.nil_prefix, iff_of_true rfl rfl⟩
  · rw [if_neg hp]
    by_cases hat : Snappy.atChunkBoundary (s.take k) = true
    · refine ⟨[], .ok (), ?_, List.nil_prefix, iff_of_true rfl hat⟩
      simp only [if_pos hat]
      exact ⟨rfl, rfl⟩
    · refine ⟨[], .error "invalid stream", ?_, List.nil_prefix, iff_of_false nofun hat⟩
      simp only [if_neg hat]
      exact ⟨rfl, rfl⟩

theorem lzma_cutsKnown : CutsKnown cutBuild .lzma := by
  rintro x s p ⟨lvl, -, henc⟩ hcut
  have hs : (x, s) ∈ zerosTable := mem_of_encode (corruptErr_eq_ok.mp henc)
  have hnone := decode_whole_cut (by decide) hs hcut
  obtain ⟨k, hk, rfl⟩ := exists_take_of_cut hcut
  show ∃ ds ending, (unlzma _).Scripted ds ending ∧ _
  rw [unlzma, hnone]
  cases hend : Lzma.flatEnd (s.take k) with
  | none =>
      refine ⟨[], .error "invalid stream", .done _, List.nil_prefix, iff_of_false nofun ?_⟩
      simp [CutUnseen, hend]
  | some v =>
      refine ⟨[v], .ok (), Writes.scripted_script _ _ _, ?_, iff_of_true rfl ?_⟩
      · rw [List.flatten_singleton]
        exact lzma_cuts (x, s) hs k hk v hend
      · simp [CutUnseen, hend]

/-- The decoders of the other codecs refuse every cut. -/
theorem cut_refused {c : Codec} {p : Bytes} (x : Bytes) (hseen : ¬CutUnseen c p)
    (h : Streams cutBuild c p [] (.error "invalid stream")) :
    ∃ ds ending, Streams cutBuild c p ds ending ∧ ds.flatten <+: x
      ∧ (ending = .ok () ↔ CutUnseen c p) :=
  ⟨[], _, h, List.nil_prefix, iff_of_false nofun hseen⟩

theorem cutsKnown (c : Codec) : CutsKnown cutBuild c := by
  have hfinish {table : Table} {x s : Bytes} (henc : (encoder table).encode x = .ok s) :
      (x, s) ∈ table := mem_of_encode (Encoder.encode_eq_ok.mp henc).2
  cases c with
  | zstd =>
      rintro x s p ⟨lvl, -, henc⟩ hcut
      have hs : (x, s) ∈ zstdTable := mem_of_encode (corruptErr_eq_ok.mp henc)
      exact cut_refused x id (whole_cut (by decide) hs hcut)
  | gzip =>
      rintro x s p ⟨lvl, -, henc⟩ hcut
      exact cut_refused x id (first_cut (by decide) (hfinish henc) hcut)
  | zlib =>
      rintro x s p ⟨lvl, -, henc⟩ hcut
      exact cut_refused x id (first_cut (by decide) (hfinish henc) hcut)
  | deflate =>
      rintro x s p ⟨lvl, -, henc⟩ hcut
      exact cut_refused x id (first_cut (by decide) (hfinish henc) hcut)
  | brotli =>
      rintro x s p ⟨lvl, -, henc⟩ hcut
      exact cut_refused x id (first_cut (by decide) (hfinish henc) hcut)
  | bzip2 =>
      rintro x s p ⟨lvl, -, henc⟩ hcut
      exact cut_refused x id (first_cut (by decide) (hfinish henc) hcut)
  | xz =>
      rintro x s p ⟨lvl, -, henc⟩ hcut
      have hs : (x, s) ∈ xzTable := mem_of_encode (corruptErr_eq_ok.mp henc)
      exact cut_refused x id (driven_cut (by decide) hs hcut)
  | lz4 => exact lz4_cutsKnown
  | snappy => exact snappy_cutsKnown
  | lzma => exact lzma_cutsKnown
  | lz4Block =>
      refine ⟨fun x => ?_, fun _ _ _ _ _ hn => unblock_eq_ok hn⟩
      show u32ToLeBytes x.length <+: (if x = zeros then zerosBlock else lz4Block x)
      split
      · next hx => subst hx; decide
      · exact List.prefix_append _ _
  | snappyRaw =>
      refine ⟨lenExact, fun x s p n hs hcut hn => ?_, fun x s p v hs hcut hv => ?_⟩
      · change knownLen snappyRawTable p = .ok n at hn
        rw [knownLen, decode_first_cut (by decide) (mem_of_encode hs) hcut] at hn
        cases hn
      · change known snappyRawTable p = .ok v at hv
        rw [known, decode_whole_cut (by decide) (mem_of_encode hs) hcut] at hv
        cases hv

end Sample

/-- `truncation_is_corrupt_iff` on the block of twenty zeros, cut inside
its last literals. -/
theorem truncation_is_corrupt_sample :
    IsCorrupt (decompress Sample.cutBuild "lz4_block" (Sample.zerosBlock.take 11) 20) := by
  have hparse : Codec.parse "lz4_block" = .ok .lz4Block := rfl
  refine (truncation_is_corrupt_iff hparse (Sample.cutsKnown .lz4Block)
    ⟨Sample.zeros, by decide⟩ none (s := Sample.zerosBlock) rfl (List.take_prefix 11 _)
    (by decide) (by decide)).mpr ?_
  rintro ⟨n, v, -, hv, -⟩
  cases hv

theorem not_isCorrupt_ok {res : Outcome CodecError Bytes} {v : Bytes} (h : res = .ok v) :
    ¬IsCorrupt res := by
  rintro ⟨why, herr⟩
  rw [h] at herr
  cases herr

/-- Cut after its first literal, the block of twenty zeros decodes to one
of them. The snappy stream of `"a"`, cut after its first chunk, decodes to
nothing, and so does its lz4 frame, cut after the header; cut before its
end mark, that decodes in full. The lzma stream of the zeros, cut nineteen
bytes before its end, decodes to two of them. -/
theorem cut_streams_decode :
    (compress Sample.cutBuild "lz4_block" Sample.zeros none = .ok Sample.zerosBlock
      ∧ decompress Sample.cutBuild "lz4_block" (Sample.zerosBlock.take 6) 20 = .ok [0]
      ∧ ¬IsCorrupt (decompress Sample.cutBuild "lz4_block" (Sample.zerosBlock.take 6) 20))
    ∧ (compress Sample.cutBuild "snappy" [0x61] none = .ok Sample.snappy
      ∧ decompress Sample.cutBuild "snappy" (Sample.snappy.take 10) 1 = .ok []
      ∧ ¬IsCorrupt (decompress Sample.cutBuild "snappy" (Sample.snappy.take 10) 1))
    ∧ (compress Sample.cutBuild "lz4" [0x61] none = .ok Sample.lz4
      ∧ decompress Sample.cutBuild "lz4" (Sample.lz4.take 7) 1 = .ok []
      ∧ ¬IsCorrupt (decompress Sample.cutBuild "lz4" (Sample.lz4.take 7) 1)
      ∧ decompress Sample.cutBuild "lz4" (Sample.lz4.take 12) 1 = .ok [0x61]
      ∧ ¬IsCorrupt (decompress Sample.cutBuild "lz4" (Sample.lz4.take 12) 1))
    ∧ compress Sample.cutBuild "lzma" Sample.zeros none = .ok Sample.zerosLzma
      ∧ decompress Sample.cutBuild "lzma" (Sample.zerosLzma.take 20) 20 = .ok [0, 0]
      ∧ ¬IsCorrupt (decompress Sample.cutBuild "lzma" (Sample.zerosLzma.take 20) 20) := by
  have hblock : decompress Sample.cutBuild "lz4_block" (Sample.zerosBlock.take 6) 20 = .ok [0] := by
    decide +kernel
  have hsnappy : decompress Sample.cutBuild "snappy" (Sample.snappy.take 10) 1 = .ok [] := by
    decide +kernel
  have hheader : decompress Sample.cutBuild "lz4" (Sample.lz4.take 7) 1 = .ok [] := by
    decide +kernel
  have hnoend : decompress Sample.cutBuild "lz4" (Sample.lz4.take 12) 1 = .ok [0x61] := by
    decide +kernel
  have hlzma : decompress Sample.cutBuild "lzma" (Sample.zerosLzma.take 20) 20 = .ok [0, 0] := by
    decide +kernel
  exact ⟨⟨by decide +kernel, hblock, not_isCorrupt_ok hblock⟩,
    ⟨by decide +kernel, hsnappy, not_isCorrupt_ok hsnappy⟩,
    ⟨by decide +kernel, hheader, not_isCorrupt_ok hheader, hnoend, not_isCorrupt_ok hnoend⟩,
    by decide +kernel, hlzma, not_isCorrupt_ok hlzma⟩

end VgiCompress
