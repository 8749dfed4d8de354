import VgiCompress.Framing
import VgiCompress.Members
import VgiCompress.Validity

/-!
# What a decoder leaves unread

Nothing asks a backend how much of its input it has used. Input is
dropped when a proper prefix of it already settles the answer: whatever
follows, the decode is the same (`ReadsAll` says that this is not so).
`reads_all_iff` says where it happens: behind a complete stream at whose
end the backend stops (`StopsEarly`). The others go on to the next member,
refuse what follows, or take it for more of the block.
-/

namespace VgiCompress

open RustStd Framing

/-! ## What a backend accepts -/

section Accepts

/-- The backend accepts all of `input` and makes `v` of it, whatever the
cap. -/
def DecodesTo (be : Backends) (c : Codec) (input v : Bytes) : Prop :=
  match c with
  | .lz4Block => be.lz4Flex.decompressSizePrepended input = .ok v
  | .snappyRaw => be.snap.decompressVec input = .ok v
  | c => ∃ ds, Streams be c input ds (.ok ()) ∧ ds.flatten = v

/-- The payload fits the cap and memory. -/
def PayloadFits (v : Bytes) (cap : UInt64) : Prop :=
  v.length ≤ cap.toNat ∧ v.length ≤ isizeMax

/-- What the driver compares with the cap: the length that a block
declares, or the payload's own. -/
def Fits (be : Backends) (c : Codec) (input v : Bytes) (cap : UInt64) : Prop :=
  match c with
  | .lz4Block => ∃ n, Lz4.declaredSize input = some n ∧ n ≤ cap
  | .snappyRaw => ∃ n, be.snap.decompressLen input = .ok n ∧ n ≤ cap.toNat
  | _ => PayloadFits v cap

variable {be : Backends} {c : Codec} {input v w : Bytes} {cap : UInt64}

theorem decodesTo_streaming (hb : c ≠ .lz4Block) (hr : c ≠ .snappyRaw) :
    DecodesTo be c input v ↔ ∃ ds, Streams be c input ds (.ok ()) ∧ ds.flatten = v := by
  cases c <;> first | exact Iff.rfl | exact absurd rfl hb | exact absurd rfl hr

theorem DecodesTo.unique (h : DecodesTo be c input v) (h' : DecodesTo be c input w) : v = w := by
  by_cases hb : c = .lz4Block
  · subst hb
    exact Except.ok.inj (h.symm.trans h')
  by_cases hr : c = .snappyRaw
  · subst hr
    exact Except.ok.inj (h.symm.trans h')
  obtain ⟨ds, hs, rfl⟩ := (decodesTo_streaming hb hr).mp h
  obtain ⟨ds', hs', rfl⟩ := (decodesTo_streaming hb hr).mp h'
  rw [hs.unique hs']

end Accepts

/-! ## Where backends stop -/

/-- The backend stops at the end of such a stream, whatever follows. That
of lzma does so once it has the size that the header declares. -/
def StopsEarly (be : Backends) : Codec → Bytes → Prop
  | .gzip, _ | .zlib, _ | .deflate, _ | .brotli, _ | .lz4, _ | .bzip2, _ => True
  | .xz, _ => be.xzBackend = .liblzma
  | .lzma, s => (s.drop 5).take 8 ≠ List.replicate 8 0xff
  | .zstd, _ | .lz4Block, _ | .snappy, _ | .snappyRaw, _ => False

/-- snap accepts a block for the length in front of it, which it reads
whatever follows. -/
def Crate.Snap.ReadsHeader (snap : Crate.Snap) : Prop :=
  ∀ s g x, snap.decompressVec s = .ok x → snap.decompressLen (s ++ g) = .ok x.length

/-- What the backend of one codec makes of complete streams and of what
follows them. The members of zstd are its frames, those of snappy its chunks.
Bytes behind a block are more of the block. -/
def ReadsMembers (be : Backends) (Member : Codec → Bytes → Bytes → Prop) : Codec → Prop
  | .lz4Block => Grows (DecodesTo be .lz4Block) ∧ be.lz4Flex.PrefixBounds
  | .snappyRaw => Grows (DecodesTo be .snappyRaw) ∧ be.snap.ReadsHeader
  | .zstd => ReadsEvery (DecodesTo be .zstd) (Member .zstd)
  | .snappy => ReadsEvery (DecodesTo be .snappy) (Member .snappy)
  | c => ReadsOne (DecodesTo be c) (Member c) (StopsEarly be c)

/-- `s` is a valid stream of `x`: a member or, where these may follow each
other, a run of them, or a block that comes to the length it declares. -/
def ValidStream (be : Backends) (Member : Codec → Bytes → Bytes → Prop) (c : Codec)
    (s x : Bytes) : Prop :=
  match c with
  | .lz4Block => be.lz4Flex.decompressSizePrepended s = .ok x
      ∧ ∃ n, Lz4.declaredSize s = some n ∧ n.toNat = x.length
  | .snappyRaw => be.snap.decompressVec s = .ok x
  | .zstd | .snappy => Run (Member c) s x
  | c => Member c s x

section Trailing

variable {be : Backends} {Member : Codec → Bytes → Bytes → Prop} {c : Codec}
  {input s x g v : Bytes} {cap : UInt64}

theorem ReadsMembers.stops (h : ReadsMembers be Member c) (hs : Member c s x)
    (hstops : StopsEarly be c s) (g : Bytes) : DecodesTo be c (s ++ g) x := by
  cases c with
  | gzip | zlib | deflate | brotli | lz4 | xz | lzma | bzip2 =>
      exact ReadsOne.stops h s x g hs hstops
  | zstd | snappy | lz4Block | snappyRaw => exact hstops.elim

theorem ValidStream.member (hs : ValidStream be Member c s x) (hstops : StopsEarly be c s) :
    Member c s x := by
  cases c <;> first | exact hs | exact hstops.elim

/-- Behind an exact block there is no room for more output. -/
theorem not_decodesTo_lz4Block (hgrows : Grows (DecodesTo be .lz4Block))
    (hbounds : be.lz4Flex.PrefixBounds) (hs : ValidStream be Member .lz4Block s x)
    (hg : g ≠ []) : ¬DecodesTo be .lz4Block (s ++ g) v := by
  intro hv
  obtain ⟨hx, n, hn, hlen⟩ := hs
  have hle := hbounds (s ++ g) v n hv (declaredSize_append (List.prefix_append s g) hn)
  have hlt := hgrows s g x v hx hg hv
  omega

theorem not_decodesTo_snappyRaw (hgrows : Grows (DecodesTo be .snappyRaw))
    (hheader : be.snap.ReadsHeader) (hs : ValidStream be Member .snappyRaw s x) (hg : g ≠ []) :
    ¬DecodesTo be .snappyRaw (s ++ g) v := by
  intro hv
  have hlen := hheader (s ++ g) [] v hv
  rw [List.append_nil, hheader s g x hs] at hlen
  have hlt := hgrows s g x v hs hg hv
  rw [Except.ok.inj hlen] at hlt
  exact Nat.lt_irrefl _ hlt

/-- A backend that does not stop behind a valid stream decodes what follows
to further members, if it accepts it at all. -/
theorem ReadsMembers.rest (h : ReadsMembers be Member c) (hs : ValidStream be Member c s x)
    (hgo : ¬StopsEarly be c s) (hg : g ≠ []) (hv : DecodesTo be c (s ++ g) v) :
    (∃ y, Run (Member c) g y ∧ v = x ++ y) ∧ ¬Settled (DecodesTo be c) s v := by
  cases c with
  | gzip | zlib | deflate | brotli | lz4 | xz | lzma | bzip2 =>
      exact absurd (ReadsOne.eq_nil h hs hgo hv) hg
  | zstd | snappy => exact ⟨ReadsEvery.rest h hs hv, ReadsEvery.not_settled h⟩
  | lz4Block => exact absurd hv (not_decodesTo_lz4Block h.1 h.2 hs hg)
  | snappyRaw => exact absurd hv (not_decodesTo_snappyRaw h.1 h.2 hs hg)

end Trailing

namespace Sample

/-- The streams that a decoder takes for complete. -/
def streams : Codec → Table
  | .zstd => zstdTable
  | .gzip => gzipTable
  | .zlib => zlibTable
  | .deflate => deflateTable
  | .brotli => brotliTable
  | .lz4 => lz4Table
  | .snappy => snappyTable.filter (·.2 ≠ [])
  | .xz => xzTable
  | .lzma => (payload, lzmaSized) :: lzmaTable
  | .bzip2 => bzip2Table
  | .lz4Block | .snappyRaw => []

def Member (c : Codec) (m x : Bytes) : Prop := (x, m) ∈ streams c

end Sample

end VgiCompress
