import Mathlib.Logic.Function.Basic
import VgiCompress.Samples

/-!
# Where a cut stream looks whole

Four formats have places at which a stream can be cut without its decoder
noticing. An lz4 block may end after any run of literals, and a framed
snappy stream between any two chunks; `Lz4.blockOutput` and
`Snappy.atChunkBoundary` walk the bytes of a stream, sequence by sequence
and chunk by chunk, to tell whether its end is such a place. The other two
formats mark their end, but the decoders do without the mark: lz4_flex
takes the end of the input for the end of a frame wherever a block could
begin (`Lz4.atBlockInfo`), and lzma-rs takes it for the end of a stream
whose size is not declared whenever its range decoder is at 0
(`Lzma.flatEnd`).
-/

namespace VgiCompress

open RustStd

/-! ## The lz4 block format -/

namespace Lz4

/-- The bytes that carry on a length: they are summed up to and including
the first that is not 255. -/
def extendLength : Nat → Bytes → Option (Nat × Bytes)
  | _, [] => none
  | len, b :: rest => if b = 0xff then extendLength (len + 255) rest else some (len + b.toNat, rest)

/-- A length whose first 15 are in the token. -/
def readLength (nibble : Nat) (rest : Bytes) : Option (Nat × Bytes) :=
  if nibble < 15 then some (nibble, rest) else extendLength nibble rest

/-- `len` bytes from `offset` back, one at a time, so that a match may
overlap what it adds. -/
def appendMatch (offset : Nat) : Nat → Bytes → Bytes
  | 0, out => out
  | len + 1, out => appendMatch offset len (out ++ [out.getD (out.length - offset) 0])

/-- The sequences of a block: a token, literals, and a match of at least 4
bytes; the last one stops after its literals. Every sequence takes at
least one byte, so the length of the block is fuel enough. -/
def decodeSequences : Nat → Bytes → Bytes → Option Bytes
  | 0, _, _ => none
  | _ + 1, [], _ => none
  | fuel + 1, token :: rest, out => do
      let (literals, rest) ← readLength (token.toNat / 16) rest
      if rest.length < literals then none
      else
        let out := out ++ rest.take literals
        match rest.drop literals with
        | [] => some out
        | [_] => none
        | lo :: hi :: rest => do
            let offset := lo.toNat + 2 ^ 8 * hi.toNat
            let (len, rest) ← readLength (token.toNat % 16) rest
            if offset = 0 ∨ out.length < offset then none
            else decodeSequences fuel rest (appendMatch offset (len + 4) out)

/-- What a block comes to, `none` where it does not end after a run of
literals. -/
def blockOutput (block : Bytes) : Option Bytes := decodeSequences block.length block []

end Lz4

/-! ## The lz4 frame format -/

namespace Lz4

/-- A block is its size, of four bytes with the top bit set where it is
stored, and that many bytes; a size of 0 ends the frame. What is left must
be less than a size. -/
def skipBlocks : Nat → Bytes → Bool
  | fuel + 1, b0 :: b1 :: b2 :: b3 :: rest =>
      let word := b0.toNat + 2 ^ 8 * b1.toNat + 2 ^ 16 * b2.toNat + 2 ^ 24 * b3.toNat
      let len := word % 2 ^ 31
      word = 0 || (len ≤ rest.length && skipBlocks fuel (rest.drop len))
  | _, rest => rest.length < 4

/-- lz4_flex reads nothing more, and says so, where it finds no magic
number, no descriptor behind it, or no size of a next block. The header is
the 7 bytes that its frame encoder writes. -/
def atBlockInfo (s : Bytes) : Bool :=
  s.length = 0 || s.length = 4 || (7 ≤ s.length && skipBlocks s.length (s.drop 7))

end Lz4

/-! ## The framed snappy format -/

namespace Snappy

/-- A chunk is a type, a length of three bytes, and that many bytes. -/
def skipChunks : Nat → Bytes → Bool
  | _, [] => true
  | fuel + 1, _ :: b0 :: b1 :: b2 :: rest =>
      let len := b0.toNat + 2 ^ 8 * b1.toNat + 2 ^ 16 * b2.toNat
      len ≤ rest.length && skipChunks fuel (rest.drop len)
  | _, _ => false

/-- The stream is a number of whole chunks. -/
def atChunkBoundary (s : Bytes) : Bool := skipChunks s.length s

end Snappy

/-! ## The lzma format -/

namespace Lzma

/-- The range decoder: the interval, the place in it, and what is unread. -/
structure RangeDecoder where
  range : Nat
  code : Nat
  rest : Bytes

/-- The adaptive bits, each by its index, in units of `1 / 2 ^ 11`. -/
abbrev Probs := Nat → Nat

/-- A byte is read as soon as the interval allows for it. -/
def RangeDecoder.normalize (rc : RangeDecoder) : Option RangeDecoder :=
  if rc.range < 2 ^ 24 then
    match rc.rest with
    | [] => none
    | b :: rest => some ⟨2 ^ 8 * rc.range, (2 ^ 8 * rc.code + b.toNat) % 2 ^ 32, rest⟩
  else some rc

/-- A bit, and what it changes. -/
def RangeDecoder.decodeBit (rc : RangeDecoder) (probs : Probs) (i : Nat) :
    Option (Nat × Probs × RangeDecoder) :=
  let bound := rc.range / 2 ^ 11 * probs i
  if rc.code < bound then do
    let rc ← { rc with range := bound }.normalize
    some (0, Function.update probs i (probs i + (2 ^ 11 - probs i) / 2 ^ 5), rc)
  else do
    let rc ← { rc with range := rc.range - bound, code := rc.code - bound }.normalize
    some (1, Function.update probs i (probs i - probs i / 2 ^ 5), rc)

/-- The bits of a literal, highest first; those that are known are behind a
leading one in `node`. -/
def decodeLiteral (tree : Nat) : Nat → Nat → Probs → RangeDecoder →
    Option (Nat × Probs × RangeDecoder)
  | 0, node, probs, rc => some (node, probs, rc)
  | bits + 1, node, probs, rc => do
      let (bit, probs, rc) ← rc.decodeBit probs (tree + node)
      decodeLiteral tree bits (2 * node + bit) probs rc

/-- Where the literals of a bit tree start, by the three high bits of the
byte before; the first four adaptive bits tell literals from matches. -/
def literalTree (out : Bytes) : Nat := 2 ^ 8 * (1 + (out.getLastD 0).toNat / 2 ^ 5)

/-- Literals, until nothing is unread and the code is 0. -/
def decodeLiterals : Nat → Bytes → Probs → RangeDecoder → Option Bytes
  | 0, _, _, _ => none
  | fuel + 1, out, probs, rc =>
      if rc.code = 0 ∧ rc.rest = [] then some out
      else do
        let (isMatch, probs, rc) ← rc.decodeBit probs (out.length % 2 ^ 2)
        if isMatch = 1 then none
        else
          let (node, probs, rc) ← decodeLiteral (literalTree out) 8 1 probs rc
          decodeLiterals fuel (out ++ [.ofNat node]) probs rc

/-- What the stream comes to where its decoder stops at its end, `none`
where it asks for more. The encoder of lzma-rs declares no size, fixes the
parameters (lc 3, lp 0, pb 2) and makes literals only. Between two bytes
that are read lie at most 364 bits, which is 41 literals. -/
def flatEnd (s : Bytes) : Option Bytes :=
  match s.drop 13 with
  | _ :: b0 :: b1 :: b2 :: b3 :: rest =>
      let code := 2 ^ 24 * b0.toNat + 2 ^ 16 * b1.toNat + 2 ^ 8 * b2.toNat + b3.toNat
      decodeLiterals (2 ^ 6 * s.length) [] (fun _ => 2 ^ 10) ⟨2 ^ 32 - 1, code, rest⟩
  | _ => none

end Lzma

/-! ## A build that follows the formats -/

namespace Sample

def zeros : Bytes := List.replicate 20 0

/-- Twenty zeros as lz4_flex packs them: one literal zero, thirteen copied,
six literal ones. -/
def zerosBlock : Bytes :=
  [0x14, 0x00, 0x00, 0x00, 0x19, 0x00, 0x01, 0x00, 0x60, 0x00, 0x00, 0x00, 0x00, 0x00, 0x00]

example : Lz4.blockOutput (zerosBlock.drop 4) = some zeros := by decide

/-- Twenty zeros as lzma-rs packs them. -/
def zerosLzma : Bytes :=
  [0x5d, 0x00, 0x00, 0x80, 0x00, 0xff, 0xff, 0xff, 0xff, 0xff, 0xff, 0xff, 0xff, 0x00,
    0x00, 0x00, 0x00, 0x00, 0x00, 0x00, 0x00, 0x00, 0x00, 0x00, 0x00, 0x00, 0x00, 0x00,
    0x00, 0x00, 0x48, 0x10, 0x5f, 0x51, 0xff, 0xe5, 0xc9, 0x00, 0x00]

example : Lzma.flatEnd (zerosLzma.take 26) = some (List.replicate 9 0) := by decide +kernel

/-- A block decoder with room for the declared size. -/
def unblock (input : Bytes) : Except String Bytes :=
  match Lz4.declaredSize input, Lz4.blockOutput (input.drop 4) with
  | some n, some v => if v.length ≤ n.toNat then .ok v else .error "output too small"
  | _, _ => .error "invalid block"

/-- A snappy frame decoder that ends well where a chunk could begin. -/
def unframe (input : Bytes) : Reads UInt8 :=
  match decode (· = input) snappyTable with
  | some x => reads (some x)
  | none => if Snappy.atChunkBoundary input then [] else reads none

/-- The blocks of a frame that are whole, all of them stored. -/
def storedBlocks : Nat → Bytes → List Bytes
  | fuel + 1, b0 :: b1 :: b2 :: _ :: rest =>
      let len := b0.toNat + 2 ^ 8 * b1.toNat + 2 ^ 16 * b2.toNat
      if len = 0 then [] else rest.take len :: storedBlocks fuel (rest.drop len)
  | _, _ => []

/-- An lz4 frame decoder that ends well where a block could begin. -/
def unframeLz4 (input : Bytes) : Reads UInt8 :=
  match decode (·.isPrefixOf input) lz4Table with
  | some x => reads (some x)
  | none =>
      if Lz4.atBlockInfo input then .deliver (storedBlocks input.length (input.drop 7)) (.ok ())
      else reads none

def zerosTable : Table := (zeros, zerosLzma) :: lzmaTable

/-- An lzma decoder that ends well where its range decoder is at 0. -/
def unlzma (input : Bytes) : Writes String UInt8 :=
  match decode (· = input) zerosTable, Lzma.flatEnd input with
  | some x, _ => .script "write failed" (chunks x) (.ok ())
  | none, some v => .script "write failed" [v] (.ok ())
  | none, none => .done (.error "invalid stream")

/-- The sample build, with decoders of the four formats that go by the
bytes, and encoders of lz4 blocks and lzma that know twenty zeros. -/
def cutBuild : Backends :=
  { build with
    lz4Flex :=
      { build.lz4Flex with
        frameDecoder := unframeLz4
        compressPrependSize := fun x => if x = zeros then zerosBlock else lz4Block x
        decompressSizePrepended := unblock }
    snap := { build.snap with frameDecoder := unframe }
    lzmaRs :=
      { build.lzmaRs with
        lzmaCompress := encode zerosTable
        lzmaDecompress := unlzma } }

theorem unblock_eq_ok {input v : Bytes} {n : UInt64} (hn : Lz4.declaredSize input = some n) :
    unblock input = .ok v ↔ Lz4.blockOutput (input.drop 4) = some v ∧ v.length ≤ n.toNat := by
  rw [unblock, hn]
  cases Lz4.blockOutput (input.drop 4) with
  | none => simp
  | some w =>
      by_cases hfit : w.length ≤ n.toNat
      · simp only [if_pos hfit, Except.ok.injEq, Option.some.injEq]
        constructor
        · rintro rfl
          exact ⟨rfl, hfit⟩
        · rintro ⟨rfl, -⟩
          rfl
      · simp only [if_neg hfit, Option.some.injEq]
        constructor
        · intro h
          cases h
        · rintro ⟨rfl, hle⟩
          exact absurd hle hfit

end Sample

end VgiCompress
