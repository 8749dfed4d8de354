import VgiCompress.Backend
import VgiCompress.Codec

/-!
# The engine

The codec modules (`codec/*.rs`), the dispatch over them, detection by
magic bytes (`detect.rs`) and the crate's public functions (`lib.rs`).

Every streaming decode ends in `drainReader` or, for the decoders that
drive the sink themselves, in `finishSink`; the two block formats check
a declared length instead.
-/

namespace VgiCompress

open RustStd

/-! ## Shared plumbing -/

/-- `Ord::clamp`. -/
def clamp {α : Type} [LT α] [DecidableLT α] (v lo hi : α) : α :=
  if v < lo then lo else if v > hi then hi else v

/-- `u32::from_le_bytes`. -/
def u32FromLeBytes (b0 b1 b2 b3 : UInt8) : UInt32 :=
  .ofNat (b0.toNat + 2 ^ 8 * b1.toNat + 2 ^ 16 * b2.toNat + 2 ^ 24 * b3.toNat)

/-- `u32::to_le_bytes` of a length cast to `u32`. -/
def u32ToLeBytes (n : Nat) : Bytes :=
  [.ofNat n, .ofNat (n / 2 ^ 8), .ofNat (n / 2 ^ 16), .ofNat (n / 2 ^ 24)]

theorem u32FromLeBytes_ofNat (n : Nat) :
    (u32FromLeBytes (.ofNat n) (.ofNat (n / 2 ^ 8)) (.ofNat (n / 2 ^ 16))
      (.ofNat (n / 2 ^ 24))).toNat = n % 2 ^ 32 := by
  simp only [u32FromLeBytes, UInt32.toNat_ofNat', UInt8.toNat_ofNat']
  omega

/-- `.map_err(|e| CodecError::Corrupt(e.to_string()))`. -/
def corruptErr {α : Type} (r : Except String α) : Outcome CodecError α :=
  (Outcome.ofExcept r).mapErr .corrupt

/-- `enc.write_all(input).map_err(..)?; enc.finish().map_err(..)`. -/
def Encoder.encode (enc : Encoder) (input : Bytes) : Outcome CodecError Bytes := do
  corruptErr (enc.writeAll input)
  corruptErr (enc.finish input)

/-- Drain a streaming decoder into a `BoundedWriter`. -/
def drainReader (reader : Reads UInt8) (cap : UInt64) : Outcome CodecError Bytes :=
  match copy BoundedWriter.sink reader (.new cap) 0 with
  | (.ok _, sink) => .ok sink.intoInner
  | (.err e, sink) =>
      if sink.overflowed then .err (.outputTooLarge cap) else .err (.corrupt e.message)
  | (.panic, _) => .panic

/-- Finish a write-driven decoder by its result and the overflow flag. -/
def finishSink (sink : BoundedWriter) (res : Except String Unit) (cap : UInt64) :
    Outcome CodecError Bytes :=
  match res with
  | .ok () => .ok sink.intoInner
  | .error e => if sink.overflowed then .err (.outputTooLarge cap) else .err (.corrupt e)

/-- `let res = decoder(&mut src, &mut sink); finish_sink(sink, res, cap)`. -/
def decodeIntoSink (decoder : Writes String UInt8) (cap : UInt64) :
    Outcome CodecError Bytes :=
  match decoder.run BoundedWriter.sink (.new cap) with
  | (.ok (), sink) => finishSink sink (.ok ()) cap
  | (.err e, sink) => finishSink sink (.error e) cap
  | (.panic, _) => .panic

/-! ## The codec modules -/

section Modules

variable (be : Backends)

namespace Zstd

def compress (input : Bytes) (lvl : Int32) : Outcome CodecError Bytes :=
  corruptErr (be.zstd.encodeAll input lvl)

def decompress (input : Bytes) (cap : UInt64) : Outcome CodecError Bytes := do
  let decoder ← corruptErr (be.zstd.decoder input)
  drainReader decoder cap

end Zstd

namespace Flate

/-- `Compression::new(l.clamp(0, 9) as u32)`. -/
def level (l : Int32) : UInt32 := (clamp l 0 9).toUInt32

def compressGzip (input : Bytes) (lvl : Int32) : Outcome CodecError Bytes :=
  (be.flate2.gzEncoder (level lvl)).encode input

def compressZlib (input : Bytes) (lvl : Int32) : Outcome CodecError Bytes :=
  (be.flate2.zlibEncoder (level lvl)).encode input

def compressDeflate (input : Bytes) (lvl : Int32) : Outcome CodecError Bytes :=
  (be.flate2.deflateEncoder (level lvl)).encode input

def decompressGzip (input : Bytes) (cap : UInt64) : Outcome CodecError Bytes :=
  drainReader (be.flate2.gzDecoder input) cap

def decompressZlib (input : Bytes) (cap : UInt64) : Outcome CodecError Bytes :=
  drainReader (be.flate2.zlibDecoder input) cap

def decompressDeflate (input : Bytes) (cap : UInt64) : Outcome CodecError Bytes :=
  drainReader (be.flate2.deflateDecoder input) cap

/-- The gzip ISIZE trailer: the last four bytes, whatever precedes them.
`none` for a stream too short to carry a trailer. -/
def gzipIsize (input : Bytes) : Option UInt64 :=
  if input.length < 8 then none
  else
    let n := input.length
    some (u32FromLeBytes (input.getD (n - 4) 0) (input.getD (n - 3) 0)
      (input.getD (n - 2) 0) (input.getD (n - 1) 0)).toUInt64

end Flate

namespace Brotli

/-- Default brotli window. -/
def lgwin : UInt32 := 22

/-- Internal streaming buffer size. -/
def buf : Nat := 8 * 1024

def compress (input : Bytes) (lvl : Int32) : Outcome CodecError Bytes :=
  let quality := (clamp lvl 0 11).toUInt32
  (be.brotli.compressorWriter buf quality lgwin).encode input

def decompress (input : Bytes) (cap : UInt64) : Outcome CodecError Bytes :=
  drainReader (be.brotli.decompressor input buf) cap

end Brotli

namespace Lz4

def compressFrame (input : Bytes) : Outcome CodecError Bytes :=
  be.lz4Flex.frameEncoder.encode input

def decompressFrame (input : Bytes) (cap : UInt64) : Outcome CodecError Bytes :=
  drainReader (be.lz4Flex.frameDecoder input) cap

def compressBlock (input : Bytes) : Outcome CodecError Bytes :=
  .ok (be.lz4Flex.compressPrependSize input)

/-- The size prefix `decompressBlock` reads, `none` on a short input. -/
def declaredSize : Bytes → Option UInt64
  | b0 :: b1 :: b2 :: b3 :: _ => some (u32FromLeBytes b0 b1 b2 b3).toUInt64
  | _ => none

def decompressBlock (input : Bytes) (cap : UInt64) : Outcome CodecError Bytes :=
  match declaredSize input with
  | none => .err (.corrupt "lz4 block too short for size prefix")
  | some declared =>
      if declared > cap then .err (.outputTooLarge cap)
      else corruptErr (be.lz4Flex.decompressSizePrepended input)

end Lz4

namespace Snappy

def compressFramed (input : Bytes) : Outcome CodecError Bytes :=
  be.snap.frameEncoder.encode input

def decompressFramed (input : Bytes) (cap : UInt64) : Outcome CodecError Bytes :=
  drainReader (be.snap.frameDecoder input) cap

def compressRaw (input : Bytes) : Outcome CodecError Bytes :=
  corruptErr (be.snap.compressVec input)

def decompressRaw (input : Bytes) (cap : UInt64) : Outcome CodecError Bytes :=
  match be.snap.decompressLen input with
  | .ok len =>
      if len > cap.toNat then .err (.outputTooLarge cap)
      else corruptErr (be.snap.decompressVec input)
  | .error e => .err (.corrupt e)

end Snappy

namespace Xz

def compressXz (input : Bytes) (lvl : Int32) : Outcome CodecError Bytes :=
  match be.xzBackend with
  | .lzmaRs => corruptErr (be.lzmaRs.xzCompress input)
  | .liblzma => corruptErr (be.liblzma.xzEncoder input (clamp lvl 0 9).toUInt32)

def decompressXz (input : Bytes) (cap : UInt64) : Outcome CodecError Bytes :=
  match be.xzBackend with
  | .lzmaRs => decodeIntoSink (be.lzmaRs.xzDecompress input) cap
  | .liblzma => drainReader (be.liblzma.xzDecoder input) cap

def compressLzma (input : Bytes) (_lvl : Int32) : Outcome CodecError Bytes :=
  corruptErr (be.lzmaRs.lzmaCompress input)

def decompressLzma (input : Bytes) (cap : UInt64) : Outcome CodecError Bytes :=
  decodeIntoSink (be.lzmaRs.lzmaDecompress input) cap

end Xz

namespace Bzip2

def compress (input : Bytes) (lvl : Int32) : Outcome CodecError Bytes :=
  (be.bzip2.bzEncoder (clamp lvl 1 9).toUInt32).encode input

def decompress (input : Bytes) (cap : UInt64) : Outcome CodecError Bytes :=
  drainReader (be.bzip2.bzDecoder input) cap

end Bzip2

/-! ## Dispatch -/

namespace Codec

/-- `codec::compress`, at the level resolved from the requested one. -/
def compress (c : Codec) (input : Bytes) (level : Option Int32) :
    Outcome CodecError Bytes :=
  let lvl := (c.resolveLevel level).1
  match c with
  | zstd => Zstd.compress be input lvl
  | gzip => Flate.compressGzip be input lvl
  | zlib => Flate.compressZlib be input lvl
  | deflate => Flate.compressDeflate be input lvl
  | brotli => Brotli.compress be input lvl
  | lz4 => Lz4.compressFrame be input
  | lz4Block => Lz4.compressBlock be input
  | snappy => Snappy.compressFramed be input
  | snappyRaw => Snappy.compressRaw be input
  | xz => Xz.compressXz be input lvl
  | lzma => Xz.compressLzma be input lvl
  | bzip2 => Bzip2.compress be input lvl

/-- `codec::decompress`. -/
def decompress (c : Codec) (input : Bytes) (maxOutput : UInt64) :
    Outcome CodecError Bytes :=
  match c with
  | zstd => Zstd.decompress be input maxOutput
  | gzip => Flate.decompressGzip be input maxOutput
  | zlib => Flate.decompressZlib be input maxOutput
  | deflate => Flate.decompressDeflate be input maxOutput
  | brotli => Brotli.decompress be input maxOutput
  | lz4 => Lz4.decompressFrame be input maxOutput
  | lz4Block => Lz4.decompressBlock be input maxOutput
  | snappy => Snappy.decompressFramed be input maxOutput
  | snappyRaw => Snappy.decompressRaw be input maxOutput
  | xz => Xz.decompressXz be input maxOutput
  | lzma => Xz.decompressLzma be input maxOutput
  | bzip2 => Bzip2.decompress be input maxOutput

end Codec

/-! ## Detection by magic bytes -/

/-- Trial-decode cap for confirming a weak-magic hit. -/
def trialCap : UInt64 := (1 : UInt64) <<< 20

/-- A zlib header: CM is 8, CINFO at most 7, FCHECK a multiple of 31. -/
def looksLikeZlib : Bytes → Bool
  | cmf :: flg :: _ =>
      let cm := cmf &&& 0x0f
      let cinfo := cmf >>> 4
      let check := cmf.toNat * 256 + flg.toNat
      cm == 8 && cinfo ≤ 7 && check % 31 == 0
  | _ => false

/-- A bounded trial decode accepts the guess: it ends well, or it runs
into the trial cap. -/
def trialOk (c : Codec) (input : Bytes) : Bool :=
  match c.decompress be input trialCap with
  | .ok _ => true
  | .err (.outputTooLarge _) => true
  | .err _ => false
  -- no decode panics under this cap: see `decompress_not_panic`
  | .panic => false

/-- The codec of `input` by magic bytes, strongest signature first. -/
def detect (input : Bytes) : Option Codec :=
  if [0xff, 0x06, 0x00, 0x00, 0x73, 0x4e, 0x61, 0x50, 0x70, 0x59].isPrefixOf input then
    some .snappy
  else if [0xfd, 0x37, 0x7a, 0x58, 0x5a, 0x00].isPrefixOf input then
    some .xz
  else if [0x04, 0x22, 0x4d, 0x18].isPrefixOf input then
    some .lz4
  else if [0x28, 0xb5, 0x2f, 0xfd].isPrefixOf input then
    some .zstd
  else if 4 ≤ input.length && input.take 3 == [0x42, 0x5a, 0x68]
      && 0x31 ≤ input.getD 3 0 && input.getD 3 0 ≤ 0x39 then
    some .bzip2
  else if [0x1f, 0x8b].isPrefixOf input then
    some .gzip
  else if looksLikeZlib input && trialOk be .zlib input then
    some .zlib
  else if 13 ≤ input.length && input.getD 0 0 == 0x5d && trialOk be .lzma input then
    some .lzma
  else none

/-! ## The public functions -/

/-- The default cap, 256 MiB. -/
def defaultMaxOutputBytes : UInt64 := 256 * 1024 * 1024

def compress (codec : String) (input : Bytes) (level : Option Int32) :
    Outcome CodecError Bytes := do
  let c ← Codec.parse codec
  c.compress be input level

def decompress (codec : String) (input : Bytes) (maxOutput : UInt64) :
    Outcome CodecError Bytes := do
  let c ← Codec.parse codec
  c.decompress be input maxOutput

def decompressAuto (input : Bytes) (maxOutput : UInt64) : Outcome CodecError Bytes :=
  match detect be input with
  | some c => c.decompress be input maxOutput
  | none => .err .noMagic

def detectCodec (input : Bytes) : Option String :=
  (detect be input).map Codec.name

def compressedSize (codec : String) (input : Bytes) (level : Option Int32) :
    Outcome CodecError UInt64 := do
  let out ← compress be codec input level
  pure (.ofNat out.length)

/-- The size of a full decode under the cap, `none` when it is too large. -/
def countUnderGuard (c : Codec) (input : Bytes) (cap : UInt64) :
    Outcome CodecError (Option UInt64) :=
  match c.decompress be input cap with
  | .ok v => .ok (some (.ofNat v.length))
  | .err (.outputTooLarge _) => .ok none
  | .err e => .err e
  | .panic => .panic

/-- Decompressed byte length, from the gzip trailer where that is within
the cap and by decoding otherwise. -/
def decompressedSize (codec : String) (input : Bytes) (cap : UInt64) :
    Outcome CodecError (Option UInt64) := do
  let c ← Codec.parse codec
  if c = .gzip then
    match Flate.gzipIsize input with
    | some n => if n ≤ cap then pure (some n) else countUnderGuard be c input cap
    | none => countUnderGuard be c input cap
  else countUnderGuard be c input cap

/-- Output over input length; `none` on empty input. -/
def ratio (codec : String) (input : Bytes) (level : Option Int32) :
    Outcome CodecError (Option Float) :=
  if input.isEmpty then .ok none
  else do
    let out ← compressedSize be codec input level
    pure (some (out.toFloat / (UInt64.ofNat input.length).toFloat))

/-- A trial decode under the default guard. -/
def isValid (codec : String) (input : Bytes) : Bool :=
  match Codec.parse codec with
  | .ok c => (c.decompress be input defaultMaxOutputBytes).isOk
  | _ => false

/-! ## A call by name -/

variable {be} {codec : String} {c : Codec}

theorem compress_of_parse (hc : Codec.parse codec = .ok c) (input : Bytes)
    (level : Option Int32) : compress be codec input level = c.compress be input level := by
  rw [compress, hc, Outcome.ok_bind]

theorem compress_eq_ok {input s : Bytes} {level : Option Int32} :
    compress be codec input level = .ok s ↔
      ∃ c, Codec.parse codec = .ok c ∧ c.compress be input level = .ok s := by
  rw [compress, Outcome.bind_eq_ok]

theorem decompress_of_parse (hc : Codec.parse codec = .ok c) (input : Bytes) (cap : UInt64) :
    decompress be codec input cap = c.decompress be input cap := by
  rw [decompress, hc, Outcome.ok_bind]

theorem decompress_of_err {e : CodecError} (hc : Codec.parse codec = .err e) (input : Bytes)
    (cap : UInt64) : decompress be codec input cap = .err e := by
  rw [decompress, hc]
  rfl

theorem decompress_eq_ok {input v : Bytes} {cap : UInt64} :
    decompress be codec input cap = .ok v ↔
      ∃ c, Codec.parse codec = .ok c ∧ c.decompress be input cap = .ok v := by
  rw [decompress, Outcome.bind_eq_ok]

theorem decompressAuto_of_detect {input : Bytes} (h : detect be input = some c) (cap : UInt64) :
    decompressAuto be input cap = c.decompress be input cap := by
  rw [decompressAuto, h]

end Modules

end VgiCompress
