import VgiCompress.Guard

/-!
# The third-party crates

What the codec modules call, as a parameter of the model: each encoder
and decoder is a function of its input, and nothing is assumed about any
of them here. A `Read`-based decoder is the list of results its `read`
returns; a decoder that drives a sink is a tree of writes. Errors are
kept as their `to_string`, which is all the callers use.

The assumptions that results rest on are predicates over these
structures, stated where they are used.
-/

namespace VgiCompress

open RustStd

/-- A `Write`-based encoder over a fresh `Vec`: what `write_all` of the
whole input returns, and what finishing it returns after that. -/
structure Encoder where
  writeAll : Bytes → Except String Unit
  finish : Bytes → Except String Bytes

namespace Crate

structure Zstd where
  encodeAll : Bytes → Int32 → Except String Bytes
  decoder : Bytes → Except String (Reads UInt8)

structure Flate2 where
  gzEncoder : UInt32 → Encoder
  zlibEncoder : UInt32 → Encoder
  deflateEncoder : UInt32 → Encoder
  gzDecoder : Bytes → Reads UInt8
  zlibDecoder : Bytes → Reads UInt8
  deflateDecoder : Bytes → Reads UInt8

structure Brotli where
  /-- `CompressorWriter::new(_, buffer_size, quality, lgwin)`. -/
  compressorWriter : (bufferSize : Nat) → (quality lgwin : UInt32) → Encoder
  decompressor : Bytes → (bufferSize : Nat) → Reads UInt8

structure Lz4Flex where
  frameEncoder : Encoder
  frameDecoder : Bytes → Reads UInt8
  compressPrependSize : Bytes → Bytes
  decompressSizePrepended : Bytes → Except String Bytes

structure Snap where
  frameEncoder : Encoder
  frameDecoder : Bytes → Reads UInt8
  compressVec : Bytes → Except String Bytes
  decompressLen : Bytes → Except String Nat
  decompressVec : Bytes → Except String Bytes

structure LzmaRs where
  xzCompress : Bytes → Except String Bytes
  xzDecompress : Bytes → Writes String UInt8
  lzmaCompress : Bytes → Except String Bytes
  lzmaDecompress : Bytes → Writes String UInt8

structure Liblzma where
  /-- `XzEncoder::new(input, preset)`, read to its end. -/
  xzEncoder : Bytes → (preset : UInt32) → Except String Bytes
  xzDecoder : Bytes → Reads UInt8

structure Bzip2 where
  bzEncoder : UInt32 → Encoder
  bzDecoder : Bytes → Reads UInt8

end Crate

/-- Which xz backend is compiled in: `liblzma` with the feature of that
name, else `lzma-rs`. -/
inductive XzBackend where
  | lzmaRs
  | liblzma
  deriving DecidableEq, Repr

/-- A build: the crates it links and the xz feature it was built with. -/
structure Backends where
  zstd : Crate.Zstd
  flate2 : Crate.Flate2
  brotli : Crate.Brotli
  lz4Flex : Crate.Lz4Flex
  snap : Crate.Snap
  lzmaRs : Crate.LzmaRs
  liblzma : Crate.Liblzma
  bzip2 : Crate.Bzip2
  xzBackend : XzBackend

end VgiCompress
