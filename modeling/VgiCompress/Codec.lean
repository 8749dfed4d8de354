import VgiCompress.Guard

/-!
# The codec registry

Names, spellings and levels of the twelve codecs, from `codec/mod.rs`.
`parse` normalises a name (Unicode trim, ASCII lowercase, `-` to `_`) and
looks it up; `resolveLevel` clamps a requested level into the codec's
range.
-/

namespace VgiCompress

open RustStd

/-- One supported codec; frame and raw variants are distinct. -/
inductive Codec where
  | zstd
  | gzip
  | zlib
  | deflate
  | brotli
  | lz4
  | lz4Block
  | snappy
  | snappyRaw
  | xz
  | lzma
  | bzip2
  deriving DecidableEq, Repr

/-! ## String functions of the standard library -/

/-- `char::is_whitespace`: the Unicode `White_Space` property. -/
def isWhitespace (c : Char) : Bool :=
  let n := c.toNat
  (9 ≤ n && n ≤ 13) || n == 0x20 || n == 0x85 || n == 0xa0 || n == 0x1680
    || (0x2000 ≤ n && n ≤ 0x200a) || n == 0x2028 || n == 0x2029 || n == 0x202f
    || n == 0x205f || n == 0x3000

/-- `str::trim`. -/
def trim (s : List Char) : List Char :=
  ((s.dropWhile isWhitespace).reverse.dropWhile isWhitespace).reverse

/-- `str::to_ascii_lowercase`. -/
def toAsciiLowercase (s : List Char) : List Char := s.map Char.toLower

/-- `str::replace('-', "_")`. -/
def dashToUnderscore (s : List Char) : List Char :=
  s.map fun c => if c = '-' then '_' else c

namespace Codec

/-- Every codec this build supports, in the documented order. -/
def all : List Codec :=
  [zstd, gzip, zlib, deflate, brotli, lz4, lz4Block, snappy, snappyRaw, xz, lzma, bzip2]

/-- The name as it is looked up. -/
def normalize (name : String) : String :=
  .ofList (dashToUnderscore (toAsciiLowercase (trim name.toList)))

/-- Parse a codec name. -/
def parse (name : String) : Outcome CodecError Codec :=
  match normalize name with
  | "zstd" | "zstandard" | "zst" => .ok zstd
  | "gzip" | "gz" => .ok gzip
  | "zlib" => .ok zlib
  | "deflate" | "raw_deflate" => .ok deflate
  | "brotli" | "br" => .ok brotli
  | "lz4" | "lz4_frame" | "lz4frame" => .ok lz4
  | "lz4_block" | "lz4block" | "lz4_raw" => .ok lz4Block
  | "snappy" | "snappy_framed" | "snappy_frame" => .ok snappy
  | "snappy_raw" | "snappy_block" => .ok snappyRaw
  | "xz" => .ok xz
  | "lzma" | "lzma1" | "alone" => .ok lzma
  | "bzip2" | "bz2" | "bzip" => .ok bzip2
  | _ => .err (.unknownCodec name)

/-- The canonical lowercase name. -/
def name : Codec → String
  | zstd => "zstd"
  | gzip => "gzip"
  | zlib => "zlib"
  | deflate => "deflate"
  | brotli => "brotli"
  | lz4 => "lz4"
  | lz4Block => "lz4_block"
  | snappy => "snappy"
  | snappyRaw => "snappy_raw"
  | xz => "xz"
  | lzma => "lzma"
  | bzip2 => "bzip2"

/-- `name` is a spelling of the codec it names. -/
theorem parse_name (c : Codec) : parse c.name = .ok c := by
  cases c <;> rfl

/-- A name that is no codec's fails as such. -/
theorem parse_cases (name : String) :
    (∃ c, parse name = .ok c) ∨ parse name = .err (.unknownCodec name) := by
  unfold parse
  split <;> first | exact .inl ⟨_, rfl⟩ | exact .inr rfl

/-! ## Levels -/

/-- The default level, `none` for the level-less codecs. -/
def defaultLevel : Codec → Option Int32
  | zstd => some 3
  | gzip | zlib | deflate => some 6
  | brotli => some 11
  | lz4 | lz4Block => some 0
  | xz | lzma => some 6
  | bzip2 => some 9
  | snappy | snappyRaw => none

/-- The inclusive level range, `none` for the level-less codecs. -/
def levelRange : Codec → Option (Int32 × Int32)
  | zstd => some (-22, 22)
  | gzip | zlib | deflate => some (0, 9)
  | brotli => some (0, 11)
  | lz4 | lz4Block => some (0, 16)
  | xz | lzma => some (0, 9)
  | bzip2 => some (1, 9)
  | snappy | snappyRaw => none

/-- The effective level of a compress call, and whether it was clamped. -/
def resolveLevel (c : Codec) (requested : Option Int32) : Int32 × Bool :=
  match c.levelRange with
  | none => (0, false)
  | some (lo, hi) =>
      match requested with
      | none => (c.defaultLevel.getD lo, false)
      | some v => if v < lo then (lo, true) else if v > hi then (hi, true) else (v, false)

/-- A resolved level lies in the codec's range, whatever was requested:
the defaults do, and everything else is clamped. -/
theorem resolveLevel_mem {c : Codec} {lo hi : Int32} (hc : c.levelRange = some (lo, hi))
    (requested : Option Int32) :
    lo ≤ (c.resolveLevel requested).1 ∧ (c.resolveLevel requested).1 ≤ hi := by
  have hlohi : lo ≤ hi := by
    cases c <;> cases hc <;> decide
  cases requested with
  | none =>
      cases c <;> cases hc <;> decide
  | some v =>
      simp only [resolveLevel, hc]
      split
      · exact ⟨Int32.le_refl lo, hlohi⟩
      · split
        · exact ⟨hlohi, Int32.le_refl hi⟩
        · next h1 h2 => exact ⟨Int32.not_lt.mp h1, Int32.not_lt.mp h2⟩

end Codec

end VgiCompress
