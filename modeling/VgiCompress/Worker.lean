import VgiCompress.Arrow
import VgiCompress.Engine
import VgiCompress.RowLoop

/-!
# The scalar functions

`process` of the worker's scalar functions (`scalar/*.rs`) and the
resolution of their optional arguments (`config.rs`).

Every `process` is `processRows`: read the argument columns, run the row
loop with its early return, build one column. A function brings its own
columns, its own `row` and its own column builder. `processRows_eq` is
what such a call computes.
-/

namespace VgiCompress

open RustStd

/-! ## The surroundings of a call -/

/-- The process environment, and arrow's words for columns it refuses. -/
structure Host where
  env : String → Option String
  refusal : List Field → List ArrayRef → String

/-- The parameters of a call whose bind answered with this type: the
session's integer settings and the output schema. -/
structure ProcessParams (bound : DataType) where
  settings : String → Option Int64
  outputSchema : List Field
  schema_eq : outputSchema = [⟨bound, true⟩]

/-! ## Optional arguments -/

/-- `str::parse::<u64>`: an optional `+`, digits, no overflow. -/
def parseU64 (s : List Char) : Option UInt64 :=
  let digits := match s with
    | '+' :: rest => rest
    | _ => s
  if digits.isEmpty || !digits.all Char.isDigit then none
  else
    let n := digits.foldl (fun acc c => 10 * acc + (c.toNat - '0'.toNat)) 0
    if n < 2 ^ 64 then some (.ofNat n) else none

/-- `if let Some(v) = v { if v > 0 { return v as u64 } }`. -/
def positive (v : Option Int64) : Option UInt64 :=
  match v with
  | some v => if v > 0 then some v.toUInt64 else none
  | none => none

/-- The cap of a decode call: the argument, the setting, the environment
variable or the default, the first that is positive. -/
def resolveCap (env : String → Option String) {bound : DataType}
    (perCall : Option Int64) (params : ProcessParams bound) : UInt64 :=
  match positive perCall with
  | some v => v
  | none =>
      match positive (params.settings "compress_max_output_bytes") with
      | some v => v
      | none =>
          match env "VGI_COMPRESS_MAX_OUTPUT_BYTES" with
          | some s =>
              match parseU64 (trim s.toList) with
              | some v => if v > 0 then v else defaultMaxOutputBytes
              | none => defaultMaxOutputBytes
          | none => defaultMaxOutputBytes

/-- An `i64` level narrowed to `i32`, saturating. -/
def levelI32 (level : Option Int64) : Option Int32 :=
  level.map fun v => (clamp v (-2 ^ 31) (2 ^ 31 - 1)).toInt32

def codecErr (e : CodecError) : RpcError := .valueError e.display

def requireCodec (col : ArrayRef) (i : Nat) : Outcome RpcError String := do
  match ← textStr col i with
  | some c => pure c
  | none => .err (.valueError "codec must not be NULL")

/-- An optional integer cell, `none` also where the overload lacks the
column. -/
def optIntVal (col : Option ArrayRef) (i : Nat) : Outcome RpcError (Option Int64) :=
  match col with
  | some col => intVal col i
  | none => .ok none

/-! ## The shape of a call -/

section Process

variable {κ ω : Type} {bound : DataType}

/-- Columns, row loop, output column, output batch. -/
def processRows (host : Host) (params : ProcessParams bound)
    (arguments : RecordBatch → Outcome RpcError κ) (row : κ → Nat → Outcome RpcError ω)
    (column : List ω → Outcome RpcError ArrayRef) (batch : RecordBatch) :
    Outcome RpcError RecordBatch := do
  let args ← arguments batch
  let out ← Outcome.pushEach (row args) (List.range batch.numRows) []
  let arr ← column out
  (Outcome.ofExcept (RecordBatch.tryNew host.refusal params.outputSchema [arr])).mapErr
    .runtimeError

/-- One row of a batch, from its columns on. -/
def rowOf (arguments : RecordBatch → Outcome RpcError κ)
    (row : κ → Nat → Outcome RpcError ω) (batch : RecordBatch) (i : Nat) :
    Outcome RpcError ω := do
  let args ← arguments batch
  row args i

end Process

/-- `if with_extra { Some(batch.column(i)) } else { None }`. -/
def columnIf (withExtra : Bool) (batch : RecordBatch) (i : Nat) :
    Outcome RpcError (Option ArrayRef) :=
  if withExtra then do
    let col ← batch.column i
    pure (some col)
  else pure none

/-- The columns of an overload of `f(blob)`. -/
def blobArg (batch : RecordBatch) : Outcome RpcError ArrayRef := batch.column 0

/-- The columns of an overload of `f(blob [, extra])`. -/
def blobArgs (withExtra : Bool) (batch : RecordBatch) :
    Outcome RpcError (ArrayRef × Option ArrayRef) := do
  let input ← batch.column 0
  let extra ← columnIf withExtra batch 1
  pure (input, extra)

/-- The columns of an overload of `f(blob, codec [, extra])`. -/
def blobCodecArgs (withExtra : Bool) (batch : RecordBatch) :
    Outcome RpcError (ArrayRef × ArrayRef × Option ArrayRef) := do
  let input ← batch.column 0
  let codec ← batch.column 1
  let extra ← columnIf withExtra batch 2
  pure (input, codec, extra)

/-! ## The functions -/

section Functions

variable (be : Backends) (host : Host)

structure Compress where
  withLevel : Bool

namespace Compress

def row : ArrayRef × ArrayRef × Option ArrayRef → Nat → Outcome RpcError (Option Bytes)
  | (input, codec, levelCol), i => do
      match ← blobBytes input i with
      | none => pure none
      | some bytes =>
          let c ← requireCodec codec i
          let level ← optIntVal levelCol i
          let packed ← (compress be c bytes (levelI32 level)).mapErr codecErr
          pure (some packed)

def process (self : Compress) (params : ProcessParams .binary) (batch : RecordBatch) :
    Outcome RpcError RecordBatch :=
  processRows host params (blobCodecArgs self.withLevel) (row be) binaryArray batch

end Compress

structure Decompress where
  withCap : Bool

namespace Decompress

def row (params : ProcessParams .binary) :
    ArrayRef × ArrayRef × Option ArrayRef → Nat → Outcome RpcError (Option Bytes)
  | (input, codec, capCol), i => do
      match ← blobBytes input i with
      | none => pure none
      | some bytes =>
          let c ← requireCodec codec i
          let perCall ← optIntVal capCol i
          let cap := resolveCap host.env perCall params
          let plain ← (decompress be c bytes cap).mapErr codecErr
          pure (some plain)

def process (self : Decompress) (params : ProcessParams .binary) (batch : RecordBatch) :
    Outcome RpcError RecordBatch :=
  processRows host params (blobCodecArgs self.withCap) (row be host params) binaryArray batch

end Decompress

structure DecompressAuto where
  withCap : Bool

namespace DecompressAuto

def row (params : ProcessParams .binary) :
    ArrayRef × Option ArrayRef → Nat → Outcome RpcError (Option Bytes)
  | (input, capCol), i => do
      match ← blobBytes input i with
      | none => pure none
      | some bytes =>
          let perCall ← optIntVal capCol i
          let cap := resolveCap host.env perCall params
          let plain ← (decompressAuto be bytes cap).mapErr codecErr
          pure (some plain)

def process (self : DecompressAuto) (params : ProcessParams .binary) (batch : RecordBatch) :
    Outcome RpcError RecordBatch :=
  processRows host params (blobArgs self.withCap) (row be host params) binaryArray batch

end DecompressAuto

structure CompressedSize where
  withLevel : Bool

namespace CompressedSize

def row : ArrayRef × ArrayRef × Option ArrayRef → Nat → Outcome RpcError (Option UInt64)
  | (input, codec, levelCol), i => do
      match ← blobBytes input i with
      | none => pure none
      | some bytes =>
          let c ← requireCodec codec i
          let level ← optIntVal levelCol i
          let sz ← (compressedSize be c bytes (levelI32 level)).mapErr codecErr
          pure (some sz)

def process (self : CompressedSize) (params : ProcessParams .uint64) (batch : RecordBatch) :
    Outcome RpcError RecordBatch :=
  processRows host params (blobCodecArgs self.withLevel) (row be)
    (fun out => .ok (u64OptArray out)) batch

end CompressedSize

structure DecompressedSize where
  withCap : Bool

namespace DecompressedSize

def row (params : ProcessParams .uint64) :
    ArrayRef × ArrayRef × Option ArrayRef → Nat → Outcome RpcError (Option UInt64)
  | (input, codec, capCol), i => do
      match ← blobBytes input i with
      | none => pure none
      | some bytes =>
          let c ← requireCodec codec i
          let perCall ← optIntVal capCol i
          let cap := resolveCap host.env perCall params
          (decompressedSize be c bytes cap).mapErr codecErr

def process (self : DecompressedSize) (params : ProcessParams .uint64)
    (batch : RecordBatch) : Outcome RpcError RecordBatch :=
  processRows host params (blobCodecArgs self.withCap) (row be host params)
    (fun out => .ok (u64OptArray out)) batch

end DecompressedSize

structure Ratio where
  withLevel : Bool

namespace Ratio

def row : ArrayRef × ArrayRef × Option ArrayRef → Nat → Outcome RpcError (Option Float)
  | (input, codec, levelCol), i => do
      match ← blobBytes input i with
      | none => pure none
      | some bytes =>
          let c ← requireCodec codec i
          let level ← optIntVal levelCol i
          (ratio be c bytes (levelI32 level)).mapErr codecErr

def process (self : Ratio) (params : ProcessParams .float64) (batch : RecordBatch) :
    Outcome RpcError RecordBatch :=
  processRows host params (blobCodecArgs self.withLevel) (row be)
    (fun out => .ok (f64OptArray out)) batch

end Ratio

namespace IsValid

/-- A NULL codec makes the answer NULL here, not an error. -/
def row : ArrayRef × ArrayRef × Option ArrayRef → Nat → Outcome RpcError (Option Bool)
  | (input, codec, _), i => do
      match ← blobBytes input i with
      | none => pure none
      | some bytes =>
          match ← textStr codec i with
          | none => pure none
          | some c => pure (some (isValid be c bytes))

def process (params : ProcessParams .boolean) (batch : RecordBatch) :
    Outcome RpcError RecordBatch :=
  processRows host params (blobCodecArgs false) (row be)
    (fun out => .ok (boolArray out)) batch

end IsValid

namespace DetectCodec

def row (input : ArrayRef) (i : Nat) : Outcome RpcError (Option String) := do
  let bytes ← blobBytes input i
  pure (bytes.map fun bytes => (detectCodec be bytes).getD "unknown")

def process (params : ProcessParams .utf8) (batch : RecordBatch) :
    Outcome RpcError RecordBatch :=
  processRows host params blobArg (row be) stringArray batch

end DetectCodec

end Functions

/-! ## What a call computes -/

section Process

variable {κ ω : Type} {bound : DataType}

/-- A column of the bound type always makes a batch. -/
theorem tryNew_bound (host : Host) (params : ProcessParams bound)
    (cells : List (Option bound.Val)) :
    ∃ rb, RecordBatch.tryNew host.refusal params.outputSchema [⟨bound, cells⟩] = .ok rb
      ∧ rb.columns = [⟨bound, cells⟩] ∧ rb.numRows = cells.length := by
  rw [params.schema_eq]
  exact RecordBatch.tryNew_single host.refusal ⟨bound, cells⟩

/-- The call is the sequence of its rows, unless it has none. -/
theorem processRows_eq (host : Host) (params : ProcessParams bound)
    (arguments : RecordBatch → Outcome RpcError κ) (row : κ → Nat → Outcome RpcError ω)
    (column : List ω → Outcome RpcError ArrayRef) (batch : RecordBatch)
    (h : 0 < batch.numRows ∨ ∃ args, arguments batch = .ok args) :
    processRows host params arguments row column batch =
      (Outcome.sequence ((List.range batch.numRows).map (rowOf arguments row batch))
        >>= fun out => column out >>= fun arr =>
          (Outcome.ofExcept
            (RecordBatch.tryNew host.refusal params.outputSchema [arr])).mapErr
              .runtimeError) := by
  have hfirst (n : Nat) : List.range (n + 1) = 0 :: (List.range n).map (· + 1) :=
    List.range_succ_eq_map
  cases ha : arguments batch with
  | ok args =>
      have hrow : rowOf arguments row batch = row args := by
        funext i
        rw [rowOf, ha, Outcome.ok_bind]
      rw [processRows, ha, Outcome.ok_bind, Outcome.pushEach_eq, hrow]
  | err e =>
      obtain ⟨n, hn⟩ : ∃ n, batch.numRows = n + 1 := by
        rcases h with h | ⟨args, h⟩
        · exact ⟨batch.numRows - 1, by omega⟩
        · rw [ha] at h; cases h
      rw [processRows, hn, hfirst, List.map_cons, Outcome.sequence, rowOf, ha]
      rfl
  | panic =>
      obtain ⟨n, hn⟩ : ∃ n, batch.numRows = n + 1 := by
        rcases h with h | ⟨args, h⟩
        · exact ⟨batch.numRows - 1, by omega⟩
        · rw [ha] at h; cases h
      rw [processRows, hn, hfirst, List.map_cons, Outcome.sequence, rowOf, ha]
      rfl

end Process

end VgiCompress
