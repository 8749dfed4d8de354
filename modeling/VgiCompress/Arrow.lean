import VgiCompress.Guard

/-!
# Columns and cells

The part of Arrow the worker touches, and the helpers of `arrow_io.rs`
over it. A column has one data type and a list of nullable cells of it;
every cell is read through `ArrayRef.cell?`, so what a row function does
to a row depends on that row's cells and nothing else.

A byte builder keeps the length of its value buffer, because its offsets
are `i32`: appending past `i32::MAX` bytes panics. `binaryArray_eq` says
when that happens, for a whole column.
-/

namespace VgiCompress

open RustStd

/-! ## Data types, columns, batches -/

/-- `listUtf8` is a list of nullable VARCHAR items, which only `codecs()`
answers with, and `other` is any other type. The helpers reject both, by
their `Debug` texts, which are arrow's own. -/
inductive DataType where
  | binary
  | largeBinary
  | utf8
  | largeUtf8
  | int8
  | int16
  | int32
  | int64
  | uint8
  | uint16
  | uint32
  | uint64
  | float64
  | boolean
  | listUtf8 (debug : String)
  | other (debug : String)
  deriving DecidableEq, Repr

namespace DataType

/-- The value of a non-null cell. -/
abbrev Val : DataType → Type
  | binary | largeBinary => Bytes
  | utf8 | largeUtf8 => String
  | int8 => Int8
  | int16 => Int16
  | int32 => Int32
  | int64 => Int64
  | uint8 => UInt8
  | uint16 => UInt16
  | uint32 => UInt32
  | uint64 => UInt64
  | float64 => Float
  | boolean => Bool
  | listUtf8 _ => List (Option String)
  | other _ => Unit

def debug : DataType → String
  | binary => "Binary"
  | largeBinary => "LargeBinary"
  | utf8 => "Utf8"
  | largeUtf8 => "LargeUtf8"
  | int8 => "Int8"
  | int16 => "Int16"
  | int32 => "Int32"
  | int64 => "Int64"
  | uint8 => "UInt8"
  | uint16 => "UInt16"
  | uint32 => "UInt32"
  | uint64 => "UInt64"
  | float64 => "Float64"
  | boolean => "Boolean"
  | listUtf8 text | other text => text

end DataType

/-- A cell with its column's type; `none` is NULL. -/
abbrev Cell := Σ t : DataType, Option t.Val

structure ArrayRef where
  dataType : DataType
  cells : List (Option dataType.Val)

namespace ArrayRef

def len (col : ArrayRef) : Nat := col.cells.length

def cell? (col : ArrayRef) (row : Nat) : Option Cell :=
  col.cells[row]?.map (Sigma.mk col.dataType)

def take (n : Nat) (col : ArrayRef) : ArrayRef := ⟨col.dataType, col.cells.take n⟩

def drop (n : Nat) (col : ArrayRef) : ArrayRef := ⟨col.dataType, col.cells.drop n⟩

theorem cell?_take (col : ArrayRef) {n i : Nat} (h : i < n) :
    (col.take n).cell? i = col.cell? i := by
  have hcells : (col.cells.take n)[i]? = col.cells[i]? := List.getElem?_take_of_lt h
  exact congrArg (Option.map (Sigma.mk col.dataType)) hcells

theorem cell?_drop (col : ArrayRef) (n i : Nat) :
    (col.drop n).cell? i = col.cell? (n + i) := by
  have hcells : (col.cells.drop n)[i]? = col.cells[n + i]? := List.getElem?_drop
  exact congrArg (Option.map (Sigma.mk col.dataType)) hcells

end ArrayRef

/-- Columns of one length. -/
structure RecordBatch where
  columns : List ArrayRef
  numRows : Nat
  lengths : ∀ col ∈ columns, col.len = numRows

/-! ## Errors of a call -/

/-- What a function call reports to DuckDB. -/
inductive RpcError where
  | valueError (message : String)
  | runtimeError (message : String)
  deriving DecidableEq, Repr

namespace RecordBatch

/-- `batch.column(i)`, which panics past the last column. -/
def column (batch : RecordBatch) (i : Nat) : Outcome RpcError ArrayRef :=
  match batch.columns[i]? with
  | some col => .ok col
  | none => .panic

def take (n : Nat) (batch : RecordBatch) : RecordBatch where
  columns := batch.columns.map (·.take n)
  numRows := min n batch.numRows
  lengths := by
    simp only [List.forall_mem_map, ArrayRef.len, ArrayRef.take, List.length_take]
    intro col hcol
    rw [← batch.lengths col hcol, ArrayRef.len]

def drop (n : Nat) (batch : RecordBatch) : RecordBatch where
  columns := batch.columns.map (·.drop n)
  numRows := batch.numRows - n
  lengths := by
    simp only [List.forall_mem_map, ArrayRef.len, ArrayRef.drop, List.length_drop]
    intro col hcol
    rw [← batch.lengths col hcol, ArrayRef.len]

/-- The batch cut into consecutive batches of these sizes. -/
def cut : List Nat → RecordBatch → List RecordBatch
  | [], _ => []
  | n :: ns, batch => batch.take n :: cut ns (batch.drop n)

end RecordBatch

/-! ## Building the output batch -/

structure Field where
  dataType : DataType
  nullable : Bool
  deriving DecidableEq

/-- What `RecordBatch::try_new` checks: the columns have the fields' types,
no NULL where the field forbids it, and one length. -/
def accepts (schema : List Field) (columns : List ArrayRef) (rows : Nat) : Bool :=
  schema.map (·.dataType) == columns.map (·.dataType)
    && (schema.zip columns).all (fun p => p.1.nullable || p.2.cells.all Option.isSome)
    && columns.all (·.len == rows)

namespace RecordBatch

/-- `RecordBatch::try_new`. Its error text is arrow's own. -/
def tryNew (refusal : List Field → List ArrayRef → String) (schema : List Field) :
    List ArrayRef → Except String RecordBatch
  | [] => .error (refusal schema [])
  | col :: cols =>
      if h : accepts schema (col :: cols) col.len = true then
        .ok ⟨col :: cols, col.len, by
          simp only [accepts, Bool.and_eq_true, List.all_eq_true, beq_iff_eq] at h
          exact h.2⟩
      else .error (refusal schema (col :: cols))

/-- One column of the type its nullable field has. -/
theorem tryNew_single (refusal : List Field → List ArrayRef → String) (col : ArrayRef) :
    ∃ rb, tryNew refusal [⟨col.dataType, true⟩] [col] = .ok rb ∧ rb.columns = [col]
      ∧ rb.numRows = col.len := by
  have h : accepts [⟨col.dataType, true⟩] [col] col.len = true := by simp [accepts]
  exact ⟨_, by rw [tryNew, dif_pos h], rfl, rfl⟩

end RecordBatch

/-! ## Reading cells -/

/-- The bytes of a BLOB or VARCHAR cell. -/
def blobBytes (col : ArrayRef) (row : Nat) : Outcome RpcError (Option Bytes) :=
  match col.cell? row with
  | none => .panic
  | some ⟨_, none⟩ => .ok none
  | some ⟨.binary, some v⟩ => .ok (some v)
  | some ⟨.largeBinary, some v⟩ => .ok (some v)
  | some ⟨.utf8, some v⟩ => .ok (some v.toUTF8.data.toList)
  | some ⟨.largeUtf8, some v⟩ => .ok (some v.toUTF8.data.toList)
  | some ⟨t, some _⟩ =>
      .err (.valueError ("expected a BLOB or VARCHAR argument, got " ++ t.debug))

/-- A VARCHAR cell. -/
def textStr (col : ArrayRef) (row : Nat) : Outcome RpcError (Option String) :=
  match col.cell? row with
  | none => .panic
  | some ⟨_, none⟩ => .ok none
  | some ⟨.utf8, some v⟩ => .ok (some v)
  | some ⟨.largeUtf8, some v⟩ => .ok (some v)
  | some ⟨t, some _⟩ =>
      .err (.valueError ("expected a VARCHAR (codec) argument, got " ++ t.debug))

/-- An integer cell of any width, cast to `i64`. -/
def intVal (col : ArrayRef) (row : Nat) : Outcome RpcError (Option Int64) :=
  match col.cell? row with
  | none => .panic
  | some ⟨_, none⟩ => .ok none
  | some ⟨.int64, some v⟩ => .ok (some v)
  | some ⟨.int32, some v⟩ => .ok (some v.toInt64)
  | some ⟨.int16, some v⟩ => .ok (some v.toInt64)
  | some ⟨.int8, some v⟩ => .ok (some v.toInt64)
  -- `as i64` keeps the bits: a value past `i64::MAX` turns negative
  | some ⟨.uint64, some v⟩ => .ok (some v.toInt64)
  | some ⟨.uint32, some v⟩ => .ok (some v.toUInt64.toInt64)
  | some ⟨.uint16, some v⟩ => .ok (some v.toUInt64.toInt64)
  | some ⟨.uint8, some v⟩ => .ok (some v.toUInt64.toInt64)
  | some ⟨t, some _⟩ =>
      .err (.valueError
        ("expected an integer (level / max_output_bytes) argument, got " ++ t.debug))

/-! ## Building columns -/

/-- `i32::MAX`, the last offset of a Binary or Utf8 array. -/
def i32Max : Nat := 2 ^ 31 - 1

/-- `GenericByteBuilder` with `i32` offsets: the cells appended so far and
the length of the value buffer. `BinaryBuilder` and `StringBuilder` are
its instances. -/
structure ByteBuilder (α : Type) where
  cells : List (Option α)
  valueLen : Nat

namespace ByteBuilder

variable {α : Type} (size : α → Nat)

def new : ByteBuilder α := ⟨[], 0⟩

/-- The next offset is a checked `i32`: past the last one this panics. -/
def appendValue (b : ByteBuilder α) (v : α) : Outcome RpcError (ByteBuilder α) :=
  if b.valueLen + size v > i32Max then .panic
  else .ok ⟨b.cells ++ [some v], b.valueLen + size v⟩

def appendNull (b : ByteBuilder α) : ByteBuilder α := ⟨b.cells ++ [none], b.valueLen⟩

/-- `for v in col { match v { Some(x) => append_value(x), None => append_null() } }`. -/
def appendEach : List (Option α) → ByteBuilder α → Outcome RpcError (ByteBuilder α)
  | [], b => .ok b
  | some v :: rest, b => do
      let b ← b.appendValue size v
      appendEach rest b
  | none :: rest, b => appendEach rest b.appendNull

/-- The bytes a cell puts into the value buffer. -/
def cellSize (v : Option α) : Nat := (v.map size).getD 0

variable {size}

theorem appendEach_eq (col : List (Option α)) (b : ByteBuilder α) (h : b.valueLen ≤ i32Max) :
    appendEach size col b =
      if b.valueLen + (col.map (cellSize size)).sum ≤ i32Max then
        .ok ⟨b.cells ++ col, b.valueLen + (col.map (cellSize size)).sum⟩
      else .panic := by
  induction col generalizing b with
  | nil => simp [appendEach, h]
  | cons cell rest ih =>
      cases cell with
      | none =>
          rw [appendEach, ih b.appendNull h]
          simp [appendNull, cellSize]
      | some v =>
          have hv : cellSize size (some v) = size v := rfl
          rw [appendEach, appendValue, List.map_cons, List.sum_cons, hv, ← Nat.add_assoc]
          by_cases hgt : b.valueLen + size v > i32Max
          · have hsum : ¬b.valueLen + size v + (rest.map (cellSize size)).sum ≤ i32Max := by omega
            rw [if_pos hgt, if_neg hsum, Outcome.panic_bind]
          · rw [if_neg hgt, Outcome.ok_bind, ih _ (Nat.not_lt.mp hgt)]
            simp

end ByteBuilder

/-- A nullable BLOB column. -/
def binaryArray (col : List (Option Bytes)) : Outcome RpcError ArrayRef := do
  let b ← ByteBuilder.appendEach List.length col .new
  pure ⟨.binary, b.cells⟩

/-- A nullable VARCHAR column. -/
def stringArray (col : List (Option String)) : Outcome RpcError ArrayRef := do
  let b ← ByteBuilder.appendEach String.utf8ByteSize col .new
  pure ⟨.utf8, b.cells⟩

def u64OptArray (col : List (Option UInt64)) : ArrayRef := ⟨.uint64, col⟩

def f64OptArray (col : List (Option Float)) : ArrayRef := ⟨.float64, col⟩

/-- `BooleanBuilder`, after one append for each row. -/
def boolArray (col : List (Option Bool)) : ArrayRef := ⟨.boolean, col⟩

/-- The bytes a row adds to a BLOB column. -/
abbrev cellBytes : Option Bytes → Nat := ByteBuilder.cellSize List.length

/-- The output column is built exactly when the bytes of all its cells
together fit the builder's offsets. -/
theorem binaryArray_eq (col : List (Option Bytes)) :
    binaryArray col =
      if (col.map cellBytes).sum ≤ i32Max then .ok ⟨.binary, col⟩ else .panic := by
  rw [binaryArray, ByteBuilder.appendEach_eq col .new (Nat.zero_le _)]
  simp only [ByteBuilder.new, Nat.zero_add, List.nil_append]
  split <;> rfl

end VgiCompress
