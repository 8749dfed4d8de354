import VgiCompress.Unwinding

/-!
# The registered functions

`register` lists the overloads that `scalar/mod.rs` puts on the worker, and
`overload` picks one by name and number of columns, as DuckDB binds them.
Every function with a payload argument is a `RowFunction`: a reader of
argument columns, a row function, and a column builder that fails on a known
weight only.

`call_cases` is everything a bound call of these can do: answer every row in
one column of the type it bound with, fail as the first failing row does, or
panic because the rows' bytes together outgrow that column. A row by itself
unwinds only in a decoder, under a cap that no `Vec` can be filled to.
-/

namespace VgiCompress

open RustStd

/-! ## Argument lists -/

/-- An argument column of an overload; without a type it takes any column. -/
structure ArgSpec where
  name : String
  position : Nat
  dataType : Option DataType
  choices : List String

namespace ArgSpec

def anyColumn (name : String) (position : Nat) : ArgSpec := ⟨name, position, none, []⟩

def columnTyped (name : String) (position : Nat) (t : DataType) : ArgSpec :=
  ⟨name, position, some t, []⟩

def withChoices (spec : ArgSpec) (choices : List String) : ArgSpec := { spec with choices }

end ArgSpec

/-- The codec names this build supports, in stable order. -/
def codecs : List String := Codec.all.map Codec.name

/-! ## The overloads -/

/-- A scalar function that reads a blob, with the flag of its overload. -/
inductive ScalarFunction where
  | compress (self : Compress)
  | decompress (self : Decompress)
  | decompressAuto (self : DecompressAuto)
  | detectCodec
  | compressedSize (self : CompressedSize)
  | decompressedSize (self : DecompressedSize)
  | ratio (self : Ratio)
  | isValid

namespace ScalarFunction

def name : ScalarFunction → String
  | compress _ => "compress"
  | decompress _ => "decompress"
  | decompressAuto _ => "decompress_auto"
  | detectCodec => "detect_codec"
  | compressedSize _ => "compressed_size"
  | decompressedSize _ => "decompressed_size"
  | ratio _ => "ratio"
  | isValid => "is_valid"

/-- The arguments of an overload of `f(blob, codec [, extra])`. -/
def blobCodecSpecs (extra : String) (withExtra : Bool) : List ArgSpec :=
  [.anyColumn "input" 0, (ArgSpec.columnTyped "codec" 1 .utf8).withChoices codecs]
    ++ if withExtra then [.anyColumn extra 2] else []

def argumentSpecs : ScalarFunction → List ArgSpec
  | compress self => blobCodecSpecs "level" self.withLevel
  | decompress self => blobCodecSpecs "max_output_bytes" self.withCap
  | decompressAuto self =>
      [.columnTyped "input" 0 .binary]
        ++ if self.withCap then [.anyColumn "max_output_bytes" 1] else []
  | detectCodec => [.anyColumn "input" 0]
  | compressedSize self => blobCodecSpecs "level" self.withLevel
  | decompressedSize self => blobCodecSpecs "max_output_bytes" self.withCap
  | ratio self => blobCodecSpecs "level" self.withLevel
  | isValid => blobCodecSpecs "" false

/-- The type `on_bind` answers with. -/
def onBind : ScalarFunction → DataType
  | compress _ | decompress _ | decompressAuto _ => .binary
  | detectCodec => .utf8
  | compressedSize _ | decompressedSize _ => .uint64
  | ratio _ => .float64
  | isValid => .boolean

def process (be : Backends) (host : Host) : (f : ScalarFunction) → ProcessParams f.onBind →
    RecordBatch → Outcome RpcError RecordBatch
  | compress self => self.process be host
  | decompress self => self.process be host
  | decompressAuto self => self.process be host
  | detectCodec => DetectCodec.process be host
  | compressedSize self => self.process be host
  | decompressedSize self => self.process be host
  | ratio self => self.process be host
  | isValid => IsValid.process be host

end ScalarFunction

/-- An overload on the worker: of a function that reads a blob, or `codecs()`,
which has no arguments. -/
inductive Overload where
  | scalar (f : ScalarFunction)
  | codecs

namespace Overload

def name : Overload → String
  | scalar f => f.name
  | codecs => "codecs"

def argumentSpecs : Overload → List ArgSpec
  | scalar f => f.argumentSpecs
  | codecs => []

end Overload

/-- What is registered on the worker. -/
def register : List Overload :=
  [.scalar (.compress ⟨false⟩), .scalar (.compress ⟨true⟩), .scalar (.decompress ⟨false⟩),
    .scalar (.decompress ⟨true⟩), .scalar (.decompressAuto ⟨false⟩),
    .scalar (.decompressAuto ⟨true⟩), .scalar .detectCodec, .scalar (.compressedSize ⟨false⟩),
    .scalar (.compressedSize ⟨true⟩), .scalar (.decompressedSize ⟨false⟩),
    .scalar (.decompressedSize ⟨true⟩), .scalar (.ratio ⟨false⟩), .scalar (.ratio ⟨true⟩),
    .scalar .isValid, .codecs]

/-- The overload a call is bound to, by its name and its arguments. -/
def overload (name : String) (arity : Nat) : Option Overload :=
  register.find? fun o => o.name == name && o.argumentSpecs.length == arity

theorem arity_of_overload {name : String} {arity : Nat} {o : Overload}
    (h : overload name arity = some o) : o.argumentSpecs.length = arity := by
  have hfound := List.find?_some h
  rw [Bool.and_eq_true, beq_iff_eq, beq_iff_eq] at hfound
  exact hfound.2

/-! ## One shape for all of them -/

/-- What a cell puts into the value buffer of its column, or of the items of
its column. Columns of fixed width have none. -/
def cellWeight : (t : DataType) → Option t.Val → Nat
  | .binary => cellBytes
  | .utf8 => ByteBuilder.cellSize String.utf8ByteSize
  | .listUtf8 _ => fun v => ((v.getD []).map (ByteBuilder.cellSize String.utf8ByteSize)).sum
  | _ => fun _ => 0

/-- A function by rows, with a column builder that panics only past the
last offset. -/
structure RowFunction (bound : DataType) where
  Args : Type
  arguments : RecordBatch → Outcome RpcError Args
  row : Args → Nat → Outcome RpcError (Option bound.Val)
  column : List (Option bound.Val) → Outcome RpcError ArrayRef
  builds : BuildsUnder column (cellWeight bound) i32Max

theorem stringArray_eq (col : List (Option String)) :
    stringArray col =
      if (col.map (ByteBuilder.cellSize String.utf8ByteSize)).sum ≤ i32Max then .ok ⟨.utf8, col⟩
      else .panic := by
  rw [stringArray, ByteBuilder.appendEach_eq col .new (Nat.zero_le _)]
  simp only [ByteBuilder.new, Nat.zero_add, List.nil_append]
  split <;> rfl

theorem stringArray_builds : @BuildsUnder .utf8 stringArray (cellWeight .utf8) i32Max :=
  stringArray_eq

theorem weightless_builds {bound : DataType} (h : ∀ v, cellWeight bound v = 0) :
    @BuildsUnder bound (fun out => .ok ⟨bound, out⟩) (cellWeight bound) i32Max := by
  intro out
  have hsum : (out.map (cellWeight bound)).sum = 0 := by
    rw [List.map_congr_left fun v _ => h v, List.map_const', List.sum_replicate_nat, Nat.mul_zero]
  rw [hsum, if_pos (Nat.zero_le _)]

section Call

variable (be : Backends) (host : Host)

/-- The parts of a registered function. -/
def ScalarFunction.parts : (f : ScalarFunction) → ProcessParams f.onBind → RowFunction f.onBind
  | .compress self, _ =>
      { Args := _, arguments := blobCodecArgs self.withLevel, row := Compress.row be,
        column := binaryArray, builds := binaryArray_builds }
  | .decompress self, params =>
      { Args := _, arguments := blobCodecArgs self.withCap, row := Decompress.row be host params,
        column := binaryArray, builds := binaryArray_builds }
  | .decompressAuto self, params =>
      { Args := _, arguments := blobArgs self.withCap, row := DecompressAuto.row be host params,
        column := binaryArray, builds := binaryArray_builds }
  | .detectCodec, _ =>
      { Args := _, arguments := blobArg, row := DetectCodec.row be,
        column := stringArray, builds := stringArray_builds }
  | .compressedSize self, _ =>
      { Args := _, arguments := blobCodecArgs self.withLevel, row := CompressedSize.row be,
        column := _, builds := weightless_builds fun _ => rfl }
  | .decompressedSize self, params =>
      { Args := _, arguments := blobCodecArgs self.withCap,
        row := DecompressedSize.row be host params,
        column := _, builds := weightless_builds fun _ => rfl }
  | .ratio self, _ =>
      { Args := _, arguments := blobCodecArgs self.withLevel, row := Ratio.row be,
        column := _, builds := weightless_builds fun _ => rfl }
  | .isValid, _ =>
      { Args := _, arguments := blobCodecArgs false, row := IsValid.row be,
        column := _, builds := weightless_builds fun _ => rfl }

theorem ScalarFunction.process_eq (f : ScalarFunction) (params : ProcessParams f.onBind)
    (b : RecordBatch) :
    f.process be host params b =
      processRows host params (f.parts be host params).arguments (f.parts be host params).row
        (f.parts be host params).column b := by
  cases f <;> rfl

/-- One row of a call. -/
def ScalarFunction.rowAt (f : ScalarFunction) (params : ProcessParams f.onBind) :
    RecordBatch → Nat → Outcome RpcError (Option f.onBind.Val) :=
  rowOf (f.parts be host params).arguments (f.parts be host params).row

end Call

/-! ## The columns of a bound call -/

section Columns

variable {b : RecordBatch}

theorem RecordBatch.column_of_lt {k : Nat} (h : k < b.columns.length) :
    ∃ col, b.column k = .ok col ∧ col.len = b.numRows := by
  refine ⟨b.columns[k], ?_, b.lengths _ (List.getElem_mem h)⟩
  rw [RecordBatch.column, List.getElem?_eq_getElem h]

theorem columnIf_of_lt {withExtra : Bool} {k : Nat}
    (h : withExtra = true → k < b.columns.length) :
    ∃ extra, columnIf withExtra b k = .ok extra
      ∧ ∀ col, extra = some col → col.len = b.numRows := by
  cases withExtra with
  | false => exact ⟨none, rfl, nofun⟩
  | true =>
      obtain ⟨col, hcol, hlen⟩ := RecordBatch.column_of_lt (h rfl)
      refine ⟨some col, ?_, ?_⟩
      · rw [columnIf, if_pos rfl, hcol]
        rfl
      · rintro _ ⟨⟩
        exact hlen

theorem blobArgs_of_columns {withExtra : Bool} {input : ArrayRef} {extra : Option ArrayRef}
    (hinput : b.column 0 = .ok input) (hextra : columnIf withExtra b 1 = .ok extra) :
    blobArgs withExtra b = .ok (input, extra) := by
  rw [blobArgs, hinput, hextra]
  rfl

theorem blobCodecArgs_of_columns {withExtra : Bool} {input codec : ArrayRef}
    {extra : Option ArrayRef} (hinput : b.column 0 = .ok input) (hcodec : b.column 1 = .ok codec)
    (hextra : columnIf withExtra b 2 = .ok extra) :
    blobCodecArgs withExtra b = .ok (input, codec, extra) := by
  rw [blobCodecArgs, hinput, hcodec, hextra]
  rfl

theorem blobArgs_of_length {withExtra : Bool}
    (h : (if withExtra then 2 else 1) ≤ b.columns.length) :
    ∃ input extra, blobArgs withExtra b = .ok (input, extra) ∧ input.len = b.numRows
      ∧ ∀ col, extra = some col → col.len = b.numRows := by
  obtain ⟨input, hinput, hlen⟩ :=
    RecordBatch.column_of_lt (b := b) (k := 0) (by split at h <;> omega)
  obtain ⟨extra, hextra, hlen'⟩ : ∃ extra, columnIf withExtra b 1 = .ok extra
      ∧ ∀ col, extra = some col → col.len = b.numRows := columnIf_of_lt (by rintro rfl; exact h)
  exact ⟨input, extra, blobArgs_of_columns hinput hextra, hlen, hlen'⟩

theorem blobCodecArgs_of_length {withExtra : Bool}
    (h : (if withExtra then 3 else 2) ≤ b.columns.length) :
    ∃ input codec extra, blobCodecArgs withExtra b = .ok (input, codec, extra)
      ∧ input.len = b.numRows ∧ codec.len = b.numRows
      ∧ ∀ col, extra = some col → col.len = b.numRows := by
  obtain ⟨input, hinput, hlen⟩ :=
    RecordBatch.column_of_lt (b := b) (k := 0) (by split at h <;> omega)
  obtain ⟨codec, hcodec, hlen'⟩ :=
    RecordBatch.column_of_lt (b := b) (k := 1) (by split at h <;> omega)
  obtain ⟨extra, hextra, hlen''⟩ : ∃ extra, columnIf withExtra b 2 = .ok extra
      ∧ ∀ col, extra = some col → col.len = b.numRows := columnIf_of_lt (by rintro rfl; exact h)
  exact ⟨input, codec, extra, blobCodecArgs_of_columns hinput hcodec hextra, hlen, hlen', hlen''⟩

theorem columnIf_eq_some {withExtra : Bool} {k : Nat} {col : ArrayRef}
    (h : columnIf withExtra b k = .ok (some col)) : withExtra = true ∧ b.column k = .ok col := by
  cases withExtra with
  | false => cases h
  | true =>
      rw [columnIf, if_pos rfl] at h
      obtain ⟨c, hc, h⟩ := Outcome.bind_eq_ok.mp h
      cases h
      exact ⟨rfl, hc⟩

theorem blobArgs_eq_ok {withExtra : Bool} {input : ArrayRef} {extra : Option ArrayRef}
    (h : blobArgs withExtra b = .ok (input, extra)) :
    b.column 0 = .ok input ∧ columnIf withExtra b 1 = .ok extra := by
  obtain ⟨c, hc, h⟩ := Outcome.bind_eq_ok.mp h
  obtain ⟨x, hx, h⟩ := Outcome.bind_eq_ok.mp h
  cases h
  exact ⟨hc, hx⟩

theorem blobCodecArgs_eq_ok {withExtra : Bool} {input codec : ArrayRef} {extra : Option ArrayRef}
    (h : blobCodecArgs withExtra b = .ok (input, codec, extra)) :
    b.column 0 = .ok input ∧ b.column 1 = .ok codec ∧ columnIf withExtra b 2 = .ok extra := by
  obtain ⟨c, hc, h⟩ := Outcome.bind_eq_ok.mp h
  obtain ⟨d, hd, h⟩ := Outcome.bind_eq_ok.mp h
  obtain ⟨x, hx, h⟩ := Outcome.bind_eq_ok.mp h
  cases h
  exact ⟨hc, hd, hx⟩

theorem ScalarFunction.length_blobCodecSpecs (extra : String) (withExtra : Bool) :
    (blobCodecSpecs extra withExtra).length = if withExtra then 3 else 2 := by
  cases withExtra <;> rfl

end Columns

/-! ## Rows that unwind -/

/-- The column of the level or of the cap, where the overload has one. -/
def ScalarFunction.extra (b : RecordBatch) : ScalarFunction → Outcome RpcError (Option ArrayRef)
  | .compress self => columnIf self.withLevel b 2
  | .decompress self => columnIf self.withCap b 2
  | .decompressAuto self => columnIf self.withCap b 1
  | .detectCodec => pure none
  | .compressedSize self => columnIf self.withLevel b 2
  | .decompressedSize self => columnIf self.withCap b 2
  | .ratio self => columnIf self.withLevel b 2
  | .isValid => columnIf false b 2

/-- The cap that a decoder resolves from an argument. The other functions
resolve none. -/
def ScalarFunction.cap (host : Host) : (f : ScalarFunction) → ProcessParams f.onBind →
    Option Int64 → Option UInt64
  | .decompress _, params, k | .decompressAuto _, params, k | .decompressedSize _, params, k =>
      some (resolveCap host.env k params)
  | .compress _, _, _ | .detectCodec, _, _ | .compressedSize _, _, _ | .ratio _, _, _
  | .isValid, _, _ => none

/-- The row's own cap is one that no `Vec` can be filled to, as the
environment variable names it. -/
def ScalarFunction.Oversized (host : Host) (f : ScalarFunction) (params : ProcessParams f.onBind)
    (b : RecordBatch) (i : Nat) : Prop :=
  ∃ extra k cap, f.extra b = .ok extra ∧ optIntVal extra i = .ok k ∧ f.cap host params k = some cap
    ∧ isizeMax < cap.toNat ∧ ∃ s, host.env "VGI_COMPRESS_MAX_OUTPUT_BYTES" = some s
      ∧ parseU64 (trim s.toList) = some cap

section Rows

variable {be : Backends} {host : Host} {b : RecordBatch} {i : Nat}

theorem blobCodecRow_eq_panic {ω : Type} {extra : String} {withExtra : Bool}
    {row : ArrayRef × ArrayRef × Option ArrayRef → Nat → Outcome RpcError ω}
    (h : (ScalarFunction.blobCodecSpecs extra withExtra).length ≤ b.columns.length)
    (hi : i < b.numRows) (hrow : rowOf (blobCodecArgs withExtra) row b i = .panic) :
    ∃ input codec extra, columnIf withExtra b 2 = .ok extra ∧ i < input.len ∧ i < codec.len
      ∧ (∀ col, extra = some col → i < col.len) ∧ row (input, codec, extra) i = .panic := by
  rw [ScalarFunction.length_blobCodecSpecs] at h
  obtain ⟨input, codec, extra, hargs, hinput, hcodec, hextra⟩ := blobCodecArgs_of_length h
  rw [rowOf, hargs, Outcome.ok_bind] at hrow
  exact ⟨input, codec, extra, (blobCodecArgs_eq_ok hargs).2.2, hinput ▸ hi, hcodec ▸ hi,
    fun col hcol => hextra col hcol ▸ hi, hrow⟩

/-- A row of a bound call has a value or an error, but for a decode under an
oversized cap. -/
theorem ScalarFunction.oversized_of_panic (f : ScalarFunction) (params : ProcessParams f.onBind)
    (h : f.argumentSpecs.length ≤ b.columns.length) (hi : i < b.numRows)
    (hrow : f.rowAt be host params b i = .panic) : f.Oversized host params b i := by
  cases f with
  | compress self =>
      obtain ⟨_, _, _, -, hinput, hcodec, hextra, hrow⟩ := blobCodecRow_eq_panic h hi hrow
      exact absurd hrow (Compress.row_ne_panic hinput hcodec hextra)
  | decompress self =>
      obtain ⟨_, _, extra, hcol, hinput, hcodec, hextra, hrow⟩ := blobCodecRow_eq_panic h hi hrow
      obtain ⟨k, hk, hover⟩ := Decompress.row_eq_panic hinput hcodec hextra hrow
      exact ⟨extra, k, _, hcol, hk, rfl, hover, env_of_lt_resolveCap hover⟩
  | decompressAuto self =>
      have hlen : (if self.withCap then 2 else 1) ≤ b.columns.length := by
        cases hcap : self.withCap <;> simpa [argumentSpecs, hcap] using h
      obtain ⟨input, extra, hargs, hinput, hextra⟩ := blobArgs_of_length hlen
      have hrow : rowOf (blobArgs self.withCap) (DecompressAuto.row be host params) b i = .panic :=
        hrow
      rw [rowOf, hargs, Outcome.ok_bind] at hrow
      obtain ⟨k, hk, hover⟩ := DecompressAuto.row_eq_panic (hinput ▸ hi)
        (fun col hcol => hextra col hcol ▸ hi) hrow
      exact ⟨extra, k, _, (blobArgs_eq_ok hargs).2, hk, rfl, hover, env_of_lt_resolveCap hover⟩
  | detectCodec =>
      obtain ⟨input, hinput, hlen⟩ := RecordBatch.column_of_lt (b := b) (k := 0) h
      have hrow : rowOf blobArg (DetectCodec.row be) b i = .panic := hrow
      rw [rowOf, blobArg, hinput, Outcome.ok_bind] at hrow
      exact absurd hrow (DetectCodec.row_ne_panic (hlen ▸ hi))
  | compressedSize self =>
      obtain ⟨_, _, _, -, hinput, hcodec, hextra, hrow⟩ := blobCodecRow_eq_panic h hi hrow
      exact absurd hrow (CompressedSize.row_ne_panic hinput hcodec hextra)
  | decompressedSize self =>
      obtain ⟨_, _, extra, hcol, hinput, hcodec, hextra, hrow⟩ := blobCodecRow_eq_panic h hi hrow
      obtain ⟨k, hk, hover⟩ := DecompressedSize.row_eq_panic hinput hcodec hextra hrow
      exact ⟨extra, k, _, hcol, hk, rfl, hover, env_of_lt_resolveCap hover⟩
  | ratio self =>
      obtain ⟨_, _, _, -, hinput, hcodec, hextra, hrow⟩ := blobCodecRow_eq_panic h hi hrow
      exact absurd hrow (Ratio.row_ne_panic hinput hcodec hextra)
  | isValid =>
      obtain ⟨_, _, extra, -, hinput, hcodec, -, hrow⟩ := blobCodecRow_eq_panic h hi hrow
      exact absurd hrow (IsValid.row_ne_panic extra hinput hcodec)

end Rows

/-! ## All that a bound call can do -/

/-- What a call on a batch may come to. -/
inductive Returns (be : Backends) (host : Host) (f : ScalarFunction)
    (params : ProcessParams f.onBind) (b : RecordBatch) : Outcome RpcError RecordBatch → Prop
  /-- One value for each row, in one column of the bound type. -/
  | answer (vs : List (Option f.onBind.Val)) (out : RecordBatch)
      (rows : rows (f.rowAt be host params) b = vs.map .ok)
      (fits : (vs.map (cellWeight f.onBind)).sum ≤ i32Max)
      (columns : out.columns = [⟨f.onBind, vs⟩]) (numRows : out.numRows = b.numRows) :
      Returns be host f params b (.ok out)
  /-- The error of the first row that fails. -/
  | fail (i : Nat) (e : RpcError) (lt : i < b.numRows)
      (above : ∀ j < i, (f.rowAt be host params b j).isOk = true)
      (row : f.rowAt be host params b i = .err e) : Returns be host f params b (.err e)
  /-- Every row has a value, and together they outgrow the column. -/
  | outgrow (vs : List (Option f.onBind.Val))
      (rows : rows (f.rowAt be host params) b = vs.map .ok)
      (excess : i32Max < (vs.map (cellWeight f.onBind)).sum) : Returns be host f params b .panic
  /-- The decode of the first row without a value outgrows a `Vec`. -/
  | unwind (i : Nat) (lt : i < b.numRows)
      (above : ∀ j < i, (f.rowAt be host params b j).isOk = true)
      (row : f.rowAt be host params b i = .panic) (oversized : f.Oversized host params b i) :
      Returns be host f params b .panic

section Call

variable {be : Backends} {host : Host} {b : RecordBatch}

theorem ScalarFunction.exists_args (f : ScalarFunction) (params : ProcessParams f.onBind)
    (h : f.argumentSpecs.length ≤ b.columns.length) :
    ∃ args, (f.parts be host params).arguments b = .ok args := by
  have hblobCodec {extra : String} {withExtra : Bool}
      (h : (blobCodecSpecs extra withExtra).length ≤ b.columns.length) :
      ∃ args, blobCodecArgs withExtra b = .ok args := by
    rw [length_blobCodecSpecs] at h
    obtain ⟨input, codec, extra, hargs, -⟩ := blobCodecArgs_of_length h
    exact ⟨_, hargs⟩
  cases f with
  | compress self | decompress self | compressedSize self | decompressedSize self | ratio self =>
      exact hblobCodec h
  | isValid => exact hblobCodec h
  | decompressAuto self =>
      have hlen : (if self.withCap then 2 else 1) ≤ b.columns.length := by
        cases hcap : self.withCap <;> simpa [argumentSpecs, hcap] using h
      obtain ⟨input, extra, hargs, -⟩ := blobArgs_of_length hlen
      exact ⟨_, hargs⟩
  | detectCodec =>
      obtain ⟨input, hinput, -⟩ := RecordBatch.column_of_lt (b := b) (k := 0) h
      exact ⟨_, hinput⟩

/-- What a call returns, from its row loop. -/
theorem ScalarFunction.returns_of_rows (f : ScalarFunction) (params : ProcessParams f.onBind)
    (h : f.argumentSpecs.length ≤ b.columns.length) :
    Returns be host f params b (f.process be host params b) := by
  rw [f.process_eq, processRows_eq host params _ _ _ b (.inr (f.exists_args params h))]
  change Returns be host f params b
    (Outcome.sequence (rows (f.rowAt be host params) b) >>= _)
  have hlen : (rows (f.rowAt be host params) b).length = b.numRows := by simp [rows]
  rcases Outcome.sequence_cases (rows (f.rowAt be host params) b) with
    ⟨vs, hrows, hseq⟩ | ⟨vs, o, post, hrows, ho, hseq⟩
  · rw [hseq, Outcome.ok_bind, (f.parts be host params).builds vs]
    by_cases hfit : (vs.map (cellWeight f.onBind)).sum ≤ i32Max
    · obtain ⟨out, hout, hcols, hnum⟩ := tryNew_bound host params vs
      rw [if_pos hfit, Outcome.ok_bind, hout]
      refine .answer vs out hrows hfit hcols ?_
      rw [hnum, ← hlen, hrows, List.length_map]
    · rw [if_neg hfit]
      exact .outgrow vs hrows (Nat.not_le.mp hfit)
  · have hget (j : Nat) (hj : j < b.numRows) :
        (rows (f.rowAt be host params) b)[j]? = some (f.rowAt be host params b j) := by
      simp [rows, hj]
    have hi : vs.length < b.numRows := by
      rw [← hlen, hrows, List.length_append, List.length_map, List.length_cons]
      omega
    have habove (j : Nat) (hj : j < vs.length) : (f.rowAt be host params b j).isOk = true := by
      have hj' := hget j (Nat.lt_trans hj hi)
      rw [hrows, List.getElem?_append_left (by simpa using hj), List.getElem?_map,
        List.getElem?_eq_getElem hj] at hj'
      rw [← Option.some.inj hj']
      rfl
    have hrow : f.rowAt be host params b vs.length = o := by
      have hi' := hget vs.length hi
      rw [hrows, List.getElem?_append_right (by simp)] at hi'
      simpa using hi'.symm
    rw [hseq]
    cases o with
    | ok v => cases ho
    | panic =>
        exact .unwind vs.length hi habove hrow (f.oversized_of_panic params h hi hrow)
    | err e => exact .fail vs.length e hi habove hrow

/-- **Everything a bound call can do**, on any columns of any types and in any
environment: answer every row in one column of the type it bound with, fail
as the first failing row does, panic because the rows' bytes outgrow the
column, or unwind in a decode that fills a `Vec`. -/
theorem call_cases {name : String} {f : ScalarFunction}
    (hf : overload name b.columns.length = some (.scalar f)) (params : ProcessParams f.onBind) :
    Returns be host f params b (f.process be host params b) :=
  f.returns_of_rows params (Nat.le_of_eq (arity_of_overload hf))

/-- `call_cases` on the gzip stream of `"a"` above a NULL. -/
theorem call_cases_sample :
    Returns Sample.build Sample.host (.decompress ⟨false⟩) (Sample.params .binary) Sample.gzipRows
      ((ScalarFunction.decompress ⟨false⟩).process Sample.build Sample.host
        (Sample.params .binary) Sample.gzipRows) := by
  have hf : overload "decompress" Sample.gzipRows.columns.length
      = some (.scalar (.decompress ⟨false⟩)) := rfl
  exact call_cases hf (Sample.params .binary)

end Call

end VgiCompress
