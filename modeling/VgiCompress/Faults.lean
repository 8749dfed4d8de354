import VgiCompress.Registry

/-!
# What an error says

A failing call fails as one of its rows does (`Returns.fail`), and that
row's error names its cause: the declared argument whose column has the
wrong type, the codec that is NULL, or what the engine said when the row's
payload was given to it. `fault_of_error` is the whole list, function by
function: which engine errors a function can report, and what they carry.
-/

namespace VgiCompress

open RustStd

/-! ## Errors of the engine -/

/-- The name is no codec's, or the backend complains. -/
def CodecFault (name : String) (e : CodecError) : Prop :=
  (e = .unknownCodec name ∧ ∀ c, Codec.parse name ≠ .ok c) ∨ ∃ why, e = .corrupt why

/-- The payload is too large for the cap, or malformed. -/
def DecodeFault (cap : UInt64) (e : CodecError) : Prop :=
  e = .outputTooLarge cap ∨ ∃ why, e = .corrupt why

section Engine

variable {be : Backends} {e : CodecError}

theorem corruptErr_eq_err {α : Type} {r : Except String α} (h : corruptErr r = .err e) :
    ∃ why, e = .corrupt why := by
  obtain ⟨why, -, rfl⟩ := Outcome.mapErr_eq_err.mp h
  exact ⟨why, rfl⟩

theorem Encoder.encode_eq_err {enc : Encoder} {x : Bytes} (h : enc.encode x = .err e) :
    ∃ why, e = .corrupt why := by
  rcases Outcome.bind_eq_err.mp h with h | ⟨_, -, h⟩
  · exact corruptErr_eq_err h
  · exact corruptErr_eq_err h

theorem Codec.compress_eq_err {c : Codec} {x : Bytes} {level : Option Int32}
    (h : c.compress be x level = .err e) : ∃ why, e = .corrupt why := by
  cases c with
  | zstd | snappyRaw | lzma => exact corruptErr_eq_err h
  | gzip | zlib | deflate | brotli | lz4 | snappy | bzip2 => exact Encoder.encode_eq_err h
  | lz4Block => cases h
  | xz =>
      rw [Codec.compress, Xz.compressXz] at h
      cases hx : be.xzBackend with
      | lzmaRs => rw [hx] at h; exact corruptErr_eq_err h
      | liblzma => rw [hx] at h; exact corruptErr_eq_err h

theorem drainReader_eq_err {r : Reads UInt8} {cap : UInt64} (h : drainReader r cap = .err e) :
    DecodeFault cap e := by
  unfold drainReader at h
  split at h
  · cases h
  · split at h
    · cases h; exact .inl rfl
    · cases h; exact .inr ⟨_, rfl⟩
  · cases h

theorem finishSink_eq_err {sink : BoundedWriter} {res : Except String Unit} {cap : UInt64}
    (h : finishSink sink res cap = .err e) : DecodeFault cap e := by
  unfold finishSink at h
  split at h
  · cases h
  · split at h
    · cases h; exact .inl rfl
    · cases h; exact .inr ⟨_, rfl⟩

theorem decodeIntoSink_eq_err {p : Writes String UInt8} {cap : UInt64}
    (h : decodeIntoSink p cap = .err e) : DecodeFault cap e := by
  unfold decodeIntoSink at h
  split at h
  · exact finishSink_eq_err h
  · exact finishSink_eq_err h
  · cases h

theorem Lz4.decompressBlock_eq_err {x : Bytes} {cap : UInt64}
    (h : Lz4.decompressBlock be x cap = .err e) : DecodeFault cap e := by
  rw [Lz4.decompressBlock] at h
  split at h
  · cases h; exact .inr ⟨_, rfl⟩
  · split at h
    · cases h; exact .inl rfl
    · exact .inr (corruptErr_eq_err h)

theorem Snappy.decompressRaw_eq_err {x : Bytes} {cap : UInt64}
    (h : Snappy.decompressRaw be x cap = .err e) : DecodeFault cap e := by
  rw [Snappy.decompressRaw] at h
  split at h
  · split at h
    · cases h; exact .inl rfl
    · exact .inr (corruptErr_eq_err h)
  · cases h; exact .inr ⟨_, rfl⟩

/-- A decode never says that its codec is unknown or undetected. -/
theorem Codec.decompress_eq_err {c : Codec} {x : Bytes} {cap : UInt64}
    (h : c.decompress be x cap = .err e) : DecodeFault cap e := by
  cases c with
  | zstd =>
      rcases Outcome.bind_eq_err.mp h with h | ⟨_, -, h⟩
      · exact .inr (corruptErr_eq_err h)
      · exact drainReader_eq_err h
  | gzip | zlib | deflate | brotli | lz4 | snappy | bzip2 => exact drainReader_eq_err h
  | lz4Block => exact Lz4.decompressBlock_eq_err h
  | snappyRaw => exact Snappy.decompressRaw_eq_err h
  | lzma => exact decodeIntoSink_eq_err h
  | xz =>
      rw [Codec.decompress, Xz.decompressXz] at h
      cases hx : be.xzBackend with
      | lzmaRs => rw [hx] at h; exact decodeIntoSink_eq_err h
      | liblzma => rw [hx] at h; exact drainReader_eq_err h

theorem Codec.parse_eq_err {name : String} (h : Codec.parse name = .err e) :
    CodecFault name e := by
  rcases Codec.parse_cases name with ⟨c, hc⟩ | hc
  · rw [hc] at h; cases h
  · refine .inl ⟨Outcome.err.inj (h.symm.trans hc), fun c hc' => ?_⟩
    rw [hc'] at hc
    cases hc

theorem compress_eq_err {name : String} {x : Bytes} {level : Option Int32}
    (h : compress be name x level = .err e) : CodecFault name e := by
  rw [compress] at h
  rcases Outcome.bind_eq_err.mp h with h | ⟨c, -, h⟩
  · exact Codec.parse_eq_err h
  · exact .inr (Codec.compress_eq_err h)

theorem compressedSize_eq_err {name : String} {x : Bytes} {level : Option Int32}
    (h : compressedSize be name x level = .err e) : CodecFault name e := by
  rw [compressedSize] at h
  rcases Outcome.bind_eq_err.mp h with h | ⟨_, -, h⟩
  · exact compress_eq_err h
  · cases h

theorem ratio_eq_err {name : String} {x : Bytes} {level : Option Int32}
    (h : ratio be name x level = .err e) : CodecFault name e := by
  rw [ratio] at h
  split at h
  · cases h
  · rcases Outcome.bind_eq_err.mp h with h | ⟨_, -, h⟩
    · exact compressedSize_eq_err h
    · cases h

theorem decompress_eq_err {name : String} {x : Bytes} {cap : UInt64}
    (h : decompress be name x cap = .err e) : CodecFault name e ∨ e = .outputTooLarge cap := by
  rw [decompress] at h
  rcases Outcome.bind_eq_err.mp h with h | ⟨c, -, h⟩
  · exact .inl (Codec.parse_eq_err h)
  · rcases Codec.decompress_eq_err h with rfl | hwhy
    · exact .inr rfl
    · exact .inl (.inr hwhy)

theorem decompressAuto_eq_err {x : Bytes} {cap : UInt64} (h : decompressAuto be x cap = .err e) :
    (e = .noMagic ∧ detect be x = none) ∨ DecodeFault cap e := by
  rw [decompressAuto] at h
  cases hd : detect be x with
  | some c => rw [hd] at h; exact .inr (Codec.decompress_eq_err h)
  | none => rw [hd] at h; cases h; exact .inl ⟨rfl, rfl⟩

/-- Too much output is no error of a size. -/
theorem countUnderGuard_eq_err {c : Codec} {x : Bytes} {cap : UInt64}
    (h : countUnderGuard be c x cap = .err e) : ∃ why, e = .corrupt why := by
  rw [countUnderGuard] at h
  split at h
  · cases h
  · cases h
  · next e' hlarge hdecode =>
      cases h
      rcases Codec.decompress_eq_err hdecode with rfl | hwhy
      · exact absurd rfl (hlarge cap)
      · exact hwhy
  · cases h

theorem decompressedSize_eq_err {name : String} {x : Bytes} {cap : UInt64}
    (h : decompressedSize be name x cap = .err e) : CodecFault name e := by
  rw [decompressedSize] at h
  rcases Outcome.bind_eq_err.mp h with h | ⟨c, -, h⟩
  · exact Codec.parse_eq_err h
  · split at h
    · split at h
      · split at h
        · cases h
        · exact .inr (countUnderGuard_eq_err h)
      · exact .inr (countUnderGuard_eq_err h)
    · exact .inr (countUnderGuard_eq_err h)

end Engine

/-! ## Errors of a row -/

/-- The types that an argument of this name is read from. -/
def ArgSpec.reads (spec : ArgSpec) : List DataType :=
  if spec.name = "input" then [.binary, .largeBinary, .utf8, .largeUtf8]
  else if spec.name = "codec" then [.utf8, .largeUtf8]
  else [.int64, .int32, .int16, .int8, .uint64, .uint32, .uint16, .uint8]

/-- What an argument of this name is refused with, up to the type. -/
def ArgSpec.refusal (spec : ArgSpec) : String :=
  if spec.name = "input" then "expected a BLOB or VARCHAR argument, got "
  else if spec.name = "codec" then "expected a VARCHAR (codec) argument, got "
  else "expected an integer (level / max_output_bytes) argument, got "

/-- The engine fails with this error when it is asked what the function asks
of it: for a payload, under the row's codec and the number beside them. -/
def ScalarFunction.Refuses (be : Backends) (host : Host) : (f : ScalarFunction) →
    ProcessParams f.onBind → Bytes → (codec : Option String) → Option Int64 → CodecError → Prop
  | .compress _, _, x, codec, k, e =>
      ∃ name, codec = some name ∧ VgiCompress.compress be name x (levelI32 k) = .err e
  | .decompress _, params, x, codec, k, e =>
      ∃ name, codec = some name
        ∧ VgiCompress.decompress be name x (resolveCap host.env k params) = .err e
  | .decompressAuto _, params, x, _, k, e =>
      VgiCompress.decompressAuto be x (resolveCap host.env k params) = .err e
  | .compressedSize _, _, x, codec, k, e =>
      ∃ name, codec = some name ∧ VgiCompress.compressedSize be name x (levelI32 k) = .err e
  | .decompressedSize _, params, x, codec, k, e =>
      ∃ name, codec = some name
        ∧ VgiCompress.decompressedSize be name x (resolveCap host.env k params) = .err e
  | .ratio _, _, x, codec, k, e =>
      ∃ name, codec = some name ∧ VgiCompress.ratio be name x (levelI32 k) = .err e
  | .detectCodec, _, _, _, _, _ | .isValid, _, _, _, _, _ => False

/-- The engine errors a function can report of a payload, by the row's codec
and by its cap argument. -/
def ScalarFunction.EngineFault (be : Backends) (host : Host) : (f : ScalarFunction) →
    ProcessParams f.onBind → Bytes → (codec : Option String) → Option Int64 → CodecError → Prop
  | .compress _, _, _, codec, _, e | .compressedSize _, _, _, codec, _, e
  | .decompressedSize _, _, _, codec, _, e | .ratio _, _, _, codec, _, e =>
      ∃ name, codec = some name ∧ CodecFault name e
  | .decompress _, params, _, codec, k, e =>
      ∃ name, codec = some name
        ∧ (CodecFault name e ∨ e = .outputTooLarge (resolveCap host.env k params))
  | .decompressAuto _, params, x, _, k, e =>
      (e = .noMagic ∧ detect be x = none) ∨ DecodeFault (resolveCap host.env k params) e
  | .detectCodec, _, _, _, _, _ | .isValid, _, _, _, _, _ => False

theorem ScalarFunction.Refuses.engineFault {be : Backends} {host : Host} {f : ScalarFunction}
    {params : ProcessParams f.onBind} {x : Bytes} {codec : Option String} {k : Option Int64}
    {e : CodecError} (h : f.Refuses be host params x codec k e) :
    f.EngineFault be host params x codec k e := by
  cases f with
  | compress _ => exact h.imp fun _ => And.imp_right compress_eq_err
  | decompress _ => exact h.imp fun _ => And.imp_right decompress_eq_err
  | decompressAuto _ => exact decompressAuto_eq_err h
  | compressedSize _ => exact h.imp fun _ => And.imp_right compressedSize_eq_err
  | decompressedSize _ => exact h.imp fun _ => And.imp_right decompressedSize_eq_err
  | ratio _ => exact h.imp fun _ => And.imp_right ratio_eq_err
  | detectCodec | isValid => exact h

/-- The cells that make a row fail, and what it then says. -/
inductive Fault (be : Backends) (host : Host) (f : ScalarFunction) (params : ProcessParams f.onBind)
    (b : RecordBatch) (i : Nat) : RpcError → Prop
  /-- A declared argument is not NULL and of a type that is not read. -/
  | type (spec : ArgSpec) (col : ArrayRef) (declared : spec ∈ f.argumentSpecs)
      (column : b.column spec.position = .ok col)
      (cell : ∃ v, col.cell? i = some ⟨col.dataType, some v⟩)
      (unread : col.dataType ∉ spec.reads) :
      Fault be host f params b i (.valueError (spec.refusal ++ col.dataType.debug))
  /-- The payload is there and the codec is NULL. -/
  | noCodec (payload : ∃ col x, b.column 0 = .ok col ∧ blobBytes col i = .ok (some x))
      (codec : ∃ col, b.column 1 = .ok col ∧ textStr col i = .ok none) :
      Fault be host f params b i (.valueError "codec must not be NULL")
  /-- The engine refuses the payload, with one of the function's errors. -/
  | engine (x : Bytes) (codec : Option String) (k : Option Int64) (e : CodecError)
      (payload : ∃ col, b.column 0 = .ok col ∧ blobBytes col i = .ok (some x))
      (name : ∀ name, codec = some name →
        ∃ col, b.column 1 = .ok col ∧ textStr col i = .ok (some name))
      (number : ∃ extra, f.extra b = .ok extra ∧ optIntVal extra i = .ok k)
      (refused : f.Refuses be host params x codec k e)
      (fault : f.EngineFault be host params x codec k e) :
      Fault be host f params b i (codecErr e)

section Cells

variable {col : ArrayRef} {i : Nat} {e : RpcError}

theorem ArrayRef.cell?_cases (col : ArrayRef) (i : Nat) :
    col.cell? i = none ∨ ∃ v, col.cell? i = some ⟨col.dataType, v⟩ := by
  rcases Nat.lt_or_ge i col.len with hi | hi
  · exact .inr (ArrayRef.cell?_of_lt hi)
  · exact .inl (ArrayRef.cell?_eq_none hi)

theorem blobBytes_eq_err (h : blobBytes col i = .err e) :
    (∃ v, col.cell? i = some ⟨col.dataType, some v⟩)
      ∧ col.dataType ∉ ([.binary, .largeBinary, .utf8, .largeUtf8] : List DataType)
      ∧ e = .valueError ("expected a BLOB or VARCHAR argument, got " ++ col.dataType.debug) := by
  unfold blobBytes at h
  rcases col.cell?_cases i with hnone | ⟨_ | v, hv⟩
  · rw [hnone] at h
    cases h
  · rw [hv] at h
    cases h
  · rw [hv] at h
    refine ⟨⟨v, hv⟩, ?_⟩
    obtain ⟨t, cells⟩ := col
    cases t <;> cases h <;> simp

theorem textStr_eq_err (h : textStr col i = .err e) :
    (∃ v, col.cell? i = some ⟨col.dataType, some v⟩)
      ∧ col.dataType ∉ ([.utf8, .largeUtf8] : List DataType)
      ∧ e = .valueError ("expected a VARCHAR (codec) argument, got " ++ col.dataType.debug) := by
  unfold textStr at h
  rcases col.cell?_cases i with hnone | ⟨_ | v, hv⟩
  · rw [hnone] at h
    cases h
  · rw [hv] at h
    cases h
  · rw [hv] at h
    refine ⟨⟨v, hv⟩, ?_⟩
    obtain ⟨t, cells⟩ := col
    cases t <;> cases h <;> simp

theorem intVal_eq_err (h : intVal col i = .err e) :
    (∃ v, col.cell? i = some ⟨col.dataType, some v⟩)
      ∧ col.dataType ∉
        ([.int64, .int32, .int16, .int8, .uint64, .uint32, .uint16, .uint8] : List DataType)
      ∧ e = .valueError ("expected an integer (level / max_output_bytes) argument, got "
        ++ col.dataType.debug) := by
  unfold intVal at h
  rcases col.cell?_cases i with hnone | ⟨_ | v, hv⟩
  · rw [hnone] at h
    cases h
  · rw [hv] at h
    cases h
  · rw [hv] at h
    refine ⟨⟨v, hv⟩, ?_⟩
    obtain ⟨t, cells⟩ := col
    cases t <;> cases h <;> simp

theorem requireCodec_eq_err (h : requireCodec col i = .err e) :
    textStr col i = .err e
      ∨ textStr col i = .ok none ∧ e = .valueError "codec must not be NULL" := by
  rcases Outcome.bind_eq_err.mp h with h | ⟨text, htext, h⟩
  · exact .inl h
  · cases text with
    | none => cases h; exact .inr ⟨htext, rfl⟩
    | some name => cases h

theorem optIntVal_eq_err {extra : Option ArrayRef} (h : optIntVal extra i = .err e) :
    ∃ col, extra = some col ∧ intVal col i = .err e := by
  cases extra with
  | none => cases h
  | some col => exact ⟨col, rfl, h⟩

end Cells

/-- How a row of `f(blob, codec [, extra])` comes to an error, when the engine
fails with a `fault`. -/
def BlobCodecError (input codec : ArrayRef) (extra : Option ArrayRef) (i : Nat)
    (fault : Bytes → String → Option Int64 → CodecError → Prop) (e : RpcError) : Prop :=
  blobBytes input i = .err e ∨ ∃ x, blobBytes input i = .ok (some x)
    ∧ (requireCodec codec i = .err e ∨ optIntVal extra i = .err e
      ∨ ∃ name k e', textStr codec i = .ok (some name) ∧ optIntVal extra i = .ok k
        ∧ fault x name k e' ∧ codecErr e' = e)

section RowErrors

variable {be : Backends} {host : Host} {input codec : ArrayRef} {extra : Option ArrayRef} {i : Nat}
  {e : RpcError}

theorem BlobCodecError.mono {fault fault' : Bytes → String → Option Int64 → CodecError → Prop}
    (h : BlobCodecError input codec extra i fault e)
    (himp : ∀ x name k e', fault x name k e' → fault' x name k e') :
    BlobCodecError input codec extra i fault' e := by
  refine h.imp_right (Exists.imp fun x => And.imp_right (Or.imp_right (Or.imp_right ?_)))
  rintro ⟨name, k, e', htext, hk, hfault, he⟩
  exact ⟨name, k, e', htext, hk, himp x name k e' hfault, he⟩

/-- The row stops at its payload, or goes on to the rest. -/
theorem blob_bind_eq_err {ω : Type} {rest : Option Bytes → Outcome RpcError (Option ω)}
    (h : (blobBytes input i >>= rest) = .err e) (hnull : rest none = .ok none) :
    blobBytes input i = .err e
      ∨ ∃ x, blobBytes input i = .ok (some x) ∧ rest (some x) = .err e := by
  rcases Outcome.bind_eq_err.mp h with h | ⟨payload, hblob, h⟩
  · exact .inl h
  · cases payload with
    | none => rw [hnull] at h; cases h
    | some x => exact .inr ⟨x, hblob, h⟩

theorem BlobCodecError.of_rest {x : Bytes} (hblob : blobBytes input i = .ok (some x)) {ω : Type}
    {rest : String → Option Int64 → Outcome RpcError ω}
    {fault : Bytes → String → Option Int64 → CodecError → Prop}
    (h : (requireCodec codec i >>= fun name => optIntVal extra i >>= rest name) = .err e)
    (hrest : ∀ name k, rest name k = .err e → ∃ e', fault x name k e' ∧ codecErr e' = e) :
    BlobCodecError input codec extra i fault e := by
  refine .inr ⟨x, hblob, ?_⟩
  rcases Outcome.bind_eq_err.mp h with h | ⟨name, hname, h⟩
  · exact .inl h
  · rcases Outcome.bind_eq_err.mp h with h | ⟨k, hk, h⟩
    · exact .inr (.inl h)
    · obtain ⟨e', hfault, he⟩ := hrest name k h
      exact .inr (.inr ⟨name, k, e', requireCodec_eq_ok.mp hname, hk, hfault, he⟩)

theorem some_bind_eq_err {α : Type} {res : Outcome CodecError α}
    (h : (res.mapErr codecErr >>= fun v => (pure (some v) : Outcome RpcError (Option α)))
      = .err e) :
    ∃ e', res = .err e' ∧ codecErr e' = e := by
  rcases Outcome.bind_eq_err.mp h with h | ⟨_, -, h⟩
  · exact Outcome.mapErr_eq_err.mp h
  · cases h

theorem Compress.row_eq_err (h : Compress.row be (input, codec, extra) i = .err e) :
    BlobCodecError input codec extra i
      (fun x name k e' => compress be name x (levelI32 k) = .err e') e := by
  rw [Compress.row] at h
  rcases blob_bind_eq_err h rfl with h | ⟨x, hblob, h⟩
  · exact .inl h
  · dsimp only at h
    refine .of_rest hblob h fun name k h => ?_
    obtain ⟨e', h, he⟩ := some_bind_eq_err h
    exact ⟨e', h, he⟩

theorem Decompress.row_eq_err {params : ProcessParams .binary}
    (h : Decompress.row be host params (input, codec, extra) i = .err e) :
    BlobCodecError input codec extra i
      (fun x name k e' => decompress be name x (resolveCap host.env k params) = .err e') e := by
  rw [Decompress.row] at h
  rcases blob_bind_eq_err h rfl with h | ⟨x, hblob, h⟩
  · exact .inl h
  · dsimp only at h
    refine .of_rest hblob h fun name k h => ?_
    obtain ⟨e', h, he⟩ := some_bind_eq_err h
    exact ⟨e', h, he⟩

theorem DecompressAuto.row_eq_err {params : ProcessParams .binary}
    (h : DecompressAuto.row be host params (input, extra) i = .err e) :
    blobBytes input i = .err e ∨ ∃ x, blobBytes input i = .ok (some x)
      ∧ (optIntVal extra i = .err e ∨ ∃ k e', optIntVal extra i = .ok k
        ∧ decompressAuto be x (resolveCap host.env k params) = .err e' ∧ codecErr e' = e) := by
  rw [DecompressAuto.row] at h
  refine (blob_bind_eq_err h rfl).imp_right ?_
  rintro ⟨x, hblob, h⟩
  dsimp only at h
  refine ⟨x, hblob, (Outcome.bind_eq_err.mp h).imp_right ?_⟩
  rintro ⟨k, hk, h⟩
  obtain ⟨e', h, he⟩ := some_bind_eq_err h
  exact ⟨k, e', hk, h, he⟩

theorem DetectCodec.row_eq_err (h : DetectCodec.row be input i = .err e) :
    blobBytes input i = .err e := by
  rw [DetectCodec.row] at h
  rcases Outcome.bind_eq_err.mp h with h | ⟨_, -, h⟩
  · exact h
  · cases h

theorem CompressedSize.row_eq_err (h : CompressedSize.row be (input, codec, extra) i = .err e) :
    BlobCodecError input codec extra i
      (fun x name k e' => compressedSize be name x (levelI32 k) = .err e') e := by
  rw [CompressedSize.row] at h
  rcases blob_bind_eq_err h rfl with h | ⟨x, hblob, h⟩
  · exact .inl h
  · dsimp only at h
    refine .of_rest hblob h fun name k h => ?_
    obtain ⟨e', h, he⟩ := some_bind_eq_err h
    exact ⟨e', h, he⟩

theorem DecompressedSize.row_eq_err {params : ProcessParams .uint64}
    (h : DecompressedSize.row be host params (input, codec, extra) i = .err e) :
    BlobCodecError input codec extra i
      (fun x name k e' => decompressedSize be name x (resolveCap host.env k params) = .err e')
      e := by
  rw [DecompressedSize.row] at h
  rcases blob_bind_eq_err h rfl with h | ⟨x, hblob, h⟩
  · exact .inl h
  · dsimp only at h
    refine .of_rest hblob h fun name k h => ?_
    obtain ⟨e', h, he⟩ := Outcome.mapErr_eq_err.mp h
    exact ⟨e', h, he⟩

theorem Ratio.row_eq_err (h : Ratio.row be (input, codec, extra) i = .err e) :
    BlobCodecError input codec extra i
      (fun x name k e' => ratio be name x (levelI32 k) = .err e') e := by
  rw [Ratio.row] at h
  rcases blob_bind_eq_err h rfl with h | ⟨x, hblob, h⟩
  · exact .inl h
  · dsimp only at h
    refine .of_rest hblob h fun name k h => ?_
    obtain ⟨e', h, he⟩ := Outcome.mapErr_eq_err.mp h
    exact ⟨e', h, he⟩

/-- Bytes that are not valid are an answer. -/
theorem IsValid.row_eq_err (h : IsValid.row be (input, codec, extra) i = .err e) :
    BlobCodecError input codec extra i (fun _ _ _ _ => False) e := by
  rw [IsValid.row] at h
  rcases blob_bind_eq_err h rfl with h | ⟨x, hblob, h⟩
  · exact .inl h
  · dsimp only at h
    rcases Outcome.bind_eq_err.mp h with h | ⟨text, -, h⟩
    · refine .inr ⟨x, hblob, .inl ?_⟩
      rw [requireCodec, h]
      rfl
    · cases text <;> cases h

end RowErrors

/-! ## The fault of a call -/

section Rows

variable {be : Backends} {host : Host} {b : RecordBatch} {i : Nat} {e : RpcError}
  {f : ScalarFunction} {params : ProcessParams f.onBind} {input codec : ArrayRef}
  {extra : Option ArrayRef}

/-- A payload that is not read is the fault of the first argument. -/
theorem Fault.of_input {spec : ArgSpec} (hspec : spec ∈ f.argumentSpecs)
    (hname : spec.name = "input") (hpos : spec.position = 0) (hinput : b.column 0 = .ok input)
    (h : blobBytes input i = .err e) : Fault be host f params b i e := by
  obtain ⟨hcell, hunread, rfl⟩ := blobBytes_eq_err h
  have hrefusal : spec.refusal = "expected a BLOB or VARCHAR argument, got " := by
    rw [ArgSpec.refusal, if_pos hname]
  rw [← hrefusal]
  refine .type spec input hspec (hpos ▸ hinput) hcell ?_
  rwa [ArgSpec.reads, if_pos hname]

/-- The last argument is read as a number. -/
theorem Fault.of_extra {spec : ArgSpec} (hspec : spec ∈ f.argumentSpecs)
    (hname : spec.name = "level" ∨ spec.name = "max_output_bytes") {col : ArrayRef}
    (hcol : b.column spec.position = .ok col) (h : intVal col i = .err e) :
    Fault be host f params b i e := by
  obtain ⟨hcell, hunread, rfl⟩ := intVal_eq_err h
  have hinput : spec.name ≠ "input" := by rcases hname with hname | hname <;> simp [hname]
  have hcodec : spec.name ≠ "codec" := by rcases hname with hname | hname <;> simp [hname]
  have hrefusal : spec.refusal
      = "expected an integer (level / max_output_bytes) argument, got " := by
    rw [ArgSpec.refusal, if_neg hinput, if_neg hcodec]
  rw [← hrefusal]
  refine .type spec col hspec hcol hcell ?_
  rwa [ArgSpec.reads, if_neg hinput, if_neg hcodec]

/-- What can go wrong in a row of `f(blob, codec [, extra])`. -/
theorem Fault.of_blobCodec {last : String} {withExtra : Bool}
    (hfextra : f.extra b = columnIf withExtra b 2)
    (hspecs : f.argumentSpecs = ScalarFunction.blobCodecSpecs last withExtra)
    (hlast : withExtra = true → last = "level" ∨ last = "max_output_bytes")
    (hargs : blobCodecArgs withExtra b = .ok (input, codec, extra))
    (h : BlobCodecError input codec extra i
      (fun x name k => f.Refuses be host params x (some name) k) e) :
    Fault be host f params b i e := by
  obtain ⟨hinput, hcodec, hextra⟩ := blobCodecArgs_eq_ok hargs
  rcases h with h | ⟨x, hblob, h | h | ⟨name, k, e', htext, hk, hfault, rfl⟩⟩
  · have hspec : .anyColumn "input" 0 ∈ f.argumentSpecs := by
      rw [hspecs]
      exact List.mem_cons_self
    exact .of_input hspec rfl rfl hinput h
  · rcases requireCodec_eq_err h with h | ⟨hnull, rfl⟩
    · obtain ⟨hcell, hunread, rfl⟩ := textStr_eq_err h
      have hspec : (ArgSpec.columnTyped "codec" 1 .utf8).withChoices codecs ∈ f.argumentSpecs := by
        rw [hspecs]
        simp [ScalarFunction.blobCodecSpecs]
      exact .type _ codec hspec hcodec hcell hunread
    · exact .noCodec ⟨input, x, hinput, hblob⟩ ⟨codec, hcodec, hnull⟩
  · obtain ⟨col, rfl, h⟩ := optIntVal_eq_err h
    obtain ⟨rfl, hcol⟩ := columnIf_eq_some hextra
    have hspec : .anyColumn last 2 ∈ f.argumentSpecs := by
      rw [hspecs]
      simp [ScalarFunction.blobCodecSpecs]
    exact .of_extra hspec (hlast rfl) hcol h
  · refine .engine x (some name) k e' ⟨input, hinput, hblob⟩ ?_ ⟨extra, ?_, hk⟩ hfault
      hfault.engineFault
    · rintro _ ⟨⟩
      exact ⟨codec, hcodec, htext⟩
    · rw [hfextra, hextra]

/-- A row that fails has a fault. -/
theorem ScalarFunction.fault_of_row (f : ScalarFunction) (params : ProcessParams f.onBind)
    {args : (f.parts be host params).Args}
    (hargs : (f.parts be host params).arguments b = .ok args)
    (h : (f.parts be host params).row args i = .err e) : Fault be host f params b i e := by
  cases f with
  | compress self =>
      obtain ⟨input, codec, extra⟩ := args
      refine .of_blobCodec rfl rfl (fun _ => .inl rfl) hargs ((Compress.row_eq_err h).mono ?_)
      intro x name k e' hfault
      exact ⟨name, rfl, hfault⟩
  | decompress self =>
      obtain ⟨input, codec, extra⟩ := args
      refine .of_blobCodec rfl rfl (fun _ => .inr rfl) hargs ((Decompress.row_eq_err h).mono ?_)
      intro x name k e' hfault
      exact ⟨name, rfl, hfault⟩
  | decompressAuto self =>
      obtain ⟨input, extra⟩ := args
      have hargs : blobArgs self.withCap b = .ok (input, extra) := hargs
      obtain ⟨hinput, hextra⟩ := blobArgs_eq_ok hargs
      rcases DecompressAuto.row_eq_err h with h | ⟨x, hblob, h | ⟨k, e', hk, hfault, rfl⟩⟩
      · exact .of_input List.mem_cons_self rfl rfl hinput h
      · obtain ⟨col, rfl, h⟩ := optIntVal_eq_err h
        obtain ⟨hcap, hcol⟩ := columnIf_eq_some hextra
        have hspec : .anyColumn "max_output_bytes" 1 ∈
            (ScalarFunction.decompressAuto self).argumentSpecs := by
          simp [argumentSpecs, hcap]
        exact .of_extra hspec (.inr rfl) hcol h
      · have hname (name : String) (h : none = some name) :
            ∃ col, b.column 1 = .ok col ∧ textStr col i = .ok (some name) :=
          absurd h.symm (Option.some_ne_none name)
        have hrefused : (ScalarFunction.decompressAuto self).Refuses be host params x none k e' :=
          hfault
        exact .engine x none k e' ⟨input, hinput, hblob⟩ hname ⟨extra, hextra, hk⟩ hrefused
          hrefused.engineFault
  | detectCodec => exact .of_input List.mem_cons_self rfl rfl hargs (DetectCodec.row_eq_err h)
  | compressedSize self =>
      obtain ⟨input, codec, extra⟩ := args
      refine .of_blobCodec rfl rfl (fun _ => .inl rfl) hargs ((CompressedSize.row_eq_err h).mono ?_)
      intro x name k e' hfault
      exact ⟨name, rfl, hfault⟩
  | decompressedSize self =>
      obtain ⟨input, codec, extra⟩ := args
      refine .of_blobCodec rfl rfl (fun _ => .inr rfl) hargs
        ((DecompressedSize.row_eq_err h).mono ?_)
      intro x name k e' hfault
      exact ⟨name, rfl, hfault⟩
  | ratio self =>
      obtain ⟨input, codec, extra⟩ := args
      refine .of_blobCodec rfl rfl (fun _ => .inl rfl) hargs ((Ratio.row_eq_err h).mono ?_)
      intro x name k e' hfault
      exact ⟨name, rfl, hfault⟩
  | isValid =>
      obtain ⟨input, codec, extra⟩ := args
      refine .of_blobCodec rfl rfl (absurd · Bool.false_ne_true) hargs
        ((IsValid.row_eq_err h).mono ?_)
      exact fun _ _ _ _ => False.elim

/-- **What the error of a call says**: it is the error of the first row
without a value, and that row has a fault that the error names. -/
theorem fault_of_error {name : String} (hf : overload name b.columns.length = some (.scalar f))
    (h : f.process be host params b = .err e) :
    ∃ i < b.numRows, (∀ j < i, (f.rowAt be host params b j).isOk = true)
      ∧ f.rowAt be host params b i = .err e ∧ Fault be host f params b i e := by
  have harity : f.argumentSpecs.length ≤ b.columns.length := Nat.le_of_eq (arity_of_overload hf)
  have hreturns : Returns be host f params b (f.process be host params b) :=
    f.returns_of_rows params harity
  rw [h] at hreturns
  cases hreturns with
  | fail i e hi habove hrow =>
      obtain ⟨args, hargs⟩ : ∃ args, (f.parts be host params).arguments b = .ok args :=
        f.exists_args params harity
      have hargsRow : (f.parts be host params).row args i = .err e := by
        have hrow := hrow
        rwa [ScalarFunction.rowAt, rowOf, hargs, Outcome.ok_bind] at hrow
      exact ⟨i, hi, habove, hrow, f.fault_of_row params hargs hargsRow⟩

/-- `fault_of_error` on malformed bytes above a gzip stream. -/
theorem fault_of_error_sample :
    ∃ i < 2, (∀ j < i, ((ScalarFunction.decompress ⟨false⟩).rowAt Sample.build Sample.host
        (Sample.params .binary) Sample.twoRows j).isOk = true)
      ∧ (ScalarFunction.decompress ⟨false⟩).rowAt Sample.build Sample.host
          (Sample.params .binary) Sample.twoRows i
        = .err (.valueError "corrupt or truncated input: invalid stream")
      ∧ Fault Sample.build Sample.host (.decompress ⟨false⟩) (Sample.params .binary) Sample.twoRows
          i (.valueError "corrupt or truncated input: invalid stream") := by
  have hf : overload "decompress" Sample.twoRows.columns.length
      = some (.scalar (.decompress ⟨false⟩)) := rfl
  exact fault_of_error hf rfl

end Rows

end VgiCompress
