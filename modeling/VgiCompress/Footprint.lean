import VgiCompress.Stored
import VgiCompress.Peak
import VgiCompress.Watched

/-!
# What a call keeps alive

`Peak` watches one decode. Here the calls that decode are watched: next to
the decode of a row there are the payloads of the rows above it, which
the loop has pushed, and at the end the output column that they are copied
to. Detection adds the trial decode, which the caller's cap does not bound.

Each watched program is written like the one it watches, with the decodes
watched, and returns the same (`result_*`). `call_footprint` bounds what is
alive in terms of the caps of the rows, and of the blocks that lzma-rs
decodes whole where a row is an xz stream.
-/

namespace VgiCompress

open RustStd

/-! ## Watched calls -/

section Programs

variable (be : Backends)

namespace Codec

def decompressWatched (c : Codec) (input : Bytes) (cap : UInt64) : Watched CodecError Bytes :=
  ⟨(c.decompressLive be input cap).1, (c.decompressLive be input cap).2⟩

/-- The trial decode of `trialOk`. -/
def trialWatched (c : Codec) (input : Bytes) : Watched CodecError Bool :=
  ⟨.ok (trialOk be c input), (c.decompressLive be input trialCap).2⟩

/-- The full decode of `countUnderGuard`. -/
def countWatched (c : Codec) (input : Bytes) (cap : UInt64) :
    Watched CodecError (Option UInt64) :=
  ⟨countUnderGuard be c input cap, (c.decompressLive be input cap).2⟩

end Codec

/-- The signatures of `detect`, with the trial decodes in their places. -/
def detectWatched (input : Bytes) : Watched CodecError (Option Codec) :=
  if [0xff, 0x06, 0x00, 0x00, 0x73, 0x4e, 0x61, 0x50, 0x70, 0x59].isPrefixOf input then
    pure (some .snappy)
  else if [0xfd, 0x37, 0x7a, 0x58, 0x5a, 0x00].isPrefixOf input then
    pure (some .xz)
  else if [0x04, 0x22, 0x4d, 0x18].isPrefixOf input then
    pure (some .lz4)
  else if [0x28, 0xb5, 0x2f, 0xfd].isPrefixOf input then
    pure (some .zstd)
  else if 4 ≤ input.length && input.take 3 == [0x42, 0x5a, 0x68]
      && 0x31 ≤ input.getD 3 0 && input.getD 3 0 ≤ 0x39 then
    pure (some .bzip2)
  else if [0x1f, 0x8b].isPrefixOf input then
    pure (some .gzip)
  else do
    let isZlib ← Watched.andThen (looksLikeZlib input) (Codec.zlib.trialWatched be input)
    if isZlib then pure (some .zlib)
    else do
      let isLzma ← Watched.andThen (13 ≤ input.length && input.getD 0 0 == 0x5d)
        (Codec.lzma.trialWatched be input)
      if isLzma then pure (some .lzma) else pure none

def decompressWatched (codec : String) (input : Bytes) (maxOutput : UInt64) :
    Watched CodecError Bytes := do
  let c ← Watched.lift (Codec.parse codec)
  c.decompressWatched be input maxOutput

def decompressAutoWatched (input : Bytes) (maxOutput : UInt64) : Watched CodecError Bytes := do
  match ← detectWatched be input with
  | some c => c.decompressWatched be input maxOutput
  | none => Watched.lift (.err .noMagic)

def decompressedSizeWatched (codec : String) (input : Bytes) (cap : UInt64) :
    Watched CodecError (Option UInt64) := do
  let c ← Watched.lift (Codec.parse codec)
  if c = .gzip then
    match Flate.gzipIsize input with
    | some n => if n ≤ cap then pure (some n) else c.countWatched be input cap
    | none => c.countWatched be input cap
  else c.countWatched be input cap

def isValidWatched (codec : String) (input : Bytes) : Watched RpcError Bool :=
  match Codec.parse codec with
  | .ok c =>
      ⟨.ok (c.decompress be input defaultMaxOutputBytes).isOk,
        (c.decompressLive be input defaultMaxOutputBytes).2⟩
  | _ => pure false

variable (host : Host)

def Decompress.rowWatched (params : ProcessParams .binary) :
    ArrayRef × ArrayRef × Option ArrayRef → Nat → Watched RpcError (Option Bytes)
  | (input, codec, capCol), i => do
      match ← Watched.lift (blobBytes input i) with
      | none => pure none
      | some bytes =>
          let c ← Watched.lift (requireCodec codec i)
          let perCall ← Watched.lift (optIntVal capCol i)
          let cap := resolveCap host.env perCall params
          let plain ← (decompressWatched be c bytes cap).mapErr codecErr
          pure (some plain)

def DecompressAuto.rowWatched (params : ProcessParams .binary) :
    ArrayRef × Option ArrayRef → Nat → Watched RpcError (Option Bytes)
  | (input, capCol), i => do
      match ← Watched.lift (blobBytes input i) with
      | none => pure none
      | some bytes =>
          let perCall ← Watched.lift (optIntVal capCol i)
          let cap := resolveCap host.env perCall params
          let plain ← (decompressAutoWatched be bytes cap).mapErr codecErr
          pure (some plain)

def DecompressedSize.rowWatched (params : ProcessParams .uint64) :
    ArrayRef × ArrayRef × Option ArrayRef → Nat → Watched RpcError (Option UInt64)
  | (input, codec, capCol), i => do
      match ← Watched.lift (blobBytes input i) with
      | none => pure none
      | some bytes =>
          let c ← Watched.lift (requireCodec codec i)
          let perCall ← Watched.lift (optIntVal capCol i)
          let cap := resolveCap host.env perCall params
          (decompressedSizeWatched be c bytes cap).mapErr codecErr

def IsValid.rowWatched :
    ArrayRef × ArrayRef × Option ArrayRef → Nat → Watched RpcError (Option Bool)
  | (input, codec, _), i => do
      match ← Watched.lift (blobBytes input i) with
      | none => pure none
      | some bytes =>
          match ← Watched.lift (textStr codec i) with
          | none => pure none
          | some c =>
              let valid ← isValidWatched be c bytes
              pure (some valid)

end Programs

/-- The byte builder's appends, each with the value buffer it leaves. -/
def ByteBuilder.appendEachWatched {α : Type} (size : α → Nat) :
    List (Option α) → ByteBuilder α → Watched RpcError (ByteBuilder α)
  | [], b => pure b
  | some v :: rest, b => do
      -- the bytes are copied before the offset is checked
      let b ← Watched.mk (b.appendValue size v) [b.valueLen + size v]
      appendEachWatched size rest b
  | none :: rest, b => appendEachWatched size rest b.appendNull

/-- The BLOB column, filled while the rows' payloads are still there. -/
def binaryArrayWatched (col : List (Option Bytes)) : Watched RpcError ArrayRef := do
  let b ← (ByteBuilder.appendEachWatched List.length col .new).beside (col.map cellBytes).sum
  pure ⟨.binary, b.cells⟩

section Process

variable {κ ω : Type} {bound : DataType}

/-- The shape of a call, over a row and a column that are watched. -/
def processRowsWatched (host : Host) (params : ProcessParams bound)
    (arguments : RecordBatch → Outcome RpcError κ) (held : ω → Nat)
    (row : κ → Nat → Watched RpcError ω) (column : List ω → Watched RpcError ArrayRef)
    (batch : RecordBatch) : Watched RpcError RecordBatch := do
  let args ← Watched.lift (arguments batch)
  let out ← Watched.pushEach held (row args) (List.range batch.numRows) []
  let arr ← column out
  Watched.lift
    ((Outcome.ofExcept (RecordBatch.tryNew host.refusal params.outputSchema [arr])).mapErr
      .runtimeError)

end Process

section Calls

variable (be : Backends) (host : Host)

def Decompress.processWatched (self : Decompress) (params : ProcessParams .binary) :
    RecordBatch → Watched RpcError RecordBatch :=
  processRowsWatched host params (blobCodecArgs self.withCap) cellBytes
    (Decompress.rowWatched be host params) binaryArrayWatched

def DecompressAuto.processWatched (self : DecompressAuto) (params : ProcessParams .binary) :
    RecordBatch → Watched RpcError RecordBatch :=
  processRowsWatched host params (blobArgs self.withCap) cellBytes
    (DecompressAuto.rowWatched be host params) binaryArrayWatched

/-- The decoded bytes of a row are gone when its length is pushed. -/
def DecompressedSize.processWatched (self : DecompressedSize) (params : ProcessParams .uint64) :
    RecordBatch → Watched RpcError RecordBatch :=
  processRowsWatched host params (blobCodecArgs self.withCap) (fun _ => 0)
    (DecompressedSize.rowWatched be host params) fun out => Watched.lift (.ok (u64OptArray out))

def IsValid.processWatched (params : ProcessParams .boolean) :
    RecordBatch → Watched RpcError RecordBatch :=
  processRowsWatched host params (blobCodecArgs false) (fun _ => 0)
    (IsValid.rowWatched be) fun out => Watched.lift (.ok (boolArray out))

end Calls

/-! ## Watching changes nothing -/

section Transparent

variable {be : Backends} {host : Host}

@[simp] theorem Codec.result_decompressWatched (c : Codec) (input : Bytes) (cap : UInt64) :
    (c.decompressWatched be input cap).result = c.decompress be input cap :=
  c.decompressLive_fst input cap

theorem result_detectWatched (input : Bytes) :
    (detectWatched be input).result = .ok (detect be input) := by
  unfold detectWatched detect
  split
  · rfl
  split
  · rfl
  split
  · rfl
  split
  · rfl
  split
  · rfl
  split
  · rfl
  rw [Watched.result_bind, Watched.result_andThen rfl, Outcome.ok_bind]
  split
  · rfl
  rw [Watched.result_bind, Watched.result_andThen rfl, Outcome.ok_bind]
  split <;> rfl

@[simp] theorem result_decompressWatched (codec : String) (input : Bytes) (cap : UInt64) :
    (decompressWatched be codec input cap).result = decompress be codec input cap := by
  simp [decompressWatched, decompress]

@[simp] theorem result_decompressAutoWatched (input : Bytes) (cap : UInt64) :
    (decompressAutoWatched be input cap).result = decompressAuto be input cap := by
  rw [decompressAutoWatched, Watched.result_bind, result_detectWatched, Outcome.ok_bind,
    decompressAuto]
  cases detect be input with
  | some c => exact c.result_decompressWatched input cap
  | none => rfl

@[simp] theorem result_decompressedSizeWatched (codec : String) (input : Bytes) (cap : UInt64) :
    (decompressedSizeWatched be codec input cap).result
      = decompressedSize be codec input cap := by
  rw [decompressedSizeWatched, Watched.result_bind, Watched.result_lift, decompressedSize]
  refine congrArg _ (funext fun c => ?_)
  by_cases hgzip : c = .gzip
  · rw [if_pos hgzip, if_pos hgzip]
    cases Flate.gzipIsize input with
    | some n => exact apply_ite Watched.result (n ≤ cap) _ _
    | none => rfl
  · rw [if_neg hgzip, if_neg hgzip]
    rfl

@[simp] theorem result_isValidWatched (codec : String) (input : Bytes) :
    (isValidWatched be codec input).result = .ok (isValid be codec input) := by
  rw [isValidWatched, isValid]
  cases Codec.parse codec <;> rfl

/-- A row that is NULL on NULL, watched on the rest. -/
theorem result_lift_blob_bind {ω : Type} {blob : Outcome RpcError (Option Bytes)}
    {watched : Option Bytes → Watched RpcError ω} {rest : Option Bytes → Outcome RpcError ω}
    (h : ∀ v, (watched v).result = rest v) :
    (Watched.lift blob >>= watched).result = (blob >>= rest) := by
  rw [Watched.result_bind, Watched.result_lift]
  exact congrArg _ (funext h)

theorem Decompress.result_rowWatched (params : ProcessParams .binary)
    (args : ArrayRef × ArrayRef × Option ArrayRef) (i : Nat) :
    (Decompress.rowWatched be host params args i).result
      = Decompress.row be host params args i := by
  obtain ⟨input, codec, capCol⟩ := args
  refine result_lift_blob_bind fun v => ?_
  cases v with
  | none => rfl
  | some bytes => simp

theorem DecompressAuto.result_rowWatched (params : ProcessParams .binary)
    (args : ArrayRef × Option ArrayRef) (i : Nat) :
    (DecompressAuto.rowWatched be host params args i).result
      = DecompressAuto.row be host params args i := by
  obtain ⟨input, capCol⟩ := args
  refine result_lift_blob_bind fun v => ?_
  cases v with
  | none => rfl
  | some bytes => simp

theorem DecompressedSize.result_rowWatched (params : ProcessParams .uint64)
    (args : ArrayRef × ArrayRef × Option ArrayRef) (i : Nat) :
    (DecompressedSize.rowWatched be host params args i).result
      = DecompressedSize.row be host params args i := by
  obtain ⟨input, codec, capCol⟩ := args
  refine result_lift_blob_bind fun v => ?_
  cases v with
  | none => rfl
  | some bytes => simp

theorem IsValid.result_rowWatched (args : ArrayRef × ArrayRef × Option ArrayRef) (i : Nat) :
    (IsValid.rowWatched be args i).result = IsValid.row be args i := by
  obtain ⟨input, codec, extra⟩ := args
  refine result_lift_blob_bind fun v => ?_
  cases v with
  | none => rfl
  | some bytes =>
      dsimp only
      rw [Watched.result_bind, Watched.result_lift]
      refine congrArg _ (funext fun c => ?_)
      cases c with
      | none => rfl
      | some c => simp

theorem ByteBuilder.result_appendEachWatched {α : Type} {size : α → Nat} :
    ∀ (col : List (Option α)) (b : ByteBuilder α),
      (b.appendEachWatched size col).result = b.appendEach size col
  | [], b => rfl
  | none :: rest, b => result_appendEachWatched rest b.appendNull
  | some v :: rest, b => by
      rw [appendEachWatched, Watched.result_bind, appendEach]
      exact congrArg _ (funext fun b => result_appendEachWatched rest b)

theorem result_binaryArrayWatched (col : List (Option Bytes)) :
    (binaryArrayWatched col).result = binaryArray col := by
  rw [binaryArrayWatched, Watched.result_bind, Watched.result_beside,
    ByteBuilder.result_appendEachWatched, binaryArray]
  rfl

theorem result_processRowsWatched {κ ω : Type} {bound : DataType} {params : ProcessParams bound}
    {arguments : RecordBatch → Outcome RpcError κ} {held : ω → Nat}
    {watchedRow : κ → Nat → Watched RpcError ω} {row : κ → Nat → Outcome RpcError ω}
    {watchedColumn : List ω → Watched RpcError ArrayRef}
    {column : List ω → Outcome RpcError ArrayRef}
    (hrow : ∀ args i, (watchedRow args i).result = row args i)
    (hcol : ∀ out, (watchedColumn out).result = column out) (b : RecordBatch) :
    (processRowsWatched host params arguments held watchedRow watchedColumn b).result
      = processRows host params arguments row column b := by
  rw [processRowsWatched, processRows]
  simp only [Watched.result_bind, Watched.result_lift, Watched.result_pushEach, hrow, hcol]

end Transparent

/-! ## What one row keeps alive -/

/-- The decode is alive beyond its cap by `B` bytes at most, under any cap. -/
def DecodesWithin (be : Backends) (c : Codec) (input : Bytes) (B : Nat) : Prop :=
  ∀ cap, LiveWithin be c input cap B

/-- No block of the xz stream has more bytes, if it is lzma-rs that decodes
it. The other backend hands a block over in small pieces. -/
def XzBlocksWithin (be : Backends) (input : Bytes) (B : Nat) : Prop :=
  be.xzBackend = .lzmaRs → ∀ ds res, (be.lzmaRs.xzDecompress input).Scripted ds res →
    ∀ d ∈ ds, d.length ≤ B

theorem SlicesBounded.decodesWithin {be : Backends} (h : SlicesBounded be) {B : Nat}
    (hB : 2 ^ 32 - 1 ≤ B) {c : Codec} {input : Bytes}
    (hxz : c = .xz → XzBlocksWithin be input B) : DecodesWithin be c input B := by
  refine fun cap => (live_bounded_iff h hB c input cap).mpr ?_
  intro hc hlzma pre b post res hs hpre
  have hblock := hxz hc hlzma _ res hs b (by simp)
  have hroom := room_le cap
  omega

section Rows

variable {be : Backends} {host : Host} {B : Nat}

theorem Codec.within_decompressWatched {c : Codec} {input : Bytes}
    (h : DecodesWithin be c input B) (cap : UInt64) :
    (c.decompressWatched be input cap).Within (cap.toNat + B) :=
  h cap

/-- The caller's cap has no say in the trial decodes. -/
theorem within_detectWatched {input : Bytes} (hzlib : DecodesWithin be .zlib input B)
    (hlzma : DecodesWithin be .lzma input B) :
    (detectWatched be input).Within (trialCap.toNat + B) := by
  have htrial {c : Codec} (hc : DecodesWithin be c input B) :
      (c.trialWatched be input).Within (trialCap.toNat + B) := hc trialCap
  unfold detectWatched
  split
  · exact Watched.within_pure _
  split
  · exact Watched.within_pure _
  split
  · exact Watched.within_pure _
  split
  · exact Watched.within_pure _
  split
  · exact Watched.within_pure _
  split
  · exact Watched.within_pure _
  refine ((htrial hzlib).andThen _).bind fun isZlib _ => ?_
  split
  · exact Watched.within_pure _
  refine ((htrial hlzma).andThen _).bind fun isLzma _ => ?_
  split <;> exact Watched.within_pure _

theorem within_decompressWatched {codec : String} {input : Bytes}
    (h : ∀ c, Codec.parse codec = .ok c → DecodesWithin be c input B) (cap : UInt64) :
    (decompressWatched be codec input cap).Within (cap.toNat + B) :=
  Watched.within_lift_bind fun c hc => c.within_decompressWatched (h c hc) cap

theorem within_decompressAutoWatched {input : Bytes} (hzlib : DecodesWithin be .zlib input B)
    (hlzma : DecodesWithin be .lzma input B)
    (h : ∀ c, detect be input = some c → DecodesWithin be c input B) (cap : UInt64) :
    (decompressAutoWatched be input cap).Within (cap.toNat + (trialCap.toNat + B)) := by
  refine ((within_detectWatched hzlib hlzma).le (Nat.le_add_left _ _)).bind fun found hfound => ?_
  cases found with
  | some c =>
      rw [result_detectWatched] at hfound
      exact (c.within_decompressWatched (h c (Outcome.ok.inj hfound)) cap).le (by omega)
  | none => exact Watched.within_lift _

theorem within_decompressedSizeWatched {codec : String} {input : Bytes}
    (h : ∀ c, Codec.parse codec = .ok c → DecodesWithin be c input B) (cap : UInt64) :
    (decompressedSizeWatched be codec input cap).Within (cap.toNat + B) := by
  refine Watched.within_lift_bind fun c hc => ?_
  have hcount : (c.countWatched be input cap).Within (cap.toNat + B) := h c hc cap
  split
  · cases Flate.gzipIsize input with
    | some n =>
        dsimp only
        split
        · exact Watched.within_pure _
        · exact hcount
    | none => exact hcount
  · exact hcount

theorem within_isValidWatched {codec : String} {input : Bytes}
    (h : ∀ c, Codec.parse codec = .ok c → DecodesWithin be c input B) :
    (isValidWatched be codec input).Within (defaultMaxOutputBytes.toNat + B) := by
  rw [isValidWatched]
  cases hparse : Codec.parse codec with
  | ok c => exact h c hparse defaultMaxOutputBytes
  | err e => exact Watched.within_pure false
  | panic => exact Watched.within_pure false

/-- The cap that the decode of a row runs under, if it comes to one. -/
def rowCap (host : Host) {bound : DataType} (params : ProcessParams bound)
    (capCol : Option ArrayRef) (i : Nat) : Nat :=
  match optIntVal capCol i with
  | .ok perCall => (resolveCap host.env perCall params).toNat
  | _ => 0

theorem rowCap_of_ok {bound : DataType} {params : ProcessParams bound} {capCol : Option ArrayRef}
    {i : Nat} {perCall : Option Int64} (h : optIntVal capCol i = .ok perCall) :
    rowCap host params capCol i = (resolveCap host.env perCall params).toNat := by
  rw [rowCap, h]

variable {input codec : ArrayRef} {capCol : Option ArrayRef} (i : Nat)

/-- The decode that the row asks for, with the codec it names, is bounded. -/
def RowWithin (be : Backends) (input codec : ArrayRef) (i B : Nat) : Prop :=
  ∀ x name c, blobBytes input i = .ok (some x) → textStr codec i = .ok (some name) →
    Codec.parse name = .ok c → DecodesWithin be c x B

theorem Decompress.within_rowWatched (h : RowWithin be input codec i B)
    (params : ProcessParams .binary) :
    (Decompress.rowWatched be host params (input, codec, capCol) i).Within
      (rowCap host params capCol i + B) := by
  refine Watched.within_lift_bind fun v hv => ?_
  cases v with
  | none => exact Watched.within_pure _
  | some bytes =>
      refine Watched.within_lift_bind fun c hc => Watched.within_lift_bind fun k hk => ?_
      rw [rowCap_of_ok hk]
      have hdecode := within_decompressWatched (h bytes c · hv (requireCodec_eq_ok.mp hc))
        (resolveCap host.env k params)
      exact (hdecode.mapErr codecErr).bind fun _ _ => Watched.within_pure _

theorem DecompressAuto.within_rowWatched
    (htrial : ∀ x c, c ≠ .xz → DecodesWithin be c x B)
    (h : ∀ x c, blobBytes input i = .ok (some x) → detect be x = some c → DecodesWithin be c x B)
    (params : ProcessParams .binary) :
    (DecompressAuto.rowWatched be host params (input, capCol) i).Within
      (rowCap host params capCol i + (trialCap.toNat + B)) := by
  refine Watched.within_lift_bind fun v hv => ?_
  cases v with
  | none => exact Watched.within_pure _
  | some bytes =>
      refine Watched.within_lift_bind fun k hk => ?_
      rw [rowCap_of_ok hk]
      have hdecode := within_decompressAutoWatched (htrial bytes .zlib nofun)
        (htrial bytes .lzma nofun) (h bytes · hv) (resolveCap host.env k params)
      exact (hdecode.mapErr codecErr).bind fun _ _ => Watched.within_pure _

theorem DecompressedSize.within_rowWatched (h : RowWithin be input codec i B)
    (params : ProcessParams .uint64) :
    (DecompressedSize.rowWatched be host params (input, codec, capCol) i).Within
      (rowCap host params capCol i + B) := by
  refine Watched.within_lift_bind fun v hv => ?_
  cases v with
  | none => exact Watched.within_pure _
  | some bytes =>
      refine Watched.within_lift_bind fun c hc => Watched.within_lift_bind fun k hk => ?_
      rw [rowCap_of_ok hk]
      have hdecode := within_decompressedSizeWatched (h bytes c · hv (requireCodec_eq_ok.mp hc))
        (resolveCap host.env k params)
      exact hdecode.mapErr codecErr

theorem IsValid.within_rowWatched (h : RowWithin be input codec i B) :
    (IsValid.rowWatched be (input, codec, capCol) i).Within
      (defaultMaxOutputBytes.toNat + B) := by
  refine Watched.within_lift_bind fun v hv => ?_
  cases v with
  | none => exact Watched.within_pure _
  | some bytes =>
      refine Watched.within_lift_bind fun c hc => ?_
      cases c with
      | none => exact Watched.within_pure _
      | some c =>
          exact (within_isValidWatched (h bytes c · hv hc)).bind fun _ _ => Watched.within_pure _

/-- The payload of a row is within the row's cap. -/
theorem Decompress.cellBytes_row_le (hlz4 : be.lz4Flex.PrefixBounds) (hsnap : be.snap.LenExact)
    {params : ProcessParams .binary} {v : Option Bytes}
    (h : Decompress.row be host params (input, codec, capCol) i = .ok v) :
    cellBytes v ≤ rowCap host params capCol i := by
  rw [Decompress.row] at h
  obtain ⟨_ | bytes, -, h⟩ := Outcome.bind_eq_ok.mp h
  · obtain rfl : none = v := Outcome.ok.inj h
    exact Nat.zero_le _
  · obtain ⟨c, -, h⟩ := Outcome.bind_eq_ok.mp h
    obtain ⟨k, hk, h⟩ := Outcome.bind_eq_ok.mp h
    obtain ⟨plain, hplain, h⟩ := Outcome.bind_eq_ok.mp h
    obtain rfl : some plain = v := Outcome.ok.inj h
    obtain ⟨codec, -, hplain⟩ := decompress_eq_ok.mp (Outcome.mapErr_eq_ok.mp hplain)
    rw [rowCap_of_ok hk]
    exact (codec.decompress_withinCap hlz4 hsnap bytes _).1 plain hplain

theorem DecompressAuto.cellBytes_row_le (hlz4 : be.lz4Flex.PrefixBounds)
    (hsnap : be.snap.LenExact) {params : ProcessParams .binary} {v : Option Bytes}
    (h : DecompressAuto.row be host params (input, capCol) i = .ok v) :
    cellBytes v ≤ rowCap host params capCol i := by
  rw [DecompressAuto.row] at h
  obtain ⟨_ | bytes, -, h⟩ := Outcome.bind_eq_ok.mp h
  · obtain rfl : none = v := Outcome.ok.inj h
    exact Nat.zero_le _
  · obtain ⟨k, hk, h⟩ := Outcome.bind_eq_ok.mp h
    obtain ⟨plain, hplain, h⟩ := Outcome.bind_eq_ok.mp h
    obtain rfl : some plain = v := Outcome.ok.inj h
    replace hplain := Outcome.mapErr_eq_ok.mp hplain
    rw [decompressAuto] at hplain
    rw [rowCap_of_ok hk]
    cases hd : detect be bytes with
    | some c =>
        rw [hd] at hplain
        exact (c.decompress_withinCap hlz4 hsnap bytes _).1 plain hplain
    | none => rw [hd] at hplain; cases hplain

end Rows

/-! ## What a call keeps alive -/

theorem ByteBuilder.within_appendEachWatched {α : Type} (size : α → Nat) :
    ∀ (col : List (Option α)) (b : ByteBuilder α),
      (b.appendEachWatched size col).Within (b.valueLen + (col.map (cellSize size)).sum)
  | [], b => Watched.within_pure b
  | none :: rest, b => by
      have hrest := within_appendEachWatched size rest b.appendNull
      rw [List.map_cons, List.sum_cons]
      exact hrest.le (by simp [appendNull])
  | some v :: rest, b => by
      rw [List.map_cons, List.sum_cons]
      have hv : cellSize size (some v) = size v := rfl
      refine Watched.Within.bind (fun k hk => ?_) fun b' hb' => ?_
      · obtain rfl := List.mem_singleton.mp hk
        omega
      · have hlen : b'.valueLen = b.valueLen + size v := by
          have hok : b.appendValue size v = .ok b' := hb'
          rw [appendValue] at hok
          split at hok
          · cases hok
          · rw [← Outcome.ok.inj hok]
        exact (within_appendEachWatched size rest b').le (by omega)

/-- The payloads, and their copies in the column. -/
theorem within_binaryArrayWatched (col : List (Option Bytes)) :
    (binaryArrayWatched col).Within (2 * (col.map cellBytes).sum) := by
  have hfill := ByteBuilder.within_appendEachWatched List.length col .new
  refine ((hfill.beside _).le ?_).bind fun b _ => Watched.within_pure _
  simp only [ByteBuilder.new, Nat.zero_add]
  exact Nat.le_of_eq (Nat.two_mul _).symm

section Calls

variable {be : Backends} {host : Host} {B : Nat} {b : RecordBatch}

/-- A call is its loop, over what the loop has made, and its column. -/
theorem within_processRowsWatched {κ ω : Type} {bound : DataType} {params : ProcessParams bound}
    {arguments : RecordBatch → Outcome RpcError κ} {held : ω → Nat}
    {row : κ → Nat → Watched RpcError ω} {column : List ω → Watched RpcError ArrayRef}
    (size : Nat → Nat) (extra : Nat)
    (hrow : ∀ args, arguments b = .ok args → ∀ i, (row args i).Within (size i + extra))
    (hsize : ∀ args, arguments b = .ok args → ∀ i v, (row args i).result = .ok v →
      held v ≤ size i)
    {n : Nat} (hloop : ((List.range b.numRows).map size).sum + extra ≤ n)
    (hcol : ∀ out : List ω, (out.map held).sum ≤ ((List.range b.numRows).map size).sum →
      (column out).Within n) :
    (processRowsWatched host params arguments held row column b).Within n := by
  refine Watched.within_lift_bind fun args hargs => ?_
  have hpush := Watched.Within.pushEach (List.range b.numRows) (fun i _ => hrow args hargs i)
    (fun i _ => hsize args hargs i) []
  refine (hpush.le (by simpa using hloop)).bind fun out hout => ?_
  have hheld := Watched.sum_pushEach_le (List.range b.numRows)
    (fun i _ => hsize args hargs i) hout
  exact (hcol out (by simpa using hheld)).bind fun _ _ => Watched.within_lift _

/-- The cap of a row, in a call whose cap column, if any, is column `k`. -/
def capAt (host : Host) {bound : DataType} (params : ProcessParams bound) (withCap : Bool)
    (k : Nat) (b : RecordBatch) (i : Nat) : Nat :=
  match columnIf withCap b k with
  | .ok capCol => rowCap host params capCol i
  | _ => 0

theorem capAt_of_ok {bound : DataType} {params : ProcessParams bound} {withCap : Bool} {k : Nat}
    {capCol : Option ArrayRef} (h : columnIf withCap b k = .ok capCol) (i : Nat) :
    capAt host params withCap k b i = rowCap host params capCol i := by
  rw [capAt, h]

/-- The caps of all rows together. -/
def capSum (host : Host) {bound : DataType} (params : ProcessParams bound) (withCap : Bool)
    (k : Nat) (b : RecordBatch) : Nat :=
  ((List.range b.numRows).map (capAt host params withCap k b)).sum

/-- A row's payload comes to be decoded with the codec: the row names it, or
the payload's first bytes tell it. -/
def Asked (be : Backends) (b : RecordBatch) (x : Bytes) (c : Codec) : Prop :=
  ∃ i input, b.column 0 = .ok input ∧ blobBytes input i = .ok (some x)
    ∧ (detect be x = some c ∨ ∃ codec name, b.column 1 = .ok codec
      ∧ textStr codec i = .ok (some name) ∧ Codec.parse name = .ok c)

/-- Decodes have `B` bytes beyond their caps, for all that the rows of the
batch ask for: the window of an lzma stream, and the longest of the xz
blocks. -/
structure RoomFor (be : Backends) (b : RecordBatch) (B : Nat) : Prop where
  window : 2 ^ 32 - 1 ≤ B
  blocks : ∀ x, Asked be b x .xz → XzBlocksWithin be x B

theorem RoomFor.rowWithin (hroom : RoomFor be b B) (h : SlicesBounded be) {withExtra : Bool}
    {input codec : ArrayRef} {extra : Option ArrayRef}
    (hargs : blobCodecArgs withExtra b = .ok (input, codec, extra)) (i : Nat) :
    RowWithin be input codec i B := by
  obtain ⟨hinput, hcodec, -⟩ := blobCodecArgs_eq_ok hargs
  intro x name c hx hname hparse
  refine h.decodesWithin hroom.window ?_
  rintro rfl
  exact hroom.blocks x ⟨i, input, hinput, hx, .inr ⟨codec, name, hcodec, hname, hparse⟩⟩

theorem Decompress.within_processWatched (hroom : RoomFor be b B) (h : SlicesBounded be)
    (hlz4 : be.lz4Flex.PrefixBounds) (hsnap : be.snap.LenExact) (self : Decompress)
    (params : ProcessParams .binary) :
    (self.processWatched be host params b).Within
      (2 * capSum host params self.withCap 2 b + B) := by
  refine within_processRowsWatched (capAt host params self.withCap 2 b) B ?_ ?_ ?_ ?_
  · rintro ⟨input, codec, capCol⟩ hargs i
    rw [capAt_of_ok (blobCodecArgs_eq_ok hargs).2.2]
    exact Decompress.within_rowWatched i (hroom.rowWithin h hargs i) params
  · rintro ⟨input, codec, capCol⟩ hargs i v hv
    rw [capAt_of_ok (blobCodecArgs_eq_ok hargs).2.2]
    rw [Decompress.result_rowWatched] at hv
    exact Decompress.cellBytes_row_le i hlz4 hsnap hv
  · rw [← capSum]
    omega
  · intro out hout
    rw [← capSum] at hout
    exact (within_binaryArrayWatched out).le (by omega)

theorem DecompressAuto.within_processWatched (hroom : RoomFor be b B) (h : SlicesBounded be)
    (hlz4 : be.lz4Flex.PrefixBounds) (hsnap : be.snap.LenExact) (self : DecompressAuto)
    (params : ProcessParams .binary) :
    (self.processWatched be host params b).Within
      (2 * capSum host params self.withCap 1 b + (trialCap.toNat + B)) := by
  refine within_processRowsWatched (capAt host params self.withCap 1 b) (trialCap.toNat + B)
    ?_ ?_ ?_ ?_
  · rintro ⟨input, capCol⟩ hargs i
    obtain ⟨hinput, hcap⟩ := blobArgs_eq_ok hargs
    rw [capAt_of_ok hcap]
    refine DecompressAuto.within_rowWatched i ?_ ?_ params
    · exact fun x c hc => h.decodesWithin hroom.window fun heq => absurd heq hc
    · intro x c hx hc
      refine h.decodesWithin hroom.window ?_
      rintro rfl
      exact hroom.blocks x ⟨i, input, hinput, hx, .inl hc⟩
  · rintro ⟨input, capCol⟩ hargs i v hv
    rw [capAt_of_ok (blobArgs_eq_ok hargs).2]
    rw [DecompressAuto.result_rowWatched] at hv
    exact DecompressAuto.cellBytes_row_le i hlz4 hsnap hv
  · rw [← capSum]
    omega
  · intro out hout
    rw [← capSum] at hout
    exact (within_binaryArrayWatched out).le (by omega)

/-- A call that keeps no payload, under a bound on each row. -/
theorem within_of_rows {κ ω : Type} {bound : DataType} {params : ProcessParams bound}
    {arguments : RecordBatch → Outcome RpcError κ} {row : κ → Nat → Watched RpcError ω}
    {column : List ω → Outcome RpcError ArrayRef} {n : Nat}
    (hrow : ∀ args, arguments b = .ok args → ∀ i, (row args i).Within n) :
    (processRowsWatched host params arguments (fun _ => 0) row
      (fun out => Watched.lift (column out)) b).Within n := by
  refine within_processRowsWatched (fun _ => 0) n ?_ ?_ ?_ ?_
  · intro args hargs i
    rw [Nat.zero_add]
    exact hrow args hargs i
  · exact fun _ _ _ _ _ => Nat.le_refl 0
  · simp
  · exact fun _ _ => Watched.within_lift _

/-- **What a call that decodes keeps alive** is bounded by the caps of its
rows and the room that one decode takes beyond its cap: by twice the sum of
the caps where payloads are answered, for they are copied to one column, and
by the largest of them where they are only measured, however many rows there
are. The trial decode of `decompress_auto` adds its own cap, and `is_valid`
has no other. -/
theorem call_footprint (h : SlicesBounded be) (hlz4 : be.lz4Flex.PrefixBounds)
    (hsnap : be.snap.LenExact) (hroom : RoomFor be b B) :
    (∀ (self : Decompress) (params : ProcessParams .binary),
      (self.processWatched be host params b).result = self.process be host params b
      ∧ (self.processWatched be host params b).Within
        (2 * capSum host params self.withCap 2 b + B))
    ∧ (∀ (self : DecompressAuto) (params : ProcessParams .binary),
      (self.processWatched be host params b).result = self.process be host params b
      ∧ (self.processWatched be host params b).Within
        (2 * capSum host params self.withCap 1 b + (trialCap.toNat + B)))
    ∧ (∀ (self : DecompressedSize) (params : ProcessParams .uint64) (cap : Nat),
      (∀ i, capAt host params self.withCap 2 b i ≤ cap) →
      (self.processWatched be host params b).result = self.process be host params b
      ∧ (self.processWatched be host params b).Within (cap + B))
    ∧ ∀ params : ProcessParams .boolean,
      (IsValid.processWatched be host params b).result = IsValid.process be host params b
      ∧ (IsValid.processWatched be host params b).Within (defaultMaxOutputBytes.toNat + B) := by
  refine ⟨fun self params => ⟨?_, ?_⟩, fun self params => ⟨?_, ?_⟩,
    fun self params cap hcap => ⟨?_, ?_⟩, fun params => ⟨?_, ?_⟩⟩
  · exact result_processRowsWatched (Decompress.result_rowWatched params)
      result_binaryArrayWatched b
  · exact self.within_processWatched hroom h hlz4 hsnap params
  · exact result_processRowsWatched (DecompressAuto.result_rowWatched params)
      result_binaryArrayWatched b
  · exact self.within_processWatched hroom h hlz4 hsnap params
  · exact result_processRowsWatched (DecompressedSize.result_rowWatched params) (fun _ => rfl) b
  · refine within_of_rows ?_
    rintro ⟨input, codec, capCol⟩ hargs i
    refine (DecompressedSize.within_rowWatched i (hroom.rowWithin h hargs i) params).le ?_
    have hle := hcap i
    rw [capAt_of_ok (blobCodecArgs_eq_ok hargs).2.2] at hle
    exact Nat.add_le_add_right hle B
  · exact result_processRowsWatched IsValid.result_rowWatched (fun _ => rfl) b
  · refine within_of_rows ?_
    rintro ⟨input, codec, capCol⟩ hargs i
    exact IsValid.within_rowWatched i (hroom.rowWithin h hargs i)

end Calls

/-- One byte in the sink, then the payload and its copy in the column. -/
example : (Decompress.processWatched Sample.build Sample.host ⟨false⟩ (Sample.params .binary)
    Sample.gzipRows).live = [1, 2] := by
  decide +kernel

/-- An xz stream above a NULL. -/
def Sample.xzRows : RecordBatch where
  columns := [⟨.binary, [some Sample.xz, none]⟩, ⟨.utf8, [some "xz", some "xz"]⟩]
  numRows := 2
  lengths := by simp [ArrayRef.len]

theorem Sample.roomFor_xzRows : RoomFor Sample.build Sample.xzRows (2 ^ 32 - 1) where
  window := Nat.le_refl _
  blocks := by
    rintro x - - ds res hs d hd
    exact (Sample.driven_slices hs d hd).trans (by decide)

/-- `call_footprint` on an xz stream that lzma-rs decodes. -/
theorem call_footprint_sample :
    (Decompress.processWatched Sample.build Sample.host ⟨false⟩ (Sample.params .binary)
      Sample.xzRows).Within (2 * (2 ^ 28 + 2 ^ 28) + (2 ^ 32 - 1)) := by
  have hcaps : capSum Sample.host (Sample.params .binary) false 2 Sample.xzRows
      = 2 ^ 28 + 2 ^ 28 := by decide +kernel
  rw [← hcaps]
  exact ((call_footprint Sample.slicesBounded Sample.prefixBounds Sample.lenExact
    Sample.roomFor_xzRows).1 ⟨false⟩ (Sample.params .binary)).2

end VgiCompress
