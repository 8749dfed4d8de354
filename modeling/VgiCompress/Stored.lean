import VgiCompress.Detection
import VgiCompress.Faults

/-!
# Rows that are kept

What `compress` answered may be kept and asked for again: in other batches,
in another order, beside rows of other calls, under columns of other types
and with the codecs spelled otherwise. `Packed` says what a kept row was
made from, and `stored_rows_read_back` that `decompress` gives that back to
every batch of such rows, each under its own cap;
`stored_rows_read_back_auto` is the same for `decompress_auto`.

A call is brought to a form without host and schema first
(`processRows_answer`): rows in order, and one column of their values.
-/

namespace VgiCompress

open RustStd

/-! ## A call, up to its surroundings -/

/-- The batch of one column. -/
def RecordBatch.single (col : ArrayRef) : RecordBatch where
  columns := [col]
  numRows := col.len
  lengths := by simp

/-- A column of these values, if it is built. -/
def answer {bound : DataType} (weight : Option bound.Val → Nat) (limit : Nat)
    (vs : List (Option bound.Val)) : Outcome RpcError RecordBatch :=
  if (vs.map weight).sum ≤ limit then .ok (.single ⟨bound, vs⟩) else .panic

section Process

variable {κ : Type} {bound : DataType} {host : Host} {params : ProcessParams bound}
  {arguments : RecordBatch → Outcome RpcError κ}
  {row : κ → Nat → Outcome RpcError (Option bound.Val)}
  {column : List (Option bound.Val) → Outcome RpcError ArrayRef}
  {weight : Option bound.Val → Nat} {limit : Nat} {b : RecordBatch}

theorem tryNew_eq_single (refusal : List Field → List ArrayRef → String)
    (vs : List (Option bound.Val)) :
    RecordBatch.tryNew refusal params.outputSchema [⟨bound, vs⟩] = .ok (.single ⟨bound, vs⟩) := by
  have h : accepts [⟨bound, true⟩] [⟨bound, vs⟩] (ArrayRef.len ⟨bound, vs⟩) = true := by
    simp [accepts]
  rw [params.schema_eq, RecordBatch.tryNew, dif_pos h]
  rfl

/-- A call is its columns, its rows in order, and its answer. -/
theorem processRows_answer (hcol : BuildsUnder column weight limit) :
    processRows host params arguments row column b =
      (arguments b >>= fun args =>
        Outcome.sequence ((List.range b.numRows).map (row args)) >>= answer weight limit) := by
  cases ha : arguments b with
  | err e => rw [processRows, ha]; rfl
  | panic => rw [processRows, ha]; rfl
  | ok args =>
      rw [processRows_of_args ha, Outcome.ok_bind]
      refine congrArg _ (funext fun vs => ?_)
      rw [hcol vs, answer]
      split
      · rw [Outcome.ok_bind, tryNew_eq_single]
        rfl
      · rfl

/-- An answer that came holds the values of all rows. -/
theorem processRows_eq_ok (hcol : BuildsUnder column weight limit) {out : RecordBatch}
    (h : processRows host params arguments row column b = .ok out) :
    ∃ args vs, arguments b = .ok args ∧ (List.range b.numRows).map (row args) = vs.map .ok
      ∧ out = .single ⟨bound, vs⟩ := by
  rw [processRows_answer hcol] at h
  obtain ⟨args, ha, h⟩ := Outcome.bind_eq_ok.mp h
  obtain ⟨vs, hvs, h⟩ := Outcome.bind_eq_ok.mp h
  refine ⟨args, vs, ha, Outcome.sequence_eq_ok hvs, ?_⟩
  rw [answer] at h
  split at h
  · exact (Outcome.ok.inj h).symm
  · cases h

/-- The values of a column of the answer, row by row. -/
theorem get_of_rows {ω : Type} {f : Nat → Outcome RpcError ω} {n : Nat} {vs : List ω}
    (h : (List.range n).map f = vs.map .ok) {i : Nat} (hi : i < n) :
    ∃ v, vs[i]? = some v ∧ f i = .ok v := by
  have hget := congrArg (·[i]?) h
  simp only [List.getElem?_map, List.getElem?_range hi, Option.map_some] at hget
  obtain ⟨v, hv, hok⟩ := Option.map_eq_some_iff.mp hget.symm
  exact ⟨v, hv, hok.symm⟩

theorem length_of_rows {ω : Type} {f : Nat → Outcome RpcError ω} {n : Nat} {vs : List ω}
    (h : (List.range n).map f = vs.map .ok) : vs.length = n := by
  have hlen := congrArg List.length h
  rw [List.length_map, List.length_map, List.length_range] at hlen
  exact hlen.symm

end Process

/-! ## What a kept row was made from -/

/-- The codec cell of a row names `c`, in some spelling. -/
def NamesCodec (codec : ArrayRef) (i : Nat) (c : Codec) : Prop :=
  ∃ name, textStr codec i = .ok (some name) ∧ Codec.parse name = .ok c

/-- Some `compress` call answered the payload `p`, under the codec `c`, with
the stream `v`. Where `p` is NULL no codec was read. -/
def Packed (be : Backends) (p : Option Bytes) (c : Codec) (v : Option Bytes) : Prop :=
  ∃ (host : Host) (self : Compress) (params : ProcessParams .binary) (b out : RecordBatch)
    (input codec : ArrayRef) (i : Nat),
    self.process be host params b = .ok out ∧ i < b.numRows
    ∧ b.column 0 = .ok input ∧ blobBytes input i = .ok p
    ∧ b.column 1 = .ok codec ∧ (p ≠ none → NamesCodec codec i c)
    ∧ cellAt out i = some ⟨.binary, v⟩

/-- The row has the stream of a packed payload and, beside it, its codec. -/
def Stored (be : Backends) (streams codec : ArrayRef) (i : Nat) (p : Option Bytes) : Prop :=
  ∃ c v, Packed be p c v ∧ blobBytes streams i = .ok v ∧ (v ≠ none → NamesCodec codec i c)

/-- The row has the stream of a packed payload, and the stream its header. -/
def StoredMarked (be : Backends) (streams : ArrayRef) (i : Nat) (p : Option Bytes) (c : Codec) :
    Prop :=
  ∃ v, Packed be p c v ∧ blobBytes streams i = .ok v ∧ v ≠ some [] ∧ MagicBearing c

section Kept

variable {be : Backends} {host : Host} {b : RecordBatch} {streams codec : ArrayRef}
  {extra : Option ArrayRef} {i : Nat} {p : Option Bytes} {c : Codec}

theorem Packed.cases {v : Option Bytes} (h : Packed be p c v) :
    (p = none ∧ v = none)
      ∨ ∃ x s level, p = some x ∧ v = some s ∧ c.compress be x level = .ok s := by
  obtain ⟨host, self, params, b, out, input, codec, i, hcall, hi, hinput, hblob, hcodec, hname,
    hcell⟩ := h
  obtain ⟨-, ⟨input', codec', levelCol⟩, hargs, hrows⟩ :=
    cellAt_processRows binaryArray_builds hcall
  obtain ⟨hinput', hcodec', -⟩ := blobCodecArgs_eq_ok hargs
  cases hinput'.symm.trans hinput
  cases hcodec'.symm.trans hcodec
  obtain ⟨w, hrow, -, hw⟩ := hrows i hi
  obtain rfl : w = v := eq_of_heq (Sigma.mk.inj (Option.some.inj (hw.symm.trans hcell))).2
  rcases (Compress.row_eq_ok be).mp hrow with
    ⟨hnull, rfl⟩ | ⟨x, name, level, s, hx, htext, -, hs, rfl⟩
  · exact .inl ⟨Outcome.ok.inj (hblob.symm.trans hnull), rfl⟩
  · obtain rfl : p = some x := Outcome.ok.inj (hblob.symm.trans hx)
    obtain ⟨name', htext', hc⟩ := hname (Option.some_ne_none x)
    cases htext'.symm.trans (requireCodec_eq_ok.mp htext)
    rw [compress_of_parse hc] at hs
    exact .inr ⟨x, s, levelI32 level, rfl, rfl, hs⟩

/-- What a later call reads in the row. -/
theorem Stored.cases (h : Stored be streams codec i p) :
    (p = none ∧ blobBytes streams i = .ok none)
      ∨ ∃ x s name c level, p = some x ∧ blobBytes streams i = .ok (some s)
        ∧ requireCodec codec i = .ok name ∧ Codec.parse name = .ok c
        ∧ c.compress be x level = .ok s := by
  obtain ⟨c, v, hpacked, hstream, hname⟩ := h
  rcases hpacked.cases with ⟨rfl, rfl⟩ | ⟨x, s, level, rfl, rfl, hs⟩
  · exact .inl ⟨rfl, hstream⟩
  · obtain ⟨name, htext, hc⟩ := hname (Option.some_ne_none s)
    exact .inr ⟨x, s, name, c, level, rfl, hstream, requireCodec_eq_ok.mpr htext, hc, hs⟩

theorem StoredMarked.cases (h : StoredMarked be streams i p c) :
    (p = none ∧ blobBytes streams i = .ok none)
      ∨ ∃ x s level, p = some x ∧ blobBytes streams i = .ok (some s) ∧ s ≠ []
        ∧ MagicBearing c ∧ c.compress be x level = .ok s := by
  obtain ⟨v, hpacked, hstream, hne, hmagic⟩ := h
  rcases hpacked.cases with ⟨rfl, rfl⟩ | ⟨x, s, level, rfl, rfl, hs⟩
  · exact .inl ⟨rfl, hstream⟩
  · exact .inr ⟨x, s, level, rfl, hstream, fun hnil => hne (by rw [hnil]), hmagic, hs⟩

/-! ## Decoding a kept row -/

/-- A payload under a cap, NULL under any. -/
def cellUnder (cap : UInt64) (p : Option Bytes) : Outcome RpcError (Option Bytes) :=
  if cellBytes p ≤ cap.toNat then .ok p else .err (codecErr (.outputTooLarge cap))

theorem cellUnder_none (cap : UInt64) : cellUnder cap none = .ok none :=
  if_pos (Nat.zero_le _)

theorem cellUnder_some (cap : UInt64) (x : Bytes) :
    cellUnder cap (some x) =
      ((payloadUnder x cap).mapErr codecErr >>= fun plain => pure (some plain)) := by
  have hx : cellBytes (some x) = x.length := rfl
  rw [cellUnder, payloadUnder, hx]
  split <;> rfl

theorem Decompress.row_stored (hinv : EncodersInvert be) (h : Stored be streams codec i p)
    (hshort : cellBytes p < 2 ^ 32) {k : Option Int64} (hk : optIntVal extra i = .ok k)
    (params : ProcessParams .binary) :
    Decompress.row be host params (streams, codec, extra) i =
      cellUnder (resolveCap host.env k params) p := by
  rcases h.cases with ⟨rfl, hstream⟩ | ⟨x, s, name, c, level, rfl, hstream, hname, hc, hs⟩
  · rw [cellUnder_none]
    simp only [Decompress.row, hstream, Outcome.ok_bind, Outcome.pure_eq]
  · rw [cellUnder_some, ← Codec.decompress_compress hinv hshort hs, ← decompress_of_parse hc]
    simp only [Decompress.row, hstream, hname, hk, Outcome.ok_bind]

/-- A packed stream with a header is told from its bytes. -/
theorem detect_packed (hinv : EncodersInvert be) (hmark : EncodersMark be) {x s : Bytes}
    {level : Option Int32} (hmagic : MagicBearing c) (hx : x.length < 2 ^ 32)
    (hs : c.compress be x level = .ok s) (hne : s ≠ []) : detect be s = some c := by
  have hb : c ≠ .lz4Block := by rintro rfl; exact hmagic
  have hr : c ≠ .snappyRaw := by rintro rfl; exact hmagic
  have hmax : x.length ≤ isizeMax := by rw [isizeMax]; omega
  have hyields := Codec.yields_compress hinv hb hr hs
  exact detect_eq_some_iff.mpr
    ⟨Codec.header_compress hmark hmagic hs hne, fun _ => hyields.trialOk_eq hmax⟩

theorem DecompressAuto.row_stored (hinv : EncodersInvert be) (hmark : EncodersMark be)
    (h : StoredMarked be streams i p c) (hshort : cellBytes p < 2 ^ 32) {k : Option Int64}
    (hk : optIntVal extra i = .ok k) (params : ProcessParams .binary) :
    DecompressAuto.row be host params (streams, extra) i =
      cellUnder (resolveCap host.env k params) p := by
  rcases h.cases with ⟨rfl, hstream⟩ | ⟨x, s, level, rfl, hstream, hne, hmagic, hs⟩
  · rw [cellUnder_none]
    simp only [DecompressAuto.row, hstream, Outcome.ok_bind, Outcome.pure_eq]
  · have hdetect := detect_packed hinv hmark hmagic hshort hs hne
    rw [cellUnder_some, ← Codec.decompress_compress hinv hshort hs,
      ← decompressAuto_of_detect hdetect]
    simp only [DecompressAuto.row, hstream, hk, Outcome.ok_bind]

/-! ## A batch of kept rows -/

variable {ps : Nat → Option Bytes} {ks : Nat → Option Int64}

/-- The payloads, each under the cap of its row, in one column. -/
def unpacked (host : Host) (params : ProcessParams .binary) (ks : Nat → Option Int64)
    (ps : Nat → Option Bytes) (n : Nat) : Outcome RpcError RecordBatch :=
  Outcome.sequence
      ((List.range n).map fun i => cellUnder (resolveCap host.env (ks i) params) (ps i))
    >>= @answer .binary cellBytes i32Max

/-- **Every batch of kept rows is read back**, whichever calls packed them:
each row has its payload, or NULL, and a payload beyond its row's cap ends
the call as too large. -/
theorem stored_rows_read_back (hinv : EncodersInvert be) {self : Decompress}
    (hinput : b.column 0 = .ok streams) (hcodec : b.column 1 = .ok codec)
    (hextra : columnIf self.withCap b 2 = .ok extra)
    (hk : ∀ i < b.numRows, optIntVal extra i = .ok (ks i))
    (hstored : ∀ i < b.numRows, Stored be streams codec i (ps i))
    (hshort : ∀ i < b.numRows, cellBytes (ps i) < 2 ^ 32)
    (host : Host) (params : ProcessParams .binary) :
    self.process be host params b = unpacked host params ks ps b.numRows := by
  rw [Decompress.process, processRows_answer binaryArray_builds,
    blobCodecArgs_of_columns hinput hcodec hextra, Outcome.ok_bind, unpacked]
  refine congrArg (Outcome.sequence · >>= _) (List.map_congr_left fun i hi => ?_)
  replace hi := List.mem_range.mp hi
  exact Decompress.row_stored hinv (hstored i hi) (hshort i hi) (hk i hi) params

/-- **So it is by `decompress_auto`**, with no codec column, where every
stream shows its header. -/
theorem stored_rows_read_back_auto (hinv : EncodersInvert be) (hmark : EncodersMark be)
    {self : DecompressAuto} (hinput : b.column 0 = .ok streams)
    (hextra : columnIf self.withCap b 1 = .ok extra)
    (hk : ∀ i < b.numRows, optIntVal extra i = .ok (ks i))
    (hstored : ∀ i < b.numRows, ∃ c, StoredMarked be streams i (ps i) c)
    (hshort : ∀ i < b.numRows, cellBytes (ps i) < 2 ^ 32)
    (host : Host) (params : ProcessParams .binary) :
    self.process be host params b = unpacked host params ks ps b.numRows := by
  rw [DecompressAuto.process, processRows_answer binaryArray_builds,
    blobArgs_of_columns hinput hextra, Outcome.ok_bind, unpacked]
  refine congrArg (Outcome.sequence · >>= _) (List.map_congr_left fun i hi => ?_)
  replace hi := List.mem_range.mp hi
  obtain ⟨c, hc⟩ := hstored i hi
  exact DecompressAuto.row_stored hinv hmark hc (hshort i hi) (hk i hi) params

/-! ## A packed row of the samples -/

/-- `"a"` above a NULL, to be packed as gzip. -/
def Sample.plainRows : RecordBatch where
  columns := [⟨.utf8, [some "a", none]⟩, ⟨.utf8, [some "gzip", some "gzip"]⟩]
  numRows := 2
  lengths := by simp [ArrayRef.len]

/-- What `compress` makes of these rows: `Sample.gzipRows` has it as its
first column. -/
theorem Sample.pack_plainRows :
    Compress.process Sample.build Sample.host ⟨false⟩ (Sample.params .binary) Sample.plainRows
      = .ok (.single ⟨.binary, [some Sample.gzip, none]⟩) := rfl

/-- Rows of that call in another batch, one of them twice, with caps. -/
def Sample.keptRows : RecordBatch where
  columns := [⟨.largeBinary, [none, some Sample.gzip, some Sample.gzip]⟩,
    ⟨.utf8, [none, some " GZIP ", some "gzip"]⟩, ⟨.int32, [some 0, some 1, none]⟩]
  numRows := 3
  lengths := by simp [ArrayRef.len]

def Sample.keptPayloads : Nat → Option Bytes
  | 0 => none
  | _ => some [0x61]

def Sample.keptCaps : Nat → Option Int64
  | 0 => some 0
  | 1 => some 1
  | _ => none

theorem Sample.packed_a : Packed Sample.build (some [0x61]) .gzip (some Sample.gzip) :=
  ⟨_, _, _, _, _, _, _, 0, Sample.pack_plainRows, Nat.zero_lt_two, rfl, rfl, rfl,
    fun _ => ⟨"gzip", rfl, rfl⟩, rfl⟩

theorem Sample.packed_null (c : Codec) : Packed Sample.build none c none :=
  ⟨_, _, _, _, _, _, _, 1, Sample.pack_plainRows, Nat.one_lt_two, rfl, rfl, rfl,
    fun h => absurd rfl h, rfl⟩

theorem Sample.stored_keptRows : ∀ i < Sample.keptRows.numRows,
    Stored Sample.build ⟨.largeBinary, [none, some Sample.gzip, some Sample.gzip]⟩
      ⟨.utf8, [none, some " GZIP ", some "gzip"]⟩ i (Sample.keptPayloads i) := by
  intro i hi
  match i, hi with
  | 0, _ => exact ⟨.gzip, none, Sample.packed_null _, rfl, fun h => absurd rfl h⟩
  | 1, _ => exact ⟨.gzip, _, Sample.packed_a, rfl, fun _ => ⟨" GZIP ", rfl, rfl⟩⟩
  | 2, _ => exact ⟨.gzip, _, Sample.packed_a, rfl, fun _ => ⟨"gzip", rfl, rfl⟩⟩

theorem Sample.short_keptPayloads (i : Nat) : cellBytes (Sample.keptPayloads i) < 2 ^ 32 := by
  match i with
  | 0 => exact Nat.two_pow_pos 32
  | i + 1 => exact Nat.one_lt_two_pow (by decide)

theorem Sample.keptCaps_eq : ∀ i < Sample.keptRows.numRows,
    optIntVal (some ⟨.int32, [some 0, some 1, none]⟩) i = .ok (Sample.keptCaps i) := by
  intro i hi
  match i, hi with
  | 0, _ | 1, _ | 2, _ => rfl

/-- `stored_rows_read_back` on these rows. -/
theorem stored_rows_read_back_sample :
    Decompress.process Sample.build Sample.host ⟨true⟩ (Sample.params .binary) Sample.keptRows
      = .ok (.single ⟨.binary, [none, some [0x61], some [0x61]]⟩) := by
  have hread : Decompress.process Sample.build Sample.host ⟨true⟩ (Sample.params .binary)
      Sample.keptRows = unpacked Sample.host (Sample.params .binary) Sample.keptCaps
        Sample.keptPayloads 3 :=
    stored_rows_read_back Sample.encodersInvert rfl rfl rfl Sample.keptCaps_eq
      Sample.stored_keptRows (fun i _ => Sample.short_keptPayloads i) _ _
  rw [hread]
  rfl

/-- `stored_rows_read_back_auto` on their streams. -/
theorem stored_rows_read_back_auto_sample :
    DecompressAuto.process Sample.build Sample.host ⟨false⟩ (Sample.params .binary)
        Sample.keptRows
      = .ok (.single ⟨.binary, [none, some [0x61], some [0x61]]⟩) := by
  have hstored : ∀ i < Sample.keptRows.numRows, ∃ c,
      StoredMarked Sample.build ⟨.largeBinary, [none, some Sample.gzip, some Sample.gzip]⟩ i
        (Sample.keptPayloads i) c := by
    intro i hi
    match i, hi with
    | 0, _ => exact ⟨.gzip, none, Sample.packed_null _, rfl, nofun, trivial⟩
    | 1, _ | 2, _ => exact ⟨.gzip, _, Sample.packed_a, rfl, nofun, trivial⟩
  have hread : DecompressAuto.process Sample.build Sample.host ⟨false⟩ (Sample.params .binary)
      Sample.keptRows = unpacked Sample.host (Sample.params .binary) (fun _ => none)
        Sample.keptPayloads 3 :=
    stored_rows_read_back_auto Sample.encodersInvert Sample.encodersMark rfl rfl
      (fun _ _ => rfl) hstored (fun i _ => Sample.short_keptPayloads i) _ _
  rw [hread]
  rfl

end Kept

end VgiCompress
