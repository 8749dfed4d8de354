import VgiCompress.Stored

/-!
# Asking about kept rows

`decompressed_size`, `is_valid` and `detect_codec` over rows that some
`compress` calls answered. They read the streams only, by the trailer, a
full decode or the first bytes, and `stored_rows_are_told` says that they
tell the payloads' lengths and codecs.
-/

namespace VgiCompress

open RustStd

section Kept

variable {be : Backends} {host : Host} {b : RecordBatch} {streams codec : ArrayRef}
  {extra : Option ArrayRef} {i : Nat} {p : Option Bytes}

/-! ## Sizes of packed streams -/

/-- The gzip encoder ends its stream with the payload's length, as a `u32`. -/
def Crate.Flate2.WritesTrailer (fl : Crate.Flate2) : Prop :=
  ∀ x lvl s, (fl.gzEncoder lvl).Encodes x s → 8 ≤ s.length ∧ u32ToLeBytes x.length <:+ s

theorem gzipIsize_of_suffix {n : Nat} {s : Bytes} (h8 : 8 ≤ s.length)
    (h : u32ToLeBytes n <:+ s) :
    ∃ d, Flate.gzipIsize s = some d ∧ d.toNat = n % 2 ^ 32 := by
  obtain ⟨t, rfl⟩ := h
  have hlen : (t ++ u32ToLeBytes n).length = t.length + 4 := List.length_append
  have hget (j : Nat) :
      (t ++ u32ToLeBytes n).getD (t.length + j) 0 = (u32ToLeBytes n).getD j 0 := by
    rw [List.getD_eq_getElem?_getD, List.getElem?_append_right (Nat.le_add_right _ _),
      Nat.add_sub_cancel_left, List.getD_eq_getElem?_getD]
  refine ⟨_, by rw [Flate.gzipIsize, if_neg (by omega)], ?_⟩
  rw [hlen, UInt32.toNat_toUInt64]
  have h1 : t.length + 4 - 3 = t.length + 1 := rfl
  have h2 : t.length + 4 - 2 = t.length + 2 := rfl
  have h3 : t.length + 4 - 1 = t.length + 3 := rfl
  rw [Nat.add_sub_cancel, h1, h2, h3, hget 1, hget 2, hget 3, ← Nat.add_zero t.length, hget 0]
  exact u32FromLeBytes_ofNat n

/-- The payload's length under a cap. -/
def sizeUnder (cap : UInt64) (x : Bytes) : Option UInt64 :=
  if x.length ≤ cap.toNat then some (.ofNat x.length) else none

theorem countUnderGuard_packed (hinv : EncodersInvert be) {c : Codec} {x s : Bytes}
    {level : Option Int32} (hx : x.length < 2 ^ 32) (hs : c.compress be x level = .ok s)
    (cap : UInt64) : countUnderGuard be c s cap = .ok (sizeUnder cap x) := by
  rw [countUnderGuard, Codec.decompress_compress hinv hx hs cap, payloadUnder, sizeUnder]
  by_cases hle : x.length ≤ cap.toNat
  · rw [if_pos hle, if_pos hle]
  · rw [if_neg hle, if_neg hle]

/-- The trailer and the full decode tell the same size. -/
theorem decompressedSize_packed (hinv : EncodersInvert be)
    (htrailer : be.flate2.WritesTrailer) {name : String} {c : Codec} {x s : Bytes}
    {level : Option Int32} (hc : Codec.parse name = .ok c) (hx : x.length < 2 ^ 32)
    (hs : c.compress be x level = .ok s) (cap : UInt64) :
    decompressedSize be name s cap = .ok (sizeUnder cap x) := by
  have hcount := countUnderGuard_packed hinv hx hs cap
  rw [decompressedSize, hc, Outcome.ok_bind]
  by_cases hgzip : c = .gzip
  · subst hgzip
    obtain ⟨h8, hsuffix⟩ := htrailer x _ s (Encoder.encode_eq_ok.mp hs)
    obtain ⟨d, hd, hlen⟩ := gzipIsize_of_suffix h8 hsuffix
    rw [Nat.mod_eq_of_lt hx] at hlen
    rw [if_pos rfl, hd]
    by_cases hle : d ≤ cap
    · have hfit : x.length ≤ cap.toNat := hlen ▸ UInt64.le_iff_toNat_le.mp hle
      rw [sizeUnder, if_pos hfit, ← hlen, UInt64.ofNat_toNat]
      exact if_pos hle
    · simp only [if_neg hle, hcount]
  · rw [if_neg hgzip, hcount]

theorem isValid_packed (hinv : EncodersInvert be) {name : String} {c : Codec} {x s : Bytes}
    {level : Option Int32} (hc : Codec.parse name = .ok c) (hx : x.length < 2 ^ 32)
    (hs : c.compress be x level = .ok s) :
    isValid be name s = decide (x.length ≤ defaultMaxOutputBytes.toNat) := by
  rw [isValid, hc]
  simp only [Codec.decompress_compress hinv hx hs, payloadUnder]
  by_cases hle : x.length ≤ defaultMaxOutputBytes.toNat
  · simp [hle, Outcome.isOk]
  · simp [hle, Outcome.isOk]

/-! ## Kept rows -/

/-- A fixed-width answer, from its rows. -/
theorem processRows_fixedWidth {bound : DataType} {κ : Type} {params : ProcessParams bound}
    {arguments : RecordBatch → Outcome RpcError κ} {args : κ}
    {row : κ → Nat → Outcome RpcError (Option bound.Val)} (hargs : arguments b = .ok args)
    {f : Nat → Option bound.Val} (hrow : ∀ i < b.numRows, row args i = .ok (f i)) :
    processRows host params arguments row (fun out => .ok ⟨bound, out⟩) b =
      .ok (.single ⟨bound, (List.range b.numRows).map f⟩) := by
  have hrows : (List.range b.numRows).map (row args) = ((List.range b.numRows).map f).map .ok := by
    rw [List.map_map]
    exact List.map_congr_left fun i hi => hrow i (List.mem_range.mp hi)
  have hsum : (((List.range b.numRows).map f).map fun _ => 0).sum ≤ 0 := by
    rw [List.map_const', List.sum_replicate_nat, Nat.mul_zero]
  rw [processRows_answer (fixedWidth_builds bound), hargs, Outcome.ok_bind, hrows,
    Outcome.sequence_map_ok, Outcome.ok_bind]
  exact if_pos hsum

theorem DecompressedSize.row_stored (hinv : EncodersInvert be)
    (htrailer : be.flate2.WritesTrailer) (h : Stored be streams codec i p)
    (hshort : cellBytes p < 2 ^ 32) {k : Option Int64} (hk : optIntVal extra i = .ok k)
    (params : ProcessParams .uint64) :
    DecompressedSize.row be host params (streams, codec, extra) i =
      .ok (p.bind (sizeUnder (resolveCap host.env k params))) := by
  rcases h.cases with ⟨rfl, hstream⟩ | ⟨x, s, name, c, level, rfl, hstream, hname, hc, hs⟩
  · simp only [DecompressedSize.row, hstream, Outcome.ok_bind]
    rfl
  · have hsize := decompressedSize_packed hinv htrailer hc hshort hs
      (resolveCap host.env k params)
    simp only [DecompressedSize.row, hstream, hname, hk, hsize, Outcome.ok_bind,
      Outcome.mapErr_ok, Option.bind]

theorem IsValid.row_stored (hinv : EncodersInvert be) (h : Stored be streams codec i p)
    (hshort : cellBytes p < 2 ^ 32) :
    IsValid.row be (streams, codec, extra) i =
      .ok (p.map fun x => decide (x.length ≤ defaultMaxOutputBytes.toNat)) := by
  rcases h.cases with ⟨rfl, hstream⟩ | ⟨x, s, name, c, level, rfl, hstream, hname, hc, hs⟩
  · simp only [IsValid.row, hstream, Outcome.ok_bind]
    rfl
  · have hvalid := isValid_packed hinv hc hshort hs
    simp only [IsValid.row, hstream, requireCodec_eq_ok.mp hname, hvalid, Outcome.ok_bind,
      Option.map, Outcome.pure_eq]

theorem DetectCodec.row_stored (hinv : EncodersInvert be) (hmark : EncodersMark be) {c : Codec}
    (h : StoredMarked be streams i p c) (hshort : cellBytes p < 2 ^ 32) :
    DetectCodec.row be streams i = .ok (p.map fun _ => c.name) := by
  rcases h.cases with ⟨rfl, hstream⟩ | ⟨x, s, level, rfl, hstream, hne, hmagic, hs⟩
  · simp only [DetectCodec.row, hstream, Outcome.ok_bind]
    rfl
  · have hdetect := detect_packed hinv hmark hmagic hshort hs hne
    simp only [DetectCodec.row, hstream, Outcome.ok_bind, detectCodec, hdetect, Option.map]
    rfl

/-- **What the introspection functions say of kept rows**, whichever calls
packed them: `decompressed_size` the payloads' lengths up to the rows' caps,
`is_valid` which payloads are within the default cap, and `detect_codec` the
codec of every row whose stream shows it. -/
theorem stored_rows_are_told (hinv : EncodersInvert be) (htrailer : be.flate2.WritesTrailer)
    {ps : Nat → Option Bytes} (hinput : b.column 0 = .ok streams)
    (hcodec : b.column 1 = .ok codec)
    (hstored : ∀ i < b.numRows, Stored be streams codec i (ps i))
    (hshort : ∀ i < b.numRows, cellBytes (ps i) < 2 ^ 32) (host : Host) :
    (∀ (self : DecompressedSize) (params : ProcessParams .uint64) (extra : Option ArrayRef)
        (ks : Nat → Option Int64),
      columnIf self.withCap b 2 = .ok extra → (∀ i < b.numRows, optIntVal extra i = .ok (ks i)) →
      self.process be host params b = .ok (.single ⟨.uint64, (List.range b.numRows).map fun i =>
        (ps i).bind (sizeUnder (resolveCap host.env (ks i) params))⟩))
    ∧ (∀ params : ProcessParams .boolean,
      IsValid.process be host params b = .ok (.single ⟨.boolean, (List.range b.numRows).map fun i =>
        (ps i).map fun x => decide (x.length ≤ defaultMaxOutputBytes.toNat)⟩))
    ∧ (EncodersMark be → ∀ (params : ProcessParams .utf8) out,
      DetectCodec.process be host params b = .ok out → ∀ i < b.numRows, ∀ c,
        StoredMarked be streams i (ps i) c →
        cellAt out i = some ⟨.utf8, (ps i).map fun _ => c.name⟩) := by
  refine ⟨fun self params extra ks hextra hk => ?_, fun params => ?_,
    fun hmark params out hout i hi c hmarked => ?_⟩
  · refine processRows_fixedWidth (blobCodecArgs_of_columns hinput hcodec hextra) fun i hi => ?_
    exact DecompressedSize.row_stored hinv htrailer (hstored i hi) (hshort i hi) (hk i hi) params
  · refine processRows_fixedWidth (blobCodecArgs_of_columns hinput hcodec rfl) fun i hi => ?_
    exact IsValid.row_stored hinv (hstored i hi) (hshort i hi)
  · obtain ⟨-, args, hargs, hrows⟩ := cellAt_processRows stringArray_builds hout
    cases hargs.symm.trans hinput
    obtain ⟨w, hw, -, hcell⟩ := hrows i hi
    rw [DetectCodec.row_stored hinv hmark hmarked (hshort i hi)] at hw
    rw [hcell, ← Outcome.ok.inj hw]

theorem Sample.writesTrailer : Sample.build.flate2.WritesTrailer := by
  intro x lvl s hs
  have htrailers : ∀ p ∈ Sample.gzipTable, 8 ≤ p.2.length ∧ u32ToLeBytes p.1.length <:+ p.2 := by
    decide
  exact htrailers (x, s) (Sample.mem_of_encode hs.2)

/-- `stored_rows_are_told` on the rows kept of one call. -/
theorem stored_rows_are_told_sample :
    DecompressedSize.process Sample.build Sample.host ⟨true⟩ (Sample.params .uint64)
        Sample.keptRows = .ok (.single ⟨.uint64, [none, some 1, some 1]⟩)
      ∧ IsValid.process Sample.build Sample.host (Sample.params .boolean) Sample.keptRows
        = .ok (.single ⟨.boolean, [none, some true, some true]⟩) := by
  obtain ⟨hsize, hvalid, -⟩ := stored_rows_are_told Sample.encodersInvert Sample.writesTrailer
    rfl rfl Sample.stored_keptRows (fun i _ => Sample.short_keptPayloads i) Sample.host
  refine ⟨(hsize ⟨true⟩ (Sample.params .uint64) _ Sample.keptCaps rfl Sample.keptCaps_eq).trans ?_,
    (hvalid _).trans ?_⟩
  · rfl
  · rfl

end Kept

end VgiCompress
