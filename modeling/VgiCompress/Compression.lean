import VgiCompress.Batches

/-!
# Three functions that compress

`compress`, `compressed_size` and `compression_ratio` each have a row loop
of their own. They read the same cells in the same order and fail alike
on all rows but those of an empty payload, where the ratio is NULL before
the codec's name is looked up (`compression_story`).

`void_processRows` and `cellAt_processRows` say what a call tells of its
rows: which one fails first, and else the cell of each.
-/

namespace VgiCompress

open RustStd

/-! ## What a call tells of its rows -/

/-- The cell of a row in the output batch. -/
def cellAt (out : RecordBatch) (i : Nat) : Option Cell := out.columns[0]?.bind (·.cell? i)

section Process

variable {κ : Type} {bound : DataType} {host : Host} {params : ProcessParams bound}
  {arguments : RecordBatch → Outcome RpcError κ}
  {row : κ → Nat → Outcome RpcError (Option bound.Val)}
  {column : List (Option bound.Val) → Outcome RpcError ArrayRef}
  {weight : Option bound.Val → Nat} {limit : Nat} {b : RecordBatch}

/-- The rows' values, if all rows have one, fit the column. -/
def FitsColumn {ω : Type} (row : κ → Nat → Outcome RpcError ω) (weight : ω → Nat) (limit : Nat)
    (args : κ) (n : Nat) : Prop :=
  ∀ vs : List ω, (List.range n).map (row args) = vs.map .ok → (vs.map weight).sum ≤ limit

theorem fitsColumn_fixedWidth {ω : Type} (row : κ → Nat → Outcome RpcError ω) (args : κ)
    (n : Nat) : FitsColumn row (fun _ => 0) 0 args n := by
  intro vs _
  rw [List.map_const', List.sum_replicate_nat, Nat.mul_zero]

theorem processRows_of_args {args : κ} (ha : arguments b = .ok args) :
    processRows host params arguments row column b =
      (Outcome.sequence ((List.range b.numRows).map (row args)) >>= fun out =>
        column out >>= fun arr =>
          (Outcome.ofExcept
            (RecordBatch.tryNew host.refusal params.outputSchema [arr])).mapErr .runtimeError) := by
  rw [processRows, ha, Outcome.ok_bind, Outcome.pushEach_eq]

/-- The call fails as the first failing row does, or not at all. -/
theorem void_processRows (hcol : BuildsUnder column weight limit)
    (hfit : ∀ args, arguments b = .ok args → FitsColumn row weight limit args b.numRows) :
    (processRows host params arguments row column b).void =
      (arguments b >>= fun args =>
        (Outcome.sequence ((List.range b.numRows).map fun i => (row args i).void)).void) := by
  cases ha : arguments b with
  | err e => rw [processRows, ha]; rfl
  | panic => rw [processRows, ha]; rfl
  | ok args =>
      have hvoid := Outcome.void_sequence ((List.range b.numRows).map (row args))
      rw [List.map_map] at hvoid
      change _ = (Outcome.sequence ((List.range b.numRows).map fun i => (row args i).void)).void
        at hvoid
      rw [processRows_of_args ha, Outcome.ok_bind, ← hvoid]
      cases hseq : Outcome.sequence ((List.range b.numRows).map (row args)) with
      | err e => rfl
      | panic => rfl
      | ok vs =>
          obtain ⟨out, hout, -, -⟩ := tryNew_bound host params vs
          rw [Outcome.ok_bind, hcol vs, if_pos (hfit args ha vs (Outcome.sequence_eq_ok hseq)),
            Outcome.ok_bind, hout]
          rfl

/-- Where every row has a value, and these fit, the call succeeds. -/
theorem processRows_isOk (hcol : BuildsUnder column weight limit) {args : κ}
    (ha : arguments b = .ok args) (hfit : FitsColumn row weight limit args b.numRows)
    (hrows : ∀ i < b.numRows, (row args i).isOk = true) :
    ∃ out, processRows host params arguments row column b = .ok out := by
  have hall : ∀ o ∈ (List.range b.numRows).map (row args), o.isOk = true := by
    simpa using hrows
  obtain ⟨vs, hvs⟩ := Outcome.sequence_of_isOk hall
  obtain ⟨out, hout, -, -⟩ := tryNew_bound host params vs
  refine ⟨out, ?_⟩
  rw [processRows_of_args ha, hvs, Outcome.ok_bind, hcol vs,
    if_pos (hfit vs (Outcome.sequence_eq_ok hvs)), Outcome.ok_bind, hout]
  rfl

/-- A call that succeeds answers every row with that row's value. -/
theorem cellAt_processRows (hcol : BuildsUnder column weight limit) {out : RecordBatch}
    (h : processRows host params arguments row column b = .ok out) :
    out.numRows = b.numRows ∧ ∃ args, arguments b = .ok args ∧ ∀ i < b.numRows,
      ∃ v, row args i = .ok v ∧ weight v ≤ limit ∧ cellAt out i = some ⟨bound, v⟩ := by
  obtain ⟨args, ha, -⟩ := Outcome.bind_eq_ok.mp h
  rw [processRows_of_args ha] at h
  obtain ⟨vs, hseq, h⟩ := Outcome.bind_eq_ok.mp h
  have hrows := Outcome.sequence_eq_ok hseq
  have hlen : b.numRows = vs.length := by simpa using congrArg List.length hrows
  obtain ⟨out', hout', hcols, hnum⟩ := tryNew_bound host params vs
  rw [hcol vs] at h
  split at h
  · next hsum =>
    rw [Outcome.ok_bind, hout'] at h
    obtain rfl : out' = out := Outcome.ok.inj h
    refine ⟨hnum.trans hlen.symm, args, ha, ?_⟩
    intro i hi
    have hvs : i < vs.length := hlen ▸ hi
    refine ⟨vs[i], ?_, ?_, ?_⟩
    · have hget := congrArg (·[i]?) hrows
      simpa [hi, hvs] using hget
    · obtain ⟨above, below, hsplit⟩ := List.append_of_mem (List.getElem_mem hvs)
      rw [hsplit, List.map_append, List.map_cons, List.sum_append_nat, List.sum_cons] at hsum
      omega
    · rw [cellAt, hcols]
      simp [ArrayRef.cell?, hvs]
  · cases h

end Process

/-! ## The rows of the three functions -/

/-- A row of a function that is NULL on NULL: what the rest of the row makes
of the payload counts only where there is one. -/
theorem blobRow_eq_ok {ω : Type} {rest : Option Bytes → Outcome RpcError (Option ω)}
    (hnull : rest none = .ok none) {input : ArrayRef} {i : Nat} {v : Option ω} :
    (blobBytes input i >>= rest) = .ok v ↔
      (blobBytes input i = .ok none ∧ v = none)
      ∨ ∃ x, blobBytes input i = .ok (some x) ∧ rest (some x) = .ok v := by
  rw [Outcome.bind_eq_ok]
  constructor
  · rintro ⟨payload, hblob, h⟩
    cases payload with
    | none => exact .inl ⟨hblob, Outcome.ok.inj (h.symm.trans hnull)⟩
    | some x => exact .inr ⟨x, hblob, h⟩
  · rintro (⟨hblob, rfl⟩ | ⟨x, hblob, h⟩)
    · exact ⟨none, hblob, hnull⟩
    · exact ⟨some x, hblob, h⟩

section Rows

variable (be : Backends)

/-- A size is a compression, measured. -/
theorem CompressedSize.row_eq (args : ArrayRef × ArrayRef × Option ArrayRef) (i : Nat) :
    CompressedSize.row be args i
      = (Compress.row be args i).map (Option.map fun s => .ofNat s.length) := by
  obtain ⟨input, codec, levelCol⟩ := args
  simp only [CompressedSize.row, Compress.row]
  rcases blobBytes input i with (_ | x) | e | _
  · rfl
  · rcases requireCodec codec i with name | e | _
    · rcases optIntVal levelCol i with level | e | _
      · simp only [Outcome.ok_bind, compressedSize]
        cases compress be name x (levelI32 level) <;> rfl
      · rfl
      · rfl
    · rfl
    · rfl
  · rfl
  · rfl

/-- What a row comes to in the eyes of the ratio: the codec and the level
of an empty payload are read and not used. -/
def Ratio.verdict : ArrayRef × ArrayRef × Option ArrayRef → Nat → Outcome RpcError Unit
  | (input, codec, levelCol), i =>
      if blobBytes input i = .ok (some []) then do
        let _ ← requireCodec codec i
        let _ ← optIntVal levelCol i
        pure ()
      else (Compress.row be (input, codec, levelCol) i).void

/-- The ratio of an empty payload needs no codec of that name. -/
theorem Ratio.row_empty {input codec : ArrayRef} {levelCol : Option ArrayRef} {i : Nat}
    (h : blobBytes input i = .ok (some [])) :
    Ratio.row be (input, codec, levelCol) i =
      (requireCodec codec i >>= fun _ => optIntVal levelCol i >>= fun _ => .ok none) := by
  simp only [Ratio.row, h]
  rfl

/-- Any other ratio is a size, divided. -/
theorem Ratio.row_of_ne {input codec : ArrayRef} {levelCol : Option ArrayRef} {i : Nat}
    {payload : Option Bytes} (h : blobBytes input i = .ok payload) (hne : payload ≠ some []) :
    Ratio.row be (input, codec, levelCol) i =
      (Compress.row be (input, codec, levelCol) i).map (Option.map fun s =>
        UInt64.toFloat (.ofNat s.length)
          / UInt64.toFloat (.ofNat (payload.getD []).length)) := by
  simp only [Ratio.row, Compress.row, h]
  cases payload with
  | none => rfl
  | some x =>
      have hempty : x.isEmpty = false := by simpa using hne
      rcases requireCodec codec i with name | e | _
      · rcases optIntVal levelCol i with level | e | _
        · simp only [Outcome.ok_bind, VgiCompress.ratio, compressedSize, hempty,
            Bool.false_eq_true, if_false]
          cases compress be name x (levelI32 level) <;> rfl
        · rfl
        · rfl
      · rfl
      · rfl

theorem Ratio.void_row (args : ArrayRef × ArrayRef × Option ArrayRef) (i : Nat) :
    (Ratio.row be args i).void = Ratio.verdict be args i := by
  obtain ⟨input, codec, levelCol⟩ := args
  rw [Ratio.verdict]
  cases hblob : blobBytes input i with
  | err e => simp only [Ratio.row, Compress.row, hblob]; rfl
  | panic => simp only [Ratio.row, Compress.row, hblob]; rfl
  | ok payload =>
      by_cases hempty : payload = some []
      · subst hempty
        rw [Ratio.row_empty be hblob, if_pos rfl]
        rcases requireCodec codec i with name | e | _
        · cases optIntVal levelCol i <;> rfl
        · rfl
        · rfl
      · have hne : ¬(Outcome.ok payload : Outcome RpcError (Option Bytes)) = .ok (some []) := by
          simpa using hempty
        rw [Ratio.row_of_ne be hblob hempty, if_neg hne, Outcome.void_map]

/-- A compressing row, from its cells: NULL for NULL, before any other cell
is read, and else the compressed bytes. -/
theorem Compress.row_eq_ok {input codec : ArrayRef} {levelCol : Option ArrayRef} {i : Nat}
    {v : Option Bytes} :
    Compress.row be (input, codec, levelCol) i = .ok v ↔
      (blobBytes input i = .ok none ∧ v = none)
      ∨ ∃ x name level s, blobBytes input i = .ok (some x) ∧ requireCodec codec i = .ok name
        ∧ optIntVal levelCol i = .ok level ∧ compress be name x (levelI32 level) = .ok s
        ∧ v = some s := by
  rw [Compress.row]
  refine Iff.trans (blobRow_eq_ok (by rfl)) (or_congr_right ?_)
  simp only [Outcome.bind_eq_ok, Outcome.mapErr_eq_ok]
  constructor
  · rintro ⟨x, hblob, name, hcodec, level, hlevel, s, hs, h⟩
    exact ⟨x, name, level, s, hblob, hcodec, hlevel, hs, (Outcome.ok.inj h).symm⟩
  · rintro ⟨x, name, level, s, hblob, hcodec, hlevel, hs, rfl⟩
    exact ⟨x, hblob, name, hcodec, level, hlevel, s, hs, rfl⟩

/-- Where the row compresses, its empty payload's cells can be read. -/
theorem Ratio.verdict_eq (args : ArrayRef × ArrayRef × Option ArrayRef) (i : Nat)
    (h : blobBytes args.1 i = .ok (some []) → (Compress.row be args i).isOk = true) :
    Ratio.verdict be args i = (Compress.row be args i).void := by
  obtain ⟨input, codec, levelCol⟩ := args
  rw [Ratio.verdict]
  split
  · next hempty =>
      have hok := h hempty
      cases hrow : Compress.row be (input, codec, levelCol) i with
      | ok v =>
          rcases (Compress.row_eq_ok be).mp hrow with
            ⟨hblob, -⟩ | ⟨x, name, level, s, -, hcodec, hlevel, -⟩
          · rw [hempty] at hblob
            cases hblob
          · rw [hcodec, hlevel]
            rfl
      | err e => rw [hrow] at hok; cases hok
      | panic => rw [hrow] at hok; cases hok
  · rfl

end Rows

/-! ## One story -/

/-- The batch answers every row with the value its payload calls for: NULL
for NULL, and else one for the payload and what its compression returns. -/
def Answers (be : Backends) (withLevel : Bool) (b : RecordBatch) (bound : DataType)
    (value : Bytes → Outcome CodecError Bytes → Option bound.Val → Prop) (out : RecordBatch) :
    Prop :=
  out.numRows = b.numRows ∧ ∃ input codec levelCol,
    blobCodecArgs withLevel b = .ok (input, codec, levelCol) ∧ ∀ i < b.numRows,
      (blobBytes input i = .ok none ∧ cellAt out i = some ⟨bound, none⟩)
      ∨ ∃ x name level v, blobBytes input i = .ok (some x) ∧ requireCodec codec i = .ok name
        ∧ optIntVal levelCol i = .ok level ∧ value x (compress be name x (levelI32 level)) v
        ∧ cellAt out i = some ⟨bound, v⟩

section Story

variable (be : Backends) (host : Host) (withLevel : Bool)

theorem answers_compress {params : ProcessParams .binary} {b out : RecordBatch}
    (h : Compress.process be host ⟨withLevel⟩ params b = .ok out) :
    Answers be withLevel b .binary (fun _ res v => ∃ s, res = .ok s ∧ v = some s) out := by
  obtain ⟨hnum, ⟨input, codec, levelCol⟩, hargs, hrows⟩ :=
    cellAt_processRows binaryArray_builds h
  refine ⟨hnum, input, codec, levelCol, hargs, ?_⟩
  intro i hi
  obtain ⟨v, hrow, -, hcell⟩ := hrows i hi
  rcases (Compress.row_eq_ok be).mp hrow with
    ⟨hblob, rfl⟩ | ⟨x, name, level, s, hblob, hcodec, hlevel, hs, rfl⟩
  · exact .inl ⟨hblob, hcell⟩
  · exact .inr ⟨x, name, level, _, hblob, hcodec, hlevel, ⟨s, hs, rfl⟩, hcell⟩

/-- The sizes are those of the streams that `compress` has room for. -/
theorem answers_compressedSize {pc : ProcessParams .binary} {ps : ProcessParams .uint64}
    {b streams sizes : RecordBatch}
    (hstreams : Compress.process be host ⟨withLevel⟩ pc b = .ok streams)
    (h : CompressedSize.process be host ⟨withLevel⟩ ps b = .ok sizes) :
    Answers be withLevel b .uint64
      (fun _ res v => ∃ s n, res = .ok s ∧ n.toNat = s.length ∧ v = some n) sizes := by
  obtain ⟨hnum, ⟨input, codec, levelCol⟩, hargs, hrows⟩ :=
    cellAt_processRows u64OptArray_builds h
  obtain ⟨-, args, hargs', hstreamRows⟩ := cellAt_processRows binaryArray_builds hstreams
  obtain rfl : args = (input, codec, levelCol) := Outcome.ok.inj (hargs'.symm.trans hargs)
  refine ⟨hnum, input, codec, levelCol, hargs, ?_⟩
  intro i hi
  obtain ⟨n, hsize, -, hcell⟩ := hrows i hi
  obtain ⟨v, hrow, hfit, -⟩ := hstreamRows i hi
  rw [CompressedSize.row_eq, hrow] at hsize
  obtain rfl := Outcome.ok.inj hsize
  rcases (Compress.row_eq_ok be).mp hrow with
    ⟨hblob, rfl⟩ | ⟨x, name, level, s, hblob, hcodec, hlevel, hs, rfl⟩
  · exact .inl ⟨hblob, hcell⟩
  · have hlen : (UInt64.ofNat s.length).toNat = s.length := by
      have hle : s.length ≤ i32Max := hfit
      rw [i32Max] at hle
      rw [UInt64.toNat_ofNat']
      omega
    exact .inr ⟨x, name, level, _, hblob, hcodec, hlevel, ⟨s, _, hs, hlen, rfl⟩, hcell⟩

theorem answers_ratio {params : ProcessParams .float64} {b out : RecordBatch}
    (h : Ratio.process be host ⟨withLevel⟩ params b = .ok out) :
    Answers be withLevel b .float64
      (fun x res v => (x = [] ∧ v = none) ∨ x ≠ [] ∧ ∃ s, res = .ok s
        ∧ v = some (UInt64.toFloat (.ofNat s.length) / UInt64.toFloat (.ofNat x.length)))
      out := by
  obtain ⟨hnum, ⟨input, codec, levelCol⟩, hargs, hrows⟩ :=
    cellAt_processRows (fixedWidth_builds .float64) h
  refine ⟨hnum, input, codec, levelCol, hargs, ?_⟩
  intro i hi
  obtain ⟨r, hrow, -, hcell⟩ := hrows i hi
  obtain ⟨payload, hblob, -⟩ := Outcome.bind_eq_ok.mp hrow
  by_cases hempty : payload = some []
  · subst hempty
    rw [Ratio.row_empty be hblob] at hrow
    obtain ⟨name, hcodec, hrow⟩ := Outcome.bind_eq_ok.mp hrow
    obtain ⟨level, hlevel, hrow⟩ := Outcome.bind_eq_ok.mp hrow
    obtain rfl := Outcome.ok.inj hrow
    exact .inr ⟨[], name, level, _, hblob, hcodec, hlevel, .inl ⟨rfl, rfl⟩, hcell⟩
  · rw [Ratio.row_of_ne be hblob hempty] at hrow
    obtain ⟨v, hv, hvr⟩ := Outcome.map_eq_ok.mp hrow
    rcases (Compress.row_eq_ok be).mp hv with
      ⟨hnull, rfl⟩ | ⟨x, name, level, s, hx, hcodec, hlevel, hs, rfl⟩
    · obtain rfl := hvr
      exact .inl ⟨hnull, hcell⟩
    · obtain rfl : payload = some x := Outcome.ok.inj (hblob.symm.trans hx)
      obtain rfl := hvr
      have hne : x ≠ [] := fun h => hempty (congrArg some h)
      exact .inr ⟨x, name, level, _, hx, hcodec, hlevel, .inr ⟨hne, s, hs, rfl⟩, hcell⟩

/-- **The three functions tell one story** of a batch whose compressed bytes
fit a column. `compress` and `compressed_size` fail alike. The ratio fails
alike too, except that an empty payload fails there only by a codec or
level cell that cannot be read. Where they succeed, all have a row for
each row: NULL for NULL, the stream, its length, and the length over that
of the payload, which is NULL for an empty one. -/
theorem compression_story (pc : ProcessParams .binary) (ps : ProcessParams .uint64)
    (pr : ProcessParams .float64) (b : RecordBatch)
    (hfit : ∀ args, blobCodecArgs withLevel b = .ok args →
      FitsColumn (Compress.row be) cellBytes i32Max args b.numRows) :
    (CompressedSize.process be host ⟨withLevel⟩ ps b).void
        = (Compress.process be host ⟨withLevel⟩ pc b).void
    ∧ (Ratio.process be host ⟨withLevel⟩ pr b).void
        = (blobCodecArgs withLevel b >>= fun args =>
            (Outcome.sequence ((List.range b.numRows).map (Ratio.verdict be args))).void)
    ∧ ((∀ args, blobCodecArgs withLevel b = .ok args → ∀ i < b.numRows,
          blobBytes args.1 i = .ok (some []) → (Compress.row be args i).isOk = true) →
        (Ratio.process be host ⟨withLevel⟩ pr b).void
          = (Compress.process be host ⟨withLevel⟩ pc b).void)
    ∧ (∀ streams, Compress.process be host ⟨withLevel⟩ pc b = .ok streams →
        Answers be withLevel b .binary (fun _ res v => ∃ s, res = .ok s ∧ v = some s) streams)
    ∧ (∀ sizes, CompressedSize.process be host ⟨withLevel⟩ ps b = .ok sizes →
        Answers be withLevel b .uint64
          (fun _ res v => ∃ s n, res = .ok s ∧ n.toNat = s.length ∧ v = some n) sizes)
    ∧ ∀ ratios, Ratio.process be host ⟨withLevel⟩ pr b = .ok ratios →
        Answers be withLevel b .float64
          (fun x res v => (x = [] ∧ v = none) ∨ x ≠ [] ∧ ∃ s, res = .ok s
            ∧ v = some (UInt64.toFloat (.ofNat s.length) / UInt64.toFloat (.ofNat x.length)))
          ratios := by
  have hcompress : (Compress.process be host ⟨withLevel⟩ pc b).void = _ :=
    void_processRows binaryArray_builds hfit
  have hsize : (CompressedSize.process be host ⟨withLevel⟩ ps b).void = _ :=
    void_processRows u64OptArray_builds fun args _ => fitsColumn_fixedWidth _ args b.numRows
  have hratio : (Ratio.process be host ⟨withLevel⟩ pr b).void = _ :=
    void_processRows (fixedWidth_builds .float64) fun args _ =>
      fitsColumn_fixedWidth _ args b.numRows
  simp only [CompressedSize.row_eq, Outcome.void_map] at hsize
  simp only [Ratio.void_row] at hratio
  have halike : (CompressedSize.process be host ⟨withLevel⟩ ps b).void
      = (Compress.process be host ⟨withLevel⟩ pc b).void := hsize.trans hcompress.symm
  refine ⟨halike, hratio, ?_, ?_, ?_, ?_⟩
  · intro hempties
    rw [hratio, hcompress]
    cases hargs : blobCodecArgs withLevel b with
    | err e => rfl
    | panic => rfl
    | ok args =>
        have hrows : (List.range b.numRows).map (Ratio.verdict be args)
            = (List.range b.numRows).map fun i => (Compress.row be args i).void :=
          List.map_congr_left fun i hi =>
            Ratio.verdict_eq be args i (hempties args hargs i (List.mem_range.mp hi))
        rw [Outcome.ok_bind, Outcome.ok_bind, hrows]
  · intro streams h
    exact answers_compress be host withLevel h
  · intro sizes h
    rw [h] at halike
    obtain ⟨streams, hstreams, -⟩ := Outcome.map_eq_ok.mp halike.symm
    exact answers_compressedSize be host withLevel hstreams h
  · intro ratios h
    exact answers_ratio be host withLevel h

end Story

namespace Sample

/-- A NULL, `""` and `"abcabc"`, to be compressed as gzip. -/
def storyRows : RecordBatch where
  columns := [⟨.utf8, [none, some "", some "abcabc"]⟩,
    ⟨.utf8, [some "gzip", some "gzip", some "gzip"]⟩]
  numRows := 3
  lengths := by simp [ArrayRef.len]

theorem fitsColumn_storyRows : ∀ args, blobCodecArgs false storyRows = .ok args →
    FitsColumn (Compress.row build) cellBytes i32Max args storyRows.numRows := by
  intro args hargs vs hvs
  obtain rfl := Outcome.ok.inj hargs
  have hrows : (List.range 3).map
      (Compress.row build (⟨.utf8, [none, some "", some "abcabc"]⟩,
        ⟨.utf8, [some "gzip", some "gzip", some "gzip"]⟩, none))
      = (none :: (gzipTable.drop 1).map fun p => some p.2).map .ok := by
    decide +kernel
  have hmap := hrows.symm.trans hvs
  obtain rfl := (List.map_inj_right fun _ _ h => Outcome.ok.inj h).mp hmap
  decide

end Sample

/-- `compression_story` on a NULL, an empty and another payload. -/
theorem compression_story_sample :
    (CompressedSize.process Sample.build Sample.host ⟨false⟩ (Sample.params .uint64)
        Sample.storyRows).void
      = (Compress.process Sample.build Sample.host ⟨false⟩ (Sample.params .binary)
        Sample.storyRows).void
    ∧ (Ratio.process Sample.build Sample.host ⟨false⟩ (Sample.params .float64)
        Sample.storyRows).void
      = (Compress.process Sample.build Sample.host ⟨false⟩ (Sample.params .binary)
        Sample.storyRows).void
    ∧ (∃ streams, Compress.process Sample.build Sample.host ⟨false⟩ (Sample.params .binary)
        Sample.storyRows = .ok streams
      ∧ Answers Sample.build false Sample.storyRows .binary
          (fun _ res v => ∃ s, res = .ok s ∧ v = some s) streams)
    ∧ (∃ sizes, CompressedSize.process Sample.build Sample.host ⟨false⟩ (Sample.params .uint64)
        Sample.storyRows = .ok sizes
      ∧ Answers Sample.build false Sample.storyRows .uint64
          (fun _ res v => ∃ s n, res = .ok s ∧ n.toNat = s.length ∧ v = some n) sizes)
    ∧ ∃ ratios, Ratio.process Sample.build Sample.host ⟨false⟩ (Sample.params .float64)
        Sample.storyRows = .ok ratios
      ∧ Answers Sample.build false Sample.storyRows .float64
          (fun x res v => (x = [] ∧ v = none) ∨ x ≠ [] ∧ ∃ s, res = .ok s
            ∧ v = some (UInt64.toFloat (.ofNat s.length) / UInt64.toFloat (.ofNat x.length)))
          ratios := by
  obtain ⟨hsizes, -, hempty, hstreams, hlengths, hratios⟩ :=
    compression_story Sample.build Sample.host false (Sample.params .binary)
      (Sample.params .uint64) (Sample.params .float64) Sample.storyRows
      Sample.fitsColumn_storyRows
  refine ⟨hsizes, hempty ?_, ⟨_, rfl, hstreams _ rfl⟩, ⟨_, rfl, hlengths _ rfl⟩,
    ⟨_, rfl, hratios _ rfl⟩⟩
  intro args hargs i hi _
  obtain rfl := Outcome.ok.inj hargs
  revert i
  decide +kernel

/-- An empty payload and a codec that does not exist. -/
def Sample.emptyUnknown : RecordBatch where
  columns := [⟨.binary, [some []]⟩, ⟨.utf8, [some "nope"]⟩]
  numRows := 1
  lengths := by simp [ArrayRef.len]

/-- `compress` refuses the codec, and the ratio is NULL. -/
theorem empty_payload_needs_no_codec :
    (Compress.process Sample.build Sample.host ⟨false⟩ (Sample.params .binary)
        Sample.emptyUnknown).void = .err (.valueError "unknown codec 'nope'")
      ∧ (Ratio.process Sample.build Sample.host ⟨false⟩ (Sample.params .float64)
        Sample.emptyUnknown).void = .ok () :=
  ⟨rfl, rfl⟩

end VgiCompress
