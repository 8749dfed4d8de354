import VgiCompress.Samples
import VgiCompress.Worker

/-!
# What a row gets from its batch

A row's own result (`rowOf`) depends on that row's cells only
(`RowLocal`), so cutting the rows into other batches moves the results
along unchanged. What a batch adds is the fate its rows share: the early
return of the loop, and the output column, whose offsets the bytes of all
rows of the batch have to fit.

`cutsAgree_iff` reduces a call over any cut to `Outcome.cuts_agree_iff`.
-/

namespace VgiCompress

open RustStd

/-! ## A row is a function of its cells -/

/-- The two rows hold the same cells. -/
def SameRow (b : RecordBatch) (i : Nat) (b' : RecordBatch) (j : Nat) : Prop :=
  b.columns.map (·.cell? i) = b'.columns.map (·.cell? j)

theorem sameRow_take (b : RecordBatch) {n i : Nat} (h : i < n) :
    SameRow (b.take n) i b i := by
  rw [SameRow, RecordBatch.take, List.map_map]
  exact List.map_congr_left fun col _ => col.cell?_take h

theorem sameRow_drop (b : RecordBatch) (n i : Nat) :
    SameRow (b.drop n) i b (n + i) := by
  rw [SameRow, RecordBatch.drop, List.map_map]
  exact List.map_congr_left fun col _ => col.cell?_drop n i

theorem blobBytes_congr {c c' : ArrayRef} {i j : Nat} (h : c.cell? i = c'.cell? j) :
    blobBytes c i = blobBytes c' j := by
  unfold blobBytes
  rw [h]

theorem textStr_congr {c c' : ArrayRef} {i j : Nat} (h : c.cell? i = c'.cell? j) :
    textStr c i = textStr c' j := by
  unfold textStr
  rw [h]

theorem intVal_congr {c c' : ArrayRef} {i j : Nat} (h : c.cell? i = c'.cell? j) :
    intVal c i = intVal c' j := by
  unfold intVal
  rw [h]

theorem requireCodec_congr {c c' : ArrayRef} {i j : Nat} (h : c.cell? i = c'.cell? j) :
    requireCodec c i = requireCodec c' j := by
  rw [requireCodec, requireCodec, textStr_congr h]

theorem optIntVal_congr {c c' : Option ArrayRef} {i j : Nat}
    (h : c.map (·.cell? i) = c'.map (·.cell? j)) : optIntVal c i = optIntVal c' j := by
  cases c with
  | none =>
      cases c' with
      | none => rfl
      | some c' => cases h
  | some c =>
      cases c' with
      | none => cases h
      | some c' => exact intVal_congr (Option.some.inj h)

/-- The same column of two batches, carried into what is read from it. -/
theorem column_bind_congr {β : Type} {b b' : RecordBatch} {i j : Nat} (h : SameRow b i b' j)
    {f g : ArrayRef → Outcome RpcError β}
    (hfg : ∀ c c' : ArrayRef, c.cell? i = c'.cell? j → f c = g c') (k : Nat) :
    (b.column k >>= f) = (b'.column k >>= g) := by
  have hk := congrArg (·[k]?) h
  simp only [List.getElem?_map] at hk
  rw [RecordBatch.column, RecordBatch.column]
  cases hc : b.columns[k]? with
  | none =>
      cases hc' : b'.columns[k]? with
      | none => rfl
      | some c' => rw [hc, hc'] at hk; cases hk
  | some c =>
      cases hc' : b'.columns[k]? with
      | none => rw [hc, hc'] at hk; cases hk
      | some c' =>
          rw [hc, hc'] at hk
          exact hfg c c' (Option.some.inj hk)

theorem columnIf_bind_congr {β : Type} {b b' : RecordBatch} {i j : Nat}
    (h : SameRow b i b' j) {f g : Option ArrayRef → Outcome RpcError β}
    (hfg : ∀ c c' : Option ArrayRef, c.map (·.cell? i) = c'.map (·.cell? j) → f c = g c')
    (withExtra : Bool) (k : Nat) :
    (columnIf withExtra b k >>= f) = (columnIf withExtra b' k >>= g) := by
  cases withExtra with
  | false => exact hfg none none rfl
  | true =>
      have hsome := column_bind_congr h
        (fun c c' hc => hfg (some c) (some c') (congrArg some hc)) k
      rw [columnIf, columnIf, if_pos rfl, if_pos rfl]
      cases hb : b.column k <;> cases hb' : b'.column k <;> rw [hb, hb'] at hsome <;>
        exact hsome

/-- What a call does to a row depends on that row's cells only. -/
def RowLocal {ω : Type} (f : RecordBatch → Nat → Outcome RpcError ω) : Prop :=
  ∀ b b' i j, SameRow b i b' j → f b i = f b' j

section Local

variable {ω : Type} (withExtra : Bool)

theorem rowLocal_blobCodecArgs
    {row : ArrayRef × ArrayRef × Option ArrayRef → Nat → Outcome RpcError ω}
    (h : ∀ (c d c' d' : ArrayRef) (x x' : Option ArrayRef) (i j : Nat),
      c.cell? i = c'.cell? j → d.cell? i = d'.cell? j →
      x.map (·.cell? i) = x'.map (·.cell? j) → row (c, d, x) i = row (c', d', x') j) :
    RowLocal (rowOf (blobCodecArgs withExtra) row) := by
  intro b b' i j hrow
  have hassoc (b : RecordBatch) (i : Nat) :
      rowOf (blobCodecArgs withExtra) row b i =
        (b.column 0 >>= fun c => b.column 1 >>= fun d =>
          columnIf withExtra b 2 >>= fun x => row (c, d, x) i) := by
    rw [rowOf, blobCodecArgs]
    cases b.column 0 <;> cases b.column 1 <;> cases columnIf withExtra b 2 <;> rfl
  rw [hassoc, hassoc]
  refine column_bind_congr hrow (fun c c' hc => ?_) 0
  refine column_bind_congr hrow (fun d d' hd => ?_) 1
  exact columnIf_bind_congr hrow (fun x x' hx => h c d c' d' x x' i j hc hd hx) withExtra 2

theorem rowLocal_blobArgs
    {row : ArrayRef × Option ArrayRef → Nat → Outcome RpcError ω}
    (h : ∀ (c c' : ArrayRef) (x x' : Option ArrayRef) (i j : Nat),
      c.cell? i = c'.cell? j → x.map (·.cell? i) = x'.map (·.cell? j) →
      row (c, x) i = row (c', x') j) :
    RowLocal (rowOf (blobArgs withExtra) row) := by
  intro b b' i j hrow
  have hassoc (b : RecordBatch) (i : Nat) :
      rowOf (blobArgs withExtra) row b i =
        (b.column 0 >>= fun c => columnIf withExtra b 1 >>= fun x => row (c, x) i) := by
    rw [rowOf, blobArgs]
    cases b.column 0 <;> cases columnIf withExtra b 1 <;> rfl
  rw [hassoc, hassoc]
  refine column_bind_congr hrow (fun c c' hc => ?_) 0
  exact columnIf_bind_congr hrow (fun x x' hx => h c c' x x' i j hc hx) withExtra 1

end Local

section Functions

variable (be : Backends) (host : Host)

theorem Decompress.rowLocal (withCap : Bool) (params : ProcessParams .binary) :
    RowLocal (rowOf (blobCodecArgs withCap) (Decompress.row be host params)) := by
  apply rowLocal_blobCodecArgs
  intro c d c' d' x x' i j hc hd hx
  simp only [Decompress.row, blobBytes_congr hc, requireCodec_congr hd, optIntVal_congr hx]

theorem DecompressAuto.rowLocal (withCap : Bool) (params : ProcessParams .binary) :
    RowLocal (rowOf (blobArgs withCap) (DecompressAuto.row be host params)) := by
  apply rowLocal_blobArgs
  intro c c' x x' i j hc hx
  simp only [DecompressAuto.row, blobBytes_congr hc, optIntVal_congr hx]

theorem DecompressedSize.rowLocal (withCap : Bool) (params : ProcessParams .uint64) :
    RowLocal (rowOf (blobCodecArgs withCap) (DecompressedSize.row be host params)) := by
  apply rowLocal_blobCodecArgs
  intro c d c' d' x x' i j hc hd hx
  simp only [DecompressedSize.row, blobBytes_congr hc, requireCodec_congr hd,
    optIntVal_congr hx]

end Functions

/-! ## The rows of a cut -/

section Rows

variable {ω : Type} (f : RecordBatch → Nat → Outcome RpcError ω)

/-- Every row of a batch, on its own. -/
def rows (b : RecordBatch) : List (Outcome RpcError ω) := (List.range b.numRows).map (f b)

variable {f}

theorem rows_take (hf : RowLocal f) (b : RecordBatch) (n : Nat) :
    rows f (b.take n) = (rows f b).take n := by
  rw [rows, rows, ← List.map_take, List.take_range]
  refine List.map_congr_left fun i hi => hf _ _ _ _ (sameRow_take b ?_)
  have hi : i < min n b.numRows := List.mem_range.mp hi
  omega

theorem rows_drop (hf : RowLocal f) (b : RecordBatch) (n : Nat) :
    rows f (b.drop n) = (rows f b).drop n := by
  apply List.ext_getElem
  · simp [rows, RecordBatch.drop]
  · intro i h₁ h₂
    simp only [rows, List.getElem_map, List.getElem_range, List.getElem_drop]
    exact hf _ _ _ _ (sameRow_drop b n i)

end Rows

/-! ## Calls over a cut -/

/-- What each of the `n` rows of a batch gets from a call. -/
def outcomes (n : Nat) : Outcome RpcError RecordBatch → List (Outcome RpcError (Option Cell))
  | .ok out => (List.range n).map fun i => .ok (out.columns[0]?.bind (·.cell? i))
  | .err e => List.replicate n (.err e)
  | .panic => List.replicate n .panic

/-- What the rows get from one call for each batch. -/
def outcomesOf (process : RecordBatch → Outcome RpcError RecordBatch)
    (batches : List RecordBatch) : List (Outcome RpcError (Option Cell)) :=
  (batches.map fun b => outcomes b.numRows (process b)).flatten

/-- No row can tell how the rows are cut into batches. -/
def CutsAgree (process : RecordBatch → Outcome RpcError RecordBatch) (batch : RecordBatch) :
    Prop :=
  ∀ ns₁ ns₂ : List Nat, ns₁.sum = batch.numRows → ns₂.sum = batch.numRows →
    outcomesOf process (batch.cut ns₁) = outcomesOf process (batch.cut ns₂)

section Process

variable {κ : Type} {bound : DataType} {host : Host} {params : ProcessParams bound}
  {arguments : RecordBatch → Outcome RpcError κ}
  {row : κ → Nat → Outcome RpcError (Option bound.Val)}
  {column : List (Option bound.Val) → Outcome RpcError ArrayRef}
  {weight : Option bound.Val → Nat} {limit : Nat}

/-- The column builder panics past a limit on the cells' total weight. -/
def BuildsUnder (column : List (Option bound.Val) → Outcome RpcError ArrayRef)
    (weight : Option bound.Val → Nat) (limit : Nat) : Prop :=
  ∀ out, column out = if (out.map weight).sum ≤ limit then .ok ⟨bound, out⟩ else .panic

/-- A value as it stands in the output column. -/
def asCell (bound : DataType) (v : Option bound.Val) : Option Cell := some ⟨bound, v⟩

theorem asCell_injective (bound : DataType) : Function.Injective (asCell bound) := by
  intro v w h
  exact eq_of_heq (Sigma.mk.inj (Option.some.inj h)).2

/-- A call on a batch delivers what its loop and its column leave. -/
theorem outcomes_processRows (hcol : BuildsUnder column weight limit) (b : RecordBatch) :
    outcomes b.numRows (processRows host params arguments row column b) =
      (Outcome.deliver weight limit (rows (rowOf arguments row) b)).map
        (Outcome.map (asCell bound)) := by
  have hlen : (rows (rowOf arguments row) b).length = b.numRows := by simp [rows]
  by_cases hzero : b.numRows = 0
  · have hnil : rows (rowOf arguments row) b = [] := List.eq_nil_of_length_eq_zero (by omega)
    rw [hnil, hzero]
    cases processRows host params arguments row column b <;> rfl
  · rw [processRows_eq host params arguments row column b (.inl (Nat.pos_of_ne_zero hzero)),
      Outcome.deliver, hlen, Outcome.collect]
    change outcomes _ (Outcome.sequence (rows (rowOf arguments row) b) >>= _) = _
    cases hseq : Outcome.sequence (rows (rowOf arguments row) b) with
    | err e => simp [outcomes, Outcome.share, Outcome.map]
    | panic => simp [outcomes, Outcome.share, Outcome.map]
    | ok vs =>
        have hvs : vs.length = b.numRows := by
          rw [← hlen, Outcome.sequence_eq_ok hseq, List.length_map]
        rw [Outcome.ok_bind, Outcome.ok_bind, hcol vs]
        by_cases hfit : (vs.map weight).sum ≤ limit
        · obtain ⟨out, hout, hcols, -⟩ := tryNew_bound host params vs
          rw [if_pos hfit, if_pos hfit, Outcome.ok_bind, hout]
          apply List.ext_getElem
          · simp [outcomes, Outcome.share, hvs]
          · intro i h₁ h₂
            have hi : i < vs.length := by
              simpa [outcomes, hvs] using h₁
            simp [outcomes, Outcome.share, Outcome.map, asCell, hcols, ArrayRef.cell?, hi]
        · rw [if_neg hfit, if_neg hfit]
          simp [outcomes, Outcome.share, Outcome.map]

theorem outcomesOf_cut (hcol : BuildsUnder column weight limit)
    (hlocal : RowLocal (rowOf arguments row)) (ns : List Nat) (b : RecordBatch) :
    outcomesOf (processRows host params arguments row column) (b.cut ns) =
      (Outcome.deliverCut weight limit ns (rows (rowOf arguments row) b)).map
        (Outcome.map (asCell bound)) := by
  induction ns generalizing b with
  | nil => rfl
  | cons n ns ih =>
      have hrest := ih (b.drop n)
      unfold outcomesOf at hrest ⊢
      rw [RecordBatch.cut, List.map_cons, List.flatten_cons, hrest,
        outcomes_processRows hcol, Outcome.deliverCut_cons, List.map_append,
        rows_take hlocal, rows_drop hlocal]

/-- The rows of a call cannot tell the cut exactly when they are uniform. -/
theorem cutsAgree_iff (hcol : BuildsUnder column weight limit)
    (hlocal : RowLocal (rowOf arguments row)) (b : RecordBatch) :
    CutsAgree (processRows host params arguments row column) b
      ↔ Outcome.Uniform weight limit (rows (rowOf arguments row) b) := by
  have hlen : (rows (rowOf arguments row) b).length = b.numRows := by simp [rows]
  rw [← Outcome.cuts_agree_iff, hlen, CutsAgree]
  refine forall_congr' fun ns₁ => forall_congr' fun ns₂ => ?_
  rw [outcomesOf_cut hcol hlocal, outcomesOf_cut hcol hlocal]
  rw [List.map_inj_right fun _ _ h => Outcome.map_injective (asCell_injective bound) h]

/-- A batch of rows that all succeed is lost exactly when their cells
together outgrow the column. -/
theorem processRows_ne_panic_iff (hcol : BuildsUnder column weight limit) {b : RecordBatch}
    {outs : List (Option bound.Val)} (hargs : (arguments b).isOk = true)
    (hrows : rows (rowOf arguments row) b = outs.map .ok) :
    processRows host params arguments row column b ≠ .panic
      ↔ (outs.map weight).sum ≤ limit := by
  have hex : ∃ args, arguments b = .ok args := by
    cases ha : arguments b with
    | ok args => exact ⟨args, rfl⟩
    | err e => rw [ha] at hargs; cases hargs
    | panic => rw [ha] at hargs; cases hargs
  rw [processRows_eq host params arguments row column b (.inr hex)]
  change (Outcome.sequence (rows (rowOf arguments row) b) >>= _) ≠ _ ↔ _
  rw [hrows, Outcome.sequence_map_ok, Outcome.ok_bind, hcol outs]
  by_cases hfit : (outs.map weight).sum ≤ limit
  · obtain ⟨out, hout, -, -⟩ := tryNew_bound host params outs
    rw [if_pos hfit, Outcome.ok_bind, hout]
    exact iff_of_true nofun hfit
  · rw [if_neg hfit]
    exact iff_of_false (fun h => h rfl) hfit

end Process

/-! ## A failing row and its batch -/

theorem binaryArray_builds : @BuildsUnder .binary binaryArray cellBytes i32Max :=
  binaryArray_eq

/-- A column of fixed-width values is always built. -/
theorem fixedWidth_builds (bound : DataType) :
    @BuildsUnder bound (fun out => .ok ⟨bound, out⟩) (fun _ => 0) 0 := by
  intro out
  have hsum : (out.map fun _ => 0).sum = 0 := by
    rw [List.map_const', List.sum_replicate_nat, Nat.mul_zero]
  rw [if_pos (Nat.le_of_eq hsum)]

theorem u64OptArray_builds :
    @BuildsUnder .uint64 (fun out => .ok (u64OptArray out)) (fun _ => 0) 0 :=
  fixedWidth_builds .uint64

section Functions

variable (be : Backends) (host : Host)

/-- **A failing row does not fail alone.** The early return of the row
loops hands its error to every row of its batch, so the rows of a
sequence are independent of the cut only when they are uniform. -/
theorem cuts_agree_iff_uniform :
    (∀ (self : Decompress) params batch,
      CutsAgree (self.process be host params) batch
        ↔ Outcome.Uniform cellBytes i32Max
            (rows (rowOf (blobCodecArgs self.withCap) (Decompress.row be host params)) batch))
    ∧ (∀ (self : DecompressAuto) params batch,
      CutsAgree (self.process be host params) batch
        ↔ Outcome.Uniform cellBytes i32Max
            (rows (rowOf (blobArgs self.withCap) (DecompressAuto.row be host params)) batch))
    ∧ ∀ (self : DecompressedSize) params batch,
      CutsAgree (self.process be host params) batch
        ↔ Outcome.Uniform (fun _ => 0) 0
            (rows (rowOf (blobCodecArgs self.withCap)
              (DecompressedSize.row be host params)) batch) := by
  refine ⟨fun self params batch => ?_, fun self params batch => ?_,
    fun self params batch => ?_⟩
  · exact cutsAgree_iff binaryArray_builds
      (Decompress.rowLocal be host self.withCap params) batch
  · exact cutsAgree_iff binaryArray_builds
      (DecompressAuto.rowLocal be host self.withCap params) batch
  · exact cutsAgree_iff u64OptArray_builds
      (DecompressedSize.rowLocal be host self.withCap params) batch

end Functions

namespace Sample

def host : Host := ⟨fun _ => none, fun _ _ => "refused"⟩

def params (bound : DataType) : ProcessParams bound := ⟨fun _ => none, _, rfl⟩

/-- Malformed bytes above the gzip stream of `"a"`. -/
def twoRows : RecordBatch where
  columns :=
    [⟨.binary, [some [0x00], some Sample.gzip]⟩, ⟨.utf8, [some "gzip", some "gzip"]⟩]
  numRows := 2
  lengths := by simp [ArrayRef.len]

end Sample

/-- The second row decodes in a batch of its own, and below the malformed
row it gets that row's error. -/
theorem good_row_fails_below_a_bad_one :
    outcomesOf (Decompress.process Sample.build Sample.host ⟨false⟩ (Sample.params .binary))
        (Sample.twoRows.cut [1, 1])
      = [.err (.valueError "corrupt or truncated input: invalid stream"),
          .ok (some ⟨.binary, some [0x61]⟩)]
    ∧ outcomesOf (Decompress.process Sample.build Sample.host ⟨false⟩ (Sample.params .binary))
        (Sample.twoRows.cut [2])
      = [.err (.valueError "corrupt or truncated input: invalid stream"),
          .err (.valueError "corrupt or truncated input: invalid stream")]
    ∧ ¬CutsAgree (Decompress.process Sample.build Sample.host ⟨false⟩ (Sample.params .binary))
        Sample.twoRows := by
  refine ⟨rfl, rfl, fun h => ?_⟩
  have h12 := h [1, 1] [2] rfl rfl
  have hsecond := congrArg (fun os => os.map Outcome.isOk) h12
  exact absurd hsecond (by decide +kernel)

/-! ## The bytes of a whole batch -/

section Functions

variable (be : Backends) (host : Host)

/-- **The rows' own caps do not bound their column.** When the columns of
the overload are there and every row succeeds, the call survives exactly
when the bytes of all rows of the batch together fit `i32` offsets. -/
theorem output_column_fits_iff :
    (∀ (self : Compress) params batch (outs : List (Option Bytes)),
      (blobCodecArgs self.withLevel batch).isOk = true →
      rows (rowOf (blobCodecArgs self.withLevel) (Compress.row be)) batch = outs.map .ok →
      (self.process be host params batch ≠ .panic ↔ (outs.map cellBytes).sum ≤ i32Max))
    ∧ (∀ (self : Decompress) params batch (outs : List (Option Bytes)),
      (blobCodecArgs self.withCap batch).isOk = true →
      rows (rowOf (blobCodecArgs self.withCap) (Decompress.row be host params)) batch
        = outs.map .ok →
      (self.process be host params batch ≠ .panic ↔ (outs.map cellBytes).sum ≤ i32Max))
    ∧ ∀ (self : DecompressAuto) params batch (outs : List (Option Bytes)),
      (blobArgs self.withCap batch).isOk = true →
      rows (rowOf (blobArgs self.withCap) (DecompressAuto.row be host params)) batch
        = outs.map .ok →
      (self.process be host params batch ≠ .panic ↔ (outs.map cellBytes).sum ≤ i32Max) := by
  refine ⟨?_, ?_, ?_⟩ <;> intro self params batch outs hargs hrows
  · exact processRows_ne_panic_iff binaryArray_builds hargs hrows
  · exact processRows_ne_panic_iff binaryArray_builds hargs hrows
  · exact processRows_ne_panic_iff binaryArray_builds hargs hrows

end Functions

namespace Sample

/-- The gzip stream of `"a"` and a NULL, to be decoded as gzip. -/
def gzipRows : RecordBatch where
  columns := [⟨.binary, [some Sample.gzip, none]⟩, ⟨.utf8, [some "gzip", some "gzip"]⟩]
  numRows := 2
  lengths := by simp [ArrayRef.len]

def plainRow : RecordBatch where
  columns := [⟨.utf8, [some "a"]⟩, ⟨.utf8, [some "gzip"]⟩]
  numRows := 1
  lengths := by simp [ArrayRef.len]

end Sample

/-- `output_column_fits_iff` on the gzip stream of `"a"`. -/
theorem output_column_fits_sample :
    Compress.process Sample.build Sample.host ⟨false⟩ (Sample.params .binary) Sample.plainRow
        ≠ .panic
      ∧ Decompress.process Sample.build Sample.host ⟨false⟩ (Sample.params .binary)
          Sample.gzipRows ≠ .panic
      ∧ DecompressAuto.process Sample.build Sample.host ⟨false⟩ (Sample.params .binary)
          Sample.gzipRows ≠ .panic := by
  obtain ⟨hc, hd, ha⟩ := output_column_fits_iff Sample.build Sample.host
  refine ⟨?_, ?_, ?_⟩
  · exact (hc ⟨false⟩ (Sample.params .binary) Sample.plainRow [some Sample.gzip] rfl rfl).mpr
      (by decide +kernel)
  · exact (hd ⟨false⟩ (Sample.params .binary) Sample.gzipRows [some [0x61], none] rfl rfl).mpr
      (by decide +kernel)
  · exact (ha ⟨false⟩ (Sample.params .binary) Sample.gzipRows [some [0x61], none] rfl rfl).mpr
      (by decide +kernel)

namespace Sample

/-- A build whose zstd decoder knows one frame. -/
def zstdBuild (frame : Bytes) (chunks : List Bytes) : Backends :=
  { build with
    zstd :=
      { encodeAll := fun _ _ => .error "unknown payload"
        decoder := fun s =>
          .ok (if s = frame then .deliver chunks (.ok ())
            else [.error ⟨.other, "invalid stream"⟩]) } }

theorem decompress_zstdBuild {frame : Bytes} {chunks : List Bytes} {cap : UInt64}
    (hne : ∀ d ∈ chunks, d ≠ []) (hcap : chunks.flatten.length ≤ cap.toNat)
    (hmax : cap.toNat ≤ isizeMax) :
    decompress (zstdBuild frame chunks) "zstd" frame cap = .ok chunks.flatten := by
  obtain ⟨hchunks, hending⟩ := Reads.deliver_ok hne
  have hs : Streams (zstdBuild frame chunks) .zstd frame chunks (.ok ()) := by
    show Delivers (if frame = frame then _ else _) _ _
    rw [if_pos rfl]
    exact ⟨hchunks, by rw [hending]; rfl⟩
  have hparse : Codec.parse "zstd" = .ok .zstd := rfl
  rw [decompress_of_parse hparse, hs.decompress_eq,
    (settle_refines _ _ _).eq_under (.inr hmax), Decoding.under_of_le rfl hcap]

theorem blobBytes_replicate {n i : Nat} (blob : Bytes) (hi : i < n) :
    blobBytes ⟨.binary, List.replicate n (some blob)⟩ i = .ok (some blob) := by
  rw [blobBytes, ArrayRef.cell?]
  simp only [List.getElem?_replicate, if_pos hi]
  rfl

theorem requireCodec_replicate {n i : Nat} (codec : String) (hi : i < n) :
    requireCodec ⟨.utf8, List.replicate n (some codec)⟩ i = .ok codec := by
  rw [requireCodec, textStr, ArrayRef.cell?]
  simp only [List.getElem?_replicate, if_pos hi]
  rfl

/-- One blob to decode, `n` times. -/
def repeated (n : Nat) (blob : Bytes) (codec : String) : RecordBatch where
  columns := [⟨.binary, List.replicate n (some blob)⟩,
    ⟨.utf8, List.replicate n (some codec)⟩]
  numRows := n
  lengths := by simp [ArrayRef.len]

theorem rows_repeated {be : Backends} {n : Nat} {blob v : Bytes} {codec : String}
    (h : decompress be codec blob defaultMaxOutputBytes = .ok v) :
    rows (rowOf (blobCodecArgs false) (Decompress.row be host (params .binary)))
        (repeated n blob codec)
      = (List.replicate n (some v)).map .ok := by
  rw [List.map_replicate]
  refine List.eq_replicate_iff.mpr ⟨by simp [rows, repeated], fun o ho => ?_⟩
  obtain ⟨i, hi, rfl⟩ := List.mem_map.mp ho
  have hi : i < n := List.mem_range.mp hi
  have hblob := blobBytes_replicate blob hi
  have hcodec := requireCodec_replicate codec hi
  have hcap : resolveCap host.env none (params .binary) = defaultMaxOutputBytes := rfl
  show Decompress.row be host (params .binary)
    (⟨.binary, List.replicate n (some blob)⟩, ⟨.utf8, List.replicate n (some codec)⟩,
      none) i = _
  simp only [Decompress.row, hblob, hcodec, optIntVal, Outcome.ok_bind, hcap, h]
  rfl

/-- 256 MiB of zeros, in the 8 KiB buffers `io::copy` moves. -/
def zeroChunks : List Bytes := List.replicate (2 ^ 15) (List.replicate (2 ^ 13) 0)

/-- Those zeros as one zstd frame of 2048 RLE blocks, 8202 bytes long. -/
def zeroFrame : Bytes :=
  [0x28, 0xb5, 0x2f, 0xfd, 0x80, 0x38, 0x00, 0x00, 0x00, 0x10]
    ++ (List.replicate 2047 [0x02, 0x00, 0x10, 0x00]).flatten ++ [0x03, 0x00, 0x10, 0x00]

theorem length_zeroChunks : zeroChunks.flatten.length = 2 ^ 28 := by
  rw [zeroChunks, List.flatten_replicate_replicate, List.length_replicate, ← Nat.pow_add]

theorem zeroChunks_ne_nil : ∀ d ∈ zeroChunks, d ≠ [] := by
  intro d hd hnil
  rw [List.eq_of_mem_replicate hd] at hnil
  have hlen : 2 ^ 13 = 0 := by
    simpa only [List.length_replicate, List.length_nil] using congrArg List.length hnil
  omega

theorem decompress_zeroFrame :
    decompress (zstdBuild zeroFrame zeroChunks) "zstd" zeroFrame defaultMaxOutputBytes
      = .ok zeroChunks.flatten := by
  have hcap : zeroChunks.flatten.length ≤ defaultMaxOutputBytes.toNat := by
    rw [length_zeroChunks]; decide
  exact decompress_zstdBuild zeroChunks_ne_nil hcap (by decide)

end Sample

/-- `n` rows that decode to more than the offsets of one column span. -/
theorem repeated_panics {be : Backends} {n : Nat} {blob v : Bytes} {codec : String}
    (h : decompress be codec blob defaultMaxOutputBytes = .ok v)
    (hover : i32Max < n * v.length) :
    Decompress.process be Sample.host ⟨false⟩ (Sample.params .binary)
      (Sample.repeated n blob codec) = .panic := by
  have hsum : ¬((List.replicate n (some v)).map cellBytes).sum ≤ i32Max := by
    have hv : cellBytes (some v) = v.length := rfl
    rw [List.map_replicate, hv, List.sum_replicate_nat]
    omega
  exact not_not.mp (mt (processRows_ne_panic_iff binaryArray_builds rfl
    (Sample.rows_repeated h)).mp hsum)

/-- Eight frames of 8 KiB, each within the default cap, and the output
column of their batch panics. -/
theorem eight_small_frames_panic :
    decompress (Sample.zstdBuild Sample.zeroFrame Sample.zeroChunks) "zstd" Sample.zeroFrame
        defaultMaxOutputBytes = .ok Sample.zeroChunks.flatten
    ∧ Decompress.process (Sample.zstdBuild Sample.zeroFrame Sample.zeroChunks) Sample.host
        ⟨false⟩ (Sample.params .binary) (Sample.repeated 8 Sample.zeroFrame "zstd")
      = .panic := by
  refine ⟨Sample.decompress_zeroFrame, repeated_panics Sample.decompress_zeroFrame ?_⟩
  rw [Sample.length_zeroChunks, i32Max]
  decide

end VgiCompress
