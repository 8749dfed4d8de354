import VgiCompress.Engine

/-!
# Bounded decoding

A backend, left alone, makes a `Decoding` of an input: some output and
some ending. What the caller is meant to get under a cap is
`Decoding.under`: too large if the output is longer than the cap,
whatever the ending, and else the output or the decoder's error.

`drainReader` and `decodeIntoSink` are the two drivers. Both are
`settle`, a function of the chunks and the ending only
(`drainReader_eq`, `decodeIntoSink_scripted`), and `settle` refines
`under` up to the panic of a buffer past `isize::MAX`. For a decoder
that is no script, and may go on after a refused write, the bound still
holds (`decodeIntoSink_withinCap`).
-/

namespace VgiCompress

open RustStd

/-! ## Errors of a backend -/

theorem corruptErr_eq_ok {α : Type} {r : Except String α} {v : α} :
    corruptErr r = .ok v ↔ r = .ok v := by
  rw [corruptErr, Outcome.mapErr_eq_ok, Outcome.ofExcept_eq_ok]

/-! ## What a decode is meant to return -/

/-- What a backend makes of an input when nothing limits it. -/
structure Decoding where
  output : Bytes
  ending : Except String Unit

/-- A decoding under a cap: the bomb check comes before the ending. -/
def Decoding.under (d : Decoding) (cap : UInt64) : Outcome CodecError Bytes :=
  if cap.toNat < d.output.length then .err (.outputTooLarge cap)
  else corruptErr d.ending >>= fun _ => .ok d.output

/-- The result is the decoding's under the cap, or the panic of a buffer
that only a cap beyond `isize::MAX` allows to grow so far. -/
def Refines (res : Outcome CodecError Bytes) (d : Decoding) (cap : UInt64) : Prop :=
  (res = d.under cap ∧ (cap.toNat < d.output.length ∨ d.output.length ≤ isizeMax))
    ∨ (res = .panic ∧ isizeMax < d.output.length ∧ isizeMax < cap.toNat)

theorem Refines.eq_under {res : Outcome CodecError Bytes} {d : Decoding} {cap : UInt64}
    (h : Refines res d cap)
    (hsmall : d.output.length ≤ isizeMax ∨ cap.toNat ≤ isizeMax) :
    res = d.under cap := by
  rcases h with ⟨h, -⟩ | ⟨-, hd, hc⟩
  · exact h
  · omega

/-- A decoding that ends well comes through once the cap allows it. -/
theorem Decoding.under_of_le {d : Decoding} {cap : UInt64} (hok : d.ending = .ok ())
    (hle : d.output.length ≤ cap.toNat) : d.under cap = .ok d.output := by
  rw [under, if_neg (Nat.not_lt.mpr hle), hok]
  rfl

theorem Decoding.under_of_lt {d : Decoding} {cap : UInt64}
    (hlt : cap.toNat < d.output.length) : d.under cap = .err (.outputTooLarge cap) :=
  if_pos hlt

theorem Decoding.under_eq_ok {d : Decoding} {cap : UInt64} {v : Bytes} :
    d.under cap = .ok v ↔ v = d.output ∧ d.ending = .ok () ∧ d.output.length ≤ cap.toNat := by
  by_cases hlt : cap.toNat < d.output.length
  · rw [under_of_lt hlt]
    exact iff_of_false (fun h => by cases h) (fun h => by omega)
  · rw [under, if_neg hlt]
    cases hd : d.ending with
    | ok u =>
        simp only [corruptErr, Outcome.ofExcept_ok, Outcome.mapErr_ok, Outcome.ok_bind,
          Outcome.ok.injEq, true_and]
        exact ⟨fun h => ⟨h.symm, Nat.not_lt.mp hlt⟩, fun h => h.1.symm⟩
    | error e => simp [corruptErr]

/-! ## The two drivers -/

/-- What the sink holds, and what the writes returned, after a run of
slices into a fresh writer. -/
theorem fresh_writeEach_cases (ds : List Bytes) (cap : UInt64) :
    ((BoundedWriter.sink.writeEach ds (.new cap)).1 = .ok ()
        ∧ (BoundedWriter.sink.writeEach ds (.new cap)).2.buf = ds.flatten
        ∧ (BoundedWriter.sink.writeEach ds (.new cap)).2.overflowed = false
        ∧ ds.flatten.length ≤ cap.toNat ∧ ds.flatten.length ≤ isizeMax)
      ∨ ((∃ e, (BoundedWriter.sink.writeEach ds (.new cap)).1 = .err e)
        ∧ (BoundedWriter.sink.writeEach ds (.new cap)).2.overflowed = true
        ∧ cap.toNat < ds.flatten.length)
      ∨ ((BoundedWriter.sink.writeEach ds (.new cap)).1 = .panic
        ∧ isizeMax < ds.flatten.length ∧ isizeMax < cap.toNat) := by
  rcases BoundedWriter.writeEach_cases ds (BoundedWriter.new_models cap) with
    ⟨q', hq, hr, hm, hf⟩ | ⟨hq, hr, hf⟩ | ⟨hb, hl, hr⟩
  · rw [Quota.offerAll_eq, Quota.offer_eq_some] at hq
    have hkept : q'.kept = ds.flatten := hq.2
    have hfits := q'.fits
    rw [hq.1, hkept] at hfits
    have hmem := hm.inMemory
    rw [hkept] at hmem
    exact .inl ⟨hr, hm.buf.trans hkept, hf, hfits, hmem⟩
  · rw [Quota.offerAll_eq, Quota.offer_eq_none] at hq
    exact .inr (.inl ⟨hr, hf, by simpa [Quota.empty] using hq⟩)
  · exact .inr (.inr ⟨hr, by simpa [Quota.empty] using hb, hl⟩)

/-- The slices into a fresh writer, and then the ending. Both drivers
compute this, so a caller cannot tell them apart. -/
def settle (ds : List Bytes) (ending : Except String Unit) (cap : UInt64) :
    Outcome CodecError Bytes :=
  match BoundedWriter.sink.writeEach ds (.new cap) with
  | (.ok (), w) => corruptErr ending >>= fun _ => .ok w.intoInner
  | (.err _, _) => .err (.outputTooLarge cap)
  | (.panic, _) => .panic

/-- `settle`, by what the writes returned and left behind. -/
theorem settle_eq (ds : List Bytes) (ending : Except String Unit) (cap : UInt64) :
    settle ds ending cap =
      match (BoundedWriter.sink.writeEach ds (.new cap)).1 with
      | .ok () => corruptErr ending >>= fun _ =>
          .ok (BoundedWriter.sink.writeEach ds (.new cap)).2.buf
      | .err _ => .err (.outputTooLarge cap)
      | .panic => .panic := by
  unfold settle
  rcases BoundedWriter.sink.writeEach ds (.new cap) with ⟨_ | _ | _, w⟩ <;> rfl

theorem drainReader_eq (r : Reads UInt8) (cap : UInt64) :
    drainReader r cap = settle r.chunks (r.ending.mapError IoError.message) cap := by
  rw [drainReader, copy_eq BoundedWriter.sink r (.new cap) 0, settle_eq]
  rcases fresh_writeEach_cases r.chunks cap with
    ⟨hr, -, hf, -⟩ | ⟨⟨e, hr⟩, hf, -⟩ | ⟨hr, -⟩
  · rw [hr]
    cases r.ending with
    | ok u => rfl
    | error e =>
        -- no flag was raised, so the reader's own error is the one reported
        show (if _ then _ else _) = _
        rw [hf]
        rfl
  · rw [hr]; simp [hf]
  · rw [hr]; rfl

/-- `decodeIntoSink`, by what the decoder returned and left behind. -/
theorem decodeIntoSink_eq (p : Writes String UInt8) (cap : UInt64) :
    decodeIntoSink p cap =
      match (p.run BoundedWriter.sink (.new cap)).1 with
      | .ok () => finishSink (p.run BoundedWriter.sink (.new cap)).2 (.ok ()) cap
      | .err e => finishSink (p.run BoundedWriter.sink (.new cap)).2 (.error e) cap
      | .panic => .panic := by
  unfold decodeIntoSink
  rcases p.run BoundedWriter.sink (.new cap) with ⟨_ | _ | _, w⟩ <;> rfl

theorem decodeIntoSink_scripted {p : Writes String UInt8} {ds : List Bytes}
    {res : Except String Unit} (hp : p.Scripted ds res) (cap : UInt64) :
    decodeIntoSink p cap = settle ds res cap := by
  obtain ⟨hstate, hres⟩ := hp.run_eq (S := BoundedWriter.sink) (.new cap)
  rw [decodeIntoSink_eq, hstate, settle_eq]
  rcases fresh_writeEach_cases ds cap with
    ⟨hr, -, hf, -⟩ | ⟨⟨e, hr⟩, hf, -⟩ | ⟨hr, -⟩
  · rw [hr] at hres ⊢
    rw [hres]
    cases res with
    | ok u => rfl
    | error e => simp [finishSink, corruptErr, hf]
  · rw [hr] at hres ⊢
    obtain ⟨e', he'⟩ := hres
    rw [he']
    simp [finishSink, hf]
  · rw [hr] at hres ⊢
    rw [hres]

/-- **The drivers refine the capped decoding.** -/
theorem settle_refines (ds : List Bytes) (ending : Except String Unit) (cap : UInt64) :
    Refines (settle ds ending cap) ⟨ds.flatten, ending⟩ cap := by
  rw [settle_eq]
  rcases fresh_writeEach_cases ds cap with
    ⟨hr, hbuf, -, hcap, hmem⟩ | ⟨⟨e, hr⟩, -, hlt⟩ | ⟨hr, hb, hl⟩
  · refine .inl ⟨?_, .inr hmem⟩
    rw [hr, hbuf, Decoding.under, if_neg (Nat.not_lt.mpr hcap)]
  · refine .inl ⟨?_, .inl hlt⟩
    rw [hr, Decoding.under_of_lt hlt]
  · exact .inr ⟨by rw [hr], hb, hl⟩

/-- A drain returns what fits the cap and memory, after a proper end. -/
theorem settle_eq_ok_iff {ds : List Bytes} {ending : Except String Unit} {cap : UInt64}
    {v : Bytes} :
    settle ds ending cap = .ok v ↔
      v = ds.flatten ∧ ending = .ok () ∧ v.length ≤ cap.toNat ∧ v.length ≤ isizeMax := by
  rcases settle_refines ds ending cap with ⟨h, hmem⟩ | ⟨h, hbig, hcap⟩
  · rw [h, Decoding.under_eq_ok]
    constructor
    · rintro ⟨rfl, hend, hle⟩
      exact ⟨rfl, hend, hle, hmem.resolve_left (Nat.not_lt.mpr hle)⟩
    · rintro ⟨rfl, hend, hle, -⟩
      exact ⟨rfl, hend, hle⟩
  · rw [h]
    refine iff_of_false nofun ?_
    rintro ⟨rfl, -, -, hle⟩
    simp only at hbig
    omega

theorem mapError_eq_ok_iff {ending : Except IoError Unit} :
    ending.mapError IoError.message = .ok () ↔ ending = .ok () := by
  cases ending with
  | ok u => exact iff_of_true rfl rfl
  | error e =>
      constructor
      · intro h
        cases h
      · intro h
        cases h

theorem drainReader_eq_ok_iff {r : Reads UInt8} {cap : UInt64} {v : Bytes} :
    drainReader r cap = .ok v ↔
      v = r.output ∧ r.ending = .ok () ∧ v.length ≤ cap.toNat ∧ v.length ≤ isizeMax := by
  rw [drainReader_eq, settle_eq_ok_iff, mapError_eq_ok_iff, Reads.output]

/-! ## Raising the cap -/

/-- Two writers that differ only in that the second may hold more. -/
structure Wider (w v : BoundedWriter) : Prop where
  buf : w.buf = v.buf
  written : w.written = v.written
  cap : w.cap ≤ v.cap

/-- Under a larger cap a `write` is answered alike, or the smaller cap
refuses it. -/
theorem wider_lockstep :
    BoundedWriter.sink.Lockstep BoundedWriter.sink Wider fun _ => True := by
  intro w v d h
  change ((w.write d).1 = (v.write d).1 ∧ Wider (w.write d).2 (v.write d).2) ∨ _
  by_cases hgt : saturatingAdd w.written d.length > w.cap
  · refine .inr ⟨⟨.writeZero, overflowMsg⟩, ?_, trivial⟩
    change (w.write d).1 = _
    rw [BoundedWriter.write, if_pos hgt]
  · have hgt' : ¬saturatingAdd v.written d.length > v.cap := by
      rw [← h.written]
      intro hv
      exact hgt (UInt64.lt_of_le_of_lt h.cap hv)
    left
    rw [BoundedWriter.write, if_neg hgt, BoundedWriter.write, if_neg hgt', h.buf]
    cases extendFromSlice v.buf d with
    | none => exact ⟨rfl, h⟩
    | some buf => exact ⟨rfl, ⟨rfl, by rw [h.written], h.cap⟩⟩

/-- Raising the cap changes nothing but "too large". -/
theorem settle_mono (ds : List Bytes) (ending : Except String Unit) {c₁ c₂ : UInt64}
    (hc : c₁ ≤ c₂) :
    settle ds ending c₁ = .err (.outputTooLarge c₁)
      ∨ settle ds ending c₂ = settle ds ending c₁ := by
  have hnew : Wider (.new c₁) (.new c₂) := ⟨rfl, rfl, hc⟩
  rw [settle_eq, settle_eq]
  rcases Sink.writeEach_lockstep BoundedWriter.sink_whole BoundedWriter.sink_whole
    wider_lockstep ds hnew with ⟨hr, hR⟩ | ⟨e, he, -⟩
  · cases ho : (BoundedWriter.sink.writeEach ds (.new c₁)).1 with
    | ok u => right; rw [← hr, ho, hR.buf]
    | err e => left; rfl
    | panic => right; rw [← hr, ho]
  · left; rw [he]

/-! ## A sink under any decoder

A write-driven decoder that is no script may write on after a refusal.
What it leaves behind is still a writer that models a quota of the cap. -/

/-- The writer models some quota of this limit. -/
def Holds (cap : UInt64) (w : BoundedWriter) : Prop :=
  ∃ q, w.Models q ∧ q.limit = cap.toNat

theorem holds_new (cap : UInt64) : Holds cap (.new cap) :=
  ⟨_, BoundedWriter.new_models cap, rfl⟩

theorem holds_write {cap : UInt64} (w : BoundedWriter) (d : Bytes) (h : Holds cap w) :
    Holds cap (BoundedWriter.sink.write w d).2 := by
  obtain ⟨q, hm, hl⟩ := h
  change Holds cap (w.write d).2
  rcases BoundedWriter.write_cases hm d with ⟨q', ho, -, hm', -⟩ | ⟨-, hw⟩ | ⟨-, -, hw⟩
  · exact ⟨q', hm', (Quota.offer_eq_some.mp ho).1.trans hl⟩
  · rw [hw]; exact ⟨q, hm.flagged, hl⟩
  · rw [hw]; exact ⟨q, hm, hl⟩

theorem Holds.length_le {cap : UInt64} {w : BoundedWriter} (h : Holds cap w) :
    w.buf.length ≤ cap.toNat := by
  obtain ⟨q, hm, hl⟩ := h
  rw [hm.buf, ← hl]
  exact q.fits

theorem write_ne_panic {cap : UInt64} (hcap : cap.toNat ≤ isizeMax) (w : BoundedWriter)
    (d : Bytes) (h : Holds cap w) : (BoundedWriter.sink.write w d).1 ≠ .panic := by
  obtain ⟨q, hm, hl⟩ := h
  change (w.write d).1 ≠ .panic
  rcases BoundedWriter.write_cases hm d with ⟨q', -, hw, -, -⟩ | ⟨-, hw⟩ | ⟨-, hlim, hw⟩
  · rw [hw]; simp
  · rw [hw]; simp
  · omega

/-! ## Staying within the cap -/

/-- A value returned is no longer than the cap, and an overflow reported
is of this cap. -/
def WithinCap (res : Outcome CodecError Bytes) (cap : UInt64) : Prop :=
  (∀ v, res = .ok v → v.length ≤ cap.toNat) ∧ ∀ c, res = .err (.outputTooLarge c) → c = cap

theorem withinCap_tooLarge (cap : UInt64) : WithinCap (.err (.outputTooLarge cap)) cap :=
  ⟨nofun, fun _ h => by cases h; rfl⟩

theorem withinCap_err {e : CodecError} (he : ∀ c, e ≠ .outputTooLarge c) (cap : UInt64) :
    WithinCap (.err e) cap :=
  ⟨nofun, fun c h => absurd (Outcome.err.inj h) (he c)⟩

theorem withinCap_corrupt (e : String) (cap : UInt64) : WithinCap (.err (.corrupt e)) cap :=
  withinCap_err (by simp) cap

theorem withinCap_panic (cap : UInt64) : WithinCap .panic cap := ⟨nofun, nofun⟩

theorem withinCap_corruptErr {r : Except String Bytes} {cap : UInt64}
    (h : ∀ v, r = .ok v → v.length ≤ cap.toNat) : WithinCap (corruptErr r) cap := by
  refine ⟨fun v hv => h v ?_, fun c hc => ?_⟩
  · exact Outcome.ofExcept_eq_ok.mp (Outcome.mapErr_eq_ok.mp hv)
  · cases r <;> cases hc

theorem Refines.withinCap {res : Outcome CodecError Bytes} {d : Decoding} {cap : UInt64}
    (h : Refines res d cap) : WithinCap res cap := by
  rcases h with ⟨rfl, -⟩ | ⟨rfl, -, -⟩
  · refine ⟨fun v hv => ?_, fun c hc => ?_⟩
    · obtain ⟨rfl, -, hle⟩ := Decoding.under_eq_ok.mp hv
      exact hle
    · rw [Decoding.under] at hc
      split at hc
      · cases hc; rfl
      · cases hd : d.ending <;> rw [hd] at hc <;> cases hc
  · exact withinCap_panic cap

/-- **The sink bounds every write-driven decoder**, whatever it writes,
also after a refusal, and whatever it reports. -/
theorem decodeIntoSink_withinCap (p : Writes String UInt8) (cap : UInt64) :
    WithinCap (decodeIntoSink p cap) cap := by
  have hinv : Holds cap (p.run BoundedWriter.sink (.new cap)).2 :=
    Writes.run_inv BoundedWriter.sink_whole holds_write p (holds_new cap)
  rw [decodeIntoSink_eq]
  cases (p.run BoundedWriter.sink (.new cap)).1 with
  | ok u =>
      refine ⟨fun v hv => ?_, nofun⟩
      cases hv
      exact hinv.length_le
  | err e =>
      simp only [finishSink]
      split
      · exact withinCap_tooLarge cap
      · exact withinCap_corrupt e cap
  | panic => exact withinCap_panic cap

theorem decodeIntoSink_ne_panic (p : Writes String UInt8) {cap : UInt64}
    (hcap : cap.toNat ≤ isizeMax) : decodeIntoSink p cap ≠ .panic := by
  have hrun : (p.run BoundedWriter.sink (.new cap)).1 ≠ .panic :=
    Writes.run_ne_panic BoundedWriter.sink_whole holds_write (write_ne_panic hcap) p
      (holds_new cap)
  rw [decodeIntoSink_eq]
  cases h : (p.run BoundedWriter.sink (.new cap)).1 with
  | ok u => simp [finishSink]
  | err e => simp only [finishSink]; split <;> simp
  | panic => exact absurd h hrun

theorem drainReader_ne_panic (r : Reads UInt8) {cap : UInt64}
    (hcap : cap.toNat ≤ isizeMax) : drainReader r cap ≠ .panic := by
  rw [drainReader_eq, (settle_refines _ _ cap).eq_under (.inr hcap), Decoding.under]
  split
  · simp
  · intro h
    cases hend : r.ending with
    | ok u => rw [hend] at h; cases h
    | error e => rw [hend] at h; cases h

/-! ## Every codec -/

section Codecs

variable {be : Backends}

theorem Zstd.decompress_eq (input : Bytes) (cap : UInt64) :
    Zstd.decompress be input cap =
      match be.zstd.decoder input with
      | .ok r => drainReader r cap
      | .error e => .err (.corrupt e) := by
  unfold Zstd.decompress
  cases be.zstd.decoder input <;> rfl

/-- The reader delivers these chunks and then ends this way. -/
def Delivers (r : Reads UInt8) (ds : List Bytes) (ending : Except String Unit) : Prop :=
  r.chunks = ds ∧ r.ending.mapError IoError.message = ending

theorem Delivers.drainReader_eq {r : Reads UInt8} {ds : List Bytes}
    {ending : Except String Unit} (h : Delivers r ds ending) (cap : UInt64) :
    drainReader r cap = settle ds ending cap := by
  rw [VgiCompress.drainReader_eq, h.1, h.2]

/-- The backend of a streaming codec decodes the input to these chunks
and then ends this way. The two block codecs have no such decoder. -/
def Streams (be : Backends) (c : Codec) (input : Bytes) (ds : List Bytes)
    (ending : Except String Unit) : Prop :=
  match c with
  | .zstd =>
      match be.zstd.decoder input with
      | .ok r => Delivers r ds ending
      | .error e => ds = [] ∧ ending = .error e
  | .gzip => Delivers (be.flate2.gzDecoder input) ds ending
  | .zlib => Delivers (be.flate2.zlibDecoder input) ds ending
  | .deflate => Delivers (be.flate2.deflateDecoder input) ds ending
  | .brotli => Delivers (be.brotli.decompressor input Brotli.buf) ds ending
  | .lz4 => Delivers (be.lz4Flex.frameDecoder input) ds ending
  | .lz4Block => False
  | .snappy => Delivers (be.snap.frameDecoder input) ds ending
  | .snappyRaw => False
  | .xz =>
      match be.xzBackend with
      | .lzmaRs => (be.lzmaRs.xzDecompress input).Scripted ds ending
      | .liblzma => Delivers (be.liblzma.xzDecoder input) ds ending
  | .lzma => (be.lzmaRs.lzmaDecompress input).Scripted ds ending
  | .bzip2 => Delivers (be.bzip2.bzDecoder input) ds ending

/-- A backend streams one thing at most. -/
theorem Streams.unique {c : Codec} {input : Bytes} {ds ds' : List Bytes}
    {ending ending' : Except String Unit} (h : Streams be c input ds ending)
    (h' : Streams be c input ds' ending') : ds = ds' := by
  cases c with
  | zstd =>
      rw [Streams] at h h'
      cases hr : be.zstd.decoder input with
      | ok r => rw [hr] at h h'; exact h.1.symm.trans h'.1
      | error e => rw [hr] at h h'; exact h.1.trans h'.1.symm
  | xz =>
      rw [Streams] at h h'
      cases hx : be.xzBackend with
      | lzmaRs => rw [hx] at h h'; exact (Writes.Scripted.unique h h').1
      | liblzma => rw [hx] at h h'; exact h.1.symm.trans h'.1
  | lzma => exact (Writes.Scripted.unique h h').1
  | lz4Block | snappyRaw => exact h.elim
  | gzip | zlib | deflate | brotli | lz4 | snappy | bzip2 => exact h.1.symm.trans h'.1

/-- Every streaming decode is `settle` of what its backend streams. -/
theorem Streams.decompress_eq {c : Codec} {input : Bytes} {ds : List Bytes}
    {ending : Except String Unit} (h : Streams be c input ds ending) (cap : UInt64) :
    c.decompress be input cap = settle ds ending cap := by
  cases c with
  | zstd =>
      rw [Codec.decompress, Zstd.decompress_eq]
      rw [Streams] at h
      cases hr : be.zstd.decoder input with
      | ok r => rw [hr] at h; exact Delivers.drainReader_eq h cap
      | error e => rw [hr] at h; obtain ⟨rfl, rfl⟩ := h; rfl
  | xz =>
      rw [Codec.decompress, Xz.decompressXz]
      rw [Streams] at h
      cases hx : be.xzBackend with
      | lzmaRs => rw [hx] at h; exact decodeIntoSink_scripted h cap
      | liblzma => rw [hx] at h; exact Delivers.drainReader_eq h cap
  | lzma => exact decodeIntoSink_scripted h cap
  | lz4Block | snappyRaw => exact h.elim
  | gzip | zlib | deflate | brotli | lz4 | snappy | bzip2 =>
      exact Delivers.drainReader_eq h cap

/-- lzma-rs decodes an input to one fixed sequence of slices and one fixed
ending, stopping early only at a refused write. -/
def Crate.LzmaRs.IsScripted (l : Crate.LzmaRs) : Prop :=
  (∀ input, ∃ ds res, (l.xzDecompress input).Scripted ds res)
    ∧ ∀ input, ∃ ds res, (l.lzmaDecompress input).Scripted ds res

/-- Every codec but the two block formats streams something. -/
theorem exists_streams (h : be.lzmaRs.IsScripted) {c : Codec} (hb : c ≠ .lz4Block)
    (hr : c ≠ .snappyRaw) (input : Bytes) : ∃ ds ending, Streams be c input ds ending := by
  cases c with
  | zstd =>
      cases hz : be.zstd.decoder input with
      | ok r => exact ⟨_, _, by rw [Streams, hz]; exact ⟨rfl, rfl⟩⟩
      | error e => exact ⟨_, _, by rw [Streams, hz]; exact ⟨rfl, rfl⟩⟩
  | xz =>
      cases hx : be.xzBackend with
      | lzmaRs =>
          obtain ⟨ds, res, hs⟩ := h.1 input
          exact ⟨ds, res, by rw [Streams, hx]; exact hs⟩
      | liblzma => exact ⟨_, _, by rw [Streams, hx]; exact ⟨rfl, rfl⟩⟩
  | lzma => exact h.2 input
  | lz4Block => exact absurd rfl hb
  | snappyRaw => exact absurd rfl hr
  | gzip | zlib | deflate | brotli | lz4 | snappy | bzip2 => exact ⟨_, _, rfl, rfl⟩

/-- lz4_flex returns at most as many bytes as the size prefix declares. -/
def Crate.Lz4Flex.PrefixBounds (lz : Crate.Lz4Flex) : Prop :=
  ∀ input v n, lz.decompressSizePrepended input = .ok v →
    Lz4.declaredSize input = some n → v.length ≤ n.toNat

/-- snap's raw decoder returns as many bytes as `decompress_len` says. -/
def Crate.Snap.LenExact (snap : Crate.Snap) : Prop :=
  ∀ input v n, snap.decompressVec input = .ok v →
    snap.decompressLen input = .ok n → v.length = n

theorem Lz4.decompressBlock_withinCap (h : be.lz4Flex.PrefixBounds) (input : Bytes)
    (cap : UInt64) : WithinCap (Lz4.decompressBlock be input cap) cap := by
  unfold Lz4.decompressBlock
  cases hn : Lz4.declaredSize input with
  | none => exact withinCap_corrupt _ cap
  | some n =>
      by_cases hgt : n > cap
      · simp only [if_pos hgt]; exact withinCap_tooLarge cap
      · simp only [if_neg hgt]
        have hle := mt UInt64.lt_iff_toNat_lt.mpr hgt
        exact withinCap_corruptErr fun v hv =>
          Nat.le_trans (h input v n hv hn) (Nat.not_lt.mp hle)

theorem Snappy.decompressRaw_withinCap (h : be.snap.LenExact) (input : Bytes)
    (cap : UInt64) : WithinCap (Snappy.decompressRaw be input cap) cap := by
  unfold Snappy.decompressRaw
  cases hn : be.snap.decompressLen input with
  | error e => exact withinCap_corrupt e cap
  | ok n =>
      by_cases hgt : n > cap.toNat
      · simp only [if_pos hgt]; exact withinCap_tooLarge cap
      · simp only [if_neg hgt]
        exact withinCap_corruptErr fun v hv =>
          Nat.le_trans (Nat.le_of_eq (h input v n hv hn)) (Nat.not_lt.mp hgt)

theorem Codec.decompress_withinCap (hlz4 : be.lz4Flex.PrefixBounds)
    (hsnap : be.snap.LenExact) (c : Codec) (input : Bytes) (cap : UInt64) :
    WithinCap (c.decompress be input cap) cap := by
  have hdrain (r : Reads UInt8) : WithinCap (drainReader r cap) cap := by
    rw [drainReader_eq]
    exact (settle_refines _ _ cap).withinCap
  cases c with
  | zstd =>
      rw [Codec.decompress, Zstd.decompress_eq]
      split
      · exact hdrain _
      · exact withinCap_corrupt _ cap
  | lz4Block => exact Lz4.decompressBlock_withinCap hlz4 input cap
  | snappyRaw => exact Snappy.decompressRaw_withinCap hsnap input cap
  | xz =>
      rw [Codec.decompress, Xz.decompressXz]
      split
      · exact decodeIntoSink_withinCap _ cap
      · exact hdrain _
  | lzma => exact decodeIntoSink_withinCap _ cap
  | gzip | zlib | deflate | brotli | lz4 | snappy | bzip2 => exact hdrain _

/-- No decode panics under a cap a `Vec` can reach. -/
theorem Codec.decompress_not_panic (c : Codec) (input : Bytes) {cap : UInt64}
    (hcap : cap.toNat ≤ isizeMax) : c.decompress be input cap ≠ .panic := by
  have hdrain (r : Reads UInt8) : drainReader r cap ≠ .panic := drainReader_ne_panic r hcap
  have hcorrupt (r : Except String Bytes) : corruptErr r ≠ .panic := by
    cases r <;> simp [corruptErr]
  cases c with
  | zstd =>
      rw [Codec.decompress, Zstd.decompress_eq]
      split
      · exact hdrain _
      · simp
  | lz4Block =>
      rw [Codec.decompress, Lz4.decompressBlock]
      split
      · simp
      · split
        · simp
        · exact hcorrupt _
  | snappyRaw =>
      rw [Codec.decompress, Snappy.decompressRaw]
      split
      · split
        · simp
        · exact hcorrupt _
      · simp
  | xz =>
      rw [Codec.decompress, Xz.decompressXz]
      split
      · exact decodeIntoSink_ne_panic _ hcap
      · exact hdrain _
  | lzma => exact decodeIntoSink_ne_panic _ hcap
  | gzip | zlib | deflate | brotli | lz4 | snappy | bzip2 => exact hdrain _

/-- A block decodes where its declared size is within the cap and lz4_flex
accepts it. -/
theorem Lz4.decompressBlock_eq_ok_iff {input v : Bytes} {cap : UInt64} :
    Lz4.decompressBlock be input cap = .ok v ↔
      ∃ n, Lz4.declaredSize input = some n ∧ n ≤ cap
        ∧ be.lz4Flex.decompressSizePrepended input = .ok v := by
  rw [Lz4.decompressBlock]
  cases Lz4.declaredSize input with
  | none =>
      constructor
      · intro h
        cases h
      · rintro ⟨n, hn, -⟩
        cases hn
  | some n =>
      simp only [Option.some.injEq, exists_eq_left']
      by_cases hgt : n > cap
      · rw [if_pos hgt]
        constructor
        · intro h
          cases h
        · rintro ⟨hle, -⟩
          exact absurd hgt (UInt64.not_lt.mpr hle)
      · rw [if_neg hgt, corruptErr_eq_ok, and_iff_right (UInt64.not_lt.mp hgt)]

theorem Snappy.decompressRaw_eq_ok_iff {input v : Bytes} {cap : UInt64} :
    Snappy.decompressRaw be input cap = .ok v ↔
      ∃ n, be.snap.decompressLen input = .ok n ∧ n ≤ cap.toNat
        ∧ be.snap.decompressVec input = .ok v := by
  rw [Snappy.decompressRaw]
  cases be.snap.decompressLen input with
  | error e =>
      constructor
      · intro h
        cases h
      · rintro ⟨n, hn, -⟩
        cases hn
  | ok n =>
      simp only [Except.ok.injEq, exists_eq_left']
      by_cases hgt : n > cap.toNat
      · rw [if_pos hgt]
        constructor
        · intro h
          cases h
        · rintro ⟨hle, -⟩
          exact absurd hgt (Nat.not_lt.mpr hle)
      · rw [if_neg hgt, corruptErr_eq_ok, and_iff_right (Nat.not_lt.mp hgt)]

theorem Lz4.decompressBlock_mono (input : Bytes) {c₁ c₂ : UInt64} (hc : c₁ ≤ c₂) :
    Lz4.decompressBlock be input c₁ = .err (.outputTooLarge c₁)
      ∨ Lz4.decompressBlock be input c₂ = Lz4.decompressBlock be input c₁ := by
  rw [Lz4.decompressBlock, Lz4.decompressBlock]
  cases Lz4.declaredSize input with
  | none => exact .inr rfl
  | some n =>
      by_cases h₁ : n > c₁
      · exact .inl (if_pos h₁)
      · have h₂ : ¬n > c₂ := fun h₂ => h₁ (UInt64.lt_of_le_of_lt hc h₂)
        exact .inr (by simp only [if_neg h₁, if_neg h₂])

theorem Snappy.decompressRaw_mono (input : Bytes) {c₁ c₂ : UInt64} (hc : c₁ ≤ c₂) :
    Snappy.decompressRaw be input c₁ = .err (.outputTooLarge c₁)
      ∨ Snappy.decompressRaw be input c₂ = Snappy.decompressRaw be input c₁ := by
  rw [Snappy.decompressRaw, Snappy.decompressRaw]
  cases be.snap.decompressLen input with
  | error e => exact .inr rfl
  | ok n =>
      have hc' := UInt64.le_iff_toNat_le.mp hc
      by_cases h₁ : n > c₁.toNat
      · exact .inl (if_pos h₁)
      · have h₂ : ¬n > c₂.toNat := by omega
        exact .inr (by simp only [if_neg h₁, if_neg h₂])

/-- Raising the cap changes nothing but "too large", for every codec. -/
theorem Codec.decompress_mono (h : be.lzmaRs.IsScripted) (c : Codec) (input : Bytes)
    {c₁ c₂ : UInt64} (hc : c₁ ≤ c₂) :
    c.decompress be input c₁ = .err (.outputTooLarge c₁)
      ∨ c.decompress be input c₂ = c.decompress be input c₁ := by
  by_cases hb : c = .lz4Block
  · subst hb
    exact Lz4.decompressBlock_mono input hc
  by_cases hr : c = .snappyRaw
  · subst hr
    exact Snappy.decompressRaw_mono input hc
  obtain ⟨ds, ending, hs⟩ := exists_streams h hb hr input
  rw [hs.decompress_eq, hs.decompress_eq]
  exact settle_mono ds ending hc

end Codecs

end VgiCompress
