import VgiCompress.RoundTrip

/-!
# Two drivers of one sink

`drainReader` pulls the chunks out of a reader, `decodeIntoSink` has them
pushed by the decoder. Both refine `Decoding.under`, so the chunks and the
interrupted reads between them leave no trace (`drivers_agree`), and the
two xz backends can be exchanged.

This supposes a decoder that stops at the first refused write. The sink
stays usable after a refusal, and `finishSink` reads the flag in one of
its branches only: `nothing_lost_iff` says for any decoder at all when no
byte is lost unnoticed.
-/

namespace VgiCompress

open RustStd

/-! ## Read-driven and write-driven -/

section Drivers

variable {d : Decoding} {cap : UInt64}

/-- The output is one that a `Vec` can hold, or the cap keeps it to that. -/
def InMemory (d : Decoding) (cap : UInt64) : Prop :=
  d.output.length ≤ isizeMax ∨ cap.toNat ≤ isizeMax

theorem drainReader_eq_under (hmem : InMemory d cap) {r : Reads UInt8}
    (hout : r.output = d.output) (hend : r.ending.mapError IoError.message = d.ending) :
    drainReader r cap = d.under cap := by
  have href := settle_refines r.chunks (r.ending.mapError IoError.message) cap
  change Refines _ ⟨r.output, _⟩ cap at href
  rw [hout, hend] at href
  rw [drainReader_eq, hend, href.eq_under hmem]

theorem decodeIntoSink_eq_under (hmem : InMemory d cap) {p : Writes String UInt8}
    {ds : List Bytes} (hp : p.Scripted ds d.ending) (hout : ds.flatten = d.output) :
    decodeIntoSink p cap = d.under cap := by
  have href := settle_refines ds d.ending cap
  rw [hout] at href
  rw [decodeIntoSink_scripted hp, href.eq_under hmem]

end Drivers

/-! ## The two xz backends -/

/-- The same crates, linked with this xz backend. -/
def Backends.withXz (be : Backends) (xz : XzBackend) : Backends := { be with xzBackend := xz }

/-- Both xz backends make this of the input, each in its own slices. -/
def BothDecodeXz (be : Backends) (input : Bytes) (d : Decoding) : Prop :=
  (∃ ds, (be.lzmaRs.xzDecompress input).Scripted ds d.ending ∧ ds.flatten = d.output)
    ∧ (be.liblzma.xzDecoder input).output = d.output
    ∧ (be.liblzma.xzDecoder input).ending.mapError IoError.message = d.ending

section Xz

variable {be : Backends} {input : Bytes} {d : Decoding}

/-- Of the twelve decoders only that of xz depends on the feature. -/
theorem Codec.decompress_withXz (h : BothDecodeXz be input d) (c : Codec) {cap : UInt64}
    (hmem : InMemory d cap) :
    c.decompress (be.withXz .lzmaRs) input cap = c.decompress (be.withXz .liblzma) input cap := by
  obtain ⟨⟨ds, hp, hds⟩, hout, hend⟩ := h
  cases c with
  | xz =>
      show decodeIntoSink (be.lzmaRs.xzDecompress input) cap
        = drainReader (be.liblzma.xzDecoder input) cap
      rw [decodeIntoSink_eq_under hmem hp hds, drainReader_eq_under hmem hout hend]
  | zstd | gzip | zlib | deflate | brotli | lz4 | lz4Block | snappy | snappyRaw | lzma
  | bzip2 => rfl

/-- The callers of the dispatch see no difference either. -/
theorem callers_withXz (h : BothDecodeXz be input d) (codec : String) {cap : UInt64}
    (hmem : InMemory d cap) :
    decompress (be.withXz .lzmaRs) codec input cap
        = decompress (be.withXz .liblzma) codec input cap
      ∧ decompressAuto (be.withXz .lzmaRs) input cap
        = decompressAuto (be.withXz .liblzma) input cap
      ∧ decompressedSize (be.withXz .lzmaRs) codec input cap
        = decompressedSize (be.withXz .liblzma) codec input cap
      ∧ isValid (be.withXz .lzmaRs) codec input = isValid (be.withXz .liblzma) codec input := by
  have hcodec (c : Codec) := c.decompress_withXz h hmem
  have hcount (c : Codec) : countUnderGuard (be.withXz .lzmaRs) c input cap
      = countUnderGuard (be.withXz .liblzma) c input cap := by
    rw [countUnderGuard, countUnderGuard, hcodec]
  -- the trials of `detect` are of zlib and lzma
  have hdetect : detect (be.withXz .lzmaRs) input = detect (be.withXz .liblzma) input := rfl
  have hdefault : InMemory d defaultMaxOutputBytes := .inr (by decide)
  refine ⟨?_, ?_, ?_, ?_⟩
  · simp only [decompress, hcodec]
  · simp only [decompressAuto, hdetect, hcodec]
  · simp only [decompressedSize, hcount]
  · simp only [isValid, fun c : Codec => c.decompress_withXz h hdefault]

end Xz

/-- **The two drivers agree**: a reader and a decoder of the same bytes and
ending, in whatever chunks, come out alike under every cap; and so do the
two xz backends, for every caller. -/
theorem drivers_agree :
    (∀ (output : Bytes) (ending : Except IoError Unit) (cap : UInt64) (r : Reads UInt8)
        (p : Writes String UInt8) (ds : List Bytes),
      (output.length ≤ isizeMax ∨ cap.toNat ≤ isizeMax) →
      r.output = output → r.ending = ending →
      ds.flatten = output → p.Scripted ds (ending.mapError IoError.message) →
      drainReader r cap = Decoding.under ⟨output, ending.mapError IoError.message⟩ cap
        ∧ decodeIntoSink p cap = drainReader r cap)
    ∧ ∀ be input d codec (cap : UInt64), BothDecodeXz be input d →
      (d.output.length ≤ isizeMax ∨ cap.toNat ≤ isizeMax) →
      decompress (be.withXz .lzmaRs) codec input cap
          = decompress (be.withXz .liblzma) codec input cap
        ∧ decompressAuto (be.withXz .lzmaRs) input cap
          = decompressAuto (be.withXz .liblzma) input cap
        ∧ decompressedSize (be.withXz .lzmaRs) codec input cap
          = decompressedSize (be.withXz .liblzma) codec input cap
        ∧ isValid (be.withXz .lzmaRs) codec input
          = isValid (be.withXz .liblzma) codec input := by
  constructor
  · intro output ending cap r p ds hmem hout hend hds hp
    have hr := drainReader_eq_under (d := ⟨output, _⟩) hmem hout
      (congrArg (Except.mapError IoError.message) hend)
    refine ⟨hr, ?_⟩
    rw [hr]
    exact decodeIntoSink_eq_under (d := ⟨output, _⟩) hmem hp hds
  · intro be input d codec cap h hmem
    exact callers_withXz h codec hmem

/-- `drivers_agree` on three bytes in two chunks, once with an interrupted
read between them, and on the xz stream of `"a"`. -/
theorem drivers_agree_sample :
    decodeIntoSink (.script "write failed" [[1], [2, 3]] (.ok ())) 2
        = drainReader [.ok [1, 2], .error ⟨.interrupted, "signal"⟩, .ok [3]] 2
      ∧ decompress (Sample.build.withXz .lzmaRs) "xz" Sample.xz 1
        = decompress (Sample.build.withXz .liblzma) "xz" Sample.xz 1 := by
  constructor
  · have hscript := Writes.scripted_script "write failed" (.ok ()) [[(1 : UInt8)], [2, 3]]
    exact (drivers_agree.1 [1, 2, 3] (.ok ()) 2
      [.ok [1, 2], .error ⟨.interrupted, "signal"⟩, .ok [3]] _ _ (.inl (by decide)) rfl rfl rfl
      hscript).2
  · have hboth : BothDecodeXz Sample.build Sample.xz ⟨Sample.payload, .ok ()⟩ := by
      have hmem : (Sample.payload, Sample.xz) ∈ Sample.xzTable := List.mem_cons_self
      obtain ⟨hchunks, hend⟩ := Sample.first_stream (by decide) hmem
      refine ⟨⟨_, Sample.driven_scripts (by decide) hmem, rfl⟩, ?_, hend⟩
      exact congrArg List.flatten hchunks
    exact (drivers_agree.2 Sample.build Sample.xz _ "xz" 1 hboth (.inl (by decide))).1

/-! ## A decoder that writes on -/

/-- A value is all that was offered, and a refused write is reported. -/
def NothingLost (offered : List Bytes) (refused : Bool) (cap : UInt64)
    (res : Outcome CodecError Bytes) : Prop :=
  (∀ v, res = .ok v → v = offered.flatten) ∧ (refused = true → res = .err (.outputTooLarge cap))

/-- All that a run can leave behind that comes to a result: the flag is as
it was and every byte offered is there, or the flag is up and the bytes
offered are too many. -/
theorem run_cases {w w' : BoundedWriter} {q : Quota UInt8} (hm : w.Models q)
    {p : Writes String UInt8} {res : Except String Unit}
    (hrun : p.run BoundedWriter.sink w = (.ofExcept res, w')) :
    (p.refuses BoundedWriter.sink w = false
        ∧ w'.buf = q.kept ++ (p.offered BoundedWriter.sink w).flatten
        ∧ q.kept.length + (p.offered BoundedWriter.sink w).flatten.length ≤ q.limit)
      ∨ (p.refuses BoundedWriter.sink w = true ∧ w'.overflowed = true
        ∧ q.limit < q.kept.length + (p.offered BoundedWriter.sink w).flatten.length) := by
  induction p generalizing w q with
  | done r =>
      obtain ⟨-, rfl⟩ := Prod.mk.inj hrun
      have hfits := q.fits
      exact .inl ⟨rfl, by simp [Writes.offered, hm.buf], by simpa [Writes.offered] using hfits⟩
  | write data accepted refused ihAccepted ihRefused =>
      rw [Writes.run] at hrun
      rw [Writes.refuses, Writes.offered]
      rcases BoundedWriter.writeAll_cases hm data with
        ⟨q', w₁, ho, hw, hm', -⟩ | ⟨ho, e, w₁, hw, -, hflag⟩ | ⟨-, -, hw⟩
      · rw [hw] at hrun ⊢
        obtain ⟨hlimit, hkept⟩ := Quota.offer_eq_some.mp ho
        have ih := ihAccepted hm' hrun
        rw [hkept, hlimit] at ih
        simpa only [List.flatten_cons, List.append_assoc, List.length_append, Nat.add_assoc]
          using ih
      · rw [hw] at hrun ⊢
        have hinv := Writes.run_inv BoundedWriter.sink_whole
          BoundedWriter.overflowed_write refused hflag
        simp only at hrun
        rw [hrun] at hinv
        refine .inr ⟨rfl, hinv, ?_⟩
        have hover := Quota.offer_eq_none.mp ho
        rw [List.flatten_cons, List.length_append]
        omega
      · rw [hw] at hrun
        cases res <;> cases congrArg Prod.fst hrun

/-- **When success is reported over lost output**: a run that comes to a
result loses nothing exactly when all it offers fits the cap, or it
reports an error. -/
theorem nothing_lost_iff {p : Writes String UInt8} {cap : UInt64} {res : Except String Unit}
    {w : BoundedWriter} (hrun : p.run BoundedWriter.sink (.new cap) = (.ofExcept res, w)) :
    NothingLost (p.offered BoundedWriter.sink (.new cap))
        (p.refuses BoundedWriter.sink (.new cap)) cap (finishSink w res cap)
      ↔ (p.offered BoundedWriter.sink (.new cap)).flatten.length ≤ cap.toNat
        ∨ ∃ e, res = .error e := by
  have hempty : (Quota.empty cap.toNat : Quota UInt8).kept = [] := rfl
  have hlimit : (Quota.empty cap.toNat : Quota UInt8).limit = cap.toNat := rfl
  rcases run_cases (BoundedWriter.new_models cap) hrun with
    ⟨hnone, hbuf, hfits⟩ | ⟨hsome, hflag, hover⟩
  · rw [hempty, List.nil_append] at hbuf
    rw [hempty, hlimit, List.length_nil, Nat.zero_add] at hfits
    refine iff_of_true ⟨?_, ?_⟩ (.inl hfits)
    · intro v hv
      cases res with
      | ok u =>
          rw [← hbuf]
          exact (Outcome.ok.inj hv).symm
      | error e =>
          rw [finishSink] at hv
          split at hv <;> cases hv
    · intro hrefused
      rw [hnone] at hrefused
      cases hrefused
  · rw [hempty, hlimit, List.length_nil, Nat.zero_add] at hover
    cases res with
    | ok u =>
        refine iff_of_false ?_ ?_
        · rintro ⟨-, htooLarge⟩
          cases htooLarge hsome
        · rintro (hle | ⟨e, he⟩)
          · exact absurd hle (Nat.not_le.mpr hover)
          · cases he
    | error e =>
        have hfinish : finishSink w (.error e) cap = .err (.outputTooLarge cap) := if_pos hflag
        refine iff_of_true ⟨?_, fun _ => hfinish⟩ (.inr ⟨e, rfl⟩)
        intro v hv
        rw [hfinish] at hv
        cases hv

/-- A decoder that writes three bytes under a cap of two, ignores the
refusal, writes a fourth and reports success. -/
def Sample.heedless : Writes String UInt8 :=
  .write [1, 2, 3] (.done (.ok ())) (.write [4] (.done (.ok ())) (.done (.ok ())))

/-- `nothing_lost_iff` on a cap that holds all three bytes. -/
theorem nothing_lost_sample :
    NothingLost [[1, 2, 3]] false 3 (finishSink ⟨[1, 2, 3], 3, 3, false⟩ (.ok ()) 3) := by
  have hrun : Sample.heedless.run BoundedWriter.sink (.new 3)
      = (.ofExcept (.ok ()), ⟨[1, 2, 3], 3, 3, false⟩) := rfl
  exact (nothing_lost_iff hrun).mpr (.inl (by decide))

/-- Its output is the fourth byte alone. -/
theorem heedless_decoder_loses_output :
    decodeIntoSink Sample.heedless 2 = .ok [4]
      ∧ Sample.heedless.offered BoundedWriter.sink (.new 2) = [[1, 2, 3], [4]]
      ∧ Sample.heedless.refuses BoundedWriter.sink (.new 2) = true
      ∧ ¬NothingLost (Sample.heedless.offered BoundedWriter.sink (.new 2))
          (Sample.heedless.refuses BoundedWriter.sink (.new 2)) 2
          (decodeIntoSink Sample.heedless 2) := by
  have hok : decodeIntoSink Sample.heedless 2 = .ok [4] := by decide +kernel
  refine ⟨hok, by decide +kernel, by decide +kernel, ?_⟩
  rintro ⟨hall, -⟩
  exact absurd (hall [4] hok) (by decide +kernel)

end VgiCompress
