import VgiCompress.Probe
import VgiCompress.Samples

/-!
# How much decoded data is alive

`Codec.decompressLive` is `Codec.decompress` with a watched sink: next to
the result it returns what was alive at each step, the bytes the sink
holds and the slice on offer, or the output buffer of a block decode.
Watching changes nothing (`decompressLive_fst`).

The bytes held never exceed the cap, so what is alive exceeds it by one
slice at most. How large a slice is, the drivers differ in: a copy buffer,
an lzma window, or a whole xz block, which has no bound.
-/

namespace VgiCompress

open RustStd

/-! ## Watched decoding -/

/-- The `BoundedWriter` under watch. -/
def watched : Sink (BoundedWriter × List Nat) UInt8 :=
  BoundedWriter.sink.probe fun w => w.buf.length

def drainReaderLive (reader : Reads UInt8) (cap : UInt64) :
    Outcome CodecError Bytes × List Nat :=
  match copy watched reader (.new cap, []) 0 with
  | (.ok _, sink, live) => (.ok sink.intoInner, live)
  | (.err e, sink, live) =>
      (if sink.overflowed then .err (.outputTooLarge cap) else .err (.corrupt e.message), live)
  | (.panic, _, live) => (.panic, live)

def decodeIntoSinkLive (decoder : Writes String UInt8) (cap : UInt64) :
    Outcome CodecError Bytes × List Nat :=
  match decoder.run watched (.new cap, []) with
  | (.ok (), sink, live) => (finishSink sink (.ok ()) cap, live)
  | (.err e, sink, live) => (finishSink sink (.error e) cap, live)
  | (.panic, _, live) => (.panic, live)

section Live

variable (be : Backends)

/-- A block decoder allocates the length its input declares. -/
def Codec.decompressLive (c : Codec) (input : Bytes) (cap : UInt64) :
    Outcome CodecError Bytes × List Nat :=
  match c with
  | zstd =>
      match be.zstd.decoder input with
      | .ok decoder => drainReaderLive decoder cap
      | .error e => (.err (.corrupt e), [])
  | gzip => drainReaderLive (be.flate2.gzDecoder input) cap
  | zlib => drainReaderLive (be.flate2.zlibDecoder input) cap
  | deflate => drainReaderLive (be.flate2.deflateDecoder input) cap
  | brotli => drainReaderLive (be.brotli.decompressor input Brotli.buf) cap
  | lz4 => drainReaderLive (be.lz4Flex.frameDecoder input) cap
  | lz4Block =>
      match Lz4.declaredSize input with
      | none => (.err (.corrupt "lz4 block too short for size prefix"), [])
      | some declared =>
          if declared > cap then (.err (.outputTooLarge cap), [])
          else (corruptErr (be.lz4Flex.decompressSizePrepended input), [declared.toNat])
  | snappy => drainReaderLive (be.snap.frameDecoder input) cap
  | snappyRaw =>
      match be.snap.decompressLen input with
      | .ok len =>
          if len > cap.toNat then (.err (.outputTooLarge cap), [])
          else (corruptErr (be.snap.decompressVec input), [len])
      | .error e => (.err (.corrupt e), [])
  | xz =>
      match be.xzBackend with
      | .lzmaRs => decodeIntoSinkLive (be.lzmaRs.xzDecompress input) cap
      | .liblzma => drainReaderLive (be.liblzma.xzDecoder input) cap
  | lzma => decodeIntoSinkLive (be.lzmaRs.lzmaDecompress input) cap
  | bzip2 => drainReaderLive (be.bzip2.bzDecoder input) cap

end Live

/-! ## Watching changes nothing -/

section Transparent

variable {be : Backends}

theorem copy_watched (r : Reads UInt8) (cap : UInt64) :
    (copy watched r (.new cap, []) 0).1 = (copy BoundedWriter.sink r (.new cap) 0).1
      ∧ (copy watched r (.new cap, []) 0).2.1 = (copy BoundedWriter.sink r (.new cap) 0).2 := by
  obtain ⟨hres, hstate⟩ := Sink.writeEach_probe (fun w => w.buf.length)
    BoundedWriter.sink_whole r.chunks (.new cap, [])
  rw [copy_eq, copy_eq]
  exact ⟨congrArg (· >>= _) hres, hstate⟩

theorem drainReaderLive_fst (r : Reads UInt8) (cap : UInt64) :
    (drainReaderLive r cap).1 = drainReader r cap := by
  obtain ⟨hres, hstate⟩ := copy_watched r cap
  rw [drainReaderLive, drainReader]
  rcases hw : copy watched r (.new cap, []) 0 with ⟨res, w, live⟩
  rcases hs : copy BoundedWriter.sink r (.new cap) 0 with ⟨res', w'⟩
  rw [hw, hs] at hres hstate
  obtain rfl : res = res' := hres
  obtain rfl : w = w' := hstate
  cases res <;> rfl

theorem decodeIntoSinkLive_fst (p : Writes String UInt8) (cap : UInt64) :
    (decodeIntoSinkLive p cap).1 = decodeIntoSink p cap := by
  obtain ⟨hres, hstate⟩ := Writes.run_probe (fun w => w.buf.length)
    BoundedWriter.sink_whole p (.new cap, [])
  rw [decodeIntoSinkLive, decodeIntoSink]
  rcases hw : p.run watched (.new cap, []) with ⟨res, w, live⟩
  rcases hs : p.run BoundedWriter.sink (.new cap) with ⟨res', w'⟩
  rw [watched] at hw
  rw [hw, hs] at hres hstate
  obtain rfl : res = res' := hres
  obtain rfl : w = w' := hstate
  cases res <;> rfl

/-- The watched decode returns what the decode returns. -/
theorem Codec.decompressLive_fst (c : Codec) (input : Bytes) (cap : UInt64) :
    (c.decompressLive be input cap).1 = c.decompress be input cap := by
  cases c with
  | zstd =>
      rw [Codec.decompress, Zstd.decompress_eq, Codec.decompressLive]
      cases be.zstd.decoder input with
      | ok r => exact drainReaderLive_fst r cap
      | error e => rfl
  | lz4Block =>
      rw [Codec.decompress, Lz4.decompressBlock, Codec.decompressLive]
      cases Lz4.declaredSize input with
      | none => rfl
      | some n => exact apply_ite Prod.fst (n > cap) _ _
  | snappyRaw =>
      rw [Codec.decompress, Snappy.decompressRaw, Codec.decompressLive]
      cases be.snap.decompressLen input with
      | ok n => exact apply_ite Prod.fst (n > cap.toNat) _ _
      | error e => rfl
  | xz =>
      rw [Codec.decompress, Xz.decompressXz, Codec.decompressLive]
      cases be.xzBackend with
      | lzmaRs => exact decodeIntoSinkLive_fst _ cap
      | liblzma => exact drainReaderLive_fst _ cap
  | lzma => exact decodeIntoSinkLive_fst _ cap
  | gzip | zlib | deflate | brotli | lz4 | snappy | bzip2 => exact drainReaderLive_fst _ cap

end Transparent

/-! ## What was alive -/

/-- The bytes a writer of this cap can come to hold. -/
def room (cap : UInt64) : Nat := min cap.toNat isizeMax

/-- The log of a run of slices, from any writer on. -/
theorem writeEach_watched : ∀ (ds : List Bytes) (w : BoundedWriter) (q : Quota UInt8)
    (live : List Nat), w.Models q →
    (watched.writeEach ds (w, live)).2.2 =
      live ++ reached (min q.limit isizeMax) q.kept.length ds
  | [], _, _, live, _ => (List.append_nil live).symm
  | [] :: ds, w, q, live, h => writeEach_watched ds w q live h
  | (a :: as) :: ds, w, q, live, h => by
      have hwhole : watched.Whole := Sink.probe_whole _ BoundedWriter.sink_whole
      have hall := Sink.writeAll_whole hwhole (w, live) (List.cons_ne_nil a as)
      change _ = ((w.write (a :: as)).1 >>= _,
        (w.write (a :: as)).2, live ++ [w.buf.length + (a :: as).length]) at hall
      rw [h.buf] at hall
      rw [Sink.writeEach, hall, reached]
      rcases BoundedWriter.write_cases h (a :: as) with
        ⟨q', ho, hr, hm, -⟩ | ⟨ho, hr⟩ | ⟨hb, -, hr⟩
      · obtain ⟨hlim, hkept⟩ := Quota.offer_eq_some.mp ho
        have hlen := congrArg List.length hkept
        rw [List.length_append] at hlen
        have hfit : q.kept.length + (a :: as).length ≤ min q.limit isizeMax := by
          have hfits := q'.fits
          have hmem := hm.inMemory
          omega
        rw [hr, if_pos hfit, ← hlen, ← hlim]
        exact (writeEach_watched ds _ q' _ hm).trans (List.append_assoc _ _ _)
      · have hover : ¬q.kept.length + (a :: as).length ≤ min q.limit isizeMax := by
          have hgt := Quota.offer_eq_none.mp ho
          omega
        rw [hr, if_neg hover]
        rfl
      · have hover : ¬q.kept.length + (a :: as).length ≤ min q.limit isizeMax := by omega
        rw [hr, if_neg hover]
        rfl

theorem writeEach_watched_new (ds : List Bytes) (cap : UInt64) :
    (watched.writeEach ds (.new cap, [])).2.2 = reached (room cap) 0 ds :=
  writeEach_watched ds _ _ [] (BoundedWriter.new_models cap)

theorem drainReaderLive_snd (r : Reads UInt8) (cap : UInt64) :
    (drainReaderLive r cap).2 = reached (room cap) 0 r.chunks := by
  have hcopy : (copy watched r (.new cap, []) 0).2.2 = reached (room cap) 0 r.chunks := by
    rw [copy_eq]
    exact writeEach_watched_new r.chunks cap
  rw [drainReaderLive, ← hcopy]
  rcases copy watched r (.new cap, []) 0 with ⟨_ | _ | _, w, live⟩ <;> rfl

theorem decodeIntoSinkLive_snd {p : Writes String UInt8} {ds : List Bytes}
    {res : Except String Unit} (hp : p.Scripted ds res) (cap : UInt64) :
    (decodeIntoSinkLive p cap).2 = reached (room cap) 0 ds := by
  have hrun : (p.run watched (.new cap, [])).2.2 = reached (room cap) 0 ds := by
    rw [(hp.run_eq (S := watched) (.new cap, [])).1]
    exact writeEach_watched_new ds cap
  rw [decodeIntoSinkLive, ← hrun]
  rcases p.run watched (.new cap, []) with ⟨_ | _ | _, w, live⟩ <;> rfl

theorem Streams.live_eq {be : Backends} {c : Codec} {input : Bytes} {ds : List Bytes}
    {ending : Except String Unit} (h : Streams be c input ds ending) (cap : UInt64) :
    (c.decompressLive be input cap).2 = reached (room cap) 0 ds := by
  have hdrain {r : Reads UInt8} (hr : Delivers r ds ending) :
      (drainReaderLive r cap).2 = reached (room cap) 0 ds := by
    rw [drainReaderLive_snd, hr.1]
  cases c with
  | zstd =>
      unfold Codec.decompressLive
      rw [Streams] at h
      cases hz : be.zstd.decoder input with
      | ok r => rw [hz] at h; exact hdrain h
      | error e => rw [hz] at h; obtain ⟨rfl, -⟩ := h; rfl
  | xz =>
      unfold Codec.decompressLive
      rw [Streams] at h
      cases hx : be.xzBackend with
      | lzmaRs => rw [hx] at h; exact decodeIntoSinkLive_snd h cap
      | liblzma => rw [hx] at h; exact hdrain h
  | lzma => exact decodeIntoSinkLive_snd h cap
  | lz4Block | snappyRaw => exact h.elim
  | gzip | zlib | deflate | brotli | lz4 | snappy | bzip2 => exact hdrain h

/-! ## The bound and its exception -/

/-- The buffer of `io::copy`. -/
def copyBuffer : Nat := 8 * 1024

/-- How large the slices are that are written at once: what one read puts
into the copy buffer, or an lzma window, whose size the header gives as a
`u32`. Of the slices lzma-rs writes for xz, its blocks, nothing is said. -/
structure SlicesBounded (be : Backends) : Prop where
  scripted : be.lzmaRs.IsScripted
  chunks : ∀ c input ds ending, c ≠ .lzma → ¬(c = .xz ∧ be.xzBackend = .lzmaRs) →
    Streams be c input ds ending → ∀ d ∈ ds, d.length ≤ copyBuffer
  window : ∀ input ds res, (be.lzmaRs.lzmaDecompress input).Scripted ds res →
    ∀ d ∈ ds, d.length ≤ 2 ^ 32 - 1

/-- At no step of the decode is more alive than the cap and `B` bytes. -/
def LiveWithin (be : Backends) (c : Codec) (input : Bytes) (cap : UInt64) (B : Nat) : Prop :=
  ∀ n ∈ (c.decompressLive be input cap).2, n ≤ cap.toNat + B

section Bound

variable {be : Backends}

theorem room_le (cap : UInt64) : room cap ≤ cap.toNat := Nat.min_le_left _ _

theorem live_lz4Block_le {input : Bytes} {cap : UInt64} :
    ∀ n ∈ (Codec.lz4Block.decompressLive be input cap).2, n ≤ cap.toNat := by
  intro n hn
  unfold Codec.decompressLive at hn
  cases hd : Lz4.declaredSize input with
  | none => rw [hd] at hn; cases hn
  | some d =>
      simp only [hd] at hn
      split at hn
      · cases hn
      · next hle =>
          obtain rfl := List.mem_singleton.mp hn
          exact UInt64.le_iff_toNat_le.mp (UInt64.not_lt.mp hle)

theorem live_snappyRaw_le {input : Bytes} {cap : UInt64} :
    ∀ n ∈ (Codec.snappyRaw.decompressLive be input cap).2, n ≤ cap.toNat := by
  intro n hn
  unfold Codec.decompressLive at hn
  cases hd : be.snap.decompressLen input with
  | error e => rw [hd] at hn; cases hn
  | ok d =>
      simp only [hd] at hn
      split at hn
      · cases hn
      · next hle =>
          obtain rfl := List.mem_singleton.mp hn
          exact Nat.not_lt.mp hle

/-- A streaming decode is alive beyond the cap by one slice at most. -/
theorem Streams.live_le {c : Codec} {input : Bytes} {ds : List Bytes}
    {ending : Except String Unit} (h : Streams be c input ds ending) {cap : UInt64} {B : Nat}
    (hds : ∀ d ∈ ds, d.length ≤ B) : LiveWithin be c input cap B := by
  intro n hn
  rw [h.live_eq, mem_reached_iff (Nat.zero_le _)] at hn
  obtain ⟨pre, b, post, rfl, -, hfit, rfl⟩ := hn
  have hb := hds b (by simp)
  have hroom := room_le cap
  omega

/-- **What is alive exceeds the cap by a constant** in every decode but
that of an xz block by lzma-rs: there the block itself has to be bounded,
if the blocks before it leave room for it to be decoded at all. -/
theorem live_bounded_iff (h : SlicesBounded be) {B : Nat} (hB : 2 ^ 32 - 1 ≤ B) (c : Codec)
    (input : Bytes) (cap : UInt64) :
    LiveWithin be c input cap B ↔
      (c = .xz → be.xzBackend = .lzmaRs → ∀ pre b post res,
        (be.lzmaRs.xzDecompress input).Scripted (pre ++ b :: post) res →
        pre.flatten.length ≤ room cap → pre.flatten.length + b.length ≤ cap.toNat + B) := by
  by_cases hxz : c = .xz ∧ be.xzBackend = .lzmaRs
  · obtain ⟨rfl, hlzma⟩ := hxz
    have hstream {ds res} (hs : (be.lzmaRs.xzDecompress input).Scripted ds res) :
        Streams be .xz input ds res := by rw [Streams, hlzma]; exact hs
    constructor
    · rintro hall - - pre b post res hs hpre
      by_cases hb : b = []
      · have hroom := room_le cap
        rw [hb, List.length_nil]
        omega
      · refine hall _ ?_
        rw [(hstream hs).live_eq, mem_reached_iff (Nat.zero_le _)]
        exact ⟨pre, b, post, rfl, hb, by omega, by omega⟩
    · intro hblocks n hn
      obtain ⟨ds, res, hs⟩ := h.scripted.1 input
      rw [(hstream hs).live_eq, mem_reached_iff (Nat.zero_le _)] at hn
      obtain ⟨pre, b, post, rfl, -, hfit, rfl⟩ := hn
      have hblock := hblocks rfl hlzma pre b post res hs (by omega)
      omega
  · refine iff_of_true ?_ fun hc hlzma => absurd ⟨hc, hlzma⟩ hxz
    by_cases hb : c = .lz4Block
    · subst hb
      exact fun n hn => Nat.le_trans (live_lz4Block_le n hn) (Nat.le_add_right _ _)
    by_cases hr : c = .snappyRaw
    · subst hr
      exact fun n hn => Nat.le_trans (live_snappyRaw_le n hn) (Nat.le_add_right _ _)
    obtain ⟨ds, ending, hs⟩ := exists_streams h.scripted hb hr input
    refine hs.live_le fun d hd => ?_
    by_cases hl : c = .lzma
    · subst hl
      exact Nat.le_trans (h.window input ds ending hs d hd) hB
    · refine Nat.le_trans (h.chunks c input ds ending hl hxz hs d hd) ?_
      unfold copyBuffer
      omega

end Bound

namespace Sample

theorem reads_chunks (found : Option Bytes) : ∀ d ∈ (reads found).chunks, d.length ≤ 2 := by
  cases found with
  | none => exact nofun
  | some x =>
      rw [(reads_delivers x).1]
      exact fun d hd => (chunks_short x d hd).2

theorem driven_slices {table : Table} {input : Bytes} {ds : List Bytes}
    {res : Except String Unit} (h : (driven table input).Scripted ds res) :
    ∀ d ∈ ds, d.length ≤ 2 := by
  rw [driven] at h
  split at h
  · next x _ =>
      obtain ⟨rfl, -⟩ := h.unique (Writes.scripted_script "write failed" (.ok ()) (chunks x))
      exact fun d hd => (chunks_short x d hd).2
  · cases h
    exact fun d hd => absurd hd List.not_mem_nil

theorem lzma_slices {input : Bytes} {ds : List Bytes} {res : Except String Unit}
    (h : (build.lzmaRs.lzmaDecompress input).Scripted ds res) : ∀ d ∈ ds, d.length ≤ 2 := by
  change (if lzmaSized.isPrefixOf input then Writes.script "write failed" [payload] (.ok ())
    else driven lzmaTable input).Scripted ds res at h
  split at h
  · obtain ⟨rfl, -⟩ := h.unique (Writes.scripted_script "write failed" (.ok ()) [payload])
    decide
  · exact driven_slices h

theorem slicesBounded : SlicesBounded build where
  scripted := isScripted
  chunks c input ds ending hl hxz hs := by
    have htwo : ∀ d ∈ ds, d.length ≤ 2 := by
      cases c with
      | zstd | gzip | zlib | deflate | brotli | lz4 | snappy | bzip2 =>
          rw [← hs.1]
          exact reads_chunks _
      | xz => exact absurd ⟨rfl, rfl⟩ hxz
      | lzma => exact absurd rfl hl
      | lz4Block | snappyRaw => exact hs.elim
    exact fun d hd => Nat.le_trans (htwo d hd) (by decide)
  window input ds res hs d hd := Nat.le_trans (lzma_slices hs d hd) (by decide)

end Sample

/-- `live_bounded_iff` on the xz stream of `"a"`, under a cap of no bytes. -/
theorem live_bounded_sample : LiveWithin Sample.build .xz Sample.xz 0 (2 ^ 32 - 1) := by
  refine (live_bounded_iff Sample.slicesBounded (Nat.le_refl _) .xz Sample.xz 0).mpr ?_
  rintro - - pre b post res hs -
  have hmem : (Sample.payload, Sample.xz) ∈ Sample.xzTable := List.mem_cons_self
  obtain ⟨hds, -⟩ := hs.unique (Sample.driven_scripts (by decide) hmem)
  have hlen := congrArg (List.length ∘ List.flatten) hds
  simp only [Function.comp, Sample.chunks_flatten, List.flatten_append, List.flatten_cons,
    List.length_append] at hlen
  have hone : Sample.payload.length = 1 := rfl
  omega

/-- The header of an xz stream. -/
def Sample.xzHeader : Bytes :=
  [0xfd, 0x37, 0x7a, 0x58, 0x5a, 0x00, 0x00, 0x04, 0xe6, 0xd6, 0xb4, 0x46]

/-- A build whose xz decoder takes what follows the stream header for one
block of stored bytes. This is no xz, and lzma-rs would refuse it: it stands
for a stream of one block, of which lzma-rs makes one slice. -/
def Sample.storedXz : Backends :=
  { Sample.build with
    lzmaRs :=
      { Sample.build.lzmaRs with
        xzDecompress := fun s =>
          if Sample.xzHeader <+: s then .script "write failed" [s.drop 12] (.ok ())
          else .done (.error "invalid stream") } }

theorem Sample.live_storedXz (block : Bytes) (hne : block ≠ []) (cap : UInt64) :
    block.length ∈ (Codec.xz.decompressLive Sample.storedXz (Sample.xzHeader ++ block) cap).2 := by
  have hs : Streams Sample.storedXz .xz (Sample.xzHeader ++ block) [block] (.ok ()) := by
    show Writes.Scripted (if Sample.xzHeader <+: Sample.xzHeader ++ block then
      .script "write failed" [block] (.ok ()) else .done (.error "invalid stream")) _ _
    rw [if_pos (List.prefix_append _ _)]
    exact Writes.scripted_script _ _ [block]
  rw [hs.live_eq, mem_reached_iff (Nat.zero_le _)]
  exact ⟨[], block, [], rfl, hne, Nat.zero_le _, by simp⟩

/-- No constant bounds what is alive beyond the cap. -/
theorem no_bound_on_xz_blocks :
    ¬∃ B : Nat, ∀ c input cap, LiveWithin Sample.storedXz c input cap B := by
  rintro ⟨B, h⟩
  have hlive := Sample.live_storedXz (List.replicate (B + 2) 0) (by simp) 1
  have hle := h .xz _ 1 _ hlive
  have hone : (1 : UInt64).toNat = 1 := rfl
  rw [List.length_replicate] at hle
  omega

end VgiCompress
