import VgiCompress.Samples

/-!
# What the cap does to a decode

The cap bounds the output of every decode (`decode_within_cap`), and
raising it changes no answer but "too large" (`raising_the_cap`). Both
hold for the codec named by the caller and for the one `decompress_auto`
detects; detection itself never sees the caller's cap.
-/

namespace VgiCompress

open RustStd

section Caps

variable {be : Backends}

/-- The decode was refused as too large. -/
def IsTooLarge (res : Outcome CodecError Bytes) : Prop :=
  ∃ c, res = .err (.outputTooLarge c)

/-- **The bomb guard bounds every decode.** The readers and the
lzma-rs decoders are arbitrary here; the two block decoders are trusted
with the length their input declares. -/
theorem decode_within_cap (hlz4 : be.lz4Flex.PrefixBounds) (hsnap : be.snap.LenExact)
    (codec : String) (input : Bytes) (cap : UInt64) :
    WithinCap (decompress be codec input cap) cap
      ∧ WithinCap (decompressAuto be input cap) cap := by
  constructor
  · rcases Codec.parse_cases codec with ⟨c, hc⟩ | hc
    · rw [decompress_of_parse hc]
      exact c.decompress_withinCap hlz4 hsnap input cap
    · rw [decompress_of_err hc]
      exact withinCap_err (by simp) cap
  · rw [decompressAuto]
    cases detect be input with
    | some c => exact c.decompress_withinCap hlz4 hsnap input cap
    | none => exact withinCap_err (by simp) cap

/-- `decode_within_cap` on the lz4 block of `"a"`. -/
theorem decode_within_cap_sample :
    decompress Sample.build "lz4_block" [0x01, 0x00, 0x00, 0x00, 0x10, 0x61] 1 = .ok [0x61]
      ∧ WithinCap
          (decompress Sample.build "lz4_block" [0x01, 0x00, 0x00, 0x00, 0x10, 0x61] 1) 1 :=
  ⟨by decide +kernel, (decode_within_cap Sample.prefixBounds Sample.lenExact _ _ _).1⟩

/-! ## What a decode accepts -/

/-- The bytes that the sink of a drain has taken by its end, however it
ends. -/
def drainAccepted (reader : Reads UInt8) (cap : UInt64) : Bytes :=
  (copy BoundedWriter.sink reader (.new cap) 0).2.buf

def sinkAccepted (decoder : Writes String UInt8) (cap : UInt64) : Bytes :=
  (decoder.run BoundedWriter.sink (.new cap)).2.buf

/-- The output that a decode accepts, also where it goes on to fail. -/
def Codec.accepted (be : Backends) (c : Codec) (input : Bytes) (cap : UInt64) : Bytes :=
  match c with
  | zstd =>
      match be.zstd.decoder input with
      | .ok decoder => drainAccepted decoder cap
      | .error _ => []
  | gzip => drainAccepted (be.flate2.gzDecoder input) cap
  | zlib => drainAccepted (be.flate2.zlibDecoder input) cap
  | deflate => drainAccepted (be.flate2.deflateDecoder input) cap
  | brotli => drainAccepted (be.brotli.decompressor input Brotli.buf) cap
  | lz4 => drainAccepted (be.lz4Flex.frameDecoder input) cap
  | lz4Block | snappyRaw =>
      match c.decompress be input cap with
      | .ok v => v
      | .err _ | .panic => []
  | snappy => drainAccepted (be.snap.frameDecoder input) cap
  | xz =>
      match be.xzBackend with
      | .lzmaRs => sinkAccepted (be.lzmaRs.xzDecompress input) cap
      | .liblzma => drainAccepted (be.liblzma.xzDecoder input) cap
  | lzma => sinkAccepted (be.lzmaRs.lzmaDecompress input) cap
  | bzip2 => drainAccepted (be.bzip2.bzDecoder input) cap

theorem length_drainAccepted_le (r : Reads UInt8) (cap : UInt64) :
    (drainAccepted r cap).length ≤ cap.toNat := by
  rw [drainAccepted, copy_eq]
  exact (Sink.writeEach_inv BoundedWriter.sink_whole holds_write r.chunks (holds_new cap)).length_le

theorem length_sinkAccepted_le (p : Writes String UInt8) (cap : UInt64) :
    (sinkAccepted p cap).length ≤ cap.toNat :=
  (Writes.run_inv BoundedWriter.sink_whole holds_write p (holds_new cap)).length_le

/-- No decode accepts more than its cap. -/
theorem Codec.length_accepted_le (hlz4 : be.lz4Flex.PrefixBounds) (hsnap : be.snap.LenExact)
    (c : Codec) (input : Bytes) (cap : UInt64) : (c.accepted be input cap).length ≤ cap.toNat := by
  have hblock : (match c.decompress be input cap with
      | .ok v => v
      | .err _ | .panic => []).length ≤ cap.toNat := by
    cases hv : c.decompress be input cap with
    | ok v => exact (c.decompress_withinCap hlz4 hsnap input cap).1 v hv
    | err e => exact Nat.zero_le _
    | panic => exact Nat.zero_le _
  cases c with
  | zstd =>
      rw [accepted]
      split
      · exact length_drainAccepted_le _ cap
      · exact Nat.zero_le _
  | xz =>
      rw [accepted]
      split
      · exact length_sinkAccepted_le _ cap
      · exact length_drainAccepted_le _ cap
  | lzma => exact length_sinkAccepted_le _ cap
  | lz4Block | snappyRaw => exact hblock
  | gzip | zlib | deflate | brotli | lz4 | snappy | bzip2 => exact length_drainAccepted_le _ cap

theorem drainAccepted_of_ok {r : Reads UInt8} {cap : UInt64} {v : Bytes}
    (h : drainReader r cap = .ok v) : drainAccepted r cap = v := by
  rw [drainReader] at h
  rw [drainAccepted]
  generalize copy BoundedWriter.sink r (.new cap) 0 = run at h ⊢
  rcases run with ⟨_ | _ | _, w⟩
  · exact Outcome.ok.inj h
  · simp only at h
    split at h <;> cases h
  · cases h

theorem sinkAccepted_of_ok {p : Writes String UInt8} {cap : UInt64} {v : Bytes}
    (h : decodeIntoSink p cap = .ok v) : sinkAccepted p cap = v := by
  rw [decodeIntoSink] at h
  rw [sinkAccepted]
  generalize p.run BoundedWriter.sink (.new cap) = run at h ⊢
  rcases run with ⟨_ | _ | _, w⟩
  · exact Outcome.ok.inj h
  · simp only [finishSink] at h
    split at h <;> cases h
  · cases h

/-- What a decode returns is what it has accepted. -/
theorem Codec.accepted_of_ok {c : Codec} {input v : Bytes} {cap : UInt64}
    (h : c.decompress be input cap = .ok v) : c.accepted be input cap = v := by
  cases c with
  | zstd =>
      rw [decompress, Zstd.decompress_eq] at h
      rw [accepted]
      cases hr : be.zstd.decoder input with
      | ok r => rw [hr] at h; exact drainAccepted_of_ok h
      | error e => rw [hr] at h; cases h
  | xz =>
      rw [decompress, Xz.decompressXz] at h
      rw [accepted]
      cases hx : be.xzBackend with
      | lzmaRs => rw [hx] at h; exact sinkAccepted_of_ok h
      | liblzma => rw [hx] at h; exact drainAccepted_of_ok h
  | lzma => exact sinkAccepted_of_ok h
  | lz4Block | snappyRaw => rw [accepted, h]
  | gzip | zlib | deflate | brotli | lz4 | snappy | bzip2 => exact drainAccepted_of_ok h

/-! ## Raising the cap -/

/-- Raising the cap from one that does not say "too large". -/
theorem eq_of_tooLarge_or_eq {res₁ res₂ : Outcome CodecError Bytes} {c : UInt64}
    (h : res₁ = .err (.outputTooLarge c) ∨ res₂ = res₁) :
    (¬IsTooLarge res₁ → res₂ = res₁) ∧ (IsTooLarge res₂ → IsTooLarge res₁) := by
  rcases h with h | h
  · exact ⟨fun hn => absurd ⟨c, h⟩ hn, fun _ => ⟨c, h⟩⟩
  · exact ⟨fun _ => h, fun ht => h ▸ ht⟩

/-- **Raising the cap never changes an answer other than "too large"**,
on any input, well formed or not. -/
theorem raising_the_cap (h : be.lzmaRs.IsScripted) (codec : String) (input : Bytes)
    {c₁ c₂ : UInt64} (hc : c₁ ≤ c₂) :
    ((¬IsTooLarge (decompress be codec input c₁) →
        decompress be codec input c₂ = decompress be codec input c₁)
      ∧ (IsTooLarge (decompress be codec input c₂) →
        IsTooLarge (decompress be codec input c₁)))
    ∧ ((¬IsTooLarge (decompressAuto be input c₁) →
        decompressAuto be input c₂ = decompressAuto be input c₁)
      ∧ (IsTooLarge (decompressAuto be input c₂) →
        IsTooLarge (decompressAuto be input c₁))) := by
  constructor
  · apply eq_of_tooLarge_or_eq (c := c₁)
    rcases Codec.parse_cases codec with ⟨c, hp⟩ | hp
    · rw [decompress_of_parse hp, decompress_of_parse hp]
      exact c.decompress_mono h input hc
    · rw [decompress_of_err hp, decompress_of_err hp]
      exact .inr rfl
  · apply eq_of_tooLarge_or_eq (c := c₁)
    rw [decompressAuto, decompressAuto]
    cases detect be input with
    | some c => exact c.decompress_mono h input hc
    | none => exact .inr rfl

/-- `raising_the_cap` on the zlib stream of `"a"`, from 1 byte to 2. -/
theorem raising_the_cap_sample :
    decompress Sample.build "zlib" Sample.zlib 2 = decompress Sample.build "zlib" Sample.zlib 1
      ∧ decompress Sample.build "zlib" Sample.zlib 1 = .ok [0x61] := by
  have hok : decompress Sample.build "zlib" Sample.zlib 1 = .ok [0x61] := by decide +kernel
  have hn : ¬IsTooLarge (decompress Sample.build "zlib" Sample.zlib 1) := by
    rw [hok]; exact nofun
  exact ⟨(raising_the_cap Sample.isScripted "zlib" Sample.zlib (by decide)).1.1 hn, hok⟩

end Caps

end VgiCompress
