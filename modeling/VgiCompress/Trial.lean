import VgiCompress.Caps
import VgiCompress.Detection

/-!
# The trial decode

The zlib and lzma headers are weak, so `detect` believes them only after a
decode under `trialCap`. The trial and the decode that follows are two
runs of one decoder under different caps, and a run under a smaller cap
can only stop earlier (`Codec.decompress_mono`): what passed the trial is
never malformed as far as a smaller cap lets it be read.

Detection misses nothing either, since no other header can claim the same
bytes first (`detect_eq_some_iff`).
-/

namespace VgiCompress

open RustStd

/-- The decode came to an end, or ran into its cap. -/
def EndsOrTooLarge (res : Outcome CodecError Bytes) : Prop :=
  (∃ v, res = .ok v) ∨ IsTooLarge res

/-- The codecs whose header is confirmed by a trial, with the test the
header has to pass. -/
def weakHeader : Codec → Bytes → Bool
  | .zlib, x => looksLikeZlib x
  | .lzma, x => 13 ≤ x.length && x.getD 0 0 == 0x5d
  | _, _ => false

theorem header_of_weakHeader {c : Codec} {x : Bytes} (h : weakHeader c x = true) :
    Header c x := by
  cases c with
  | zlib => exact (looksLikeZlib_iff x).mp h
  | lzma => exact (lzma_header_iff x).mp h
  | _ => cases h

section Trial

variable {be : Backends} {c : Codec} {x : Bytes}

theorem trialOk_iff : trialOk be c x = true ↔ EndsOrTooLarge (c.decompress be x trialCap) := by
  unfold trialOk EndsOrTooLarge IsTooLarge
  cases c.decompress be x trialCap with
  | ok v => simp
  | err e => cases e <;> simp
  | panic => simp

/-- A trial that succeeds speaks for every smaller cap. -/
theorem EndsOrTooLarge.of_le (hscript : be.lzmaRs.IsScripted) {c₁ c₂ : UInt64} (hle : c₁ ≤ c₂)
    (h : EndsOrTooLarge (c.decompress be x c₂)) : EndsOrTooLarge (c.decompress be x c₁) := by
  rcases c.decompress_mono hscript x hle with htooLarge | heq
  · exact .inr ⟨c₁, htooLarge⟩
  · rw [heq] at h
    exact h

/-- **Weak headers are sound and complete.** What is detected as zlib or
lzma decodes as such, up to the trial cap; what has the header and decodes
under that cap is detected; and the name reported is the codec that
`decompress_auto` uses. -/
theorem weak_magic_sound_complete (hscript : be.lzmaRs.IsScripted) (x : Bytes) :
    (∀ c, c = .zlib ∨ c = .lzma → detect be x = some c → ∀ cap : UInt64, cap ≤ trialCap →
      EndsOrTooLarge (decompressAuto be x cap))
    ∧ (∀ c, weakHeader c x = true → EndsOrTooLarge (decompress be c.name x trialCap) →
      detect be x = some c)
    ∧ ∀ n, detectCodec be x = some n → ∀ cap : UInt64,
      decompressAuto be x cap = decompress be n x cap := by
  have hname (c : Codec) (cap : UInt64) : decompress be c.name x cap = c.decompress be x cap :=
    decompress_of_parse c.parse_name x cap
  refine ⟨?_, ?_, ?_⟩
  · intro c hweak hdetect cap hle
    obtain ⟨-, htrial⟩ := detect_eq_some_iff.mp hdetect
    rw [decompressAuto_of_detect hdetect]
    exact .of_le hscript hle (trialOk_iff.mp (htrial hweak))
  · intro c hheader hends
    rw [hname] at hends
    exact detect_eq_some_iff.mpr
      ⟨header_of_weakHeader hheader, fun _ => trialOk_iff.mpr hends⟩
  · intro n hn cap
    obtain ⟨c, hdetect, rfl⟩ := Option.map_eq_some_iff.mp hn
    rw [hname, decompressAuto_of_detect hdetect]

end Trial

/-- `weak_magic_sound_complete` on the zlib stream of `"a"`. -/
theorem weak_magic_sample :
    detect Sample.build Sample.zlib = some .zlib
      ∧ EndsOrTooLarge (decompressAuto Sample.build Sample.zlib 0)
      ∧ decompressAuto Sample.build Sample.zlib 7
        = decompress Sample.build "zlib" Sample.zlib 7 := by
  obtain ⟨hsound, hcomplete, hauto⟩ := weak_magic_sound_complete Sample.isScripted Sample.zlib
  have hends : EndsOrTooLarge (decompress Sample.build "zlib" Sample.zlib trialCap) :=
    .inl ⟨[0x61], by decide +kernel⟩
  have hdetect := hcomplete .zlib (by decide) hends
  refine ⟨hdetect, hsound .zlib (.inl rfl) hdetect 0 (by decide), ?_⟩
  exact hauto "zlib" (by rw [detectCodec, hdetect]; rfl) 7

end VgiCompress
