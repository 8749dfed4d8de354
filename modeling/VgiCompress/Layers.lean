import VgiCompress.Stored

/-!
# Streams within streams

`compress` may be given what another `compress` made, and so on, and a
query unwinds such a nest by as many calls of `decompress`, or of
`decompress_auto`. The cap holds for each of these calls, so the outermost
stream that is over it ends them all: `unnest_nest`.
-/

namespace VgiCompress

open RustStd

/-- One `compress` of a nest. -/
structure Layer where
  codec : String
  level : Option Int32

section Nest

variable (be : Backends)

/-- The layers around a payload, the innermost first: what each of them was
given and made, and the last stream. -/
def nest : List Layer → Bytes → Outcome CodecError (List (Bytes × Bytes) × Bytes)
  | [], x => pure ([], x)
  | layer :: layers, x => do
      let s ← compress be layer.codec x layer.level
      let (log, out) ← nest layers s
      pure ((x, s) :: log, out)

/-- A nest unwound by a decode for each layer, the outermost first. -/
def unnest (decode : Layer → Bytes → Outcome CodecError Bytes) :
    List Layer → Bytes → Outcome CodecError Bytes
  | [], s => pure s
  | layer :: layers, s => do
      let t ← unnest decode layers s
      decode layer t

/-- The innermost payload, if every layer's payload is within the cap. -/
def nestUnder (cap : UInt64) (log : List (Bytes × Bytes)) (x : Bytes) :
    Outcome CodecError Bytes :=
  if ∀ p ∈ log, p.1.length ≤ cap.toNat then .ok x else .err (.outputTooLarge cap)

theorem nestUnder_cons (cap : UInt64) (log : List (Bytes × Bytes)) (x s : Bytes) :
    nestUnder cap ((x, s) :: log) x = (nestUnder cap log s >>= fun _ => payloadUnder x cap) := by
  have hcons : (∀ p ∈ (x, s) :: log, p.1.length ≤ cap.toNat)
      ↔ x.length ≤ cap.toNat ∧ ∀ p ∈ log, p.1.length ≤ cap.toNat := List.forall_mem_cons
  rw [nestUnder, nestUnder, payloadUnder]
  by_cases hrest : ∀ p ∈ log, p.1.length ≤ cap.toNat
  · rw [if_pos hrest, Outcome.ok_bind]
    exact if_congr (hcons.trans (and_iff_left hrest)) rfl rfl
  · rw [if_neg hrest, Outcome.err_bind, if_neg fun h => hrest (hcons.mp h).2]

variable {be}

/-- A decode that takes each layer of a nest back takes the nest back. -/
theorem unnest_of_layers {decode : Layer → Bytes → Outcome CodecError Bytes} {cap : UInt64}
    {layers : List Layer} {x : Bytes} {log : List (Bytes × Bytes)} {s : Bytes}
    (h : nest be layers x = .ok (log, s))
    (hlayer : ∀ layer ∈ layers, ∀ p ∈ log, compress be layer.codec p.1 layer.level = .ok p.2 →
      decode layer p.2 = payloadUnder p.1 cap) :
    unnest decode layers s = nestUnder cap log x := by
  induction layers generalizing x log with
  | nil =>
      obtain ⟨rfl, rfl⟩ := Prod.mk.inj (Outcome.ok.inj h)
      exact (if_pos (by simp)).symm
  | cons layer layers ih =>
      obtain ⟨t, ht, h⟩ := Outcome.bind_eq_ok.mp h
      obtain ⟨⟨log', s'⟩, hrest, h⟩ := Outcome.bind_eq_ok.mp h
      obtain ⟨rfl, rfl⟩ := Prod.mk.inj (Outcome.ok.inj h)
      have hinner := ih hrest fun l hl p hp =>
        hlayer l (List.mem_cons_of_mem _ hl) p (List.mem_cons_of_mem _ hp)
      rw [unnest, hinner, nestUnder_cons]
      rw [nestUnder]
      split
      · exact hlayer layer List.mem_cons_self (x, t) List.mem_cons_self ht
      · rfl

/-- **A nest of streams is unwound call by call**, by the codecs' names or,
where every stream shows its codec, by detection: to the payload if what
each call answers is within the cap, and to "too large" if not. -/
theorem unnest_nest (hinv : EncodersInvert be) {layers : List Layer} {x : Bytes}
    {log : List (Bytes × Bytes)} {s : Bytes} (h : nest be layers x = .ok (log, s))
    (hshort : ∀ p ∈ log, p.1.length < 2 ^ 32) (cap : UInt64) :
    unnest (fun layer s => decompress be layer.codec s cap) layers s = nestUnder cap log x
    ∧ (EncodersMark be →
      (∀ layer ∈ layers, ∃ c, Codec.parse layer.codec = .ok c ∧ MagicBearing c) →
      (∀ p ∈ log, p.2 ≠ []) →
      unnest (fun _ s => decompressAuto be s cap) layers s = nestUnder cap log x) := by
  constructor
  · refine unnest_of_layers h fun layer _ p hp hs => ?_
    obtain ⟨c, hc, hs⟩ := compress_eq_ok.mp hs
    rw [decompress_of_parse hc]
    exact Codec.decompress_compress hinv (hshort p hp) hs cap
  · intro hmark hmagic hne
    refine unnest_of_layers h fun layer hl p hp hs => ?_
    obtain ⟨c, hc, hbears⟩ := hmagic layer hl
    rw [compress_of_parse hc] at hs
    rw [decompressAuto_of_detect (detect_packed hinv hmark hbears (hshort p hp) hs (hne p hp))]
    exact Codec.decompress_compress hinv (hshort p hp) hs cap

end Nest

/-- `unnest_nest` on a gzip stream in a block, under the length of `"a"`,
which the gzip stream is longer than, and under that of the gzip stream. -/
theorem unnest_nest_sample :
    nestUnder 1 [([0x61], Sample.gzip), (Sample.gzip, Sample.lz4Block Sample.gzip)] [0x61]
        = .err (.outputTooLarge 1)
      ∧ unnest (fun layer s => decompress Sample.build layer.codec s 21)
        [⟨"gzip", none⟩, ⟨"lz4_block", none⟩] (Sample.lz4Block Sample.gzip) = .ok [0x61] := by
  have hnest : nest Sample.build [⟨"gzip", none⟩, ⟨"lz4_block", none⟩] [0x61]
      = .ok ([([0x61], Sample.gzip), (Sample.gzip, Sample.lz4Block Sample.gzip)],
        Sample.lz4Block Sample.gzip) := rfl
  refine ⟨rfl, ?_⟩
  exact (unnest_nest Sample.encodersInvert hnest (by decide) 21).1

end VgiCompress
