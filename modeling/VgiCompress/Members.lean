import VgiCompress.RoundTrip

/-!
# The size from the trailer

The gzip reader reports the end of its output after the first member,
wherever that is in the input. The drain loop takes the end of the output
for the end of the decode, and the trailer is read off the end of the
input, so the size rests on an unchecked guess: that the first member is
the whole input.

`drain_eq_ok_iff` says when a drain of such a reader succeeds, and
`size_agrees_iff` from it the exact inputs on which the guess is right.
-/

namespace VgiCompress

open RustStd

/-! ## Members -/

/-- The reader decodes the first member of its input, fails if there is
none, and stops at the member's end. `Member m x` says that `m` is a
complete member with payload `x`. -/
structure DecodesFirst (decoder : Bytes → Reads UInt8) (Member : Bytes → Bytes → Prop) :
    Prop where
  first : ∀ m x rest, Member m x →
    (decoder (m ++ rest)).output = x ∧ (decoder (m ++ rest)).ending = .ok ()
  only : ∀ input, (decoder input).ending = .ok () →
    ∃ m x rest, input = m ++ rest ∧ Member m x

section Drain

/-- Draining such a reader succeeds on an input that starts with a member
whose payload fits. -/
theorem DecodesFirst.drain_eq_ok_iff {decoder : Bytes → Reads UInt8}
    {Member : Bytes → Bytes → Prop} (h : DecodesFirst decoder Member) {input : Bytes}
    {cap : UInt64} {v : Bytes} :
    drainReader (decoder input) cap = .ok v ↔
      ∃ m rest, input = m ++ rest ∧ Member m v ∧ v.length ≤ cap.toNat
        ∧ v.length ≤ isizeMax := by
  rw [drainReader_eq_ok_iff]
  constructor
  · rintro ⟨rfl, hend, hcap, hmem⟩
    obtain ⟨m, x, rest, hinput, hm⟩ := h.only input hend
    have hx : (decoder input).output = x := by rw [hinput, (h.first m x rest hm).1]
    rw [hx] at hcap hmem ⊢
    exact ⟨m, rest, hinput, hm, hcap, hmem⟩
  · rintro ⟨m, rest, rfl, hm, hcap, hmem⟩
    obtain ⟨hout, hend⟩ := h.first m v rest hm
    exact ⟨hout.symm, hend, hcap, hmem⟩

end Drain

/-! ## The size and the decode -/

/-- The size answers as the decode does: its length, NULL for an output
past the cap, and else the same failure. -/
def SizeAgrees (size : Outcome CodecError (Option UInt64))
    (decoded : Outcome CodecError Bytes) : Prop :=
  match decoded with
  | .ok v => size = .ok (some (.ofNat v.length))
  | .err (.outputTooLarge _) => size = .ok none
  | .err e => size = .err e
  | .panic => size = .panic

section Size

variable {be : Backends}

theorem sizeAgrees_countUnderGuard (c : Codec) (input : Bytes) (cap : UInt64) :
    SizeAgrees (countUnderGuard be c input cap) (c.decompress be input cap) := by
  unfold countUnderGuard
  cases c.decompress be input cap with
  | ok v => rfl
  | err e => cases e <;> rfl
  | panic => rfl

/-- A size agrees with a decode of just that many bytes only. -/
theorem sizeAgrees_some_iff {n : UInt64} {decoded : Outcome CodecError Bytes} :
    SizeAgrees (.ok (some n)) decoded ↔ ∃ v, decoded = .ok v ∧ n = .ofNat v.length := by
  cases decoded with
  | ok v => simp [SizeAgrees]
  | err e => cases e <;> simp [SizeAgrees]
  | panic => simp [SizeAgrees]

theorem gzipIsize_lt {input : Bytes} {n : UInt64} (h : Flate.gzipIsize input = some n) :
    n.toNat < 2 ^ 32 := by
  rw [Flate.gzipIsize] at h
  split at h
  · cases h
  · cases h
    exact UInt32.toNat_lt _

theorem decompressedSize_gzip (codec : String) (hc : Codec.parse codec = .ok .gzip)
    (input : Bytes) (cap : UInt64) :
    decompressedSize be codec input cap =
      match Flate.gzipIsize input with
      | some n => if n ≤ cap then .ok (some n) else countUnderGuard be .gzip input cap
      | none => countUnderGuard be .gzip input cap := by
  rw [decompressedSize, hc, Outcome.ok_bind]
  exact if_pos rfl

/-- The trailer is right about a drain when a first member is that long. -/
theorem sizeAgrees_trailer_iff {decoder : Bytes → Reads UInt8} {Member : Bytes → Bytes → Prop}
    (h : DecodesFirst decoder Member) {input : Bytes} {cap n : UInt64}
    (hn : Flate.gzipIsize input = some n) (hle : n ≤ cap) :
    SizeAgrees (.ok (some n)) (drainReader (decoder input) cap) ↔
      ∃ m x rest, input = m ++ rest ∧ Member m x ∧ x.length = n.toNat := by
  rw [sizeAgrees_some_iff]
  constructor
  · rintro ⟨v, hv, rfl⟩
    obtain ⟨m, rest, hinput, hm, -, hmem⟩ := h.drain_eq_ok_iff.mp hv
    refine ⟨m, v, rest, hinput, hm, ?_⟩
    rw [isizeMax] at hmem
    rw [UInt64.toNat_ofNat']
    omega
  · rintro ⟨m, x, rest, hinput, hm, hlen⟩
    have hlt := gzipIsize_lt hn
    have hcap : x.length ≤ cap.toNat := by
      rw [hlen]; exact UInt64.le_iff_toNat_le.mp hle
    have hmem : x.length ≤ isizeMax := by rw [isizeMax]; omega
    refine ⟨x, h.drain_eq_ok_iff.mpr ⟨m, rest, hinput, hm, hcap, hmem⟩, ?_⟩
    rw [hlen, UInt64.ofNat_toNat]

/-- The size of a gzip input agrees with its decode where the trailer,
if it is within the cap, is right about a first member. -/
theorem sizeAgrees_gzip_iff {Member : Bytes → Bytes → Prop}
    (hgz : DecodesFirst be.flate2.gzDecoder Member) {codec : String}
    (hc : Codec.parse codec = .ok .gzip) (input : Bytes) (cap : UInt64) :
    SizeAgrees (decompressedSize be codec input cap) (decompress be codec input cap) ↔
      ∀ n, Flate.gzipIsize input = some n → n ≤ cap →
        ∃ m x rest, input = m ++ rest ∧ Member m x ∧ x.length = n.toNat := by
  have hdecode : Codec.gzip.decompress be input cap =
      drainReader (be.flate2.gzDecoder input) cap := rfl
  rw [decompress_of_parse hc, decompressedSize_gzip codec hc]
  cases hn : Flate.gzipIsize input with
  | none =>
      refine iff_of_true (sizeAgrees_countUnderGuard .gzip input cap) ?_
      intro n hnone
      cases hnone
  | some n =>
      by_cases hle : n ≤ cap
      · simp only [if_pos hle]
        rw [hdecode, sizeAgrees_trailer_iff hgz hn hle]
        constructor
        · rintro h m hm -
          obtain rfl := Option.some.inj hm
          exact h
        · intro h
          exact h n rfl hle
      · simp only [if_neg hle]
        refine iff_of_true (sizeAgrees_countUnderGuard .gzip input cap) ?_
        intro m hm hmle
        exact absurd (Option.some.inj hm ▸ hmle) hle

/-- **The size agrees with the decode** except on gzip input whose last
four bytes pass for a size within the cap without being the length of a
first member's payload. -/
theorem size_agrees_iff {Member : Bytes → Bytes → Prop}
    (hgz : DecodesFirst be.flate2.gzDecoder Member) (codec : String) (input : Bytes)
    (cap : UInt64) :
    SizeAgrees (decompressedSize be codec input cap) (decompress be codec input cap) ↔
      (Codec.parse codec = .ok .gzip → ∀ n, Flate.gzipIsize input = some n → n ≤ cap →
        ∃ m x rest, input = m ++ rest ∧ Member m x ∧ x.length = n.toNat) := by
  rcases Codec.parse_cases codec with ⟨c, hc⟩ | hc
  · by_cases hgzip : c = .gzip
    · subst hgzip
      rw [sizeAgrees_gzip_iff hgz hc]
      exact ⟨fun h _ => h, fun h => h hc⟩
    · have hsize : decompressedSize be codec input cap = countUnderGuard be c input cap := by
        rw [decompressedSize, hc, Outcome.ok_bind]
        exact if_neg hgzip
      rw [hsize, decompress_of_parse hc]
      refine iff_of_true (sizeAgrees_countUnderGuard c input cap) ?_
      intro hparse
      rw [hc] at hparse
      exact absurd (Outcome.ok.inj hparse) hgzip
  · rw [decompressedSize, decompress, hc]
    refine iff_of_true rfl ?_
    intro hgzip
    cases hgzip

/-- A member alone has the size that it decodes to, up to the width of the
trailer, if the reader refuses a trailer that is wrong. -/
theorem sizeAgrees_member {Member : Bytes → Bytes → Prop}
    (hgz : DecodesFirst be.flate2.gzDecoder Member)
    (htrailer : ∀ m x n, Member m x → Flate.gzipIsize m = some n →
      n.toNat = x.length % 2 ^ 32)
    {codec : String} (hc : Codec.parse codec = .ok .gzip) {m x : Bytes} (hm : Member m x)
    (hx : x.length < 2 ^ 32) (cap : UInt64) :
    SizeAgrees (decompressedSize be codec m cap) (decompress be codec m cap) := by
  refine (sizeAgrees_gzip_iff hgz hc m cap).mpr fun n hn _ => ?_
  refine ⟨m, x, [], (List.append_nil m).symm, hm, ?_⟩
  rw [htrailer m x n hm hn, Nat.mod_eq_of_lt hx]

end Size

namespace Sample

theorem first_decodesFirst {table : Table} (h : PrefixFree table) :
    DecodesFirst (first table) fun m x => (x, m) ∈ table where
  first m x rest hm := by
    obtain ⟨hchunks, hending⟩ := first_delivers h hm rest
    refine ⟨?_, mapError_eq_ok_iff.mp hending⟩
    rw [Reads.output, hchunks, chunks_flatten]
  only input hend := by
    cases hfound : decode (·.isPrefixOf input) table with
    | none =>
        rw [Sample.first, hfound] at hend
        cases hend
    | some x =>
        obtain ⟨m, hm, rest, rfl⟩ := (decode_first h).mp hfound
        exact ⟨m, x, rest, rfl, hm⟩

end Sample

/-- `size_agrees_iff` on the gzip stream of `"a"`. -/
theorem size_agrees_sample :
    SizeAgrees (decompressedSize Sample.build "gzip" Sample.gzip 10)
      (decompress Sample.build "gzip" Sample.gzip 10) := by
  have hfirst : DecodesFirst Sample.build.flate2.gzDecoder fun m x => (x, m) ∈ Sample.gzipTable :=
    Sample.first_decodesFirst (by decide)
  refine (size_agrees_iff hfirst "gzip" _ _).mpr ?_
  rintro - n hn -
  obtain rfl : 1 = n := Option.some.inj hn
  exact ⟨Sample.gzip, Sample.payload, [], rfl, List.mem_cons_self, rfl⟩

/-- Eight zero bytes have a size, and are no gzip stream. -/
theorem zeros_have_a_gzip_size :
    decompressedSize Sample.build "gzip" (List.replicate 8 0) defaultMaxOutputBytes
        = .ok (some 0)
      ∧ decompress Sample.build "gzip" (List.replicate 8 0) defaultMaxOutputBytes
        = .err (.corrupt "invalid stream")
      ∧ ¬SizeAgrees
          (decompressedSize Sample.build "gzip" (List.replicate 8 0) defaultMaxOutputBytes)
          (decompress Sample.build "gzip" (List.replicate 8 0) defaultMaxOutputBytes) := by
  have hsize : decompressedSize Sample.build "gzip" (List.replicate 8 0) defaultMaxOutputBytes
      = .ok (some 0) := by decide +kernel
  have hfull : decompress Sample.build "gzip" (List.replicate 8 0) defaultMaxOutputBytes
      = .err (.corrupt "invalid stream") := by decide +kernel
  refine ⟨hsize, hfull, ?_⟩
  rw [hsize, hfull]
  exact nofun

end VgiCompress
