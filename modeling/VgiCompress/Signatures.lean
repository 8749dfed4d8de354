import VgiCompress.FirstMatch
import VgiCompress.Footprint
import VgiCompress.Trial

/-!
# What detection looks at

`detect` as a list of rules, a signature for each codec, of which no two
match the same bytes: `signatures_in_any_order`. And what a detection
costs: it reads thirteen bytes, and decodes something only where these
have a weak header, once and under the trial cap (`detection_reads`).
-/

namespace VgiCompress

open RustStd FirstMatch

/-! ## Signatures as rules -/

/-- The tests of `detect`, in the order of the source. -/
def signatures (be : Backends) : List (Rule Bytes Codec) :=
  [⟨[0xff, 0x06, 0x00, 0x00, 0x73, 0x4e, 0x61, 0x50, 0x70, 0x59].isPrefixOf, .snappy⟩,
    ⟨[0xfd, 0x37, 0x7a, 0x58, 0x5a, 0x00].isPrefixOf, .xz⟩,
    ⟨[0x04, 0x22, 0x4d, 0x18].isPrefixOf, .lz4⟩,
    ⟨[0x28, 0xb5, 0x2f, 0xfd].isPrefixOf, .zstd⟩,
    ⟨fun x => 4 ≤ x.length && x.take 3 == [0x42, 0x5a, 0x68] && 0x31 ≤ x.getD 3 0
      && x.getD 3 0 ≤ 0x39, .bzip2⟩,
    ⟨[0x1f, 0x8b].isPrefixOf, .gzip⟩,
    ⟨fun x => looksLikeZlib x && trialOk be .zlib x, .zlib⟩,
    ⟨fun x => 13 ≤ x.length && x.getD 0 0 == 0x5d && trialOk be .lzma x, .lzma⟩]

section Rules

variable {be : Backends}

theorem detect_eq_firstMatch (x : Bytes) : detect be x = firstMatch (signatures be) x := by
  simp only [signatures, firstMatch_cons]
  rfl

/-- What matches a signature has the header. -/
theorem header_of_signature {r : Rule Bytes Codec} (hr : r ∈ signatures be) {x : Bytes}
    (h : r.test x = true) : Header r.answer x := by
  simp only [signatures, List.mem_cons, List.not_mem_nil, or_false] at hr
  rcases hr with rfl | rfl | rfl | rfl | rfl | rfl | rfl | rfl
  · exact List.isPrefixOf_iff_prefix.mp h
  · exact List.isPrefixOf_iff_prefix.mp h
  · exact List.isPrefixOf_iff_prefix.mp h
  · exact List.isPrefixOf_iff_prefix.mp h
  · exact (bzip2_header_iff x).mp h
  · exact List.isPrefixOf_iff_prefix.mp h
  · exact (looksLikeZlib_iff x).mp (Bool.and_eq_true_iff.mp h).1
  · exact (lzma_header_iff x).mp (Bool.and_eq_true_iff.mp h).1

theorem signatures_exclusive (be : Backends) : Exclusive (signatures be) :=
  fun _ hr _ hs _ h h' => (header_of_signature hr h).unique (header_of_signature hs h')

/-- **The signatures may be tested in any order**, the short ones before the
long ones too. -/
theorem signatures_in_any_order {rules : List (Rule Bytes Codec)}
    (h : rules.Perm (signatures be)) (x : Bytes) : firstMatch rules x = detect be x := by
  rw [detect_eq_firstMatch]
  exact (signatures_exclusive be).firstMatch_congr h.subset h.symm.subset

end Rules

/-- `signatures_in_any_order`, from the last to the first. -/
theorem signatures_in_any_order_sample :
    firstMatch (signatures Sample.build).reverse Sample.zlib
      = detect Sample.build Sample.zlib :=
  signatures_in_any_order (List.reverse_perm _) Sample.zlib

/-! ## How much is read -/

/-- A header is within the first thirteen bytes. -/
theorem header_take_iff (c : Codec) (x : Bytes) : Header c (x.take 13) ↔ Header c x := by
  have hstart {p : Bytes} (hp : p.length ≤ 13) : p <+: x.take 13 ↔ p <+: x := by
    rw [List.prefix_take_iff, and_iff_left hp]
  cases c with
  | zstd | gzip | lz4 | snappy | xz => exact hstart (by decide)
  | lzma =>
      refine and_congr ?_ (hstart (by decide))
      rw [List.length_take]
      omega
  | zlib =>
      rcases x with _ | ⟨cmf, _ | ⟨flg, rest⟩⟩
      · rfl
      · rfl
      · simp [Header]
  | bzip2 =>
      rcases x with _ | ⟨b0, _ | ⟨b1, _ | ⟨b2, _ | ⟨b3, rest⟩⟩⟩⟩
      · rfl
      · rfl
      · rfl
      · rfl
      · simp [Header]
  | brotli | deflate | lz4Block | snappyRaw => rfl

theorem weakHeader_eq {c : Codec} {x : Bytes} (h : Header c x) (hc : c = .zlib ∨ c = .lzma) :
    weakHeader c x = true := by
  rcases hc with rfl | rfl
  · exact (looksLikeZlib_iff x).mpr h
  · exact (lzma_header_iff x).mpr h

section Reads

variable {be : Backends} {x : Bytes}

/-- Without a weak header, detection is by the header alone. -/
theorem detect_eq_some_of_strong (h : ∀ c, weakHeader c x = false) {c : Codec} :
    detect be x = some c ↔ Header c x := by
  rw [detect_eq_some_iff, Marked]
  refine and_iff_left_of_imp fun hc hweak => ?_
  have hheader := weakHeader_eq hc hweak
  rw [h c] at hheader
  cases hheader

theorem weakHeader_take (c : Codec) : weakHeader c (x.take 13) = weakHeader c x := by
  rw [Bool.eq_iff_iff]
  cases c with
  | zlib =>
      have hheader := header_take_iff .zlib x
      rwa [← looksLikeZlib_iff, ← looksLikeZlib_iff] at hheader
  | lzma =>
      have hheader := header_take_iff .lzma x
      rwa [← lzma_header_iff, ← lzma_header_iff] at hheader
  | _ => rfl

theorem live_detectWatched_of_strong (h : ∀ c, weakHeader c x = false) :
    (detectWatched be x).live = [] := by
  have hzlib : looksLikeZlib x = false := h .zlib
  have hlzma : (13 ≤ x.length && x.getD 0 0 == 0x5d) = false := h .lzma
  unfold detectWatched
  rw [hzlib, hlzma]
  split
  · rfl
  split
  · rfl
  split
  · rfl
  split
  · rfl
  split
  · rfl
  split <;> rfl

/-- A weak header keeps every other test from passing. -/
theorem live_detectWatched_of_weak {c : Codec} (h : weakHeader c x = true) :
    (detectWatched be x).live = (c.decompressLive be x trialCap).2 := by
  have hc := header_of_weakHeader h
  have hother {d : Codec} (hd : Header d x) : weakHeader d x = true := by
    rw [hd.unique hc]
    exact h
  unfold detectWatched
  split
  · next hp => cases hother (d := .snappy) (List.isPrefixOf_iff_prefix.mp hp)
  split
  · next hp => cases hother (d := .xz) (List.isPrefixOf_iff_prefix.mp hp)
  split
  · next hp => cases hother (d := .lz4) (List.isPrefixOf_iff_prefix.mp hp)
  split
  · next hp => cases hother (d := .zstd) (List.isPrefixOf_iff_prefix.mp hp)
  split
  · next hp => cases hother (d := .bzip2) ((bzip2_header_iff x).mp hp)
  split
  · next hp => cases hother (d := .gzip) (List.isPrefixOf_iff_prefix.mp hp)
  cases c with
  | zlib =>
      have hzlib : looksLikeZlib x = true := h
      have hlzma : (13 ≤ x.length && x.getD 0 0 == 0x5d) = false :=
        Bool.eq_false_iff.mpr fun hl => by cases hc.unique ((lzma_header_iff x).mp hl)
      rw [hzlib, hlzma, Watched.live_bind_of_ok rfl]
      split <;> exact List.append_nil _
  | lzma =>
      have hzlib : looksLikeZlib x = false :=
        Bool.eq_false_iff.mpr fun hz => by cases hc.unique ((looksLikeZlib_iff x).mp hz)
      have hlzma : (13 ≤ x.length && x.getD 0 0 == 0x5d) = true := h
      rw [hzlib, hlzma, Watched.live_bind_of_ok rfl]
      change ([] : List Nat) ++ (Watched.andThen true (Codec.lzma.trialWatched be x) >>= _).live = _
      rw [Watched.live_bind_of_ok rfl]
      split <;> exact List.append_nil _
  | _ => cases h

theorem detect_of_weak {c : Codec} (h : weakHeader c x = true) :
    detect be x = if trialOk be c x then some c else none := by
  have hc := header_of_weakHeader h
  split
  · next ht => exact detect_eq_some_iff.mpr ⟨hc, fun _ => ht⟩
  · next ht =>
      refine detect_eq_none_iff.mpr fun c' hmarked => ht ?_
      obtain rfl := hmarked.1.unique hc
      refine hmarked.2 ?_
      cases c' with
      | zlib => exact .inl rfl
      | lzma => exact .inr rfl
      | _ => cases h

/-- **What a detection reads.** Where the first thirteen bytes have no weak
header they decide alone, in every build, and nothing is decoded. Where they
have one, its codec is tried once, under the trial cap, and nothing else is. -/
theorem detection_reads (be : Backends) (x : Bytes) :
    ((∀ c, weakHeader c x = false) →
      (detectWatched be x).live = []
      ∧ ∀ (be' : Backends) (y : Bytes), y.take 13 = x.take 13 → detect be' y = detect be x)
    ∧ ∀ c, weakHeader c x = true →
      (detectWatched be x).live = (c.decompressLive be x trialCap).2
      ∧ detect be x = if trialOk be c x then some c else none := by
  refine ⟨fun h => ⟨live_detectWatched_of_strong h, fun be' y hy => ?_⟩,
    fun c h => ⟨live_detectWatched_of_weak h, detect_of_weak h⟩⟩
  have h' : ∀ c, weakHeader c y = false := by
    intro c
    rw [← weakHeader_take, hy, weakHeader_take, h c]
  ext c
  rw [detect_eq_some_of_strong h', detect_eq_some_of_strong h, ← header_take_iff, hy,
    header_take_iff]

end Reads

end VgiCompress
