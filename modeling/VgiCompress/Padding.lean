import Mathlib.Data.List.DropRight

/-!
# What trimming leaves

`strip p l` drops the elements with `p` from both ends of a list. Its
meaning is `Padded`: some core with padding around it. Every list is its
own strip with padding around it (`padded_strip`), and padding does not
change what is stripped (`Padded.strip_eq`), so a core with no padding of
its own is found again, whatever was put around it.
-/

namespace RustStd

variable {α β : Type} {p : α → Bool}

/-- Drop what has `p` from both ends. -/
def strip (p : α → Bool) (l : List α) : List α := (l.dropWhile p).rdropWhile p

/-- The core, with elements around it that have `p`. -/
def Padded (p : α → Bool) (core l : List α) : Prop :=
  ∃ pre post, l = pre ++ core ++ post ∧ (∀ a ∈ pre, p a = true) ∧ ∀ a ∈ post, p a = true

theorem padded_self (l : List α) : Padded p l l := by
  refine ⟨[], [], (List.append_nil _).symm, ?_, ?_⟩
  · intro a ha
    cases ha
  · intro a ha
    cases ha

theorem padded_strip (l : List α) : Padded p (strip p l) l := by
  refine ⟨l.takeWhile p, (l.dropWhile p).rtakeWhile p, ?_, ?_, ?_⟩
  · rw [List.append_assoc, strip, List.rdropWhile_append_rtakeWhile,
      List.takeWhile_append_dropWhile]
  · intro a ha
    exact List.mem_takeWhile_imp ha
  · intro a ha
    exact List.mem_rtakeWhile_imp ha

/-- Padding at the end goes with the end. -/
theorem rdropWhile_append_of_pos {l post : List α} (hpost : ∀ a ∈ post, p a = true) :
    (l ++ post).rdropWhile p = l.rdropWhile p := by
  have hrev : ∀ a ∈ post.reverse, p a = true := fun a ha => hpost a (List.mem_reverse.mp ha)
  rw [List.rdropWhile, List.rdropWhile, List.reverse_append, List.dropWhile_append_of_pos hrev]

/-- Padding leaves no trace in what is stripped. -/
theorem Padded.strip_eq {core l : List α} (h : Padded p core l) : strip p l = strip p core := by
  obtain ⟨pre, post, rfl, hpre, hpost⟩ := h
  rw [strip, strip, List.append_assoc, List.dropWhile_append_of_pos hpre]
  by_cases hcore : core.dropWhile p = []
  · -- nothing but padding
    have hall := List.dropWhile_eq_nil_iff.mp hcore
    rw [List.dropWhile_append_of_pos hall, hcore, List.dropWhile_eq_nil_iff.mpr hpost]
  · rw [List.dropWhile_append, if_neg (by simpa using hcore), rdropWhile_append_of_pos hpost]

theorem strip_of_neg {l : List α} (h : ∀ a ∈ l, p a = false) : strip p l = l := by
  have hleft : l.dropWhile p = l := by
    refine List.dropWhile_eq_self_iff.mpr fun hl => ?_
    rw [h _ (List.getElem_mem hl)]
    exact Bool.false_ne_true
  have hright : l.rdropWhile p = l := by
    refine List.rdropWhile_eq_self_iff.mpr fun hl => ?_
    rw [h _ (List.getLast_mem hl)]
    exact Bool.false_ne_true
  rw [strip, hleft, hright]

/-- Stripping goes by what is padding, and a map that does not touch that
can be applied before or after. -/
theorem strip_map {q : β → Bool} {f : α → β} (hf : ∀ a, q (f a) = p a) (l : List α) :
    strip q (l.map f) = (strip p l).map f := by
  have hqf : q ∘ f = p := funext hf
  rw [strip, strip, List.rdropWhile, List.rdropWhile, List.dropWhile_map, hqf,
    ← List.map_reverse, List.dropWhile_map, hqf, List.map_reverse]

end RustStd
