import Mathlib.Data.List.Basic

/-!
# Rules tried in order

A list of rules answers with the first whose test passes. Where no input
passes the tests of two rules that disagree, the answer is that of any
rule that matches, and the order in which they are tried is free.
-/

namespace FirstMatch

variable {α β : Type}

structure Rule (α β : Type) where
  test : α → Bool
  answer : β

/-- The answer of the first rule that matches. -/
def firstMatch (rules : List (Rule α β)) (x : α) : Option β :=
  (rules.find? (·.test x)).map Rule.answer

/-- No input passes the tests of two rules that disagree. -/
def Exclusive (rules : List (Rule α β)) : Prop :=
  ∀ r ∈ rules, ∀ s ∈ rules, ∀ x, r.test x = true → s.test x = true → r.answer = s.answer

variable {rules rules' : List (Rule α β)} {x : α}

theorem firstMatch_cons (r : Rule α β) :
    firstMatch (r :: rules) x = if r.test x then some r.answer else firstMatch rules x := by
  rw [firstMatch, List.find?_cons]
  cases r.test x <;> rfl

theorem exists_of_firstMatch {b : β} (h : firstMatch rules x = some b) :
    ∃ r ∈ rules, r.test x = true ∧ r.answer = b := by
  obtain ⟨r, hr, hb⟩ := Option.map_eq_some_iff.mp h
  have htest := List.find?_some hr
  exact ⟨r, List.mem_of_find?_eq_some hr, htest, hb⟩

/-- Of exclusive rules, every one that matches has the answer. -/
theorem Exclusive.firstMatch_eq_some_iff (h : Exclusive rules) {b : β} :
    firstMatch rules x = some b ↔ ∃ r ∈ rules, r.test x = true ∧ r.answer = b := by
  refine ⟨exists_of_firstMatch, ?_⟩
  rintro ⟨r, hr, htest, rfl⟩
  cases hfirst : firstMatch rules x with
  | none =>
      have hnone := List.find?_eq_none.mp (Option.map_eq_none_iff.mp hfirst)
      exact absurd htest (hnone r hr)
  | some b =>
      obtain ⟨s, hs, htest', rfl⟩ := exists_of_firstMatch hfirst
      rw [h r hr s hs x htest htest']

theorem Exclusive.of_subset (h : Exclusive rules) (hsub : rules' ⊆ rules) : Exclusive rules' :=
  fun r hr s hs => h r (hsub hr) s (hsub hs)

/-- Exclusive rules may be tried in any order, and more than once. -/
theorem Exclusive.firstMatch_congr (h : Exclusive rules) (hsub : rules' ⊆ rules)
    (hsup : rules ⊆ rules') : firstMatch rules' x = firstMatch rules x := by
  ext b
  rw [(h.of_subset hsub).firstMatch_eq_some_iff, h.firstMatch_eq_some_iff]
  exact ⟨fun ⟨r, hr, hb⟩ => ⟨r, hsub hr, hb⟩, fun ⟨r, hr, hb⟩ => ⟨r, hsup hr, hb⟩⟩

end FirstMatch
