/-!
# An accumulator with a limit

What an output guard is for, without the code: a `Quota` keeps a
sequence of at most `limit` elements and takes a slice whole or not at
all. That it never holds too much is a field, so a `Quota` that broke
its limit cannot be built.

The point of the abstraction is `offerAll_eq`: offering a stream piece
by piece ends exactly as offering it at once, so where the stream was
cut does not matter.
-/

namespace RustStd

/-- A sequence that may hold at most `limit` elements. -/
structure Quota (α : Type) where
  limit : Nat
  kept : List α
  fits : kept.length ≤ limit

namespace Quota

variable {α : Type}

@[ext] theorem ext {p q : Quota α} (hl : p.limit = q.limit)
    (hk : p.kept = q.kept) : p = q := by
  cases p; cases q; simp_all

/-- Nothing kept yet. -/
def empty (limit : Nat) : Quota α := ⟨limit, [], Nat.zero_le _⟩

/-- Take a slice, or refuse it and stay as it is. -/
def offer (q : Quota α) (d : List α) : Option (Quota α) :=
  if h : (q.kept ++ d).length ≤ q.limit then some ⟨q.limit, q.kept ++ d, h⟩
  else none

/-- Slices in turn, stopping at the first that is refused. -/
def offerAll (q : Quota α) : List (List α) → Option (Quota α)
  | [] => some q
  | d :: ds => (q.offer d).bind fun q' => q'.offerAll ds

theorem offer_eq_some {q q' : Quota α} {d : List α} :
    q.offer d = some q' ↔ q'.limit = q.limit ∧ q'.kept = q.kept ++ d := by
  unfold offer
  constructor
  · intro h
    split at h
    · obtain rfl := Option.some.inj h
      exact ⟨rfl, rfl⟩
    · cases h
  · rintro ⟨hl, hk⟩
    have hfit : (q.kept ++ d).length ≤ q.limit := by rw [← hk, ← hl]; exact q'.fits
    rw [dif_pos hfit]
    exact congrArg some (Quota.ext hl.symm hk.symm)

theorem offer_eq_none {q : Quota α} {d : List α} :
    q.offer d = none ↔ q.limit < q.kept.length + d.length := by
  rw [offer, ← List.length_append]
  by_cases h : (q.kept ++ d).length ≤ q.limit
  · rw [dif_pos h]; exact iff_of_false (Option.some_ne_none _) (Nat.not_lt.mpr h)
  · rw [dif_neg h]; exact iff_of_true rfl (Nat.lt_of_not_le h)

/-- **Chunking does not matter**: a stream offered in slices is accepted
exactly when the whole of it would be, and leaves the same behind. -/
theorem offerAll_eq : ∀ (ds : List (List α)) (q : Quota α),
    q.offerAll ds = q.offer ds.flatten
  | [], q => by
      rw [offerAll, List.flatten_nil, eq_comm, offer_eq_some]
      exact ⟨rfl, (List.append_nil _).symm⟩
  | d :: ds, q => by
      rw [offerAll, List.flatten_cons]
      cases hq : q.offer d with
      | none =>
          rw [offer_eq_none] at hq
          rw [Option.bind_none, eq_comm, offer_eq_none, List.length_append]
          omega
      | some q' =>
          obtain ⟨hl, hk⟩ := offer_eq_some.mp hq
          rw [Option.bind_some, offerAll_eq ds q', offer, offer]
          simp only [hk, hl, List.append_assoc]

end Quota

end RustStd
