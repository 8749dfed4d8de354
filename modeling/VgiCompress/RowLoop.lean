import Mathlib.Data.List.SplitLengths
import VgiCompress.Outcome

/-!
# A loop that returns early, over batches

`pushEach` is the loop `for i in .. { out.push(body(i)?) }`, and
`sequence` is what it computes: all of the values, or the first outcome
that is not one.

Rows come in batches. A batch that got through its loop builds one
column, which panics past a limit on the rows' total weight (`collect`);
every row of a batch shares the batch's fate (`deliver`). The question is
whether a row can tell how the rows were cut into batches, and
`cuts_agree_iff` answers it: it cannot exactly when all rows together
succeed, or all fail alike.
-/

namespace RustStd

namespace Outcome

variable {ε α ι : Type}

/-! ## Early return from a loop -/

/-- `for i in is { out.push(body(i)?) }`, with `out` as pushed so far. -/
def pushEach (body : ι → Outcome ε α) : List ι → List α → Outcome ε (List α)
  | [], out => .ok out
  | i :: is, out => do
      let v ← body i
      pushEach body is (out ++ [v])

/-- All of the values, or the first outcome that is not one. -/
def sequence : List (Outcome ε α) → Outcome ε (List α)
  | [] => .ok []
  | o :: os => do
      let v ← o
      let vs ← sequence os
      pure (v :: vs)

/-- The loop, from any accumulator on, is `sequence` of its bodies. -/
theorem pushEach_eq_append (body : ι → Outcome ε α) (is : List ι) (out : List α) :
    pushEach body is out = (sequence (is.map body) >>= fun vs => .ok (out ++ vs)) := by
  induction is generalizing out with
  | nil => simp [pushEach, sequence]
  | cons i is ih =>
      simp only [pushEach, List.map_cons, sequence]
      cases hb : body i with
      | ok v =>
          rw [ok_bind, ok_bind, ih]
          cases sequence (is.map body) <;> simp
      | err e => rfl
      | panic => rfl

theorem pushEach_eq (body : ι → Outcome ε α) (is : List ι) :
    pushEach body is [] = sequence (is.map body) := by
  rw [pushEach_eq_append]
  cases sequence (is.map body) <;> rfl

@[simp] theorem sequence_map_ok (vs : List α) :
    sequence (vs.map (Outcome.ok : α → Outcome ε α)) = .ok vs := by
  induction vs with
  | nil => rfl
  | cons v vs ih => simp [sequence, ih]

theorem sequence_eq_ok {os : List (Outcome ε α)} {vs : List α} (h : sequence os = .ok vs) :
    os = vs.map .ok := by
  induction os generalizing vs with
  | nil =>
      obtain rfl : [] = vs := by simpa [sequence] using h
      rfl
  | cons o os ih =>
      cases o with
      | ok v =>
          rw [sequence, ok_bind] at h
          obtain ⟨ws, hws, hvs⟩ := bind_eq_ok.mp h
          obtain rfl : v :: ws = vs := by simpa using hvs
          rw [ih hws, List.map_cons]
      | err e => cases h
      | panic => cases h

/-- Whether the call succeeded and, if not, how it failed. -/
def void (o : Outcome ε α) : Outcome ε Unit := o.map fun _ => ()

@[simp] theorem void_ok (v : α) : (Outcome.ok v : Outcome ε α).void = .ok () := rfl

@[simp] theorem void_err (e : ε) : (Outcome.err e : Outcome ε α).void = .err e := rfl

@[simp] theorem void_panic : (Outcome.panic : Outcome ε α).void = .panic := rfl

theorem void_map {β : Type} (f : α → β) (o : Outcome ε α) : (o.map f).void = o.void := by
  cases o <;> rfl

theorem void_bind_pure {β : Type} (o : Outcome ε α) (f : α → β) :
    (o >>= fun v => pure (f v)).void = o.void := by
  cases o <;> rfl

/-- Which row fails first, and how, does not depend on the values. -/
theorem void_sequence (os : List (Outcome ε α)) :
    (sequence os).void = (sequence (os.map void)).void := by
  induction os with
  | nil => rfl
  | cons o os ih =>
      rw [List.map_cons, sequence, sequence]
      cases o with
      | ok v =>
          rw [void_ok, ok_bind, ok_bind, void_bind_pure, void_bind_pure, ih]
      | err e => rfl
      | panic => rfl

theorem sequence_of_isOk {os : List (Outcome ε α)} (h : ∀ o ∈ os, o.isOk = true) :
    ∃ vs, sequence os = .ok vs := by
  induction os with
  | nil => exact ⟨[], rfl⟩
  | cons o os ih =>
      obtain ⟨ho, hos⟩ := List.forall_mem_cons.mp h
      obtain ⟨vs, hvs⟩ := ih hos
      cases o with
      | ok v => exact ⟨v :: vs, by rw [sequence, hvs]; rfl⟩
      | err e => cases ho
      | panic => cases ho

/-- The loop gets through with all the values, or it ends as the first
outcome that is not one. -/
theorem sequence_cases (os : List (Outcome ε α)) :
    (∃ vs : List α, os = vs.map .ok ∧ sequence os = .ok vs)
      ∨ ∃ (vs : List α) (o : Outcome ε α) (post : List (Outcome ε α)),
        os = vs.map .ok ++ o :: post ∧ o.isOk = false
        ∧ sequence os = (o >>= fun _ => .ok []) := by
  induction os with
  | nil => exact .inl ⟨[], rfl, rfl⟩
  | cons o os ih =>
      cases o with
      | ok v =>
          rcases ih with ⟨vs, hos, hseq⟩ | ⟨vs, o', post, hos, ho', hseq⟩
          · refine .inl ⟨v :: vs, by rw [hos, List.map_cons], ?_⟩
            rw [sequence, hseq]
            rfl
          · refine .inr ⟨v :: vs, o', post, by rw [hos, List.map_cons, List.cons_append], ho', ?_⟩
            rw [sequence, hseq]
            cases o' with
            | ok w => cases ho'
            | err e => rfl
            | panic => rfl
      | err e => exact .inr ⟨[], .err e, os, rfl, rfl, rfl⟩
      | panic => exact .inr ⟨[], .panic, os, rfl, rfl, rfl⟩

/-- Rows that differ by a translation of their errors. -/
theorem sequence_map_mapErr {ε' : Type} (f : ε → ε') (os : List (Outcome ε α)) :
    sequence (os.map (mapErr f)) = (sequence os).mapErr f := by
  induction os with
  | nil => rfl
  | cons o os ih =>
      rw [List.map_cons, sequence, sequence, ih]
      cases o with
      | ok v => cases sequence os <;> rfl
      | err e => rfl
      | panic => rfl

/-- Where each row of one loop fails in a certain way or is that of the
other, so is the whole loop. -/
theorem sequence_err_or_eq {P : ε → Prop} {f g : ι → Outcome ε α} {is : List ι}
    (h : ∀ i ∈ is, (∃ e, P e ∧ f i = .err e) ∨ g i = f i) :
    (∃ e, P e ∧ sequence (is.map f) = .err e) ∨ sequence (is.map g) = sequence (is.map f) := by
  induction is with
  | nil => exact .inr rfl
  | cons i is ih =>
      obtain ⟨hi, his⟩ := List.forall_mem_cons.mp h
      rw [List.map_cons, List.map_cons, sequence, sequence]
      rcases hi with ⟨e, he, hf⟩ | hfg
      · exact .inl ⟨e, he, by rw [hf, err_bind]⟩
      · rw [hfg]
        cases f i with
        | err e => exact .inr rfl
        | panic => exact .inr rfl
        | ok v =>
            rcases ih his with ⟨e, he, hseq⟩ | hseq
            · exact .inl ⟨e, he, by rw [hseq, ok_bind, err_bind]⟩
            · exact .inr (by rw [hseq])

/-! ## The fate of a batch -/

section Batches

variable (weight : α → Nat) (limit : Nat)

/-- The values of a batch, if every row has one and their column is built. -/
def collect (os : List (Outcome ε α)) : Outcome ε (List α) := do
  let vs ← sequence os
  if (vs.map weight).sum ≤ limit then .ok vs else .panic

/-- What each of the `n` rows of a batch gets from the batch's outcome. -/
def share (n : Nat) : Outcome ε (List α) → List (Outcome ε α)
  | .ok vs => vs.map .ok
  | .err e => List.replicate n (.err e)
  | .panic => List.replicate n .panic

def deliver (os : List (Outcome ε α)) : List (Outcome ε α) :=
  share os.length (collect weight limit os)

/-- What the rows get when they are cut into batches of these sizes. -/
def deliverCut (ns : List Nat) (os : List (Outcome ε α)) : List (Outcome ε α) :=
  ((ns.splitLengths os).map (deliver weight limit)).flatten

/-- What a row gets in a batch of its own. -/
def alone (o : Outcome ε α) : Outcome ε α := do
  let v ← o
  if weight v ≤ limit then .ok v else .panic

variable {weight limit}

theorem deliver_singleton (o : Outcome ε α) :
    deliver weight limit [o] = [alone weight limit o] := by
  cases o with
  | ok v =>
      rw [deliver, collect, alone, sequence, ok_bind, ok_bind]
      by_cases hv : weight v ≤ limit
      · simp [sequence, share, hv]
      · simp [sequence, share, hv]
  | err e => rfl
  | panic => rfl

theorem deliverCut_cons (n : Nat) (ns : List Nat) (os : List (Outcome ε α)) :
    deliverCut weight limit (n :: ns) os =
      deliver weight limit (os.take n) ++ deliverCut weight limit ns (os.drop n) := by
  simp [deliverCut, List.splitLengths]

theorem deliverCut_whole (os : List (Outcome ε α)) :
    deliverCut weight limit [os.length] os = deliver weight limit os := by
  rw [deliverCut_cons, List.take_length]
  simp [deliverCut, List.splitLengths]

theorem deliverCut_ones (os : List (Outcome ε α)) :
    deliverCut weight limit (List.replicate os.length 1) os = os.map (alone weight limit) := by
  induction os with
  | nil => rfl
  | cons o os ih =>
      rw [List.length_cons, List.replicate_succ, deliverCut_cons]
      show deliver weight limit [o] ++ deliverCut weight limit _ os = _
      rw [deliver_singleton, ih]
      rfl

/-- The rows all have values, and these fit one column. -/
def AllFit (weight : α → Nat) (limit : Nat) (os : List (Outcome ε α)) : Prop :=
  ∃ vs : List α, os = vs.map .ok ∧ (vs.map weight).sum ≤ limit

theorem AllFit.take_drop {os : List (Outcome ε α)} (h : AllFit weight limit os) (n : Nat) :
    AllFit weight limit (os.take n) ∧ AllFit weight limit (os.drop n) := by
  obtain ⟨vs, rfl, hsum⟩ := h
  have hsplit : ((vs.take n).map weight).sum + ((vs.drop n).map weight).sum
      = (vs.map weight).sum := by
    rw [← List.sum_append, ← List.map_append, List.take_append_drop]
  refine ⟨⟨vs.take n, List.map_take.symm, ?_⟩, ⟨vs.drop n, List.map_drop.symm, ?_⟩⟩
  · omega
  · omega

theorem AllFit.deliver_eq {os : List (Outcome ε α)} (h : AllFit weight limit os) :
    deliver weight limit os = os := by
  obtain ⟨vs, rfl, hsum⟩ := h
  rw [deliver, collect, sequence_map_ok, ok_bind, if_pos hsum]
  rfl

/-- Rows that all fit get their values under every cut. -/
theorem AllFit.deliverCut_eq {os : List (Outcome ε α)} (h : AllFit weight limit os)
    {ns : List Nat} (hn : ns.sum = os.length) : deliverCut weight limit ns os = os := by
  induction ns generalizing os with
  | nil =>
      rw [List.sum_nil] at hn
      obtain rfl := List.eq_nil_of_length_eq_zero hn.symm
      rfl
  | cons n ns ih =>
      obtain ⟨htake, hdrop⟩ := h.take_drop n
      have hrest : ns.sum = (os.drop n).length := by
        rw [List.length_drop, ← hn, List.sum_cons]; omega
      rw [deliverCut_cons, htake.deliver_eq, ih hdrop hrest, List.take_append_drop]

/-- The loop over rows that all fail alike fails that way, unless there
is no row. -/
theorem collect_of_alike {f : Outcome ε α} (hf : f.isOk = false) :
    ∀ {os : List (Outcome ε α)}, os ≠ [] → (∀ o ∈ os, alone weight limit o = f) →
      collect weight limit os = (f >>= fun _ => .ok [])
  | [], hne, _ => absurd rfl hne
  | [o], _, h => by
      have ho := h o (List.mem_singleton_self o)
      subst ho
      cases o with
      | ok v =>
          by_cases hv : weight v ≤ limit
          · simp [alone, hv, isOk] at hf
          · simp [collect, sequence, alone, hv]
      | err e => rfl
      | panic => rfl
  | o :: o' :: os, _, h => by
      obtain ⟨ho, hos⟩ := List.forall_mem_cons.mp h
      have ih := collect_of_alike hf (List.cons_ne_nil o' os) hos
      cases o with
      | err e => rw [← ho]; rfl
      | panic => rw [← ho]; rfl
      | ok v =>
          -- `v` alone is too heavy, so nothing is collected with it
          have hv : ¬weight v ≤ limit := by
            intro hv
            rw [alone, ok_bind, if_pos hv] at ho
            rw [← ho] at hf
            cases hf
          have hpanic : f = .panic := by rw [← ho, alone, ok_bind, if_neg hv]
          subst hpanic
          rw [collect, sequence, ok_bind]
          rw [collect] at ih
          cases hseq : sequence (o' :: os) with
          | ok vs =>
              have hsum : ¬((v :: vs).map weight).sum ≤ limit := by
                rw [List.map_cons, List.sum_cons]; omega
              rw [ok_bind, pure_eq, ok_bind, if_neg hsum]
              rfl
          | err e => rw [hseq] at ih; cases ih
          | panic => rfl

theorem deliver_of_alike {f : Outcome ε α} (hf : f.isOk = false) {os : List (Outcome ε α)}
    (h : ∀ o ∈ os, alone weight limit o = f) :
    deliver weight limit os = List.replicate os.length f := by
  by_cases hne : os = []
  · subst hne
    have hnil : deliver weight limit ([] : List (Outcome ε α)) = [] := by
      simp [deliver, collect, sequence, share]
    exact hnil
  · rw [deliver, collect_of_alike hf hne h]
    cases f with
    | ok v => cases hf
    | err e => rfl
    | panic => rfl

theorem deliverCut_of_alike {f : Outcome ε α} (hf : f.isOk = false)
    {os : List (Outcome ε α)} (h : ∀ o ∈ os, alone weight limit o = f) {ns : List Nat}
    (hn : ns.sum = os.length) :
    deliverCut weight limit ns os = List.replicate os.length f := by
  induction ns generalizing os with
  | nil =>
      rw [List.sum_nil] at hn
      rw [← hn]
      rfl
  | cons n ns ih =>
      rw [List.sum_cons] at hn
      have htake : ∀ o ∈ os.take n, alone weight limit o = f := by
        intro o ho
        exact h o (List.mem_of_mem_take ho)
      have hdrop : ∀ o ∈ os.drop n, alone weight limit o = f := by
        intro o ho
        exact h o (List.mem_of_mem_drop ho)
      have hrest : ns.sum = (os.drop n).length := by rw [List.length_drop]; omega
      rw [deliverCut_cons, deliver_of_alike hf htake, ih hdrop hrest,
        List.replicate_append_replicate, List.length_take, List.length_drop]
      congr 1
      omega

/-- All rows together succeed, or each of them, in a batch of its own,
fails the same way. -/
def Uniform (weight : α → Nat) (limit : Nat) (os : List (Outcome ε α)) : Prop :=
  AllFit weight limit os ∨ ∃ f, f.isOk = false ∧ ∀ o ∈ os, alone weight limit o = f

/-- **The cut into batches cannot be told** exactly when the rows are
uniform. -/
theorem cuts_agree_iff (os : List (Outcome ε α)) :
    (∀ ns₁ ns₂ : List Nat, ns₁.sum = os.length → ns₂.sum = os.length →
        deliverCut weight limit ns₁ os = deliverCut weight limit ns₂ os)
      ↔ Uniform weight limit os := by
  constructor
  · intro h
    have hones := h [os.length] (List.replicate os.length 1) (by simp) (by simp)
    rw [deliverCut_whole, deliverCut_ones, deliver] at hones
    cases hc : collect weight limit os with
    | ok vs =>
        left
        rw [collect] at hc
        obtain ⟨ws, hws, hfit⟩ := bind_eq_ok.mp hc
        split at hfit
        · next hsum => exact ⟨ws, sequence_eq_ok hws, hsum⟩
        · cases hfit
    | err e =>
        rw [hc] at hones
        exact .inr ⟨.err e, rfl, List.map_eq_replicate_iff.mp hones.symm⟩
    | panic =>
        rw [hc] at hones
        exact .inr ⟨.panic, rfl, List.map_eq_replicate_iff.mp hones.symm⟩
  · rintro (hfit | ⟨f, hf, halike⟩) ns₁ ns₂ h₁ h₂
    · rw [hfit.deliverCut_eq h₁, hfit.deliverCut_eq h₂]
    · rw [deliverCut_of_alike hf halike h₁, deliverCut_of_alike hf halike h₂]

end Batches

end Outcome

end RustStd
