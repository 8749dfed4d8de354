import Mathlib.Logic.Function.Basic
import Mathlib.Data.List.Basic

/-!
# Threads over a shared state

Threads that run one and the same program over a shared state `σ`, each
with a local state `ℓ`. A program is given by what one atomic turn does,
and a run by its schedule, the list of the threads that had the turns.

`Outline` is a proof outline: an invariant of the shared state and an
assertion for each local state, which the thread's own turns establish
and no turn of another thread breaks. `Ranked` bounds the turns that a
thread needs, whoever else is scheduled.
-/

namespace Interleaving

variable {σ ℓ ι : Type} [DecidableEq ι]

/-- One turn of a thread. -/
abbrev Program (σ ℓ : Type) := σ → ℓ → σ × ℓ

structure World (σ ℓ ι : Type) where
  shared : σ
  locals : ι → ℓ

namespace World

def turn (step : Program σ ℓ) (w : World σ ℓ ι) (i : ι) : World σ ℓ ι where
  shared := (step w.shared (w.locals i)).1
  locals := Function.update w.locals i (step w.shared (w.locals i)).2

def run (step : Program σ ℓ) (w : World σ ℓ ι) (schedule : List ι) : World σ ℓ ι :=
  schedule.foldl (turn step) w

variable {step : Program σ ℓ} {w : World σ ℓ ι} {i j : ι}

theorem turn_locals_self :
    (w.turn step i).locals i = (step w.shared (w.locals i)).2 :=
  Function.update_self i _ w.locals

theorem turn_locals_of_ne (h : j ≠ i) : (w.turn step i).locals j = w.locals j :=
  Function.update_of_ne h _ w.locals

@[simp] theorem run_nil : w.run step [] = w := rfl

theorem run_cons (schedule : List ι) :
    w.run step (i :: schedule) = (w.turn step i).run step schedule := rfl

end World

/-! ## Proof outlines -/

/-- The turn of a thread keeps the invariant, leaves its own assertion true
and does not break the assertion of another thread. -/
structure Outline (step : Program σ ℓ) (Inv : σ → Prop) (Asserts : σ → ℓ → Prop) : Prop where
  keeps : ∀ {s l}, Inv s → Asserts s l → Inv (step s l).1
  proceeds : ∀ {s l}, Inv s → Asserts s l → Asserts (step s l).1 (step s l).2
  stable : ∀ {s l l'}, Inv s → Asserts s l → Asserts s l' → Asserts (step s l).1 l'

/-- The invariant holds, and the assertion of every thread. -/
def World.Meets (w : World σ ℓ ι) (Inv : σ → Prop) (Asserts : σ → ℓ → Prop) : Prop :=
  Inv w.shared ∧ ∀ i, Asserts w.shared (w.locals i)

section Outline

variable {step : Program σ ℓ} {Inv : σ → Prop} {Asserts : σ → ℓ → Prop} {w : World σ ℓ ι}

theorem Outline.turn (h : Outline step Inv Asserts) (hw : w.Meets Inv Asserts) (i : ι) :
    (w.turn step i).Meets Inv Asserts := by
  obtain ⟨hinv, hall⟩ := hw
  refine ⟨h.keeps hinv (hall i), fun j => ?_⟩
  by_cases hj : j = i
  · subst hj
    rw [World.turn_locals_self]
    exact h.proceeds hinv (hall j)
  · rw [World.turn_locals_of_ne hj]
    exact h.stable hinv (hall i) (hall j)

/-- What a proof outline asserts holds at the end of every schedule. -/
theorem Outline.run (h : Outline step Inv Asserts) (hw : w.Meets Inv Asserts)
    (schedule : List ι) : (w.run step schedule).Meets Inv Asserts := by
  induction schedule generalizing w with
  | nil => exact hw
  | cons i schedule ih => exact ih (h.turn hw i)

end Outline

/-! ## Bounded waiting -/

/-- Each turn of a thread that is not done brings it one nearer to the end. -/
def Ranked (step : Program σ ℓ) (rank : ℓ → Nat) : Prop :=
  ∀ s l, rank (step s l).2 ≤ rank l - 1

/-- However the turns of the others fall, a thread is done after as many
turns of its own as its rank. -/
theorem Ranked.run {step : Program σ ℓ} {rank : ℓ → Nat} (h : Ranked step rank)
    (w : World σ ℓ ι) (i : ι) (schedule : List ι) :
    rank ((w.run step schedule).locals i) ≤ rank (w.locals i) - schedule.count i := by
  induction schedule generalizing w with
  | nil => simp
  | cons j schedule ih =>
      rw [World.run_cons]
      refine Nat.le_trans (ih (w.turn step j)) ?_
      by_cases hj : i = j
      · subst hj
        rw [World.turn_locals_self, List.count_cons_self]
        have := h w.shared (w.locals i)
        omega
      · refine Nat.le_of_eq ?_
        rw [World.turn_locals_of_ne hj, List.count_cons_of_ne (Ne.symm hj)]

end Interleaving
