import VgiCompress.Sink

/-!
# A sink that keeps a log

`logged S note` answers as `S` does and notes something at every `write`.
It is in lockstep with `S`, so nobody who writes can tell that the sink is
watched, and the log of a run says what happened in the run without it.
`probe S held` notes how much there is at that moment: what the sink holds
and the slice on offer.

`reached` is the log of a run over a sink that takes a slice exactly when
the total stays within a limit.

A run need not be a decoder's. `performAll` is any sequence of calls, by a
caller that goes on whatever a call returns; `performAll_inv` is the
invariant rule for it.
-/

namespace RustStd

variable {σ ε α β : Type}

namespace Sink

/-- The sink, and a note on each of its writes. -/
def logged (S : Sink σ α) (note : σ → List α → β) : Sink (σ × List β) α where
  write p d := ((S.write p.1 d).1, ((S.write p.1 d).2, p.2 ++ [note p.1 d]))
  steady p d e _ h := by
    have hr : (S.write p.1 d).1 = .err e := congrArg Prod.fst h
    exact S.steady p.1 d e (S.write p.1 d).2 (Prod.ext hr rfl)

theorem logged_whole {S : Sink σ α} (note : σ → List α → β) (hS : S.Whole) :
    (S.logged note).Whole := by
  intro p d n p' h
  have hr : (S.write p.1 d).1 = .ok n := congrArg Prod.fst h
  exact hS p.1 d n (S.write p.1 d).2 (Prod.ext hr rfl)

theorem logged_lockstep {S : Sink σ α} (note : σ → List α → β) :
    (S.logged note).Lockstep S (fun p w => p.1 = w) (fun _ => False) := by
  rintro p w d rfl
  exact .inl ⟨rfl, rfl⟩

/-- The sink, and what was live at each of its writes. -/
def probe (S : Sink σ α) (held : σ → Nat) : Sink (σ × List Nat) α where
  write p d := ((S.write p.1 d).1, ((S.write p.1 d).2, p.2 ++ [held p.1 + d.length]))
  steady p d e _ h := by
    have hr : (S.write p.1 d).1 = .err e := congrArg Prod.fst h
    exact S.steady p.1 d e (S.write p.1 d).2 (Prod.ext hr rfl)

variable {S : Sink σ α} (held : σ → Nat)

theorem probe_whole (hS : S.Whole) : (S.probe held).Whole :=
  logged_whole (fun w d => held w + d.length) hS

theorem probe_lockstep :
    (S.probe held).Lockstep S (fun p w => p.1 = w) (fun _ => False) :=
  logged_lockstep fun w d => held w + d.length

/-- What the watched sink returns and holds is what the sink does. -/
theorem writeEach_probe (hS : S.Whole) (ds : List (List α)) (p : σ × List Nat) :
    ((S.probe held).writeEach ds p).1 = (S.writeEach ds p.1).1
      ∧ ((S.probe held).writeEach ds p).2.1 = (S.writeEach ds p.1).2 := by
  rcases writeEach_lockstep (probe_whole held hS) hS (probe_lockstep held) ds rfl with
    h | ⟨-, -, h⟩
  · exact h
  · exact h.elim

end Sink

/-- A decoder gets the same answers from two sinks in lockstep. -/
theorem Writes.run_lockstep {τ : Type} {S : Sink σ α} {T : Sink τ α} (hS : S.Whole)
    (hT : T.Whole) {R : σ → τ → Prop} (hstep : S.Lockstep T R fun _ => False) :
    ∀ (p : Writes ε α) {w : σ} {v : τ}, R w v →
      (p.run S w).1 = (p.run T v).1 ∧ R (p.run S w).2 (p.run T v).2
  | .done res, _, _, hR => ⟨rfl, hR⟩
  | .write d accepted refused, w, v, hR => by
      have h := Sink.writeAll_lockstep hS hT hstep hR d
      rw [run, run]
      cases hw : S.writeAll w d with
      | mk r w' =>
          cases hv : T.writeAll v d with
          | mk q v' =>
              rw [hw, hv] at h
              rcases h with ⟨hrq, hR'⟩ | ⟨-, -, hfalse⟩
              · obtain rfl : r = q := hrq
                cases r with
                | ok u => exact run_lockstep hS hT hstep accepted hR'
                | err e => exact run_lockstep hS hT hstep refused hR'
                | panic => exact ⟨rfl, hR'⟩
              · exact hfalse.elim

theorem Writes.run_probe {S : Sink σ α} (held : σ → Nat) (hS : S.Whole) (p : Writes ε α)
    (w : σ × List Nat) :
    (p.run (S.probe held) w).1 = (p.run S w.1).1
      ∧ (p.run (S.probe held) w).2.1 = (p.run S w.1).2 :=
  run_lockstep (Sink.probe_whole held hS) hS (Sink.probe_lockstep held) p rfl

/-! ## Calls in any order -/

/-- A call on a sink. -/
inductive Call (α : Type) where
  | write (data : List α)
  | writeAll (data : List α)

namespace Call

/-- The slice the call offers. -/
def data : Call α → List α
  | write d => d
  | writeAll d => d

/-- What the call leaves behind. -/
def perform (S : Sink σ α) : Call α → σ → σ
  | write d, w => (S.write w d).2
  | writeAll d, w => (S.writeAll w d).2

/-- Calls in turn, whatever each returns. -/
def performAll (S : Sink σ α) : List (Call α) → σ → σ
  | [], w => w
  | c :: cs, w => performAll S cs (c.perform S w)

theorem performAll_append (S : Sink σ α) : ∀ (cs ds : List (Call α)) (w : σ),
    performAll S (cs ++ ds) w = performAll S ds (performAll S cs w)
  | [], _, _ => rfl
  | c :: cs, ds, w => performAll_append S cs ds (c.perform S w)

/-- A call on a whole sink is one `write` of its slice, or none. -/
theorem perform_cases {S : Sink σ α} (hS : S.Whole) (c : Call α) (w : σ) :
    c.perform S w = (S.write w c.data).2 ∨ c.data = [] ∧ c.perform S w = w := by
  cases c with
  | write d => exact .inl rfl
  | writeAll d =>
      by_cases hd : d = []
      · subst hd
        exact .inr ⟨rfl, rfl⟩
      · exact .inl (congrArg Prod.snd (Sink.writeAll_whole hS w hd))

/-- What every `write` preserves, every sequence of calls preserves. -/
theorem performAll_inv {S : Sink σ α} (hS : S.Whole) {I : σ → Prop}
    (hstep : ∀ w d, I w → I (S.write w d).2) (cs : List (Call α)) {w : σ} (hw : I w) :
    I (performAll S cs w) := by
  induction cs generalizing w with
  | nil => exact hw
  | cons c cs ih =>
      rw [performAll]
      refine ih ?_
      rcases perform_cases hS c w with h | ⟨-, h⟩
      · rw [h]
        exact hstep w c.data hw
      · rw [h]
        exact hw

/-- The calls leave in a watched sink what they leave in the sink. -/
theorem performAll_logged {S : Sink σ α} (hS : S.Whole) (note : σ → List α → β) :
    ∀ (cs : List (Call α)) (p : σ × List β),
      (performAll (S.logged note) cs p).1 = performAll S cs p.1
  | [], _ => rfl
  | c :: cs, p => by
      have hstep : (c.perform (S.logged note) p).1 = c.perform S p.1 := by
        cases c with
        | write d => rfl
        | writeAll d =>
            rcases Sink.writeAll_lockstep (Sink.logged_whole note hS) hS
              (Sink.logged_lockstep note) (w := p) rfl d with ⟨-, h⟩ | ⟨-, -, h⟩
            · exact h
            · exact h.elim
      rw [performAll, performAll, performAll_logged hS note cs, hstep]

end Call

/-! ## The log under a limit -/

/-- What is live at each write of these slices, from `held` on, as long as
the total stays within the limit. Nothing is written for an empty one. -/
def reached (limit : Nat) : Nat → List (List α) → List Nat
  | _, [] => []
  | held, [] :: ds => reached limit held ds
  | held, (a :: as) :: ds =>
      (held + (a :: as).length) ::
        if held + (a :: as).length ≤ limit then
          reached limit (held + (a :: as).length) ds
        else []

/-- A write is reached when the slices before it fit the limit. -/
theorem mem_reached_iff {limit n : Nat} : ∀ {ds : List (List α)} {held : Nat},
    held ≤ limit →
    (n ∈ reached limit held ds ↔ ∃ pre b post, ds = pre ++ b :: post ∧ b ≠ []
      ∧ held + pre.flatten.length ≤ limit ∧ n = held + pre.flatten.length + b.length)
  | [], held, _ => by simp [reached]
  | d :: ds, held, hle => by
      -- the split is at `d`, or behind it
      have hsplit : (∃ pre b post, d :: ds = pre ++ b :: post ∧ b ≠ []
            ∧ held + pre.flatten.length ≤ limit ∧ n = held + pre.flatten.length + b.length) ↔
          (d ≠ [] ∧ n = held + d.length)
          ∨ ∃ pre b post, ds = pre ++ b :: post ∧ b ≠ []
            ∧ held + d.length + pre.flatten.length ≤ limit
            ∧ n = held + d.length + pre.flatten.length + b.length := by
        constructor
        · rintro ⟨_ | ⟨c, pre⟩, b, post, heq, hb, hfit, hn⟩
          · cases heq
            exact .inl ⟨hb, hn⟩
          · cases heq
            rw [List.flatten_cons, List.length_append, ← Nat.add_assoc] at hfit hn
            exact .inr ⟨pre, b, post, rfl, hb, hfit, hn⟩
        · rintro (⟨hd, hn⟩ | ⟨pre, b, post, rfl, hb, hfit, hn⟩)
          · exact ⟨[], d, ds, rfl, hd, hle, hn⟩
          · refine ⟨d :: pre, b, post, rfl, hb, ?_, ?_⟩
            · rw [List.flatten_cons, List.length_append, ← Nat.add_assoc]; exact hfit
            · rw [List.flatten_cons, List.length_append, ← Nat.add_assoc]; exact hn
      rw [hsplit]
      cases d with
      | nil =>
          rw [reached, mem_reached_iff hle]
          simp
      | cons a as =>
          rw [reached, List.mem_cons]
          refine or_congr (by simp) ?_
          by_cases hfit : held + (a :: as).length ≤ limit
          · rw [if_pos hfit, mem_reached_iff hfit]
          · rw [if_neg hfit]
            refine iff_of_false List.not_mem_nil ?_
            rintro ⟨pre, b, post, -, -, hpre, -⟩
            omega

end RustStd
