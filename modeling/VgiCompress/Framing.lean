import Mathlib.Data.List.Basic

/-!
# What follows a complete piece

A format says of some inputs that they are a complete piece, and what the
piece comes to. If no piece starts with another, a run of pieces comes
apart in one way only, so that what follows a run can be judged on its own.

A decoder is the relation between the inputs it accepts and their outputs.
`ReadsEvery` is one that goes on as long as there is input, `ReadsOne` one
that decodes a single piece, at whose end it may stop. What an input holds
behind a point where the output is `Settled` has no say in the answer.
-/

namespace Framing

variable {α β : Type} {Piece Decodes : List α → List β → Prop} {Stops : List α → Prop}

/-! ## Pieces and runs of them -/

def SelfDelimiting (Piece : List α → List β → Prop) : Prop :=
  ∀ m x m' x' r r', Piece m x → Piece m' x' → m ++ r = m' ++ r' → m = m' ∧ x = x'

/-- Pieces, one behind the other. -/
inductive Run (Piece : List α → List β → Prop) : List α → List β → Prop where
  | nil : Run Piece [] []
  | cons {m s : List α} {x y : List β} (hm : Piece m x) (hs : Run Piece s y) :
      Run Piece (m ++ s) (x ++ y)

theorem Run.uncons {s : List α} {w : List β} (h : Run Piece s w) (hne : s ≠ []) :
    ∃ m x t y, s = m ++ t ∧ w = x ++ y ∧ Piece m x ∧ Run Piece t y := by
  cases h with
  | nil => exact absurd rfl hne
  | cons hm hs => exact ⟨_, _, _, _, rfl, rfl, hm, hs⟩

/-- What follows a run, up to the end of a longer one, is a run. -/
theorem Run.rest (hdelim : SelfDelimiting Piece) (hne : ∀ m x, Piece m x → m ≠ [])
    {s g : List α} {x w : List β} (hs : Run Piece s x) (hw : Run Piece (s ++ g) w) :
    ∃ y, Run Piece g y ∧ w = x ++ y := by
  induction hs generalizing w with
  | nil => exact ⟨w, hw, rfl⟩
  | @cons m s x y hm hs ih =>
      have hsg : m ++ s ++ g ≠ [] := by simp [hne m x hm]
      obtain ⟨m', x', t, z, heq, rfl, hm', ht⟩ := hw.uncons hsg
      rw [List.append_assoc] at heq
      obtain ⟨rfl, rfl⟩ := hdelim m x m' x' _ _ hm hm' heq
      obtain rfl := List.append_cancel_left heq
      obtain ⟨v, hv, rfl⟩ := ih ht
      exact ⟨v, hv, (List.append_assoc x y v).symm⟩

/-! ## Decoders -/

/-- Whatever follows `s`, the output is `v`. -/
def Settled (Decodes : List α → List β → Prop) (s : List α) (v : List β) : Prop :=
  ∀ g, Decodes (s ++ g) v

theorem Settled.self {s : List α} {v : List β} (h : Settled Decodes s v) : Decodes s v := by
  have hnil := h []
  rwa [List.append_nil] at hnil

/-- Input that is accepted is a run of pieces, and there is input that
starts with none. -/
structure ReadsEvery (Decodes Piece : List α → List β → Prop) : Prop where
  only : ∀ input v, Decodes input v → Run Piece input v
  delimited : SelfDelimiting Piece
  nonempty : ∀ m x, Piece m x → m ≠ []
  junk : ∃ g, g ≠ [] ∧ ∀ m x rest, Piece m x → g ≠ m ++ rest

theorem ReadsEvery.rest (h : ReadsEvery Decodes Piece) {s g : List α} {x w : List β}
    (hs : Run Piece s x) (hw : Decodes (s ++ g) w) : ∃ y, Run Piece g y ∧ w = x ++ y :=
  hs.rest h.delimited h.nonempty (h.only _ w hw)

theorem ReadsEvery.not_settled (h : ReadsEvery Decodes Piece) {s : List α} {v : List β} :
    ¬Settled Decodes s v := by
  intro hs
  obtain ⟨g, hg, hjunk⟩ := h.junk
  obtain ⟨y, hy, -⟩ := h.rest (h.only s v hs.self) (hs g)
  obtain ⟨m, x, rest, -, heq, -, hm, -⟩ := hy.uncons hg
  exact hjunk m x rest hm heq

/-- Input that is accepted starts with a piece, and ends with it unless the
decoder stops there; or the decoder took the end of the input for the end of
a piece, and more input could change the answer. -/
structure ReadsOne (Decodes Piece : List α → List β → Prop) (Stops : List α → Prop) :
    Prop where
  stops : ∀ m x rest, Piece m x → Stops m → Decodes (m ++ rest) x
  only : ∀ input v, Decodes input v →
    (∃ m rest, input = m ++ rest ∧ Piece m v ∧ (rest ≠ [] → Stops m))
      ∨ (∀ m x rest, Piece m x → input ≠ m ++ rest) ∧ ∃ g, ¬Decodes (input ++ g) v
  delimited : SelfDelimiting Piece

/-- Behind a piece at which it does not stop, nothing is accepted. -/
theorem ReadsOne.eq_nil (h : ReadsOne Decodes Piece Stops) {s g : List α} {x w : List β}
    (hs : Piece s x) (hgo : ¬Stops s) (hw : Decodes (s ++ g) w) : g = [] := by
  rcases h.only _ w hw with ⟨m, rest, heq, hm, hstops⟩ | ⟨hnone, -⟩
  · obtain ⟨rfl, -⟩ := h.delimited s x m w g rest hs hm heq
    obtain rfl := List.append_cancel_left heq
    exact Classical.byContradiction fun hne => hgo (hstops hne)
  · exact absurd rfl (hnone s x g hs)

/-- More input is more output. -/
def Grows (Decodes : List α → List β → Prop) : Prop :=
  ∀ s g x w, Decodes s x → g ≠ [] → Decodes (s ++ g) w → x.length < w.length

theorem Grows.not_settled [Inhabited α] (h : Grows Decodes) {s : List α} {v : List β} :
    ¬Settled Decodes s v := fun hs =>
  Nat.lt_irrefl _ (h s [default] v v hs.self (by simp) (hs [default]))

end Framing
