import Mathlib.Algebra.GroupWithZero.Nat

/-!
# How a call ends

A Rust call that returns `Result<T, E>` ends in one of three ways: with
`Ok`, with `Err`, or by unwinding from a panic. `Outcome` keeps the
three apart, so that "never panics" is a statement about a model rather
than an assumption built into it. The `Monad` instance is the `?`
operator: `Err` returns early, and a panic unwinds through everything.
-/

namespace RustStd

/-- How a call ends: with `Ok`, with `Err`, or by unwinding. -/
inductive Outcome (ε α : Type) where
  | ok (v : α)
  | err (e : ε)
  | panic
  deriving DecidableEq, Repr

namespace Outcome

variable {ε ε' α β ι : Type}

instance : Monad (Outcome ε) where
  pure := .ok
  bind
    | .ok v, f => f v
    | .err e, _ => .err e
    | .panic, _ => .panic

/-- `Result::map_err`. -/
def mapErr (f : ε → ε') : Outcome ε α → Outcome ε' α
  | .ok v => .ok v
  | .err e => .err (f e)
  | .panic => .panic

/-- `Result::map`. -/
def map (f : α → β) : Outcome ε α → Outcome ε β
  | .ok v => .ok (f v)
  | .err e => .err e
  | .panic => .panic

/-- A `Result` of code that does not panic. -/
def ofExcept : Except ε α → Outcome ε α
  | .ok v => .ok v
  | .error e => .err e

/-- The call returned `Ok`. -/
def isOk : Outcome ε α → Bool
  | .ok _ => true
  | _ => false

@[simp] theorem pure_eq (v : α) : (pure v : Outcome ε α) = .ok v := rfl

@[simp] theorem ok_bind (v : α) (f : α → Outcome ε β) :
    ((.ok v : Outcome ε α) >>= f) = f v := rfl

@[simp] theorem err_bind (e : ε) (f : α → Outcome ε β) :
    ((.err e : Outcome ε α) >>= f) = .err e := rfl

@[simp] theorem panic_bind (f : α → Outcome ε β) :
    ((.panic : Outcome ε α) >>= f) = .panic := rfl

@[simp] theorem mapErr_ok (f : ε → ε') (v : α) :
    (Outcome.ok v).mapErr f = .ok v := rfl

@[simp] theorem mapErr_err (f : ε → ε') (e : ε) :
    (Outcome.err e : Outcome ε α).mapErr f = .err (f e) := rfl

@[simp] theorem mapErr_panic (f : ε → ε') :
    (Outcome.panic : Outcome ε α).mapErr f = .panic := rfl

@[simp] theorem ofExcept_ok (v : α) : ofExcept (.ok v : Except ε α) = .ok v := rfl

@[simp] theorem ofExcept_error (e : ε) :
    ofExcept (.error e : Except ε α) = .err e := rfl

theorem map_injective {f : α → β} (hf : Function.Injective f) :
    Function.Injective (map f : Outcome ε α → Outcome ε β) := by
  intro x y h
  cases x <;> cases y <;> simp_all [map, hf.eq_iff]

theorem map_eq_ok {f : α → β} {x : Outcome ε α} {b : β} :
    x.map f = .ok b ↔ ∃ a, x = .ok a ∧ f a = b := by
  cases x <;> simp [map]

theorem mapErr_eq_ok {f : ε → ε'} {x : Outcome ε α} {v : α} :
    x.mapErr f = .ok v ↔ x = .ok v := by
  cases x <;> simp [mapErr]

theorem ofExcept_eq_ok {x : Except ε α} {v : α} :
    ofExcept x = .ok v ↔ x = .ok v := by
  cases x <;> simp [ofExcept]

theorem bind_eq_ok {x : Outcome ε α} {f : α → Outcome ε β} {b : β} :
    (x >>= f) = .ok b ↔ ∃ a, x = .ok a ∧ f a = .ok b := by
  cases x <;> simp

theorem bind_eq_err {x : Outcome ε α} {f : α → Outcome ε β} {e : ε} :
    (x >>= f) = .err e ↔ x = .err e ∨ ∃ a, x = .ok a ∧ f a = .err e := by
  cases x <;> simp

theorem bind_eq_panic {x : Outcome ε α} {f : α → Outcome ε β} :
    (x >>= f) = .panic ↔ x = .panic ∨ ∃ a, x = .ok a ∧ f a = .panic := by
  cases x <;> simp

theorem mapErr_eq_err {f : ε → ε'} {x : Outcome ε α} {e : ε'} :
    x.mapErr f = .err e ↔ ∃ e', x = .err e' ∧ f e' = e := by
  cases x <;> simp

theorem mapErr_bind (g : ε → ε') (x : Outcome ε α) (f : α → Outcome ε β) :
    (x >>= f).mapErr g = (x.mapErr g >>= fun v => (f v).mapErr g) := by
  cases x <;> rfl

/-! ## Calls that do not unwind -/

theorem ok_ne_panic (v : α) : (.ok v : Outcome ε α) ≠ .panic := nofun

theorem err_ne_panic (e : ε) : (.err e : Outcome ε α) ≠ .panic := nofun

theorem bind_ne_panic {x : Outcome ε α} {f : α → Outcome ε β} (hx : x ≠ .panic)
    (hf : ∀ v, x = .ok v → f v ≠ .panic) : (x >>= f) ≠ .panic := by
  cases x with
  | ok v => exact hf v rfl
  | err e => exact err_ne_panic e
  | panic => exact absurd rfl hx

theorem mapErr_ne_panic {f : ε → ε'} {x : Outcome ε α} (hx : x ≠ .panic) :
    x.mapErr f ≠ .panic := by
  cases x with
  | ok v => exact ok_ne_panic _
  | err e => exact err_ne_panic (f e)
  | panic => exact absurd rfl hx

theorem ofExcept_ne_panic (x : Except ε α) : ofExcept x ≠ .panic := by
  cases x <;> exact nofun

end Outcome

end RustStd
