import Mathlib.Algebra.BigOperators.Group.List.Basic
import VgiCompress.RowLoop

/-!
# Computations under watch

`Watched` is a computation that also says how much is alive at its steps.
Its `Monad` instance is that of `Outcome` with the logs one behind the
other, so a watched program is written like the program it watches, and
forgetting the log gives that program back (`result_bind`).

`Within` bounds a log. A loop that keeps what it has made holds it during
all later rows: `Within.pushEach` bounds its log by the sizes of its rows
and what one row may use beyond its size.
-/

namespace RustStd

/-- How a computation ends, and how much was alive at its steps. -/
structure Watched (ε α : Type) where
  result : Outcome ε α
  live : List Nat

namespace Watched

variable {ε ε' α β ι : Type}

instance : Monad (Watched ε) where
  pure v := ⟨.ok v, []⟩
  bind x f :=
    match x.result with
    | .ok v => ⟨(f v).result, x.live ++ (f v).live⟩
    | .err e => ⟨.err e, x.live⟩
    | .panic => ⟨.panic, x.live⟩

/-- A computation of which nothing is told. -/
def lift (o : Outcome ε α) : Watched ε α := ⟨o, []⟩

def mapErr (f : ε → ε') (x : Watched ε α) : Watched ε' α := ⟨x.result.mapErr f, x.live⟩

/-- The computation, with so much alive beside it all the time. -/
def beside (held : Nat) (x : Watched ε α) : Watched ε α := ⟨x.result, x.live.map (held + ·)⟩

/-- `test && x`. -/
def andThen (test : Bool) (x : Watched ε Bool) : Watched ε Bool :=
  if test then x else pure false

/-- A loop that pushes, over what it has pushed. -/
def pushEach (held : α → Nat) (body : ι → Watched ε α) :
    List ι → List α → Watched ε (List α)
  | [], out => pure out
  | i :: is, out => do
      let v ← (body i).beside (out.map held).sum
      pushEach held body is (out ++ [v])

/-! ## The computation that is watched -/

@[simp] theorem result_pure (v : α) : (pure v : Watched ε α).result = .ok v := rfl

@[simp] theorem result_lift (o : Outcome ε α) : (lift o).result = o := rfl

@[simp] theorem result_mapErr (f : ε → ε') (x : Watched ε α) :
    (x.mapErr f).result = x.result.mapErr f := rfl

@[simp] theorem result_beside (held : Nat) (x : Watched ε α) :
    (x.beside held).result = x.result := rfl

@[simp] theorem result_bind (x : Watched ε α) (f : α → Watched ε β) :
    (x >>= f).result = (x.result >>= fun v => (f v).result) := by
  obtain ⟨_ | _ | _, live⟩ := x <;> rfl

theorem result_andThen {test b : Bool} {x : Watched ε Bool} (h : x.result = .ok b) :
    (andThen test x).result = .ok (test && b) := by
  cases test with
  | true => exact h
  | false => rfl

@[simp] theorem result_pushEach (held : α → Nat) (body : ι → Watched ε α) (is : List ι)
    (out : List α) :
    (pushEach held body is out).result
      = Outcome.pushEach (fun i => (body i).result) is out := by
  induction is generalizing out with
  | nil => rfl
  | cons i is ih =>
      rw [pushEach, result_bind, result_beside, Outcome.pushEach]
      exact congrArg _ (funext fun v => ih _)

theorem live_bind_of_ok {x : Watched ε α} {v : α} (h : x.result = .ok v)
    (f : α → Watched ε β) : (x >>= f).live = x.live ++ (f v).live := by
  obtain ⟨o, live⟩ := x
  obtain rfl : o = .ok v := h
  rfl

/-! ## Bounds on what is alive -/

/-- At no step is more alive. -/
def Within (n : Nat) (x : Watched ε α) : Prop := ∀ k ∈ x.live, k ≤ n

variable {n : Nat} {x : Watched ε α}

theorem within_pure (v : α) : Within n (pure v : Watched ε α) := nofun

theorem within_lift (o : Outcome ε α) : Within n (lift o) := nofun

theorem Within.mapErr (h : Within n x) (f : ε → ε') : Within n (x.mapErr f) := h

theorem Within.le {m : Nat} (h : Within n x) (hle : n ≤ m) : Within m x :=
  fun k hk => (h k hk).trans hle

theorem Within.beside (h : Within n x) (held : Nat) : Within (held + n) (x.beside held) := by
  intro k hk
  obtain ⟨l, hl, rfl⟩ := List.mem_map.mp hk
  exact Nat.add_le_add_left (h l hl) held

theorem Within.bind {f : α → Watched ε β} (hx : Within n x)
    (hf : ∀ v, x.result = .ok v → Within n (f v)) : Within n (x >>= f) := by
  obtain ⟨_ | _ | _, live⟩ := x
  · intro k hk
    rcases List.mem_append.mp hk with hk | hk
    · exact hx k hk
    · exact hf _ rfl k hk
  · exact hx
  · exact hx

theorem Within.andThen {x : Watched ε Bool} (h : Within n x) (test : Bool) :
    Within n (andThen test x) := by
  cases test with
  | true => exact h
  | false => exact within_pure false

/-- A computation that begins with what is not watched. -/
theorem within_lift_bind {o : Outcome ε α} {f : α → Watched ε β}
    (hf : ∀ v, o = .ok v → Within n (f v)) : Within n (lift o >>= f) :=
  (within_lift o).bind hf

/-- Each row adds its size to what later rows have beside them. -/
theorem Within.pushEach {held : α → Nat} {body : ι → Watched ε α} {size : ι → Nat} {extra : Nat}
    (is : List ι) (hbody : ∀ i ∈ is, Within (size i + extra) (body i))
    (hsize : ∀ i ∈ is, ∀ v, (body i).result = .ok v → held v ≤ size i) (out : List α) :
    Within ((out.map held).sum + (is.map size).sum + extra) (pushEach held body is out) := by
  induction is generalizing out with
  | nil => exact within_pure out
  | cons i is ih =>
      rw [List.forall_mem_cons] at hbody hsize
      rw [List.map_cons, List.sum_cons]
      refine ((hbody.1.beside _).le (by omega)).bind fun v hv => ?_
      have hrest := ih hbody.2 hsize.2 (out ++ [v])
      rw [List.map_append, List.sum_append, List.map_singleton, List.sum_singleton] at hrest
      have hheld := hsize.1 v hv
      exact hrest.le (by omega)

/-- What a loop has pushed in the end is the size of its rows at most. -/
theorem sum_pushEach_le {held : α → Nat} {body : ι → Watched ε α} {size : ι → Nat}
    (is : List ι) (hsize : ∀ i ∈ is, ∀ v, (body i).result = .ok v → held v ≤ size i)
    {out vs : List α} (h : (Watched.pushEach held body is out).result = .ok vs) :
    (vs.map held).sum ≤ (out.map held).sum + (is.map size).sum := by
  induction is generalizing out with
  | nil =>
      obtain rfl : out = vs := Outcome.ok.inj h
      exact Nat.le_refl _
  | cons i is ih =>
      rw [List.forall_mem_cons] at hsize
      rw [Watched.pushEach, result_bind] at h
      obtain ⟨v, hv, hrest⟩ := Outcome.bind_eq_ok.mp h
      have hle := ih hsize.2 hrest
      have hheld := hsize.1 v hv
      rw [List.map_append, List.sum_append, List.map_singleton, List.sum_singleton] at hle
      rw [List.map_cons, List.sum_cons]
      omega

end Watched

end RustStd
