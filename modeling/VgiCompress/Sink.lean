import VgiCompress.Outcome

/-!
# Readers, sinks and the loops between them

`std::io` as the decoders use it. A `Sink` is what a `Write`
implementation looks like to its callers; a reader is the list of the
results its `read` returns, call after call (`Reads`); a decoder that
drives a sink itself is a tree of `write_all` calls that branches on
whether the last one was accepted (`Writes`). `copy` is `io::copy` and
`Writes.run` is such a decoder at work.

Both loops come down to `writeEach`: the chunks in order, stopping at
the first that is refused (`copy_eq`, `Scripted.run_eq`). Properties of
a run are proved once, over `writeEach` or over `run`, from what one
`write` does: `writeEach_inv` and `run_inv` carry an invariant,
`writeEach_lockstep` compares two sinks.
-/

namespace RustStd

variable {σ τ ε α : Type}

/-! ## Errors and sinks -/

/-- The kinds of `io::Error` that some loop looks at. -/
inductive ErrorKind where
  | interrupted
  | writeZero
  | other
  deriving DecidableEq, Repr

/-- An `io::Error`: its kind and its `to_string`. -/
structure IoError where
  kind : ErrorKind
  message : String
  deriving DecidableEq, Repr

/-- A `Write` implementation as its callers see it: the state behind
`&mut self`, and what `write` does to it. -/
structure Sink (σ α : Type) where
  write : σ → List α → Outcome IoError Nat × σ
  /-- `write` is never interrupted, so `write_all` never has to retry. -/
  steady : ∀ w d e w', write w d = (.err e, w') → e.kind ≠ .interrupted

/-- What `write_all` reports when `write` takes nothing. -/
def writeAllEof : IoError := ⟨.writeZero, "failed to write whole buffer"⟩

namespace Sink

/-- The loop of `Write::write_all`. Every round takes at least one
element off the buffer, so the buffer's length is fuel enough. -/
def writeAllLoop (S : Sink σ α) : Nat → σ → List α → Outcome IoError Unit × σ
  | 0, w, _ => (.ok (), w)
  | fuel + 1, w, buf =>
      if buf.isEmpty then (.ok (), w)
      else
        match S.write w buf with
        | (.ok 0, w') => (.err writeAllEof, w')
        | (.ok (n + 1), w') =>
            -- `&buf[n..]` is out of bounds when a sink claims too much
            if buf.length < n + 1 then (.panic, w')
            else writeAllLoop S fuel w' (buf.drop (n + 1))
        | (.err e, w') => (.err e, w')
        | (.panic, w') => (.panic, w')

/-- `Write::write_all`. -/
def writeAll (S : Sink σ α) (w : σ) (buf : List α) : Outcome IoError Unit × σ :=
  S.writeAllLoop buf.length w buf

/-- `write_all` of each slice in turn, stopping at the first that fails. -/
def writeEach (S : Sink σ α) : List (List α) → σ → Outcome IoError Unit × σ
  | [], w => (.ok (), w)
  | d :: ds, w =>
      match S.writeAll w d with
      | (.ok (), w') => writeEach S ds w'
      | (.err e, w') => (.err e, w')
      | (.panic, w') => (.panic, w')

/-- A sink that takes a slice whole or not at all. -/
def Whole (S : Sink σ α) : Prop :=
  ∀ w d n w', S.write w d = (.ok n, w') → n = d.length

@[simp] theorem writeAll_nil (S : Sink σ α) (w : σ) :
    S.writeAll w [] = (.ok (), w) := rfl

theorem writeAllLoop_nil (S : Sink σ α) (fuel : Nat) (w : σ) :
    S.writeAllLoop fuel w [] = (.ok (), w) := by
  cases fuel <;> rfl

/-- On a whole sink `write_all` is one `write`: no slice is split. -/
theorem writeAll_whole {S : Sink σ α} (hS : S.Whole) (w : σ) {d : List α}
    (hd : d ≠ []) :
    S.writeAll w d = ((S.write w d).1 >>= fun _ => .ok (), (S.write w d).2) := by
  obtain ⟨a, as, rfl⟩ := List.exists_cons_of_ne_nil hd
  simp only [writeAll, List.length_cons, writeAllLoop, List.isEmpty_cons,
    Bool.false_eq_true, if_false]
  cases hw : S.write w (a :: as) with
  | mk r w' =>
      cases r with
      | ok n =>
          obtain rfl : n = as.length + 1 := hS _ _ _ _ hw
          simp [writeAllLoop_nil]
      | err e => rfl
      | panic => rfl

end Sink

/-! ## Read-driven decoders -/

/-- The results `read` returns, call after call: an error or the bytes it
put into the buffer. Past the end of the list it returns `Ok(0)`. -/
abbrev Reads (α : Type) := List (Except IoError (List α))

/-- `io::copy`, with the number of elements copied so far. -/
def copy (S : Sink σ α) : Reads α → σ → Nat → Outcome IoError Nat × σ
  | [], w, len => (.ok len, w)
  | .error e :: rest, w, len =>
      if e.kind = .interrupted then copy S rest w len else (.err e, w)
  | .ok [] :: _, w, len => (.ok len, w)
  | .ok (a :: as) :: rest, w, len =>
      match S.writeAll w (a :: as) with
      | (.ok (), w') => copy S rest w' (len + (a :: as).length)
      | (.err e, w') => (.err e, w')
      | (.panic, w') => (.panic, w')

namespace Reads

/-- The chunks delivered before the reader stops. -/
def chunks : Reads α → List (List α)
  | [] => []
  | .error e :: rest => if e.kind = .interrupted then chunks rest else []
  | .ok [] :: _ => []
  | .ok (a :: as) :: rest => (a :: as) :: chunks rest

/-- How the reader stops: end of stream, or an error. -/
def ending : Reads α → Except IoError Unit
  | [] => .ok ()
  | .error e :: rest => if e.kind = .interrupted then ending rest else .error e
  | .ok [] :: _ => .ok ()
  | .ok (_ :: _) :: rest => ending rest

/-- Everything the reader delivers. -/
def output (r : Reads α) : List α := r.chunks.flatten

theorem chunks_ne_nil : ∀ (r : Reads α), ∀ d ∈ r.chunks, d ≠ []
  | [], _, h => by cases h
  | .error e :: rest, d, h => by
      rw [chunks] at h
      split at h
      · exact chunks_ne_nil rest d h
      · cases h
  | .ok [] :: _, _, h => by cases h
  | .ok (a :: as) :: rest, d, h => by
      rcases List.mem_cons.mp h with rfl | h
      · exact List.cons_ne_nil a as
      · exact chunks_ne_nil rest d h

/-- The reader that delivers these chunks and then stops this way. -/
def deliver (cs : List (List α)) : Except IoError Unit → Reads α
  | .ok () => cs.map .ok
  | .error e => cs.map .ok ++ [.error e]

/-- A reader of non-empty chunks delivers these and reaches the end. -/
theorem deliver_ok : ∀ {cs : List (List α)}, (∀ d ∈ cs, d ≠ []) →
    (deliver cs (.ok ())).chunks = cs ∧ (deliver cs (.ok ())).ending = .ok ()
  | [], _ => ⟨rfl, rfl⟩
  | [] :: _, h => absurd rfl (h [] (List.mem_cons_self ..))
  | (a :: as) :: cs, h => by
      obtain ⟨hc, he⟩ := deliver_ok fun d hd => h d (List.mem_cons_of_mem _ hd)
      exact ⟨congrArg ((a :: as) :: ·) hc, he⟩

end Reads

/-- `io::copy` is `writeEach` of the reader's chunks, and then the
reader's own ending: an error of the sink comes before any error the
reader would still have returned. -/
theorem copy_eq (S : Sink σ α) : ∀ (r : Reads α) (w : σ) (len : Nat),
    copy S r w len =
      ((S.writeEach r.chunks w).1 >>= fun _ =>
        (Outcome.ofExcept r.ending >>= fun _ => .ok (len + r.output.length)),
       (S.writeEach r.chunks w).2)
  | [], w, len => rfl
  | .error e :: rest, w, len => by
      rw [copy, Reads.chunks, Reads.ending, Reads.output, Reads.chunks]
      split
      · exact copy_eq S rest w len
      · rfl
  | .ok [] :: _, w, len => rfl
  | .ok (a :: as) :: rest, w, len => by
      rw [copy, Reads.chunks, Reads.ending, Reads.output, Reads.chunks, Sink.writeEach]
      cases S.writeAll w (a :: as) with
      | mk r w' =>
          cases r with
          | ok u =>
              simp only [copy_eq S rest w', Reads.output, List.flatten_cons,
                List.length_append, Nat.add_assoc]
          | err e => rfl
          | panic => rfl

/-! ## Write-driven decoders -/

/-- A decoder that drives a sink: it reports a result, or it calls
`write_all` and goes on according to whether that was accepted. -/
inductive Writes (ε α : Type) where
  | done (res : Except ε Unit)
  | write (data : List α) (accepted refused : Writes ε α)

namespace Writes

/-- The decoder at work on a sink. -/
def run (S : Sink σ α) : Writes ε α → σ → Outcome ε Unit × σ
  | done res, w => (.ofExcept res, w)
  | write d accepted refused, w =>
      match S.writeAll w d with
      | (.ok (), w') => run S accepted w'
      | (.err _, w') => run S refused w'
      | (.panic, w') => (.panic, w')

/-- The slices the decoder offers in the course of a run, refused ones
included. -/
def offered (S : Sink σ α) : Writes ε α → σ → List (List α)
  | done _, _ => []
  | write d accepted refused, w =>
      match S.writeAll w d with
      | (.ok (), w') => d :: offered S accepted w'
      | (.err _, w') => d :: offered S refused w'
      | (.panic, _) => [d]

/-- Some slice of the run is refused. -/
def refuses (S : Sink σ α) : Writes ε α → σ → Bool
  | done _, _ => false
  | write d accepted _, w =>
      match S.writeAll w d with
      | (.ok (), w') => refuses S accepted w'
      | (.err _, _) => true
      | (.panic, _) => false

/-- The decoder writes these slices in this order and then ends this
way, except that it stops with some error at the first refused write. -/
inductive Scripted : Writes ε α → List (List α) → Except ε Unit → Prop
  | done (res : Except ε Unit) : Scripted (.done res) [] res
  | write {next : Writes ε α} {ds : List (List α)} {res : Except ε Unit}
      (d : List α) (e : ε) (h : Scripted next ds res) :
      Scripted (.write d next (.done (.error e))) (d :: ds) res

/-- The decoder that follows such a script, giving up with `e`. -/
def script (e : ε) : List (List α) → Except ε Unit → Writes ε α
  | [], res => .done res
  | d :: ds, res => .write d (script e ds res) (.done (.error e))

theorem scripted_script (e : ε) (res : Except ε Unit) :
    ∀ ds : List (List α), Scripted (script e ds res) ds res
  | [] => .done res
  | d :: ds => .write d e (scripted_script e res ds)

/-- A decoder follows one script at most. -/
theorem Scripted.unique {p : Writes ε α} {ds ds' : List (List α)} {res res' : Except ε Unit}
    (h : Scripted p ds res) (h' : Scripted p ds' res') : ds = ds' ∧ res = res' := by
  induction h generalizing ds' with
  | done res =>
      cases h'
      exact ⟨rfl, rfl⟩
  | write d e h ih =>
      cases h' with
      | write _ _ h' =>
          obtain ⟨rfl, rfl⟩ := ih h'
          exact ⟨rfl, rfl⟩

/-- A scripted decoder is `writeEach` of its slices, and then its own
ending; after a refused write it reports some error. -/
theorem Scripted.run_eq {S : Sink σ α} {p : Writes ε α} {ds : List (List α)}
    {res : Except ε Unit} (h : Scripted p ds res) (w : σ) :
    (p.run S w).2 = (S.writeEach ds w).2 ∧
      match (S.writeEach ds w).1 with
      | .ok () => (p.run S w).1 = .ofExcept res
      | .err _ => ∃ e, (p.run S w).1 = .err e
      | .panic => (p.run S w).1 = .panic := by
  induction h generalizing w with
  | done res => exact ⟨rfl, rfl⟩
  | write d e h ih =>
      rw [run, Sink.writeEach]
      cases S.writeAll w d with
      | mk r w' =>
          cases r with
          | ok u => exact ih w'
          | err e' => exact ⟨rfl, e, rfl⟩
          | panic => exact ⟨rfl, rfl⟩

end Writes

/-! ## The invariant rule -/

/-- What every `write` of a whole sink preserves, `write_all` preserves. -/
theorem Sink.writeAll_inv {S : Sink σ α} (hS : S.Whole) {I : σ → Prop}
    (hstep : ∀ w d, I w → I (S.write w d).2) {w : σ} (hw : I w) (d : List α) :
    I (S.writeAll w d).2 := by
  by_cases hd : d = []
  · rw [hd]; exact hw
  · rw [Sink.writeAll_whole hS w hd]; exact hstep w d hw

theorem Sink.writeEach_inv {S : Sink σ α} (hS : S.Whole) {I : σ → Prop}
    (hstep : ∀ w d, I w → I (S.write w d).2) (ds : List (List α)) {w : σ} (hw : I w) :
    I (S.writeEach ds w).2 := by
  induction ds generalizing w with
  | nil => exact hw
  | cons d ds ih =>
      have h := Sink.writeAll_inv hS hstep hw d
      rw [writeEach]
      cases hr : S.writeAll w d with
      | mk r w' =>
          rw [hr] at h
          cases r with
          | ok u => exact ih h
          | err e => exact h
          | panic => exact h

theorem Writes.run_inv {S : Sink σ α} (hS : S.Whole) {I : σ → Prop}
    (hstep : ∀ w d, I w → I (S.write w d).2) (p : Writes ε α) {w : σ} (hw : I w) :
    I (p.run S w).2 := by
  induction p generalizing w with
  | done res => exact hw
  | write d accepted refused ihAccepted ihRefused =>
      have h := Sink.writeAll_inv hS hstep hw d
      rw [run]
      cases hr : S.writeAll w d with
      | mk r w' =>
          rw [hr] at h
          cases r with
          | ok u => exact ihAccepted h
          | err e => exact ihRefused h
          | panic => exact h

/-- A decoder panics only where some `write` does. -/
theorem Writes.run_ne_panic {S : Sink σ α} (hS : S.Whole) {I : σ → Prop}
    (hstep : ∀ w d, I w → I (S.write w d).2)
    (hcalm : ∀ w d, I w → (S.write w d).1 ≠ .panic) (p : Writes ε α) {w : σ} (hw : I w) :
    (p.run S w).1 ≠ .panic := by
  induction p generalizing w with
  | done res => cases res <;> simp [run]
  | write d accepted refused ihAccepted ihRefused =>
      have hinv := Sink.writeAll_inv hS hstep hw d
      have hnp : (S.writeAll w d).1 ≠ .panic := by
        by_cases hd : d = []
        · rw [hd]; simp
        · rw [Sink.writeAll_whole hS w hd]
          have := hcalm w d hw
          cases h : (S.write w d).1 <;> simp_all
      rw [run]
      cases hr : S.writeAll w d with
      | mk r w' =>
          rw [hr] at hinv hnp
          cases r with
          | ok u => exact ihAccepted hinv
          | err e => exact ihRefused hinv
          | panic => exact absurd rfl hnp

/-! ## The lockstep rule

Two sinks that answer every `write` alike give a decoder the same run.
The left one may also refuse where the right one does not, as long as it
is left in a `Stuck` state: the run ends there, since `writeEach` stops at
the first refusal. -/

/-- One `write` of two sinks in related states: both answer alike and stay
related, or the left one refuses and is stuck. -/
def Sink.Lockstep (S : Sink σ α) (T : Sink τ α) (R : σ → τ → Prop)
    (Stuck : σ → Prop) : Prop :=
  ∀ w v d, R w v →
    ((S.write w d).1 = (T.write v d).1 ∧ R (S.write w d).2 (T.write v d).2)
      ∨ ∃ e, (S.write w d).1 = .err e ∧ Stuck (S.write w d).2

theorem Sink.writeAll_lockstep {S : Sink σ α} {T : Sink τ α} (hS : S.Whole)
    (hT : T.Whole) {R : σ → τ → Prop} {Stuck : σ → Prop}
    (hstep : S.Lockstep T R Stuck) {w : σ} {v : τ} (hR : R w v) (d : List α) :
    ((S.writeAll w d).1 = (T.writeAll v d).1 ∧ R (S.writeAll w d).2 (T.writeAll v d).2)
      ∨ ∃ e, (S.writeAll w d).1 = .err e ∧ Stuck (S.writeAll w d).2 := by
  by_cases hd : d = []
  · rw [hd]; exact .inl ⟨rfl, hR⟩
  · rw [writeAll_whole hS w hd, writeAll_whole hT v hd]
    rcases hstep w v d hR with ⟨hr, hR'⟩ | ⟨e, he, hs⟩
    · exact .inl ⟨by rw [hr], hR'⟩
    · exact .inr ⟨e, by rw [he]; rfl, hs⟩

theorem Sink.writeEach_lockstep {S : Sink σ α} {T : Sink τ α} (hS : S.Whole)
    (hT : T.Whole) {R : σ → τ → Prop} {Stuck : σ → Prop}
    (hstep : S.Lockstep T R Stuck) (ds : List (List α)) {w : σ} {v : τ} (hR : R w v) :
    ((S.writeEach ds w).1 = (T.writeEach ds v).1
        ∧ R (S.writeEach ds w).2 (T.writeEach ds v).2)
      ∨ ∃ e, (S.writeEach ds w).1 = .err e ∧ Stuck (S.writeEach ds w).2 := by
  induction ds generalizing w v with
  | nil => exact .inl ⟨rfl, hR⟩
  | cons d ds ih =>
      have h := writeAll_lockstep hS hT hstep hR d
      rw [writeEach, writeEach]
      cases hw : S.writeAll w d with
      | mk r w' =>
          cases hv : T.writeAll v d with
          | mk q v' =>
              rw [hw, hv] at h
              rcases h with ⟨hrq, hR'⟩ | ⟨e, he, hs⟩
              · obtain rfl : r = q := hrq
                cases r with
                | ok u => exact ih hR'
                | err e => exact .inl ⟨rfl, hR'⟩
                | panic => exact .inl ⟨rfl, hR'⟩
              · obtain rfl : r = .err e := he
                exact .inr ⟨e, rfl, hs⟩

end RustStd
