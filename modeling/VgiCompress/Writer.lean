import VgiCompress.Guard
import VgiCompress.Probe

/-!
# What the writer keeps

The representation invariant of `BoundedWriter`, over every sequence of
`write` and `write_all` calls: a caller may go on after a refusal, and what
was refused leaves no trace but the flag. `Kept` relates the writer to the
trace of its writes, `WritesWhole` is what its next write does, and
`writer_invariant` has both at every writer that calls can lead to.

A write that fits the cap is accepted as far as a `Vec` goes: where the
buffer would outgrow `isize::MAX` it panics instead, and keeps what it had.
-/

namespace VgiCompress

open RustStd

namespace BoundedWriter

/-! ## Writers and their traces -/

/-- Writes, each with what it answered. -/
abbrev Trace := List (Bytes × Outcome IoError Nat)

/-- The writer, with the trace of its writes. -/
def traced : Sink (BoundedWriter × Trace) UInt8 := sink.logged fun w d => (d, (w.write d).1)

/-- A fresh writer after these calls. -/
def performed (cap : UInt64) (calls : List (Call UInt8)) : BoundedWriter :=
  Call.performAll sink calls (new cap)

/-- The writes these calls make on a fresh writer. -/
def trace (cap : UInt64) (calls : List (Call UInt8)) : Trace :=
  (Call.performAll traced calls (new cap, [])).2

/-- The bytes these calls offer. -/
def offered (calls : List (Call UInt8)) : Nat := (calls.map fun c => c.data.length).sum

/-- The slices that were accepted. -/
def accepted (t : Trace) : List Bytes := (t.filter fun e => e.2.isOk).map Prod.fst

/-- The writer and the trace of its writes, as they stay together. -/
structure Kept (cap : UInt64) (w : BoundedWriter) (t : Trace) : Prop where
  buf : w.buf = (accepted t).flatten
  written : w.written.toNat = w.buf.length
  sameCap : w.cap = cap
  within : w.written ≤ cap
  inMemory : w.buf.length ≤ isizeMax
  overflowed : w.overflowed = true ↔ ∃ d e, (d, .err e) ∈ t

/-- What a write does: all of the slice is taken, if there is room under
the cap and in memory, or nothing is. -/
structure WritesWhole (w : BoundedWriter) (d : Bytes) : Prop where
  whole : ∀ n, (w.write d).1 = .ok n → n = d.length
  accepts : (w.write d).1 = .ok d.length ↔
    w.written.toNat + d.length ≤ w.cap.toNat ∧ w.written.toNat + d.length ≤ isizeMax
  refuses : (∃ e, (w.write d).1 = .err e) ↔ w.cap.toNat < w.written.toNat + d.length
  untouched : (w.write d).1 ≠ .ok d.length →
    (w.write d).2.buf = w.buf ∧ (w.write d).2.written = w.written
  flag : w.overflowed = true → (w.write d).2.overflowed = true

/-! ## One write -/

section Write

variable {cap : UInt64} {w : BoundedWriter} {t : Trace}

/-- The writer stands for what it holds. -/
theorem Kept.models (h : Kept cap w t) :
    ∃ q : Quota UInt8, w.Models q ∧ q.kept = w.buf ∧ q.limit = cap.toNat := by
  have hle := UInt64.le_iff_toNat_le.mp h.within
  rw [h.written] at hle
  exact ⟨⟨cap.toNat, w.buf, hle⟩,
    ⟨rfl, congrArg UInt64.toNat h.sameCap, h.written, h.inMemory⟩, rfl, rfl⟩

theorem flatten_accepted (t : Trace) (d : Bytes) (res : Outcome IoError Nat) :
    (accepted (t ++ [(d, res)])).flatten
      = (accepted t).flatten ++ if res.isOk then d else [] := by
  rw [accepted, List.filter_append, List.map_append, List.flatten_append, accepted]
  cases res <;> simp [Outcome.isOk]

/-- All that one write can do, in the writer's own terms. -/
theorem Kept.write_cases (h : Kept cap w t) (d : Bytes) :
    (w.written.toNat + d.length ≤ cap.toNat ∧ w.written.toNat + d.length ≤ isizeMax
        ∧ (w.write d).1 = .ok d.length ∧ (w.write d).2.buf = w.buf ++ d
        ∧ (w.write d).2.written.toNat = w.written.toNat + d.length
        ∧ (w.write d).2.cap = cap ∧ (w.write d).2.overflowed = w.overflowed)
      ∨ (cap.toNat < w.written.toNat + d.length
        ∧ w.write d = (.err ⟨.writeZero, overflowMsg⟩, { w with overflowed := true }))
      ∨ (isizeMax < w.written.toNat + d.length ∧ w.write d = (.panic, w)) := by
  obtain ⟨q, hm, hkept, hlimit⟩ := h.models
  have hwritten : w.written.toNat = q.kept.length := hm.written
  rw [hwritten, ← hlimit]
  rcases BoundedWriter.write_cases hm d with ⟨q', ho, hr, hm', hf⟩ | ⟨ho, hr⟩ | ⟨hb, -, hr⟩
  · obtain ⟨hlimit', hkept'⟩ := Quota.offer_eq_some.mp ho
    have hlen : q'.kept.length = q.kept.length + d.length := by
      rw [hkept', List.length_append]
    have hfits := q'.fits
    have hmem := hm'.inMemory
    have hcap' : (w.write d).2.cap = cap :=
      UInt64.toNat_inj.mp (hm'.cap.trans (hlimit'.trans hlimit))
    refine .inl ⟨by omega, by omega, hr, ?_, hm'.written.trans hlen, hcap', hf⟩
    rw [hm'.buf, hkept', hkept]
  · exact .inr (.inl ⟨Quota.offer_eq_none.mp ho, hr⟩)
  · exact .inr (.inr ⟨hb, hr⟩)

/-- A write panics only where the cap would let it through. -/
theorem le_cap_of_panic {d : Bytes} (h : (w.write d).1 = .panic) :
    saturatingAdd w.written d.length ≤ w.cap := by
  rw [write] at h
  split at h
  · cases h
  · next hgt => exact UInt64.not_lt.mp hgt

/-- **One write keeps the invariant**, whichever way it goes. -/
theorem Kept.write (h : Kept cap w t) (d : Bytes) :
    Kept cap (w.write d).2 (t ++ [(d, (w.write d).1)]) := by
  rcases h.write_cases d with
    ⟨hcap, hmem, hr, hbuf, hwritten, hsame, hflag⟩ | ⟨-, hr⟩ | ⟨-, hr⟩
  · have hlen : (w.write d).2.buf.length = w.written.toNat + d.length := by
      rw [hbuf, List.length_append, h.written]
    refine ⟨?_, hwritten.trans hlen.symm, hsame, ?_, by omega, ?_⟩
    · rw [hbuf, h.buf, flatten_accepted, hr]
      rfl
    · rw [UInt64.le_iff_toNat_le]
      omega
    · rw [hflag, h.overflowed, hr]
      simp
  · rw [hr]
    refine ⟨?_, h.written, h.sameCap, h.within, h.inMemory, ?_⟩
    · rw [flatten_accepted, h.buf]
      exact (List.append_nil _).symm
    · exact iff_of_true rfl ⟨d, _, List.mem_append_right t (List.mem_singleton.mpr rfl)⟩
  · rw [hr]
    refine ⟨?_, h.written, h.sameCap, h.within, h.inMemory, ?_⟩
    · rw [flatten_accepted, h.buf]
      exact (List.append_nil _).symm
    · rw [h.overflowed]
      simp

theorem Kept.written_write_le (h : Kept cap w t) (d : Bytes) :
    (w.write d).2.written.toNat ≤ w.written.toNat + d.length := by
  rcases h.write_cases d with ⟨-, -, -, -, hwritten, -⟩ | ⟨-, hr⟩ | ⟨-, hr⟩
  · exact Nat.le_of_eq hwritten
  · rw [hr]
    exact Nat.le_add_right _ _
  · rw [hr]
    exact Nat.le_add_right _ _

/-- What the next write does, as long as the count fits a `u64`. -/
theorem Kept.writesWhole (h : Kept cap w t) {d : Bytes}
    (hfew : w.written.toNat + d.length < 2 ^ 64) : WritesWhole w d := by
  have hpanic := le_cap_of_panic (w := w) (d := d)
  rw [UInt64.le_iff_toNat_le, saturatingAdd_toNat, h.sameCap] at hpanic
  have hwhole (n : Nat) (hn : (w.write d).1 = .ok n) : n = d.length :=
    sink_whole w d n (w.write d).2 (Prod.ext hn rfl)
  have hflag := overflowed_write w d
  rcases h.write_cases d with ⟨hcap, hmem, hr, -⟩ | ⟨hover, hr⟩ | ⟨hover, hr⟩
  · refine ⟨hwhole, ?_, ?_, fun hne => absurd hr hne, hflag⟩
    · rw [h.sameCap]
      exact iff_of_true hr ⟨hcap, hmem⟩
    · rw [hr, h.sameCap]
      exact iff_of_false (by simp) (Nat.not_lt.mpr hcap)
  · refine ⟨hwhole, ?_, ?_, fun _ => ?_, hflag⟩
    · rw [hr, h.sameCap]
      refine iff_of_false (by simp) ?_
      rintro ⟨hcap, -⟩
      omega
    · rw [hr, h.sameCap]
      exact iff_of_true ⟨_, rfl⟩ hover
    · rw [hr]
      exact ⟨rfl, rfl⟩
  · have hle := hpanic (congrArg Prod.fst hr)
    refine ⟨hwhole, ?_, ?_, fun _ => ?_, hflag⟩
    · rw [hr]
      refine iff_of_false (by simp) ?_
      rintro ⟨-, hmem⟩
      omega
    · rw [hr, h.sameCap]
      exact iff_of_false (by simp) (by omega)
    · rw [hr]
      exact ⟨rfl, rfl⟩

end Write

/-! ## Calls in any order -/

section Calls

variable (cap : UInt64)

theorem traced_whole : traced.Whole := Sink.logged_whole _ sink_whole

theorem new_kept : Kept cap (new cap) [] where
  buf := rfl
  written := rfl
  sameCap := rfl
  within := UInt64.le_iff_toNat_le.mpr (Nat.zero_le _)
  inMemory := Nat.zero_le _
  overflowed := by simp [new]

theorem performAll_traced (calls : List (Call UInt8)) :
    Call.performAll traced calls (new cap, []) = (performed cap calls, trace cap calls) :=
  Prod.ext (Call.performAll_logged sink_whole _ calls (new cap, [])) rfl

/-- The invariant holds of every writer. -/
theorem performed_kept (calls : List (Call UInt8)) :
    Kept cap (performed cap calls) (trace cap calls) := by
  have h := Call.performAll_inv (I := fun p => Kept cap p.1 p.2) traced_whole
    (fun p d hp => hp.write d) calls (w := (new cap, [])) (new_kept cap)
  rw [performAll_traced] at h
  exact h

theorem offered_cons (c : Call UInt8) (calls : List (Call UInt8)) :
    offered (c :: calls) = c.data.length + offered calls := List.sum_cons

/-- No more is counted than was offered. -/
theorem written_le_offered : ∀ (calls : List (Call UInt8)) {w : BoundedWriter} {t : Trace},
    Kept cap w t →
    (Call.performAll sink calls w).written.toNat ≤ w.written.toNat + offered calls
  | [], _, _, _ => Nat.le_refl _
  | c :: calls, w, t, h => by
      rw [Call.performAll, offered_cons]
      rcases Call.perform_cases sink_whole c w with hc | ⟨-, hc⟩
      · have hstep := h.written_write_le c.data
        have hrest := written_le_offered calls (h.write c.data)
        rw [hc]
        exact Nat.le_trans hrest (by omega)
      · have hrest := written_le_offered calls h
        rw [hc]
        omega

theorem writesWhole_performed {calls : List (Call UInt8)} {d : Bytes}
    (hfew : offered calls + d.length < 2 ^ 64) : WritesWhole (performed cap calls) d := by
  refine (performed_kept cap calls).writesWhole ?_
  have hle : (performed cap calls).written.toNat ≤ 0 + offered calls :=
    written_le_offered cap calls (new_kept cap)
  omega

/-- A `write_all` makes one write of its slice. -/
theorem trace_writeAll (calls : List (Call UInt8)) {d : Bytes} (hd : d ≠ []) :
    trace cap (calls ++ [.writeAll d]) =
      trace cap calls ++ [(d, ((performed cap calls).write d).1)] := by
  have hone := congrArg Prod.snd (Sink.writeAll_whole traced_whole
    (performed cap calls, trace cap calls) hd)
  rw [trace, Call.performAll_append, performAll_traced]
  exact congrArg Prod.snd hone

/-- Once up, the flag stays up. -/
theorem overflowed_performed {calls : List (Call UInt8)}
    (h : (performed cap calls).overflowed = true) (more : List (Call UInt8)) :
    (performed cap (calls ++ more)).overflowed = true := by
  rw [performed, Call.performAll_append]
  exact Call.performAll_inv (I := fun w => w.overflowed = true) sink_whole overflowed_write more h

end Calls

/-- **The writer keeps what it accepts and counts it right**, after any
calls: it holds the accepted slices, no more than the cap, and the flag
says whether any was refused. What the next write does depends on the room
under the cap and in memory only. `write_all` makes one write of its slice,
and the flag does not come down again. -/
theorem writer_invariant (cap : UInt64) :
    (∀ calls, Kept cap (performed cap calls) (trace cap calls))
    ∧ (∀ calls d, offered calls + d.length < 2 ^ 64 → WritesWhole (performed cap calls) d)
    ∧ (∀ calls d, d ≠ [] →
      sink.writeAll (performed cap calls) d
          = (((performed cap calls).write d).1 >>= fun _ => .ok (),
            ((performed cap calls).write d).2)
        ∧ trace cap (calls ++ [.writeAll d])
          = trace cap calls ++ [(d, ((performed cap calls).write d).1)])
    ∧ ∀ calls more, (performed cap calls).overflowed = true →
      (performed cap (calls ++ more)).overflowed = true := by
  refine ⟨performed_kept cap, ?_, ?_, ?_⟩
  · intro calls d hfew
    exact writesWhole_performed cap hfew
  · intro calls d hd
    exact ⟨Sink.writeAll_whole sink_whole _ hd, trace_writeAll cap calls hd⟩
  · intro calls more h
    exact overflowed_performed cap h more

/-- `writer_invariant` under a cap of 3: two bytes, two too many, one more. -/
theorem writer_invariant_sample :
    Kept 3 (performed 3 [.write [1, 2], .writeAll [3, 4], .write [5]])
        (trace 3 [.write [1, 2], .writeAll [3, 4], .write [5]])
      ∧ WritesWhole (performed 3 [.write [1, 2]]) [3, 4]
      ∧ trace 3 ([.write [1, 2]] ++ [.writeAll [3, 4]])
        = trace 3 [.write [1, 2]] ++ [([3, 4], ((performed 3 [.write [1, 2]]).write [3, 4]).1)]
      ∧ (performed 3 ([.write [1, 2], .writeAll [3, 4]] ++ [.write [5]])).overflowed = true := by
  obtain ⟨hkept, hwhole, hone, hflag⟩ := writer_invariant 3
  exact ⟨hkept _, hwhole _ _ (by decide), (hone _ _ (by simp)).2, hflag _ _ (by decide +kernel)⟩

/-- A buffer as long as a `Vec` can be does not take another byte, whatever
the cap: that write panics. -/
theorem full_panics {full : Bytes} (hfull : full.length = isizeMax) {cap : UInt64}
    (hcap : isizeMax < cap.toNat) (b : UInt8) :
    (performed cap [.write full]).written.toNat = isizeMax
      ∧ ((performed cap [.write full]).write [b]).1 = .panic := by
  have hzero : (new cap).written.toNat = 0 := rfl
  have hwritten : (performed cap [.write full]).written.toNat = isizeMax := by
    show ((new cap).write full).2.written.toNat = isizeMax
    rcases (new_kept cap).write_cases full with
      ⟨-, -, -, -, hcount, -⟩ | ⟨hover, -⟩ | ⟨hover, -⟩
    · rw [hcount, hzero, hfull, Nat.zero_add]
    · omega
    · omega
  refine ⟨hwritten, ?_⟩
  rcases (performed_kept cap [.write full]).write_cases [b] with
    ⟨-, hmem, -⟩ | ⟨hover, -⟩ | ⟨-, hpanic⟩
  · rw [hwritten, List.length_singleton] at hmem
    omega
  · rw [hwritten, List.length_singleton] at hover
    omega
  · exact congrArg Prod.fst hpanic

/-- Under the largest cap a full buffer panics on a byte that the cap would
let through. -/
theorem full_buffer_panics :
    offered [.write (List.replicate isizeMax 0), .write [0]] < 2 ^ 64
      ∧ ((performed 0xffffffffffffffff [.write (List.replicate isizeMax 0)]).write [0]).1 = .panic
      ∧ ¬(((performed 0xffffffffffffffff [.write (List.replicate isizeMax 0)]).write [0]).1
            = .ok 1
          ↔ (performed 0xffffffffffffffff [.write (List.replicate isizeMax 0)]).written.toNat + 1
            ≤ (0xffffffffffffffff : UInt64).toNat) := by
  have hlen : (List.replicate isizeMax (0 : UInt8)).length = isizeMax := List.length_replicate
  have hroom : isizeMax < (0xffffffffffffffff : UInt64).toNat := by decide
  have hbyte : offered [.write [0]] = 1 := rfl
  generalize List.replicate isizeMax (0 : UInt8) = full at hlen ⊢
  obtain ⟨hwritten, hpanic⟩ := full_panics hlen hroom 0
  refine ⟨?_, hpanic, ?_⟩
  · rw [offered_cons, hbyte, Call.data, hlen, isizeMax]
    omega
  · rw [hpanic, hwritten]
    intro h
    cases h.mpr (Nat.succ_le_of_lt hroom)

end BoundedWriter

end VgiCompress
