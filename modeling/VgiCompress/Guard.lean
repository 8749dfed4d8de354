import VgiCompress.Sink
import VgiCompress.Quota

/-!
# Errors and the decompression-bomb guard

`CodecError` and `BoundedWriter`, as `error.rs` and `guard.rs` have
them, and the refinement of the writer to a `Quota`.

A writer `Models` a quota when buffer, cap and counter agree with it.
`write_cases` is everything one `write` can do, and `writeEach_cases`
everything a run of writes can: accept it all and model the enlarged
quota, refuse and be flagged, or panic because the buffer would outgrow
`isize::MAX`. That last case is only open to a cap beyond `isize::MAX`,
where the counter's saturation sets in as well.
-/

namespace VgiCompress

open RustStd

abbrev Bytes := List UInt8

/-! ## The per-row error taxonomy -/

/-- An error from a compress / decompress / detect operation. -/
inductive CodecError where
  | unknownCodec (name : String)
  | outputTooLarge (cap : UInt64)
  | corrupt (why : String)
  | noMagic
  deriving DecidableEq, Repr

namespace CodecError

/-- The `Display` text, which becomes the SQL error message. -/
def display : CodecError → String
  | unknownCodec name => "unknown codec '" ++ name ++ "'"
  | outputTooLarge cap => "output exceeds max_output_bytes (" ++ toString cap ++ ")"
  | corrupt why => "corrupt or truncated input: " ++ why
  | noMagic => "cannot auto-detect codec (no magic bytes)"

end CodecError

/-! ## The guard -/

/-- `isize::MAX` on a 64-bit target, the most bytes a `Vec` can hold. -/
def isizeMax : Nat := 2 ^ 63 - 1

/-- The bytes a slice can hold. -/
abbrev Slice := { x : Bytes // x.length ≤ isizeMax }

/-- `Vec::extend_from_slice`; `none` is the "capacity overflow" panic. -/
def extendFromSlice (buf data : Bytes) : Option Bytes :=
  if buf.length + data.length ≤ isizeMax then some (buf ++ data) else none

/-- `u64::saturating_add` of a length, which always fits a `u64`. -/
def saturatingAdd (a : UInt64) (n : Nat) : UInt64 :=
  .ofNat (min (a.toNat + n) (2 ^ 64 - 1))

/-- The sentinel on the `io::Error` raised when the cap is exceeded. -/
def overflowMsg : String := "vgi-compress: output exceeds max_output_bytes"

/-- A bounded, in-memory output sink. -/
structure BoundedWriter where
  buf : Bytes
  cap : UInt64
  written : UInt64
  overflowed : Bool
  deriving DecidableEq, Repr

namespace BoundedWriter

/-- A sink that accepts at most `cap` bytes. -/
def new (cap : UInt64) : BoundedWriter :=
  { buf := [], cap, written := 0, overflowed := false }

/-- The number of bytes accepted so far. -/
def len (w : BoundedWriter) : UInt64 := w.written

def isEmpty (w : BoundedWriter) : Bool := w.written == 0

def intoInner (w : BoundedWriter) : Bytes := w.buf

def write (w : BoundedWriter) (data : Bytes) : Outcome IoError Nat × BoundedWriter :=
  let next := saturatingAdd w.written data.length
  if next > w.cap then
    (.err ⟨.writeZero, overflowMsg⟩, { w with overflowed := true })
  else
    match extendFromSlice w.buf data with
    | none => (.panic, w)
    | some buf => (.ok data.length, { w with buf, written := next })

/-- `impl Write for BoundedWriter`. -/
def sink : Sink BoundedWriter UInt8 where
  write := write
  steady w d e w' h := by
    rw [write] at h
    split at h
    · obtain rfl : (⟨.writeZero, overflowMsg⟩ : IoError) = e := by simpa using congrArg Prod.fst h
      simp
    · split at h <;> cases congrArg Prod.fst h

end BoundedWriter

/-! ## What the writer stands for -/

theorem saturatingAdd_toNat (a : UInt64) (n : Nat) :
    (saturatingAdd a n).toNat = min (a.toNat + n) (2 ^ 64 - 1) := by
  rw [saturatingAdd, UInt64.toNat_ofNat']
  omega

namespace BoundedWriter

/-- The writer holds what the quota keeps, under the same limit, and its
counter has not drifted from its buffer. -/
structure Models (w : BoundedWriter) (q : Quota UInt8) : Prop where
  buf : w.buf = q.kept
  cap : w.cap.toNat = q.limit
  written : w.written.toNat = q.kept.length
  inMemory : q.kept.length ≤ isizeMax

theorem new_models (cap : UInt64) : (new cap).Models (.empty cap.toNat) :=
  ⟨rfl, rfl, rfl, Nat.zero_le _⟩

/-- Refusing leaves buffer and counter as they are. -/
theorem Models.flagged {w : BoundedWriter} {q : Quota UInt8} (h : w.Models q) :
    { w with overflowed := true }.Models q :=
  ⟨h.buf, h.cap, h.written, h.inMemory⟩

/-- All that one `write` can do. -/
theorem write_cases {w : BoundedWriter} {q : Quota UInt8} (h : w.Models q) (d : Bytes) :
    (∃ q', q.offer d = some q' ∧ (w.write d).1 = .ok d.length
        ∧ (w.write d).2.Models q' ∧ (w.write d).2.overflowed = w.overflowed)
      ∨ (q.offer d = none
        ∧ w.write d = (.err ⟨.writeZero, overflowMsg⟩, { w with overflowed := true }))
      ∨ (isizeMax < q.kept.length + d.length ∧ isizeMax < q.limit
        ∧ w.write d = (.panic, w)) := by
  have hnext := saturatingAdd_toNat w.written d.length
  rw [h.written] at hnext
  have hcap := h.cap
  have hmax : w.cap.toNat < 2 ^ 64 := w.cap.toNat_lt
  by_cases hgt : saturatingAdd w.written d.length > w.cap
  · refine .inr (.inl ⟨?_, by rw [write, if_pos hgt]⟩)
    rw [Quota.offer_eq_none]
    have := UInt64.lt_iff_toNat_lt.mp hgt
    omega
  · have hle := mt UInt64.lt_iff_toNat_lt.mpr hgt
    by_cases hfit : q.kept.length + d.length ≤ isizeMax
    · have hw : w.write d = (.ok d.length,
          { w with buf := w.buf ++ d, written := saturatingAdd w.written d.length }) := by
        rw [write, if_neg hgt, extendFromSlice, h.buf, if_pos hfit]
      rw [isizeMax] at hfit
      have hlen : (saturatingAdd w.written d.length).toNat = (q.kept ++ d).length := by
        rw [List.length_append]; omega
      refine .inl ⟨⟨q.limit, q.kept ++ d, by omega⟩,
        Quota.offer_eq_some.mpr ⟨rfl, rfl⟩, by rw [hw], ?_, by rw [hw]⟩
      rw [hw]
      exact ⟨congrArg (· ++ d) h.buf, h.cap, hlen, by rw [isizeMax, List.length_append]; omega⟩
    · refine .inr (.inr ⟨by omega, ?_, ?_⟩)
      · rw [isizeMax] at *; omega
      · rw [write, if_neg hgt, extendFromSlice, h.buf, if_neg hfit]

/-- The writer takes a slice whole or not at all. -/
theorem sink_whole : sink.Whole := by
  intro w d n w' h
  change w.write d = _ at h
  rw [write] at h
  split at h
  · cases congrArg Prod.fst h
  · split at h
    · cases congrArg Prod.fst h
    · exact (Outcome.ok.inj (congrArg Prod.fst h)).symm

/-- Once raised, the flag stays up. -/
theorem overflowed_write (w : BoundedWriter) (data : Bytes) (h : w.overflowed = true) :
    (sink.write w data).2.overflowed = true := by
  show (w.write data).2.overflowed = true
  rw [write]
  split
  · rfl
  · split
    · exact h
    · exact h

/-- All that one `write_all` can do: it is one `write`, or none. -/
theorem writeAll_cases {w : BoundedWriter} {q : Quota UInt8} (h : w.Models q) (d : Bytes) :
    (∃ q' w', q.offer d = some q' ∧ sink.writeAll w d = (.ok (), w') ∧ w'.Models q'
        ∧ w'.overflowed = w.overflowed)
      ∨ (q.offer d = none ∧ ∃ e w', sink.writeAll w d = (.err e, w') ∧ w'.Models q
        ∧ w'.overflowed = true)
      ∨ (isizeMax < q.kept.length + d.length ∧ isizeMax < q.limit
        ∧ sink.writeAll w d = (.panic, w)) := by
  by_cases hd : d = []
  · subst hd
    have hoff : q.offer [] = some q := Quota.offer_eq_some.mpr ⟨rfl, (List.append_nil _).symm⟩
    exact .inl ⟨q, w, hoff, rfl, h, rfl⟩
  · have hw := Sink.writeAll_whole sink_whole w hd
    change _ = ((w.write d).1 >>= _, (w.write d).2) at hw
    rw [hw]
    rcases write_cases h d with ⟨q', ho, hr, hm, hf⟩ | ⟨ho, hr⟩ | ⟨hb, hl, hr⟩
    · rw [hr]
      exact .inl ⟨q', _, ho, rfl, hm, hf⟩
    · rw [hr]
      exact .inr (.inl ⟨ho, _, _, rfl, h.flagged, rfl⟩)
    · rw [hr]
      exact .inr (.inr ⟨hb, hl, rfl⟩)

/-- All that a run of writes can do: `writeAll_cases`, carried along by
induction on the slices. -/
theorem writeEach_cases : ∀ (ds : List Bytes) {w : BoundedWriter} {q : Quota UInt8},
    w.Models q →
    (∃ q', q.offerAll ds = some q' ∧ (sink.writeEach ds w).1 = .ok ()
        ∧ (sink.writeEach ds w).2.Models q'
        ∧ (sink.writeEach ds w).2.overflowed = w.overflowed)
      ∨ (q.offerAll ds = none ∧ (∃ e, (sink.writeEach ds w).1 = .err e)
        ∧ (sink.writeEach ds w).2.overflowed = true)
      ∨ (isizeMax < q.kept.length + ds.flatten.length ∧ isizeMax < q.limit
        ∧ (sink.writeEach ds w).1 = .panic)
  | [], w, q, h => .inl ⟨q, rfl, rfl, h, rfl⟩
  | d :: ds, w, q, h => by
      rw [Quota.offerAll, Sink.writeEach, List.flatten_cons, List.length_append]
      rcases writeAll_cases h d with
        ⟨q', w', ho, hr, hm, hf⟩ | ⟨ho, e, w', hr, -, hf⟩ | ⟨hb, hl, hr⟩
      · rw [ho, hr, Option.bind_some]
        obtain ⟨hlim, hkept⟩ := Quota.offer_eq_some.mp ho
        have hlen := congrArg List.length hkept
        rw [List.length_append] at hlen
        rw [← hf, ← hlim, ← Nat.add_assoc, ← hlen]
        exact writeEach_cases ds hm
      · rw [ho, hr]
        exact .inr (.inl ⟨rfl, ⟨e, rfl⟩, hf⟩)
      · rw [hr]
        exact .inr (.inr ⟨by omega, hl, rfl⟩)

end BoundedWriter

end VgiCompress
