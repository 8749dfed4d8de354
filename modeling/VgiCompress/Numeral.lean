import Mathlib.Data.List.Induction

/-!
# Decimal numerals

Any digits are a numeral: the shortest one of the number they stand for,
with zeros in front of it (`exists_numeral`). So what a parser of unsigned
decimals accepts can be said by the number it returns, without its
accumulator (`numeral_iff`).
-/

namespace RustStd

/-- The digits of `n`, with zeros in front of them. -/
def Numeral (n : Nat) (ds : List Char) : Prop :=
  ∃ zeros, ds = List.replicate zeros '0' ++ Nat.toDigits 10 n

variable {n : Nat} {c : Char} {ds : List Char}

theorem digitChar_of_isDigit (h : c.isDigit = true) :
    c.toNat - '0'.toNat < 10 ∧ Nat.digitChar (c.toNat - '0'.toNat) = c := by
  have hrange := Char.isDigit_iff_toNat.mp h
  have h0 : '0'.toNat = 48 := rfl
  have h9 : '9'.toNat = 57 := rfl
  have hlt : c.toNat - '0'.toNat < 10 := by omega
  refine ⟨hlt, Char.toNat_inj.mp ?_⟩
  rw [Nat.toNat_digitChar_of_lt_ten hlt]
  omega

/-- One more digit behind a numeral. -/
theorem Numeral.snoc (h : Numeral n ds) {d : Nat} (hd : d < 10) :
    Numeral (10 * n + d) (ds ++ [Nat.digitChar d]) := by
  obtain ⟨zeros, rfl⟩ := h
  rcases Nat.eq_zero_or_pos n with rfl | hn
  · refine ⟨zeros + 1, ?_⟩
    rw [Nat.mul_zero, Nat.zero_add, Nat.toDigits_zero, Nat.toDigits_of_lt_base hd,
      List.replicate_succ']
  · refine ⟨zeros, ?_⟩
    rw [← Nat.toDigits_append_toDigits (by decide) hn hd, Nat.toDigits_of_lt_base hd,
      List.append_assoc]

theorem exists_numeral (hne : ds ≠ []) (h : ∀ c ∈ ds, c.isDigit = true) :
    Numeral (Nat.ofDigitChars 10 ds 0) ds := by
  induction ds using List.reverseRecOn with
  | nil => exact absurd rfl hne
  | append_singleton ds c ih =>
      obtain ⟨hd, hc⟩ := digitChar_of_isDigit (h c (by simp))
      have hvalue : Nat.ofDigitChars 10 (ds ++ [c]) 0
          = 10 * Nat.ofDigitChars 10 ds 0 + (c.toNat - '0'.toNat) := by
        rw [Nat.ofDigitChars_append, Nat.ofDigitChars_cons, Nat.ofDigitChars_nil]
      rw [hvalue]
      rcases eq_or_ne ds [] with rfl | hds
      · refine ⟨0, ?_⟩
        rw [Nat.ofDigitChars_nil, Nat.mul_zero, Nat.zero_add, Nat.toDigits_of_lt_base hd, hc]
        rfl
      · have hsnoc := (ih hds fun c hc => h c (List.mem_append_left _ hc)).snoc hd
        rwa [hc] at hsnoc

theorem Numeral.ofDigitChars_eq (h : Numeral n ds) : Nat.ofDigitChars 10 ds 0 = n := by
  obtain ⟨zeros, rfl⟩ := h
  rw [Nat.ofDigitChars_append, Nat.ofDigitChars_replicate_zero, Nat.mul_zero,
    Nat.ofDigitChars_ten_toDigits]

theorem Numeral.ne_nil (h : Numeral n ds) : ds ≠ [] := by
  obtain ⟨zeros, rfl⟩ := h
  exact List.append_ne_nil_of_right_ne_nil _ Nat.toDigits_ne_nil

theorem Numeral.isDigit (h : Numeral n ds) : ∀ c ∈ ds, c.isDigit = true := by
  obtain ⟨zeros, rfl⟩ := h
  intro c hc
  rcases List.mem_append.mp hc with hc | hc
  · obtain rfl := List.eq_of_mem_replicate hc
    rfl
  · exact Nat.isDigit_of_mem_toDigits (by decide) (by decide) hc

/-- The numerals of `n` are the digits that read as `n`. -/
theorem numeral_iff :
    Numeral n ds ↔ ds ≠ [] ∧ (∀ c ∈ ds, c.isDigit = true) ∧ Nat.ofDigitChars 10 ds 0 = n := by
  constructor
  · exact fun h => ⟨h.ne_nil, h.isDigit, h.ofDigitChars_eq⟩
  · rintro ⟨hne, hdigits, rfl⟩
    exact exists_numeral hne hdigits

end RustStd
