import VgiCompress.Numeral
import VgiCompress.Padding
import VgiCompress.Worker

/-!
# Where a cap comes from

`resolve_cap` asks its sources in order and takes the first that names a
positive number. The environment is the one that has to be read as text:
`parseU64_trim_iff` says which texts are numbers, and `resolve_cap_iff`
what the whole search comes to.
-/

namespace VgiCompress

open RustStd

/-! ## Numbers in text -/

/-- The text is a number as `str::parse::<u64>` takes it after `str::trim`:
a numeral of it, with or without a plus, between blanks. -/
def SpellsU64 (s : String) (v : UInt64) : Prop :=
  ∃ sign ds, Padded isWhitespace (sign ++ ds) s.toList ∧ (sign = [] ∨ sign = ['+'])
    ∧ Numeral v.toNat ds

/-- The text behind an optional plus. -/
def unsigned : List Char → List Char
  | '+' :: rest => rest
  | s => s

theorem unsigned_of_ne {s : List Char} (h : ∀ rest, s ≠ '+' :: rest) : unsigned s = s := by
  unfold unsigned
  split
  · exact absurd rfl (h _)
  · rfl

theorem parseU64_eq_some_iff {s : List Char} {v : UInt64} :
    parseU64 s = some v ↔ Numeral v.toNat (unsigned s) := by
  have hparse : parseU64 s =
      if (unsigned s).isEmpty || !(unsigned s).all Char.isDigit then none
      else if Nat.ofDigitChars 10 (unsigned s) 0 < 2 ^ 64 then
        some (.ofNat (Nat.ofDigitChars 10 (unsigned s) 0))
      else none := by
    rw [Nat.ofDigitChars_eq_foldl]
    unfold parseU64
    split
    · rfl
    · next hplus => rw [unsigned_of_ne hplus]
  rw [hparse, numeral_iff]
  by_cases hne : unsigned s = []
  · simp [hne]
  by_cases hdigits : ∀ c ∈ unsigned s, c.isDigit = true
  · rw [if_neg (by simpa [hne] using hdigits), and_iff_right hne, and_iff_right hdigits]
    by_cases hlt : Nat.ofDigitChars 10 (unsigned s) 0 < 2 ^ 64
    · rw [if_pos hlt, Option.some_inj, ← UInt64.toNat_inj, UInt64.toNat_ofNat_of_lt' hlt]
    · rw [if_neg hlt]
      have hv := v.toNat_lt
      simp only [reduceCtorEq, false_iff]
      omega
  · have hall : ((unsigned s).isEmpty || !(unsigned s).all Char.isDigit) = true := by
      simpa [hne] using hdigits
    rw [if_pos hall]
    simp [hdigits]

theorem numeral_unsigned_iff {core : List Char} {n : Nat} :
    Numeral n (unsigned core) ↔
      ∃ sign ds, core = sign ++ ds ∧ (sign = [] ∨ sign = ['+']) ∧ Numeral n ds := by
  constructor
  · intro h
    unfold unsigned at h
    split at h
    · next rest => exact ⟨['+'], rest, rfl, .inr rfl, h⟩
    · exact ⟨[], core, rfl, .inl rfl, h⟩
  · rintro ⟨_, ds, rfl, rfl | rfl, h⟩
    · -- a digit is no plus
      obtain ⟨c, rest, rfl⟩ := List.exists_cons_of_ne_nil h.ne_nil
      have hc : c ≠ '+' := by
        rintro rfl
        exact absurd (h.isDigit '+' List.mem_cons_self) (by decide)
      have hself : unsigned (c :: rest) = c :: rest := by simp [unsigned, hc]
      rwa [List.nil_append, hself]
    · exact h

/-- Neither a sign nor a digit is a blank. -/
theorem numeral_not_blank {sign ds : List Char} {n : Nat} (hsign : sign = [] ∨ sign = ['+'])
    (h : Numeral n ds) : ∀ c ∈ sign ++ ds, isWhitespace c = false := by
  intro c hc
  rcases List.mem_append.mp hc with hc | hc
  · rcases hsign with rfl | rfl
    · cases hc
    · obtain rfl := List.mem_singleton.mp hc
      decide
  · have hrange := Char.isDigit_iff_toNat.mp (h.isDigit c hc)
    have h0 : '0'.toNat = 48 := rfl
    have h9 : '9'.toNat = 57 := rfl
    simp only [isWhitespace, Bool.or_eq_false_iff, Bool.and_eq_false_iff, beq_eq_false_iff_ne,
      decide_eq_false_iff_not]
    omega

theorem parseU64_trim_iff {s : String} {v : UInt64} :
    parseU64 (trim s.toList) = some v ↔ SpellsU64 s v := by
  have htrim : trim s.toList = strip isWhitespace s.toList := rfl
  rw [parseU64_eq_some_iff, numeral_unsigned_iff, htrim]
  constructor
  · rintro ⟨sign, ds, hcore, hsign, h⟩
    exact ⟨sign, ds, hcore ▸ padded_strip s.toList, hsign, h⟩
  · rintro ⟨sign, ds, hpad, hsign, h⟩
    refine ⟨sign, ds, ?_, hsign, h⟩
    rw [hpad.strip_eq, strip_of_neg (numeral_not_blank hsign h)]

/-! ## The search -/

section Search

variable {bound : DataType} {env : String → Option String} {perCall : Option Int64}
  {params : ProcessParams bound} {cap : UInt64}

/-- The source names no positive number, so the next one is asked. -/
def Passes (v : Option Int64) : Prop := ∀ n, v = some n → n ≤ 0

theorem positive_some {n : Int64} (hpos : 0 < n) : positive (some n) = some n.toUInt64 :=
  if_pos hpos

theorem positive_of_passes {v : Option Int64} (h : Passes v) : positive v = none := by
  cases v with
  | none => rfl
  | some n => exact if_neg (Int64.not_lt.mpr (h n rfl))

theorem exists_pos_or_passes (v : Option Int64) : (∃ n, v = some n ∧ 0 < n) ∨ Passes v := by
  refine or_iff_not_imp_left.mpr fun h n hn => ?_
  exact Int64.not_lt.mp fun hpos => h ⟨n, hn, hpos⟩

/-- What `resolve_cap` makes of the environment. -/
def envCap (env : String → Option String) : UInt64 :=
  match env "VGI_COMPRESS_MAX_OUTPUT_BYTES" with
  | some s =>
      match parseU64 (trim s.toList) with
      | some v => if v > 0 then v else defaultMaxOutputBytes
      | none => defaultMaxOutputBytes
  | none => defaultMaxOutputBytes

theorem envCap_of_spells {s : String} {v : UInt64}
    (hs : env "VGI_COMPRESS_MAX_OUTPUT_BYTES" = some s) (h : SpellsU64 s v) (hpos : 0 < v) :
    envCap env = v := by
  unfold envCap
  rw [hs]
  dsimp only
  rw [parseU64_trim_iff.mpr h]
  exact if_pos hpos

theorem envCap_of_none
    (h : ∀ s v, env "VGI_COMPRESS_MAX_OUTPUT_BYTES" = some s → SpellsU64 s v → v = 0) :
    envCap env = defaultMaxOutputBytes := by
  unfold envCap
  split
  · next s hs =>
    split
    · next v hv =>
      obtain rfl := h s v hs (parseU64_trim_iff.mp hv)
      rfl
    · rfl
  · rfl

theorem exists_spells_or_none (env : String → Option String) :
    (∃ s v, env "VGI_COMPRESS_MAX_OUTPUT_BYTES" = some s ∧ SpellsU64 s v ∧ 0 < v)
      ∨ ∀ s v, env "VGI_COMPRESS_MAX_OUTPUT_BYTES" = some s → SpellsU64 s v → v = 0 := by
  refine or_iff_not_imp_left.mpr fun h s v hs hv => ?_
  by_contra hne
  exact h ⟨s, v, hs, hv, UInt64.pos_iff_ne_zero.mpr hne⟩

theorem resolveCap_of_pos {n : Int64} (hpos : 0 < n) :
    resolveCap env (some n) params = n.toUInt64 := by
  rw [resolveCap, positive_some hpos]

theorem resolveCap_of_setting (h : Passes perCall) {n : Int64}
    (hn : params.settings "compress_max_output_bytes" = some n) (hpos : 0 < n) :
    resolveCap env perCall params = n.toUInt64 := by
  rw [resolveCap, positive_of_passes h, hn, positive_some hpos]

theorem resolveCap_of_passes (h : Passes perCall)
    (hsetting : Passes (params.settings "compress_max_output_bytes")) :
    resolveCap env perCall params = envCap env := by
  rw [resolveCap, positive_of_passes h, positive_of_passes hsetting]
  rfl

/-- Where the cap of a row may come from: the argument of the call, the
setting, the environment, the default, each asked if those above pass. -/
inductive CapFrom (env : String → Option String) (perCall : Option Int64)
    (params : ProcessParams bound) : UInt64 → Prop
  | argument (n : Int64) (given : perCall = some n) (pos : 0 < n) :
      CapFrom env perCall params n.toUInt64
  | setting (n : Int64) (argument : Passes perCall)
      (given : params.settings "compress_max_output_bytes" = some n) (pos : 0 < n) :
      CapFrom env perCall params n.toUInt64
  | environment (s : String) (v : UInt64) (argument : Passes perCall)
      (setting : Passes (params.settings "compress_max_output_bytes"))
      (given : env "VGI_COMPRESS_MAX_OUTPUT_BYTES" = some s) (spells : SpellsU64 s v)
      (pos : 0 < v) : CapFrom env perCall params v
  | default (argument : Passes perCall)
      (setting : Passes (params.settings "compress_max_output_bytes"))
      (environment : ∀ s v,
        env "VGI_COMPRESS_MAX_OUTPUT_BYTES" = some s → SpellsU64 s v → v = 0) :
      CapFrom env perCall params defaultMaxOutputBytes

theorem CapFrom.resolveCap_eq (h : CapFrom env perCall params cap) :
    resolveCap env perCall params = cap := by
  cases h with
  | argument n given pos =>
      rw [given]
      exact resolveCap_of_pos pos
  | setting n argument given pos => exact resolveCap_of_setting argument given pos
  | environment s _ argument setting given spells pos =>
      rw [resolveCap_of_passes argument setting]
      exact envCap_of_spells given spells pos
  | default argument setting environment =>
      rw [resolveCap_of_passes argument setting]
      exact envCap_of_none environment

theorem exists_capFrom (env : String → Option String) (perCall : Option Int64)
    (params : ProcessParams bound) : ∃ cap, CapFrom env perCall params cap := by
  rcases exists_pos_or_passes perCall with ⟨n, hn, hpos⟩ | hargument
  · exact ⟨_, .argument n hn hpos⟩
  rcases exists_pos_or_passes (params.settings "compress_max_output_bytes") with
    ⟨n, hn, hpos⟩ | hsetting
  · exact ⟨_, .setting n hargument hn hpos⟩
  rcases exists_spells_or_none env with ⟨s, v, hs, hv, hpos⟩ | hnone
  · exact ⟨_, .environment s v hargument hsetting hs hv hpos⟩
  · exact ⟨_, .default hargument hsetting hnone⟩

/-- **Which cap a row gets**: the first positive number that its sources
name, the environment in decimal, or the default. -/
theorem resolve_cap_iff :
    resolveCap env perCall params = cap ↔ CapFrom env perCall params cap := by
  constructor
  · rintro rfl
    obtain ⟨cap, hcap⟩ := exists_capFrom env perCall params
    rwa [hcap.resolveCap_eq]
  · exact CapFrom.resolveCap_eq

/-- Blanks, a plus and zeros around a number change nothing. -/
example : parseU64 (trim " +00268435456\n".toList) = some 268435456 := by decide

end Search

end VgiCompress
