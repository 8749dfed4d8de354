import Mathlib.Data.List.Forall2
import VgiCompress.Codec
import VgiCompress.Padding

/-!
# The names that parse

`Codec.parse` trims, lowercases and replaces before it looks a name up.
`Spells` says what that accepts without saying how: whitespace around a
listed spelling, in any case and with dashes for underscores.
`parse_accepts_exactly` is that the two agree, on every string.

The steps commute because the character map `foldChar` turns nothing into
whitespace and no whitespace into anything else (`isWhitespace_foldChar`),
so it does not matter that the code trims first.
-/

namespace VgiCompress

open RustStd

/-! ## One character -/

/-- What the two maps make of a character. -/
def foldChar (ch : Char) : Char := if ch.toLower = '-' then '_' else ch.toLower

theorem toNat_toLower (ch : Char) :
    ch.toLower.toNat = if 65 ≤ ch.toNat ∧ ch.toNat ≤ 90 then ch.toNat + 32 else ch.toNat := by
  have hiff : (ch.val ≥ 'A'.val ∧ ch.val ≤ 'Z'.val) ↔ 65 ≤ ch.toNat ∧ ch.toNat ≤ 90 :=
    and_congr UInt32.le_iff_toNat_le UInt32.le_iff_toNat_le
  delta Char.toLower
  by_cases hupper : ch.val ≥ 'A'.val ∧ ch.val ≤ 'Z'.val
  · obtain ⟨hlo, hhi⟩ := hiff.mp hupper
    rw [dif_pos hupper, if_pos ⟨hlo, hhi⟩]
    show (ch.val + ('a'.val - 'A'.val)).toNat = ch.val.toNat + 32
    have hstep : ('a'.val - 'A'.val).toNat = 32 := rfl
    have hval : ch.val.toNat ≤ 90 := hhi
    rw [UInt32.toNat_add, hstep]
    omega
  · rw [dif_neg hupper, if_neg (mt hiff.mpr hupper)]

theorem toNat_foldChar (ch : Char) :
    (foldChar ch).toNat =
      if 65 ≤ ch.toNat ∧ ch.toNat ≤ 90 then ch.toNat + 32
      else if ch.toNat = 45 then 95 else ch.toNat := by
  have hlower := toNat_toLower ch
  have hdash : ch.toLower = '-' ↔ ch.toLower.toNat = 45 := Char.toNat_inj.symm
  rw [foldChar]
  by_cases h : ch.toLower = '-'
  · rw [if_pos h]
    have hnat := hdash.mp h
    show 95 = _
    split_ifs at hlower ⊢ <;> omega
  · rw [if_neg h, hlower]
    have hnat := mt hdash.mpr h
    split_ifs at hlower ⊢ <;> omega

/-- No character becomes whitespace, and none ceases to be. -/
theorem isWhitespace_foldChar (ch : Char) : isWhitespace (foldChar ch) = isWhitespace ch := by
  rw [Bool.eq_iff_iff]
  simp only [isWhitespace, toNat_foldChar, Bool.or_eq_true, Bool.and_eq_true, decide_eq_true_eq,
    beq_iff_eq]
  split_ifs <;> omega

/-- The characters are the same letter in some case, or the same
character, or both separators. -/
def SameChar (a b : Char) : Prop :=
  a.toLower = b.toLower ∨ a ∈ ['-', '_'] ∧ b ∈ ['-', '_']

theorem foldChar_eq_iff {a b : Char} : foldChar a = foldChar b ↔ SameChar a b := by
  have hsep (ch : Char) : ch ∈ ['-', '_'] ↔ ch.toNat = 45 ∨ ch.toNat = 95 := by
    rw [List.mem_pair, ← Char.toNat_inj, ← Char.toNat_inj]
    rfl
  rw [SameChar, hsep, hsep, ← Char.toNat_inj, ← Char.toNat_inj, toNat_foldChar, toNat_foldChar,
    toNat_toLower, toNat_toLower]
  split_ifs <;> omega

/-! ## One name -/

/-- A name with its letters lowercased and its dashes replaced. -/
def fold (s : List Char) : List Char := dashToUnderscore (toAsciiLowercase s)

theorem fold_eq_map (s : List Char) : fold s = s.map foldChar := List.map_map ..

theorem fold_eq_iff {s t : List Char} : fold s = fold t ↔ List.Forall₂ SameChar s t := by
  rw [fold_eq_map, fold_eq_map, ← List.forall₂_eq_eq_eq, List.forall₂_map_left_iff,
    List.forall₂_map_right_iff]
  exact iff_of_eq (congrArg (List.Forall₂ · s t) (funext₂ fun _ _ => propext foldChar_eq_iff))

/-- It does not matter whether a name is trimmed first or folded first. -/
theorem strip_fold (s : List Char) :
    strip isWhitespace (fold s) = fold (strip isWhitespace s) := by
  rw [fold_eq_map, fold_eq_map, strip_map isWhitespace_foldChar]

theorem Codec.normalize_eq_fold (s : String) :
    normalize s = .ofList (fold (strip isWhitespace s.toList)) := rfl

/-- A name that folds to something without whitespace is found in its
padding. -/
theorem normalize_of_padded {core : List Char} {s : String}
    (h : Padded isWhitespace core s.toList) (hcore : ∀ ch ∈ fold core, isWhitespace ch = false) :
    Codec.normalize s = .ofList (fold core) := by
  rw [Codec.normalize_eq_fold, h.strip_eq, ← strip_fold, strip_of_neg hcore]

/-! ## The grammar -/

/-- The spellings that `parse` lists for a codec. -/
def Codec.spellings : Codec → List String
  | zstd => ["zstd", "zstandard", "zst"]
  | gzip => ["gzip", "gz"]
  | zlib => ["zlib"]
  | deflate => ["deflate", "raw_deflate"]
  | brotli => ["brotli", "br"]
  | lz4 => ["lz4", "lz4_frame", "lz4frame"]
  | lz4Block => ["lz4_block", "lz4block", "lz4_raw"]
  | snappy => ["snappy", "snappy_framed", "snappy_frame"]
  | snappyRaw => ["snappy_raw", "snappy_block"]
  | xz => ["xz"]
  | lzma => ["lzma", "lzma1", "alone"]
  | bzip2 => ["bzip2", "bz2", "bzip"]

theorem Codec.isWhitespace_spellings {c : Codec} {t : String} (ht : t ∈ c.spellings) :
    ∀ ch ∈ t.toList, isWhitespace ch = false := by
  have hall : (c.spellings.all fun t => t.toList.all fun ch => !isWhitespace ch) = true := by
    cases c <;> decide
  intro ch hch
  simpa using List.all_eq_true.mp (List.all_eq_true.mp hall t ht) ch hch

/-- A spelling is normal and parses. -/
theorem Codec.normalize_spelling {c : Codec} {t : String} (ht : t ∈ c.spellings) :
    normalize t = t ∧ parse t = .ok c := by
  revert t
  cases c <;> decide

/-- What a name parses to depends on how it is looked up only. -/
theorem Codec.parse_congr {s t : String} (h : normalize s = normalize t) {c : Codec}
    (ht : parse t = .ok c) : parse s = .ok c := by
  unfold parse at ht ⊢
  rw [h]
  generalize normalize t = n at ht ⊢
  split at ht
  all_goals
    cases ht
  all_goals
    rfl

theorem Codec.normalize_mem_spellings {s : String} {c : Codec} (h : parse s = .ok c) :
    normalize s ∈ c.spellings := by
  unfold parse at h
  generalize normalize s = n at h
  split at h
  all_goals
    cases h
  all_goals
    decide

/-- The lookup in `parse`, as a table. -/
theorem Codec.parse_eq_ok_iff {s : String} {c : Codec} :
    parse s = .ok c ↔ normalize s ∈ c.spellings := by
  constructor
  · exact normalize_mem_spellings
  · intro h
    obtain ⟨hnormal, hparse⟩ := normalize_spelling h
    exact parse_congr hnormal.symm hparse

/-- The string is whitespace around something that folds to a listed
spelling of the codec. -/
def Spells (s : String) (c : Codec) : Prop :=
  ∃ core, Padded isWhitespace core s.toList ∧ .ofList (fold core) ∈ c.spellings

theorem spells_iff {s : String} {c : Codec} : Spells s c ↔ Codec.normalize s ∈ c.spellings := by
  constructor
  · rintro ⟨core, hpad, hmem⟩
    have hcore := Codec.isWhitespace_spellings hmem
    rw [String.toList_ofList] at hcore
    rw [normalize_of_padded hpad hcore]
    exact hmem
  · intro h
    exact ⟨strip isWhitespace s.toList, padded_strip s.toList, h⟩

/-- The strings differ in the whitespace around them, in ASCII case, and in
dashes against underscores at most. -/
def Alike (s t : String) : Prop :=
  ∃ core core', Padded isWhitespace core s.toList ∧ Padded isWhitespace core' t.toList
    ∧ List.Forall₂ SameChar core core'

/-- Such strings are looked up as one. -/
theorem Alike.normalize_eq {s t : String} (h : Alike s t) :
    Codec.normalize s = Codec.normalize t := by
  obtain ⟨core, core', hs, ht, hsame⟩ := h
  have hfold := fold_eq_iff.mpr hsame
  rw [Codec.normalize_eq_fold, Codec.normalize_eq_fold, hs.strip_eq, ht.strip_eq, ← strip_fold,
    ← strip_fold, hfold]

/-- **Parsing accepts exactly the grammar**: a codec's listed spellings in
any dress, each for one codec, and nothing else. So strings that differ in
their dress only parse alike, and a codec's name in any dress parses to the
codec. -/
theorem parse_accepts_exactly :
    (∀ s c, Codec.parse s = .ok c ↔ Spells s c)
    ∧ (∀ s c c', Spells s c → Spells s c' → c = c')
    ∧ (∀ s, (∀ c, ¬Spells s c) → Codec.parse s = .err (.unknownCodec s))
    ∧ (∀ s t, Alike s t → (∀ c, Codec.parse s = .ok c ↔ Codec.parse t = .ok c)
      ∧ (Codec.parse s = .err (.unknownCodec s) ↔ Codec.parse t = .err (.unknownCodec t)))
    ∧ ∀ s c, Alike s (Codec.name c) → Codec.parse s = .ok c := by
  have hok (s : String) (c : Codec) : Codec.parse s = .ok c ↔ Spells s c :=
    Codec.parse_eq_ok_iff.trans spells_iff.symm
  have herr (s : String) :
      Codec.parse s = .err (.unknownCodec s) ↔ ∀ c, Codec.parse s ≠ .ok c := by
    rcases Codec.parse_cases s with ⟨c, hc⟩ | hs
    · simp [hc]
    · simp [hs]
  have halike {s t : String} (h : Alike s t) (c : Codec) :
      Codec.parse s = .ok c ↔ Codec.parse t = .ok c := by
    rw [Codec.parse_eq_ok_iff, Codec.parse_eq_ok_iff, h.normalize_eq]
  refine ⟨hok, ?_, ?_, ?_, ?_⟩
  · intro s c c' hc hc'
    exact Outcome.ok.inj (((hok s c).mpr hc).symm.trans ((hok s c').mpr hc'))
  · intro s hnone
    exact (herr s).mpr fun c hc => hnone c ((hok s c).mp hc)
  · intro s t h
    refine ⟨halike h, ?_⟩
    rw [herr, herr]
    exact forall_congr' fun c => not_congr (halike h c)
  · intro s c h
    exact (halike h c).mpr c.parse_name

/-- `parse_accepts_exactly` on names in dress, on two spellings of a name,
and on no name. -/
theorem parse_accepts_exactly_sample :
    Codec.parse "\tSnappy-RAW " = .ok .snappyRaw
      ∧ (Codec.parse " LZ4-Frame" = .ok .lz4 ↔ Codec.parse "lz4_frame" = .ok .lz4)
      ∧ ¬Spells "GZ" .zlib
      ∧ Codec.parse "nope" = .err (.unknownCodec "nope") := by
  obtain ⟨hok, hone, hnone, halike, hname⟩ := parse_accepts_exactly
  refine ⟨hname _ .snappyRaw ?_, (halike _ _ ?_).1 .lz4, ?_, hnone "nope" ?_⟩
  · exact ⟨"Snappy-RAW".toList, _, ⟨['\t'], [' '], by decide, by simp [isWhitespace],
      by simp [isWhitespace]⟩, padded_self _, fold_eq_iff.mp (by decide)⟩
  · exact ⟨"LZ4-Frame".toList, _, ⟨[' '], [], by decide, by simp [isWhitespace], by simp⟩,
      padded_self _, fold_eq_iff.mp (by decide)⟩
  · intro hzlib
    have hgzip : Spells "GZ" .gzip := (hok "GZ" .gzip).mp (by decide)
    cases hone "GZ" .gzip .zlib hgzip hzlib
  · intro c hc
    cases (hok "nope" c).mpr hc

end VgiCompress
