import Mathlib.Data.List.Basic

/-!
# Reading JSON

The values and texts of RFC 8259. A reader takes something off the front of
a text; `value` takes a value off, and `parse` reads a text that is a value
and nothing else, with white space between the tokens wherever the grammar
has it. A text is JSON exactly when `parse` makes something of it.

Two things the grammar leaves open: a number is kept as it is written, and
half of a surrogate pair in a string reads as U+FFFD.

`value` carries a bound on how deep it nests and how many items it takes.
The length of the text is always enough (`value_enough`), so no text is
turned down for it.

A writer is judged by `Reads`: what a reader makes of the text, whatever
follows it. `Reads.bracketed` puts the texts of items together, and a
whole is read exactly when all of its items are.
-/

namespace Json

variable {α β ι : Type}

/-- A JSON value. -/
inductive Value where
  | null
  | bool (b : Bool)
  | number (text : String)
  | string (s : String)
  | array (items : List Value)
  | object (members : List (String × Value))

/-- Something off the front, and the rest of the text. -/
abbrev Reader (α : Type) := List Char → Option (α × List Char)

/-! ## Tokens -/

/-- White space between tokens. -/
def isSpace (c : Char) : Bool := c = ' ' || c = '\t' || c = '\n' || c = '\r'

def skip (text : List Char) : List Char := text.dropWhile isSpace

def mapped (f : α → β) (reader : Reader α) : Reader β := fun text =>
  (reader text).map fun p => (f p.1, p.2)

def either (first second : Reader α) : Reader α := fun text =>
  (first text).or (second text)

/-- This text and no other. -/
def word (w : String) (v : α) : Reader α := fun text =>
  (w.toList.isPrefixOf? text).map fun rest => (v, rest)

def oneOf (p : Char → Bool) : Reader (List Char)
  | [] => none
  | c :: text => if p c then some ([c], text) else none

def seq (first second : Reader (List Char)) : Reader (List Char) := fun text =>
  (first text).bind fun p => (second p.2).map fun q => (p.1 ++ q.1, q.2)

def optional (reader : Reader (List Char)) : Reader (List Char) := fun text =>
  some ((reader text).getD ([], text))

/-- One digit or more. -/
def digits : Reader (List Char) :=
  seq (oneOf Char.isDigit) fun text =>
    some (text.takeWhile Char.isDigit, text.dropWhile Char.isDigit)

/-- A number has no zero in front of its digits. -/
def integer : Reader (List Char)
  | [] => none
  | c :: text => if c = '0' then some (['0'], text) else digits (c :: text)

def fraction : Reader (List Char) := seq (oneOf (· = '.')) digits

def exponent : Reader (List Char) :=
  seq (oneOf fun c => c = 'e' || c = 'E')
    (seq (optional (oneOf fun c => c = '+' || c = '-')) digits)

def number : Reader (List Char) :=
  seq (optional (oneOf (· = '-'))) (seq integer (seq (optional fraction) (optional exponent)))

/-! ## Strings -/

/-- The character that a backslash before this one stands for. -/
def unescape : Char → Option Char
  | '"' => some '"'
  | '\\' => some '\\'
  | '/' => some '/'
  | 'b' => some '\x08'
  | 'f' => some '\x0c'
  | 'n' => some '\n'
  | 'r' => some '\r'
  | 't' => some '\t'
  | _ => none

def hexDigit (c : Char) : Option Nat :=
  if '0' ≤ c ∧ c ≤ '9' then some (c.toNat - 0x30)
  else if 'a' ≤ c ∧ c ≤ 'f' then some (c.toNat - 0x61 + 10)
  else if 'A' ≤ c ∧ c ≤ 'F' then some (c.toNat - 0x41 + 10)
  else none

/-- The number that four digits write. -/
def hexUnit (a b c d : Char) : Option Nat :=
  (hexDigit a).bind fun a => (hexDigit b).bind fun b => (hexDigit c).bind fun c =>
    (hexDigit d).map fun d => ((a * 16 + b) * 16 + c) * 16 + d

/-- A character that a string holds in escaped form only. -/
def isControl (c : Char) : Bool := c.toNat < 0x20

/-- The rest of a string, from behind its opening quote: a number for every
character, or for every UTF-16 unit where the text writes units. -/
def stringBody : Reader (List Nat)
  | [] => none
  | c :: text =>
      if c = '"' then some ([], text)
      else if c = '\\' then
        match text with
        | [] => none
        | e :: text =>
            if e = 'u' then
              match text with
              | a :: b :: c :: d :: text =>
                  (hexUnit a b c d).bind fun u => (stringBody text).map fun p => (u :: p.1, p.2)
              | _ => none
            else (unescape e).bind fun c => (stringBody text).map fun p => (c.toNat :: p.1, p.2)
      else if isControl c then none
      else (stringBody text).map fun p => (c.toNat :: p.1, p.2)

def isHigh (u : Nat) : Bool := 0xd800 ≤ u && u < 0xdc00

def isLow (u : Nat) : Bool := 0xdc00 ≤ u && u < 0xe000

/-- The character with this number, if one has it. -/
def character (u : Nat) : Char := if u.isValidChar then .ofNat u else '\ufffd'

/-- The characters of a string, with the surrogate pairs put together. -/
def characters : List Nat → List Char
  | [] => []
  | [u] => [character u]
  | u :: v :: us =>
      if isHigh u && isLow v then
        character (0x10000 + (u - 0xd800) * 0x400 + (v - 0xdc00)) :: characters us
      else character u :: characters (v :: us)

def quoted : Reader String := mapped (fun us => .ofList (characters us)) stringBody

/-! ## Values -/

/-- Items with commas between them, up to the closing bracket, and no more
of them than the bound. -/
def items (close : Char) (item : Reader α) : Nat → Reader (List α)
  | 0, _ => none
  | n + 1, text =>
      (item text).bind fun p =>
        match skip p.2 with
        | [] => none
        | c :: rest =>
            if c = ',' then (items close item n rest).map fun q => (p.1 :: q.1, q.2)
            else if c = close then some ([p.1], rest)
            else none

/-- Items from behind the opening bracket, or none at all. -/
def bracketed (close : Char) (item : Reader α) (n : Nat) : Reader (List α) := fun text =>
  if (skip text).head? = some close then some ([], (skip text).tail) else items close item n text

/-- A name, a colon and a value. -/
def member (value : Reader α) : Reader (String × α) := fun text =>
  match skip text with
  | [] => none
  | c :: text =>
      if c = '"' then
        (quoted text).bind fun p =>
          match skip p.2 with
          | [] => none
          | c :: rest => if c = ':' then (value rest).map fun q => ((p.1, q.1), q.2) else none
      else none

/-- A value without parts, not a string. -/
def scalar : Reader Value :=
  either (word "null" .null)
    (either (word "true" (.bool true))
      (either (word "false" (.bool false)) (mapped (fun t => .number (.ofList t)) number)))

/-- A value with white space before it, within the bound. -/
def value : Nat → Reader Value
  | 0, _ => none
  | n + 1, text =>
      match skip text with
      | [] => none
      | c :: rest =>
          if c = '"' then mapped .string quoted rest
          else if c = '[' then mapped .array (bracketed ']' (value n) n) rest
          else if c = '{' then mapped .object (bracketed '}' (member (value n)) n) rest
          else scalar (c :: rest)

/-- The value that is all of the text. -/
def parse (text : String) : Option Value :=
  (value text.length text.toList).bind fun p => if skip p.2 = [] then some p.1 else none

example : (parse " [ \"\\u0041\\n\" , -1.5e3,{ } ]\n").isSome = true := by decide +kernel

/-! ## The bound is enough -/

/-- What the reader takes off is at least this long. -/
def Takes (k : Nat) (reader : Reader α) : Prop :=
  ∀ text v rest, reader text = some (v, rest) → rest.length + k ≤ text.length

theorem length_skip_le (text : List Char) : (skip text).length ≤ text.length :=
  (List.dropWhile_sublist isSpace).length_le

theorem length_of_skip {text rest : List Char} {c : Char} (h : skip text = c :: rest) :
    rest.length < text.length := by
  have hle := length_skip_le text
  rw [h, List.length_cons] at hle
  exact hle

theorem Takes.weaken {k l : Nat} {reader : Reader α} (h : Takes k reader) (hle : l ≤ k) :
    Takes l reader := by
  intro text v rest hread
  have := h text v rest hread
  omega

theorem Takes.nil {reader : Reader α} (h : Takes 1 reader) : reader [] = none := by
  refine Option.eq_none_iff_forall_ne_some.mpr fun p hp => ?_
  have := h [] p.1 p.2 hp
  simp at this

theorem Takes.mapped {k : Nat} {reader : Reader α} (h : Takes k reader) (f : α → β) :
    Takes k (mapped f reader) := by
  intro text v rest hread
  obtain ⟨p, hp, heq⟩ := Option.map_eq_some_iff.mp hread
  cases heq
  exact h text p.1 p.2 hp

theorem Takes.either {k : Nat} {first second : Reader α} (hfirst : Takes k first)
    (hsecond : Takes k second) : Takes k (either first second) := by
  intro text v rest hread
  rcases Option.or_eq_some_iff.mp hread with hread | ⟨-, hread⟩
  · exact hfirst text v rest hread
  · exact hsecond text v rest hread

theorem takes_word (w : String) (v : α) : Takes w.length (word w v) := by
  intro text v' rest hread
  rw [word, Option.map_eq_some_iff] at hread
  obtain ⟨rest', hrest, heq⟩ := hread
  cases heq
  have happend := List.append_eq_of_isPrefixOf?_eq_some hrest
  rw [← happend, List.length_append, String.length_toList]
  omega

theorem takes_oneOf (p : Char → Bool) : Takes 1 (oneOf p)
  | [], _, _, hread => nomatch hread
  | c :: text, _, _, hread => by
      rw [oneOf] at hread
      split at hread
      · cases hread
        exact Nat.le_refl _
      · cases hread

theorem Takes.seq {k l : Nat} {first second : Reader (List Char)} (hfirst : Takes k first)
    (hsecond : Takes l second) : Takes (k + l) (seq first second) := by
  intro text v rest hread
  obtain ⟨p, hp, hread⟩ := Option.bind_eq_some_iff.mp hread
  obtain ⟨q, hq, heq⟩ := Option.map_eq_some_iff.mp hread
  cases heq
  have h₁ := hfirst text p.1 p.2 hp
  have h₂ := hsecond p.2 q.1 q.2 hq
  omega

theorem Takes.optional {k : Nat} {reader : Reader (List Char)} (h : Takes k reader) :
    Takes 0 (optional reader) := by
  intro text v rest hread
  cases hr : reader text with
  | none =>
      simp only [Json.optional, hr, Option.getD_none] at hread
      cases hread
      exact Nat.le_refl _
  | some p =>
      simp only [Json.optional, hr, Option.getD_some] at hread
      cases hread
      have := h text v rest hr
      omega

theorem takes_digits : Takes 1 digits := by
  refine (takes_oneOf Char.isDigit).seq (l := 0) fun text v rest hread => ?_
  cases hread
  exact (List.dropWhile_sublist Char.isDigit).length_le

theorem takes_integer : Takes 1 integer
  | [], _, _, hread => nomatch hread
  | c :: text, v, rest, hread => by
      rw [integer] at hread
      split at hread
      · cases hread
        exact Nat.le_refl _
      · exact takes_digits _ v rest hread

theorem takes_number : Takes 1 number := by
  have hfraction : Takes 0 (optional fraction) := ((takes_oneOf _).seq takes_digits).optional
  have hexponent : Takes 0 (optional exponent) :=
    ((takes_oneOf _).seq ((takes_oneOf _).optional.seq takes_digits)).optional
  exact ((takes_oneOf _).optional.seq (takes_integer.seq (hfraction.seq hexponent))).weaken
    (by decide)

theorem takes_stringBody : Takes 1 stringBody := by
  intro text v rest
  fun_induction stringBody text generalizing v with
  | case1 => exact nofun
  | case2 text =>
      rintro ⟨⟩
      exact Nat.le_refl _
  | case3 => exact nofun
  | case4 a b c d text _ ih =>
      intro hread
      obtain ⟨u, -, hread⟩ := Option.bind_eq_some_iff.mp hread
      obtain ⟨p, hp, heq⟩ := Option.map_eq_some_iff.mp hread
      cases heq
      have := ih p.1 hp
      simp only [List.length_cons]
      omega
  | case5 => exact nofun
  | case6 e text _ _ ih =>
      intro hread
      obtain ⟨c, -, hread⟩ := Option.bind_eq_some_iff.mp hread
      obtain ⟨p, hp, heq⟩ := Option.map_eq_some_iff.mp hread
      cases heq
      have := ih p.1 hp
      simp only [List.length_cons]
      omega
  | case7 => exact nofun
  | case8 c text _ _ _ ih =>
      intro hread
      obtain ⟨p, hp, heq⟩ := Option.map_eq_some_iff.mp hread
      cases heq
      have := ih p.1 hp
      rw [List.length_cons]
      omega

theorem takes_quoted : Takes 1 quoted := takes_stringBody.mapped _

theorem Takes.items {close : Char} {item : Reader α} (h : Takes 1 item) (n : Nat) :
    Takes 1 (items close item n) := by
  intro text v rest hread
  induction n generalizing text v with
  | zero => cases hread
  | succ n ih =>
      rw [Json.items] at hread
      obtain ⟨p, hp, hread⟩ := Option.bind_eq_some_iff.mp hread
      have hitem := h text p.1 p.2 hp
      split at hread
      · cases hread
      · next c r hskip =>
          have hlt := length_of_skip hskip
          split at hread
          · obtain ⟨q, hq, heq⟩ := Option.map_eq_some_iff.mp hread
            cases heq
            have := ih r q.1 hq
            omega
          · split at hread
            · cases hread
              omega
            · cases hread

theorem Takes.bracketed {close : Char} {item : Reader α} (h : Takes 1 item) (n : Nat) :
    Takes 1 (bracketed close item n) := by
  intro text v rest hread
  rw [Json.bracketed] at hread
  split at hread
  · next hhead =>
      obtain ⟨t, hskip⟩ := List.head?_eq_some_iff.mp hhead
      have hlt := length_of_skip hskip
      cases hread
      rw [hskip, List.tail_cons]
      exact hlt
  · exact h.items n text v rest hread

theorem Takes.member {value : Reader α} (h : Takes 1 value) : Takes 1 (member value) := by
  intro text v rest hread
  rw [Json.member] at hread
  split at hread
  · cases hread
  · next c t hskip =>
      have hlt := length_of_skip hskip
      split at hread
      · obtain ⟨p, hp, hread⟩ := Option.bind_eq_some_iff.mp hread
        have hname := takes_quoted t p.1 p.2 hp
        split at hread
        · cases hread
        · next c r hskip =>
            have hcolon := length_of_skip hskip
            split at hread
            · obtain ⟨q, hq, heq⟩ := Option.map_eq_some_iff.mp hread
              cases heq
              have := h r q.1 q.2 hq
              omega
            · cases hread
      · cases hread

theorem takes_scalar : Takes 1 scalar :=
  ((takes_word _ _).weaken (by decide)).either
    (((takes_word _ _).weaken (by decide)).either
      (((takes_word _ _).weaken (by decide)).either (takes_number.mapped _)))

theorem takes_value (n : Nat) : Takes 1 (value n) := by
  induction n with
  | zero => exact nofun
  | succ n ih =>
      intro text v rest hread
      rw [value] at hread
      split at hread
      · cases hread
      · next c t hskip =>
          have hlt := length_of_skip hskip
          have hle : (c :: t).length ≤ text.length := hlt
          split at hread
          · have := takes_quoted.mapped _ t v rest hread
            omega
          · split at hread
            · have := (ih.bracketed n).mapped _ t v rest hread
              omega
            · split at hread
              · have := (ih.member.bracketed n).mapped _ t v rest hread
                omega
              · have := takes_scalar _ v rest hread
                omega

/-- Two readers that agree on what is not longer than the text, with bounds
that are not shorter than it, read the same items. -/
theorem items_congr {close : Char} {f g : Reader α} (hf : Takes 1 f) (hg : Takes 1 g)
    {n m : Nat} {text : List Char} (hfg : ∀ t, t.length ≤ text.length → f t = g t)
    (hn : text.length ≤ n) (hm : text.length ≤ m) :
    items close f n text = items close g m text := by
  induction n generalizing m text with
  | zero =>
      obtain rfl := List.length_eq_zero_iff.mp (Nat.le_zero.mp hn)
      cases m with
      | zero => rfl
      | succ m => rw [items, items, hg.nil, Option.bind_none]
  | succ n ih =>
      cases m with
      | zero =>
          obtain rfl := List.length_eq_zero_iff.mp (Nat.le_zero.mp hm)
          rw [items, items, hf.nil, Option.bind_none]
      | succ m =>
          rw [items, items, ← hfg text (Nat.le_refl _)]
          cases hp : f text with
          | none => rfl
          | some p =>
              have hitem := hf text p.1 p.2 hp
              rw [Option.bind_some, Option.bind_some]
              split
              · rfl
              · next c r hskip =>
                  have hlt := length_of_skip hskip
                  have hrest : items close f n r = items close g m r :=
                    ih (fun t ht => hfg t (by omega)) (by omega) (by omega)
                  rw [hrest]

theorem bracketed_congr {close : Char} {f g : Reader α} (hf : Takes 1 f) (hg : Takes 1 g)
    {n m : Nat} {text : List Char} (hfg : ∀ t, t.length ≤ text.length → f t = g t)
    (hn : text.length ≤ n) (hm : text.length ≤ m) :
    bracketed close f n text = bracketed close g m text := by
  rw [bracketed, bracketed, items_congr hf hg hfg hn hm]

theorem member_congr {f g : Reader α} {text : List Char}
    (hfg : ∀ t, t.length ≤ text.length → f t = g t) : member f text = member g text := by
  rw [member, member]
  split
  · rfl
  · next c t hskip =>
      have hlt := length_of_skip hskip
      cases hp : quoted t with
      | none => rfl
      | some p =>
          have hname := takes_quoted t p.1 p.2 hp
          rw [Option.bind_some, Option.bind_some]
          cases hrest : skip p.2 with
          | nil => rfl
          | cons d r =>
              have hcolon := length_of_skip hrest
              simp only [hfg r (by omega)]

/-- A bound that is not shorter than the text turns nothing down. -/
theorem value_enough {n m : Nat} {text : List Char} (hn : text.length ≤ n)
    (hm : text.length ≤ m) : value n text = value m text := by
  induction n generalizing m text with
  | zero =>
      obtain rfl := List.length_eq_zero_iff.mp (Nat.le_zero.mp hn)
      rw [(takes_value 0).nil, (takes_value m).nil]
  | succ n ih =>
      cases m with
      | zero =>
          obtain rfl := List.length_eq_zero_iff.mp (Nat.le_zero.mp hm)
          rw [(takes_value _).nil, (takes_value _).nil]
      | succ m =>
          rw [value, value]
          split
          · rfl
          · next c t hskip =>
              have hlt := length_of_skip hskip
              have hn : t.length ≤ n := by omega
              have hm : t.length ≤ m := by omega
              have hagree : ∀ u : List Char, u.length ≤ t.length → value n u = value m u :=
                fun u hu => ih (Nat.le_trans hu hn) (Nat.le_trans hu hm)
              have hitems : bracketed ']' (value n) n t = bracketed ']' (value m) m t :=
                bracketed_congr (takes_value n) (takes_value m) hagree hn hm
              have hmembers :
                  bracketed '}' (member (value n)) n t = bracketed '}' (member (value m)) m t :=
                bracketed_congr (takes_value n).member (takes_value m).member
                  (fun u hu => member_congr fun w hw => hagree w (Nat.le_trans hw hu)) hn hm
              simp only [mapped, hitems, hmembers]

/-! ## What a reader makes of a text -/

/-- Whatever follows, the reader takes this off, or fails. -/
def Reads (reader : Reader α) (text : List Char) (v : Option α) : Prop :=
  ∀ rest, reader (text ++ rest) = v.map fun v => (v, rest)

theorem Reads.mapped {reader : Reader α} {text : List Char} {v : Option α}
    (h : Reads reader text v) (f : α → β) : Reads (mapped f reader) text (v.map f) := by
  intro rest
  rw [Json.mapped, h rest]
  cases v <;> rfl

theorem Reads.parse_eq {text : String} {v : Option Value} {n : Nat} (hn : text.length ≤ n)
    (h : Reads (value n) text.toList v) : parse text = v := by
  have hread := h []
  have hlen : text.toList.length = text.length := String.length_toList
  rw [List.append_nil, ← value_enough (Nat.le_of_eq hlen) (Nat.le_trans (Nat.le_of_eq hlen) hn)]
    at hread
  rw [parse, hread]
  cases v with
  | none => rfl
  | some v => rfl

theorem Reads.string {text : List Char} {v : Option String} (h : Reads quoted text v) (n : Nat) :
    Reads (value (n + 1)) ('"' :: text) (v.map .string) :=
  fun rest => h.mapped Value.string rest

theorem Reads.array {n : Nat} {text : List Char} {v : Option (List Value)}
    (h : Reads (bracketed ']' (value n) n) text v) :
    Reads (value (n + 1)) ('[' :: text) (v.map .array) :=
  fun rest => h.mapped Value.array rest

theorem Reads.object {n : Nat} {text : List Char} {v : Option (List (String × Value))}
    (h : Reads (bracketed '}' (member (value n)) n) text v) :
    Reads (value (n + 1)) ('{' :: text) (v.map .object) :=
  fun rest => h.mapped Value.object rest

theorem Reads.member {value : Reader α} {name text : List Char} {n : Option String}
    {v : Option α} (hname : Reads quoted name n) (hvalue : Reads value text v) :
    Reads (member value) ('"' :: (name ++ ':' :: text))
      (n.bind fun n => v.map fun v => (n, v)) := by
  intro rest
  have hquote : skip ('"' :: (name ++ ':' :: text) ++ rest)
      = '"' :: (name ++ (':' :: text ++ rest)) :=
    congrArg ('"' :: ·) (List.append_assoc name (':' :: text) rest)
  simp only [Json.member, hquote, if_true]
  rw [hname]
  cases n with
  | none => rfl
  | some n =>
      have hcolon : skip (':' :: text ++ rest) = ':' :: (text ++ rest) := rfl
      simp only [Option.map_some, Option.bind_some, hcolon, if_true]
      rw [hvalue]
      cases v <;> rfl

/-! ## Strings as they are written -/

theorem stringBody_quote (text : List Char) : stringBody ('"' :: text) = some ([], text) := by
  rw [stringBody.eq_def]
  exact if_pos rfl

theorem stringBody_escape {e : Char} (he : e ≠ 'u') (text : List Char) :
    stringBody ('\\' :: e :: text) =
      (unescape e).bind fun c => (stringBody text).map fun p => (c.toNat :: p.1, p.2) := by
  rw [stringBody.eq_def]
  exact if_neg he

theorem stringBody_control {c : Char} (hc : isControl c = true) (text : List Char) :
    stringBody (c :: text) = none := by
  have hquote : c ≠ '"' := by rintro rfl; cases hc
  have hslash : c ≠ '\\' := by rintro rfl; cases hc
  rw [stringBody.eq_def]
  simp only [if_neg hquote, if_neg hslash, if_pos hc]

theorem stringBody_plain {c : Char} (hquote : c ≠ '"') (hslash : c ≠ '\\')
    (hc : isControl c = false) (text : List Char) :
    stringBody (c :: text) = (stringBody text).map fun p => (c.toNat :: p.1, p.2) := by
  rw [stringBody.eq_def]
  simp only [if_neg hquote, if_neg hslash, hc, Bool.false_eq_true, if_false]

/-- A character is no half of a surrogate pair. -/
theorem not_isHigh_toNat (c : Char) : isHigh c.toNat = false := by
  rw [isHigh, Bool.and_eq_false_iff, decide_eq_false_iff_not, decide_eq_false_iff_not]
  have hvalid : c.toNat < 0xd800 ∨ 0xdfff < c.toNat ∧ c.toNat < 0x110000 := c.valid
  omega

theorem character_toNat (c : Char) : character c.toNat = c := by
  have hvalid : c.toNat.isValidChar := c.valid
  rw [character, if_pos hvalid, Char.ofNat_toNat]

theorem characters_map_toNat : ∀ s : List Char, characters (s.map Char.toNat) = s
  | [] => rfl
  | [c] => congrArg (· :: []) (character_toNat c)
  | c :: d :: s => by
      have hrest := characters_map_toNat (d :: s)
      rw [List.map_cons] at hrest
      rw [List.map_cons, List.map_cons, characters, not_isHigh_toNat, Bool.false_and,
        if_neg Bool.false_ne_true, character_toNat, hrest]

section Strings

variable {write : Char → List Char} {ok : Char → Bool}

/-- Characters, each written so that it is read on its own. -/
theorem reads_stringBody
    (hok : ∀ c rest, ok c = true →
      stringBody (write c ++ rest) = (stringBody rest).map fun p => (c.toNat :: p.1, p.2))
    (hbad : ∀ c rest, ok c = false → stringBody (write c ++ rest) = none) (s : List Char) :
    Reads stringBody (s.flatMap write ++ ['"'])
      (if s.all ok then some (s.map Char.toNat) else none) := by
  intro rest
  induction s with
  | nil => exact stringBody_quote rest
  | cons c s ih =>
      rw [List.flatMap_cons, List.append_assoc, List.append_assoc]
      cases hc : ok c with
      | false => rw [hbad c _ hc, List.all_cons, hc]; rfl
      | true =>
          rw [hok c _ hc, ← List.append_assoc, ih, List.all_cons, hc, Bool.true_and]
          split <;> rfl

theorem reads_quoted
    (hok : ∀ c rest, ok c = true →
      stringBody (write c ++ rest) = (stringBody rest).map fun p => (c.toNat :: p.1, p.2))
    (hbad : ∀ c rest, ok c = false → stringBody (write c ++ rest) = none) (s : String) :
    Reads quoted (s.toList.flatMap write ++ ['"']) (if s.toList.all ok then some s else none) := by
  have hread := (reads_stringBody hok hbad s.toList).mapped fun us => String.ofList (characters us)
  split
  · next hall =>
      rwa [if_pos hall, Option.map_some, characters_map_toNat, String.ofList_toList] at hread
  · next hall => rwa [if_neg hall] at hread

end Strings

/-! ## Items -/

theorem intercalate_comma (t u : List Char) (ts : List (List Char)) :
    [','].intercalate (t :: u :: ts) = t ++ ',' :: [','].intercalate (u :: ts) := by
  rw [List.intercalate_cons_cons, List.append_assoc, List.singleton_append]

/-- All of the values, or none. -/
def allOf (f : ι → Option α) : List ι → Option (List α)
  | [] => some []
  | i :: is => (f i).bind fun v => (allOf f is).map (v :: ·)

theorem allOf_ite (p : ι → Prop) [DecidablePred p] (f : ι → α) (is : List ι) :
    allOf (fun i => if p i then some (f i) else none) is =
      if ∀ i ∈ is, p i then some (is.map f) else none := by
  induction is with
  | nil => rfl
  | cons i is ih =>
      rw [allOf, ih]
      by_cases hi : p i
      · by_cases his : ∀ j ∈ is, p j
        · have hall : ∀ j ∈ i :: is, p j := List.forall_mem_cons.mpr ⟨hi, his⟩
          rw [if_pos hi, if_pos his, if_pos hall]
          rfl
        · have hnot : ¬∀ j ∈ i :: is, p j := fun h => his (List.forall_mem_cons.mp h).2
          rw [if_pos hi, if_neg his, if_neg hnot]
          rfl
      · have hnot : ¬∀ j ∈ i :: is, p j := fun h => hi (List.forall_mem_cons.mp h).1
        rw [if_neg hi, if_neg hnot]
        rfl

section Items

variable {close : Char} {item : Reader α} {write : ι → List Char} {f : ι → Option α}

theorem items_intercalate (hclose : close ≠ ',') (hspace : isSpace close = false) (i : ι)
    (is : List ι) (hread : ∀ j ∈ i :: is, Reads item (write j) (f j)) {n : Nat}
    (hn : is.length < n) (rest : List Char) :
    items close item n ([','].intercalate (write i :: is.map write) ++ close :: rest) =
      (allOf f (i :: is)).map fun vs => (vs, rest) := by
  have hskip : skip (close :: rest) = close :: rest := List.dropWhile_cons_of_neg (by simp [hspace])
  induction is generalizing i n with
  | nil =>
      obtain ⟨n, rfl⟩ : ∃ m, n = m + 1 := ⟨n - 1, by simp at hn; omega⟩
      rw [List.map_nil, List.intercalate_singleton, items, hread i List.mem_cons_self]
      cases hi : f i with
      | none => simp [allOf, hi]
      | some v => simp [allOf, hi, hclose, hskip]
  | cons j is ih =>
      obtain ⟨n, rfl⟩ : ∃ m, n = m + 1 := ⟨n - 1, by simp at hn; omega⟩
      have hn : is.length < n := by simpa using hn
      obtain ⟨hi, his⟩ := List.forall_mem_cons.mp hread
      rw [List.map_cons, intercalate_comma, List.append_assoc, items, hi, allOf]
      cases f i with
      | none => rfl
      | some v =>
          have hcomma (t : List Char) : skip (',' :: t) = ',' :: t := rfl
          simp only [Option.map_some, Option.bind_some, List.cons_append, hcomma, if_true]
          rw [ih j his hn]
          cases allOf f (j :: is) <;> rfl

variable (close) in
/-- Brackets around items are read when every item is. -/
theorem Reads.bracketed (hclose : close ≠ ',') (hspace : isSpace close = false) {is : List ι}
    (hread : ∀ i ∈ is, Reads item (write i) (f i))
    (hhead : ∀ i, ∃ c t, write i = c :: t ∧ c ≠ close ∧ isSpace c = false) {n : Nat}
    (hn : is.length ≤ n) :
    Reads (bracketed close item n) ([','].intercalate (is.map write) ++ [close]) (allOf f is) := by
  intro rest
  have hkeep {c : Char} (hc : isSpace c = false) (t : List Char) : skip (c :: t) = c :: t :=
    List.dropWhile_cons_of_neg (by simp [hc])
  rw [Json.bracketed, List.append_assoc, List.singleton_append]
  cases is with
  | nil =>
      rw [List.map_nil, List.intercalate_nil, List.nil_append, hkeep hspace]
      exact if_pos rfl
  | cons i is =>
      obtain ⟨c, t, hi, hc, hcspace⟩ := hhead i
      have hfirst :
          (skip ([','].intercalate ((i :: is).map write) ++ close :: rest)).head? ≠ some close := by
        cases is with
        | nil => simp [hi, hc, hkeep hcspace]
        | cons j is => simp [hi, hc, hkeep hcspace]
      rw [if_neg hfirst]
      exact items_intercalate hclose hspace i is hread hn rest

end Items

end Json
