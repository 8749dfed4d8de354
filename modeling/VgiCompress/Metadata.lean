import VgiCompress.Codec
import VgiCompress.Json
import VgiCompress.Padding

/-!
# The catalog's tags

`meta.rs` writes JSON by hand into the tags of the catalog: examples,
keywords and test tasks. It escapes quotes and backslashes, and in the
tasks also the newline, but no other control character, so a tag is JSON
exactly when its texts have none of these (`example_queries_read_back`,
`agent_test_tasks_read_back`, `keywords_read_back`). What is read back is
what went in.
-/

namespace VgiCompress

open RustStd

/-! ## String functions of the standard library -/

/-- `str::replace` of a character by a text. -/
def replace (s : String) (c : Char) (text : String) : String :=
  .ofList (s.toList.flatMap fun x => if x = c then text.toList else [x])

/-! ## The writers -/

/-- `json_escape`. -/
def jsonEscape (s : String) : String := replace (replace s '\\' "\\\\") '"' "\\\""

/-- Pairs as an array of objects with two members. -/
def recordsJson (first second : String) (escape : String → String)
    (pairs : List (String × String)) : String :=
  let items := pairs.map fun (a, b) =>
    "\x7b\"" ++ first ++ "\":\"" ++ escape a ++ "\",\"" ++ second ++ "\":\"" ++ escape b ++ "\"\x7d"
  "[" ++ ",".intercalate items ++ "]"

/-- `example_queries_json`, from descriptions and queries. -/
def exampleQueriesJson : List (String × String) → String :=
  recordsJson "description" "sql" jsonEscape

structure FunctionExample where
  sql : String
  description : String
  expectedOutput : Option String

/-- `function_examples`, the same examples for the native carrier. -/
def functionExamples (examples : List (String × String)) : List FunctionExample :=
  examples.map fun (description, sql) => ⟨sql, description, none⟩

/-- The keywords of a comma-separated list. -/
def keywordsOf (keywords : String) : List String :=
  (((keywords.toList.splitOn ',').map trim).filter (! ·.isEmpty)).map .ofList

/-- `keywords_json`. -/
def keywordsJson (keywords : String) : String :=
  let items := (keywordsOf keywords).map fun k => "\"" ++ jsonEscape k ++ "\""
  "[" ++ ",".intercalate items ++ "]"

/-- `esc` of the test tasks. -/
def esc (s : String) : String :=
  replace (replace (replace s '\\' "\\\\") '"' "\\\"") '\n' "\\n"

/-- `agent_test_tasks_json`, from names and prompts. -/
def agentTestTasksJson : List (String × String) → String := recordsJson "name" "prompt" esc

/-! ## Escaping -/

theorem toList_replace (s : String) (c : Char) (text : String) :
    (replace s c text).toList = s.toList.flatMap fun x => if x = c then text.toList else [x] :=
  String.toList_ofList

/-- A character as `json_escape` writes it. -/
def escapeChar (c : Char) : List Char :=
  if c = '\\' then ['\\', '\\'] else if c = '"' then ['\\', '"'] else [c]

theorem toList_jsonEscape (s : String) : (jsonEscape s).toList = s.toList.flatMap escapeChar := by
  rw [jsonEscape, toList_replace, toList_replace, List.flatMap_assoc]
  refine congrArg (s.toList.flatMap ·) (funext fun c => ?_)
  rw [escapeChar]
  by_cases hslash : c = '\\'
  · subst hslash
    rfl
  · rw [if_neg hslash, if_neg hslash, List.flatMap_singleton]
    split <;> rfl

/-- A character as `esc` writes it. -/
def escChar (c : Char) : List Char := if c = '\n' then ['\\', 'n'] else escapeChar c

theorem toList_esc (s : String) : (esc s).toList = s.toList.flatMap escChar := by
  have hinner : (replace (replace s '\\' "\\\\") '"' "\\\"").toList = s.toList.flatMap escapeChar :=
    toList_jsonEscape s
  rw [esc, toList_replace, hinner, List.flatMap_assoc]
  refine congrArg (s.toList.flatMap ·) (funext fun c => ?_)
  rw [escChar, escapeChar]
  by_cases hslash : c = '\\'
  · subst hslash
    rfl
  · by_cases hquote : c = '"'
    · subst hquote
      rfl
    · rw [if_neg hslash, if_neg hquote, List.flatMap_singleton]
      split <;> rfl

/-! ## Reading the texts back -/

open Json

/-- The character is not one that a string may not hold as it is. -/
def printable (c : Char) : Bool := !isControl c

/-- What `escape` writes between quotes is read back, unless some character
of it is not fit for that. -/
def Escapes (escape : String → String) (fit : Char → Bool) : Prop :=
  ∀ s, Reads quoted ((escape s).toList ++ ['"']) (if s.toList.all fit then some s else none)

theorem stringBody_escapeChar {c : Char} (hc : printable c = true) (rest : List Char) :
    stringBody (escapeChar c ++ rest) = (stringBody rest).map fun p => (c.toNat :: p.1, p.2) := by
  rw [escapeChar]
  split
  · next hslash => subst hslash; exact stringBody_escape (by decide) rest
  · next hslash =>
      split
      · next hquote => subst hquote; exact stringBody_escape (by decide) rest
      · next hquote => exact stringBody_plain hquote hslash (by simpa [printable] using hc) rest

theorem escapeChar_control {c : Char} (hc : isControl c = true) : escapeChar c = [c] := by
  have hslash : c ≠ '\\' := by rintro rfl; cases hc
  have hquote : c ≠ '"' := by rintro rfl; cases hc
  rw [escapeChar, if_neg hslash, if_neg hquote]

theorem escapes_jsonEscape : Escapes jsonEscape printable := by
  intro s
  rw [toList_jsonEscape]
  refine reads_quoted (fun c rest hc => stringBody_escapeChar hc rest) (fun c rest hc => ?_) s
  have hc : isControl c = true := by simpa [printable] using hc
  rw [escapeChar_control hc]
  exact stringBody_control hc rest

/-- A name that needs no escape. -/
theorem reads_name {name : String} (hplain : name.toList.flatMap escapeChar = name.toList)
    (hfit : name.toList.all printable = true) :
    Reads quoted (name.toList ++ ['"']) (some name) := by
  have h := escapes_jsonEscape name
  rwa [toList_jsonEscape, hplain, if_pos hfit] at h

/-- The newline is fit for a test task. -/
theorem escapes_esc : Escapes esc (fun c => c == '\n' || printable c) := by
  intro s
  rw [toList_esc]
  refine reads_quoted (fun c rest hc => ?_) (fun c rest hc => ?_) s
  · rw [escChar]
    split
    · next hnewline => subst hnewline; exact stringBody_escape (by decide) rest
    · next hnewline => exact stringBody_escapeChar (by simpa [hnewline] using hc) rest
  · obtain ⟨hnewline, hc⟩ := Bool.or_eq_false_iff.mp hc
    have hnewline : c ≠ '\n' := by simpa using hnewline
    have hc : isControl c = true := by simpa [printable] using hc
    rw [escChar, if_neg hnewline, escapeChar_control hc]
    exact stringBody_control hc rest

section Records

variable {escape : String → String} {fit : Char → Bool} {first second : String}

/-- Both texts are fit to be written. -/
def BothFit (fit : Char → Bool) (p : String × String) : Prop :=
  p.1.toList.all fit = true ∧ p.2.toList.all fit = true

instance (fit : Char → Bool) (p : String × String) : Decidable (BothFit fit p) :=
  inferInstanceAs (Decidable (_ ∧ _))

/-- A member as it is written. -/
def memberText (escape : String → String) (m : String × String) : List Char :=
  '"' :: (m.1.toList ++ ['"'] ++ ':' :: '"' :: ((escape m.2).toList ++ ['"']))

theorem reads_memberText (h : Escapes escape fit) {name : String}
    (hname : Reads quoted (name.toList ++ ['"']) (some name)) (v : String) (n : Nat) :
    Reads (member (value (n + 1))) (memberText escape (name, v))
      (if v.toList.all fit then some (name, .string v) else none) := by
  have hread := hname.member ((h v).string n)
  by_cases hv : v.toList.all fit = true
  · rw [if_pos hv] at hread ⊢
    exact hread
  · rw [if_neg hv] at hread ⊢
    exact hread

/-- An object as it is written. -/
def recordText (first second : String) (escape : String → String) (p : String × String) :
    List Char :=
  '{' :: ([','].intercalate ([(first, p.1), (second, p.2)].map (memberText escape)) ++ ['}'])

/-- An object with two members, both strings. -/
def recordValue (first second : String) (p : String × String) : Value :=
  .object [(first, .string p.1), (second, .string p.2)]

theorem reads_recordText (h : Escapes escape fit)
    (hfirst : Reads quoted (first.toList ++ ['"']) (some first))
    (hsecond : Reads quoted (second.toList ++ ['"']) (some second)) (p : String × String)
    (n : Nat) :
    Reads (value (n + 3)) (recordText first second escape p)
      (if BothFit fit p then some (recordValue first second p) else none) := by
  have hread : ∀ m ∈ [(first, p.1), (second, p.2)],
      Reads (member (value (n + 2))) (memberText escape m)
        (if m.2.toList.all fit then some (m.1, .string m.2) else none) := by
    simp only [List.forall_mem_cons]
    exact ⟨reads_memberText h hfirst p.1 _, reads_memberText h hsecond p.2 _, nofun⟩
  have hall := (Reads.bracketed '}' (by decide) (by decide) hread
    (fun m => ⟨'"', _, rfl, by decide, by decide⟩) (Nat.le_add_left 2 n)).object
  rw [allOf_ite] at hall
  by_cases hp : BothFit fit p
  · rw [if_pos hp]
    rwa [if_pos (by simpa [BothFit] using hp)] at hall
  · rw [if_neg hp]
    rwa [if_neg (by simpa [BothFit] using hp)] at hall

theorem toList_recordsJson (pairs : List (String × String)) :
    (recordsJson first second escape pairs).toList =
      '[' :: ([','].intercalate (pairs.map (recordText first second escape)) ++ [']']) := by
  have hitem (p : String × String) :
      ("\x7b\"" ++ first ++ "\":\"" ++ escape p.1 ++ "\",\"" ++ second ++ "\":\"" ++ escape p.2
        ++ "\"\x7d").toList = recordText first second escape p := by
    simp [recordText, memberText, String.toList_append]
  simp only [recordsJson, String.toList_append, String.toList_intercalate, List.map_map]
  exact congrArg (fun ts => '[' :: ([','].intercalate ts ++ [']']))
    (List.map_congr_left fun p _ => hitem p)

theorem parse_recordsJson (h : Escapes escape fit)
    (hfirst : Reads quoted (first.toList ++ ['"']) (some first))
    (hsecond : Reads quoted (second.toList ++ ['"']) (some second))
    (pairs : List (String × String)) :
    parse (recordsJson first second escape pairs) =
      if ∀ p ∈ pairs, BothFit fit p then
        some (.array (pairs.map (recordValue first second))) else none := by
  -- room for the text, for the pairs and for three levels
  let n := (recordsJson first second escape pairs).length + pairs.length
  have hall := (Reads.bracketed ']' (by decide) (by decide)
    (fun p _ => reads_recordText h hfirst hsecond p n)
    (fun p => ⟨'{', _, rfl, by decide, by decide⟩) (by omega : pairs.length ≤ n + 3)).array
  rw [← toList_recordsJson, allOf_ite] at hall
  rw [hall.parse_eq (by omega)]
  split <;> rfl

end Records

/-- **The described examples are JSON and say what the native ones say**,
as long as no text has a control character in it. -/
theorem example_queries_read_back (examples : List (String × String)) :
    parse (exampleQueriesJson examples) =
      if ∀ e ∈ functionExamples examples, e.description.toList.all printable = true
          ∧ e.sql.toList.all printable = true then
        some (.array ((functionExamples examples).map fun e =>
          .object [("description", .string e.description), ("sql", .string e.sql)]))
      else none := by
  have hdescription : Reads quoted ("description".toList ++ ['"']) (some "description") :=
    reads_name (by decide) (by decide)
  have hsql : Reads quoted ("sql".toList ++ ['"']) (some "sql") :=
    reads_name (by decide) (by decide)
  rw [exampleQueriesJson, parse_recordsJson escapes_jsonEscape hdescription hsql examples]
  simp only [functionExamples, List.forall_mem_map, List.map_map]
  rfl

/-- **The test tasks are JSON** with any number of lines in a prompt, but no
other control character. -/
theorem agent_test_tasks_read_back (tasks : List (String × String)) :
    parse (agentTestTasksJson tasks) =
      if ∀ t ∈ tasks, BothFit (fun c => c == '\n' || printable c) t then
        some (.array (tasks.map fun t =>
          .object [("name", .string t.1), ("prompt", .string t.2)]))
      else none := by
  have hname : Reads quoted ("name".toList ++ ['"']) (some "name") :=
    reads_name (by decide) (by decide)
  have hprompt : Reads quoted ("prompt".toList ++ ['"']) (some "prompt") :=
    reads_name (by decide) (by decide)
  exact parse_recordsJson escapes_esc hname hprompt tasks

/-! ## Keywords -/

/-- A keyword as it is written. -/
def keywordText (k : String) : List Char := '"' :: ((jsonEscape k).toList ++ ['"'])

theorem toList_keywordsJson (keywords : String) :
    (keywordsJson keywords).toList =
      '[' :: ([','].intercalate ((keywordsOf keywords).map keywordText) ++ [']']) := by
  have hitem (k : String) : ("\"" ++ jsonEscape k ++ "\"").toList = keywordText k := by
    simp [keywordText, String.toList_append]
  simp only [keywordsJson, String.toList_append, String.toList_intercalate, List.map_map]
  exact congrArg (fun ts => '[' :: ([','].intercalate ts ++ [']']))
    (List.map_congr_left fun k _ => hitem k)

theorem parse_keywordsJson (keywords : String) :
    parse (keywordsJson keywords) =
      if ∀ k ∈ keywordsOf keywords, k.toList.all printable = true then
        some (.array ((keywordsOf keywords).map .string)) else none := by
  let n := (keywordsJson keywords).length + (keywordsOf keywords).length
  have hread (k : String) : Reads (value (n + 1)) (keywordText k)
      (if k.toList.all printable = true then some (.string k) else none) := by
    have hstring := (escapes_jsonEscape k).string n
    split
    · next hk => rwa [if_pos hk] at hstring
    · next hk => rwa [if_neg hk] at hstring
  have hall := (Reads.bracketed ']' (by decide) (by decide) (fun k _ => hread k)
    (fun k => ⟨'"', _, rfl, by decide, by decide⟩)
    (by omega : (keywordsOf keywords).length ≤ n + 1)).array
  rw [← toList_keywordsJson, allOf_ite] at hall
  rw [hall.parse_eq (by omega)]
  split <;> rfl

theorem trim_eq_strip (s : List Char) : trim s = strip isWhitespace s := rfl

theorem mem_of_mem_trim {c : Char} {s : List Char} (h : c ∈ trim s) : c ∈ s := by
  rw [trim, List.mem_reverse] at h
  have h := (List.dropWhile_sublist _).mem h
  rw [List.mem_reverse] at h
  exact (List.dropWhile_sublist _).mem h

theorem not_mem_of_mem_splitOn {a : Char} {l : List Char} :
    ∀ {s : List Char}, l ∈ s.splitOn a → a ∉ l
  | [], h => by
      rw [List.splitOn_nil, List.mem_singleton] at h
      subst h
      exact List.not_mem_nil
  | c :: s, h => by
      rw [List.splitOn_cons_eq_if_modifyHead] at h
      split at h
      · rcases List.mem_cons.mp h with rfl | h
        · exact List.not_mem_nil
        · exact not_mem_of_mem_splitOn h
      · next hne =>
          cases hs : s.splitOn a with
          | nil => exact absurd hs (List.splitOn_ne_nil a s)
          | cons t ts =>
              rw [hs, List.modifyHead_cons] at h
              have ht : a ∉ t := not_mem_of_mem_splitOn (by rw [hs]; exact List.mem_cons_self)
              rcases List.mem_cons.mp h with rfl | h
              · have hc : a ≠ c := fun heq => hne (by rw [heq, beq_self_eq_true])
                simp [hc, ht]
              · exact not_mem_of_mem_splitOn (by rw [hs]; exact List.mem_cons_of_mem t h)

/-- A keyword is what a tag should hold: not empty, without a comma, and
without white space around it. -/
def WellFormed (k : String) : Prop := k ≠ "" ∧ ',' ∉ k.toList ∧ trim k.toList = k.toList

theorem wellFormed_of_mem {keywords k : String} (h : k ∈ keywordsOf keywords) : WellFormed k := by
  obtain ⟨l, hl, rfl⟩ := List.mem_map.mp h
  obtain ⟨hl, hne⟩ := List.mem_filter.mp hl
  obtain ⟨piece, hpiece, rfl⟩ := List.mem_map.mp hl
  refine ⟨?_, ?_, ?_⟩
  · intro hempty
    have hnil := congrArg String.toList hempty
    rw [String.toList_ofList] at hnil
    rw [hnil] at hne
    cases hne
  · rw [String.toList_ofList]
    exact fun hmem => not_mem_of_mem_splitOn hpiece (mem_of_mem_trim hmem)
  · rw [String.toList_ofList, trim_eq_strip, trim_eq_strip]
    exact (padded_strip piece).strip_eq.symm

/-- The keywords of a text are those of its comma-separated pieces. -/
theorem keywordsOf_intercalate {pieces : List String} (hne : pieces ≠ [])
    (hcomma : ∀ p ∈ pieces, ',' ∉ p.toList) :
    keywordsOf (",".intercalate pieces) =
      ((pieces.map fun p => trim p.toList).filter (! ·.isEmpty)).map .ofList := by
  have hsplit : ([','].intercalate (pieces.map String.toList)).splitOn ','
      = pieces.map String.toList := by
    refine List.splitOn_intercalate ',' ?_ (by simpa using hne)
    simpa using hcomma
  rw [keywordsOf, String.toList_intercalate]
  have hsep : ",".toList = [','] := rfl
  rw [hsep, hsplit, List.map_map]
  rfl

/-- **The keywords tag is JSON for the trimmed pieces of its text**, those
that are not empty, in their order, unless one has a control character
within. -/
theorem keywords_read_back :
    (∀ keywords, parse (keywordsJson keywords) =
        (if ∀ k ∈ keywordsOf keywords, k.toList.all printable = true then
          some (.array ((keywordsOf keywords).map .string)) else none)
      ∧ ∀ k ∈ keywordsOf keywords, WellFormed k)
    ∧ ∀ pieces : List String, pieces ≠ [] → (∀ p ∈ pieces, ',' ∉ p.toList) →
        keywordsOf (",".intercalate pieces) =
          ((pieces.map fun p => trim p.toList).filter (! ·.isEmpty)).map .ofList := by
  refine ⟨fun keywords => ⟨?_, fun k => wellFormed_of_mem⟩, fun pieces => keywordsOf_intercalate⟩
  exact parse_keywordsJson keywords

end VgiCompress
