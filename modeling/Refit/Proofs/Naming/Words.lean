import Refit.Project.Analyze
import Refit.Output.Place
import Refit.Proofs.Text.Pieces

/-!
Conversions of names and identifiers made of them. A name falls into words, and the words are put together
again; of a name that is one word already only the first letter changes. So converting a name again changes
nothing and the identifier of a unit is its own identifier, while that of a page begins as its name does, also
if that is with a digit.
-/

open List

namespace Refit

namespace Naming

variable {c : Char} {text : List Char}

theorem alphanum_cases (letter : c.isAlphanum = true) :
    (c.toUpper.isAlphanum = true ∧ c.toUpper.toUpper = c.toUpper ∧ c.toUpper.isDigit = c.isDigit) ∧
      (c.toLower.isAlphanum = true ∧ c.toLower.toLower = c.toLower ∧ c.toUpper.toLower = c.toLower) ∧
      (c.isUpper = true → c.toUpper = c) ∧ c.isAlpha = !c.isDigit := by
  have ascii := Text.ascii_of_isAlphanum letter
  revert letter
  exact Text.forall_ascii c ascii (by decide +kernel)

theorem words_other (other : c.isAlphanum = false) (rest : List Char) : words (c :: rest) = words rest := by
  rw [words.eq_def]
  simp [other]

/-- A letter or digit begins a word, and what follows it is begun anew or goes on with that word. -/
theorem words_cons (letter : c.isAlphanum = true) (rest : List Char) :
    ∃ word others, words (c :: rest) = (c :: word) :: others ∧
      (word :: others = words rest ∨ word = [] ∧ others = words rest) := by
  rw [words.eq_def]
  simp only [letter]
  cases rest with
  | nil => exact ⟨[], [], rfl, .inr ⟨rfl, rfl⟩⟩
  | cons next more =>
    cases words (next :: more) with
    | nil => exact ⟨[], [], rfl, .inr ⟨rfl, rfl⟩⟩
    | cons word others =>
      by_cases joined : joins c next = true
      · exact ⟨word, others, by simp [joined], .inl rfl⟩
      · exact ⟨[], word :: others, by simp [joined], .inr ⟨rfl, rfl⟩⟩

theorem words_letters (name : List Char) :
    ∀ word ∈ words name, word ≠ [] ∧ ∀ c ∈ word, c.isAlphanum = true := by
  induction name with
  | nil => simp [words]
  | cons c rest ih =>
    cases letter : c.isAlphanum with
    | false => rwa [words_other letter]
    | true =>
      obtain ⟨word, others, split, joined | ⟨rfl, rfl⟩⟩ := words_cons letter rest
      · rw [← joined, forall_mem_cons] at ih
        rw [split]
        exact forall_mem_cons.2 ⟨⟨cons_ne_nil _ _, forall_mem_cons.2 ⟨letter, ih.1.2⟩⟩, ih.2⟩
      · rw [split]
        exact forall_mem_cons.2 ⟨⟨cons_ne_nil _ _, by simpa using letter⟩, ih⟩

theorem pascalChars_alphanum (name : List Char) : ∀ c ∈ pascalChars name, c.isAlphanum = true := by
  intro c member
  obtain ⟨word, inWords, inWord⟩ := mem_flatten.1 member
  obtain ⟨plain, listed, rfl⟩ := mem_map.1 inWords
  have letters := (words_letters _ plain listed).2
  cases plain with
  | nil => cases inWord
  | cons first rest =>
    rcases mem_cons.1 inWord with rfl | later
    · exact (alphanum_cases (letters first (by simp))).1.1
    · exact letters c (by simp [later])

/-- What is put together begins with the first letter or digit of the name. -/
theorem head?_pascalChars (name : List Char) :
    (pascalChars name).head? = (name.find? Char.isAlphanum).map Char.toUpper := by
  induction name with
  | nil => rfl
  | cons c rest ih =>
    cases letter : c.isAlphanum with
    | false => simpa [pascalChars, words_other letter, letter] using ih
    | true =>
      obtain ⟨word, others, split, _⟩ := words_cons letter rest
      simp [pascalChars, split, capitalize, letter]

theorem capitalize_pascalChars (name : List Char) : capitalize (pascalChars name) = pascalChars name := by
  cases same : pascalChars name with
  | nil => rfl
  | cons c rest =>
    have head := head?_pascalChars name
    rw [same] at head
    obtain ⟨first, found, upper⟩ := Option.map_eq_some_iff.1 head.symm
    rw [capitalize, ← upper, (alphanum_cases (List.find?_some found)).1.2.1]

section

variable (letters : ∀ c ∈ text, c.isAlphanum = true)
include letters

/-- One word without other characters keeps all but its first letter: where it falls apart, the next
part begins with a capital. -/
theorem pascalChars_word : pascalChars text = capitalize text := by
  induction text with
  | nil => rfl
  | cons c rest ih =>
    obtain ⟨own, inner⟩ := forall_mem_cons.1 letters
    have step := ih inner
    rw [pascalChars, words.eq_def]
    simp only [own]
    cases rest with
    | nil => simp [words]
    | cons next more =>
      have first : next.isAlphanum = true := inner next (by simp)
      obtain ⟨word, others, split, _⟩ := words_cons first more
      rw [pascalChars, split] at step
      simp only [map_cons, flatten_cons, capitalize, cons_append, List.cons.injEq] at step
      rw [split]
      by_cases joined : joins c next = true
      · simp [joined, capitalize, step]
      · have capital : next.isUpper = true := by
          simp only [joins] at joined
          simp_all
        simp [joined, capitalize, step, (alphanum_cases first).2.2.1 capital]

theorem decapitalize_capitalize :
    decapitalize (capitalize text) = decapitalize text := by
  cases text with
  | nil => rfl
  | cons c rest => simp [capitalize, decapitalize, (alphanum_cases (letters c (by simp))).2.1.2.2]

theorem decapitalize_alphanum :
    ∀ c ∈ decapitalize text, c.isAlphanum = true := by
  cases text with
  | nil => simp [decapitalize]
  | cons c rest =>
    obtain ⟨own, inner⟩ := forall_mem_cons.1 letters
    exact forall_mem_cons.2 ⟨(alphanum_cases own).2.1.1, inner⟩

end

/-- A letter that is small, or a digit. -/
def isSmall (c : Char) : Bool := c.isLower || c.isDigit

theorem isSmall_cases (letter : c.isAlphanum = true) :
    isSmall c.toLower = true ∧ c.toLower.toUpper = c.toUpper ∧ (isSmall c = true → c.isUpper = false) := by
  have ascii := Text.ascii_of_isAlphanum letter
  revert letter
  exact Text.forall_ascii c ascii (by decide +kernel)

theorem alphanum_of_isSmall (small : isSmall c = true) : c.isAlphanum = true := by
  rcases Bool.or_eq_true_iff.1 small with lower | digit
  · exact Bool.or_eq_true_iff.2 (.inl (Bool.or_eq_true_iff.2 (.inr lower)))
  · exact Bool.or_eq_true_iff.2 (.inr digit)

theorem words_eq_nil {name : List Char} : words name = [] ↔ ∀ c ∈ name, c.isAlphanum = false := by
  induction name with
  | nil => simp [words]
  | cons c rest ih =>
    cases letter : c.isAlphanum with
    | false => simp [words_other letter, ih, letter]
    | true =>
      obtain ⟨word, others, split, _⟩ := words_cons letter rest
      simp [split, letter]

/-- A run of small letters and digits. -/
def IsRun (text : List Char) : Prop := text ≠ [] ∧ ∀ c ∈ text, isSmall c = true

/-- A run does not fall apart, and what follows it does not go on with it. -/
theorem words_run_append {run rest : List Char} (is : IsRun run) (apart : ∀ c ∈ rest.head?, c.isAlphanum = false) :
    words (run ++ rest) = run :: words rest := by
  obtain ⟨nonempty, small⟩ := is
  induction run with
  | nil => exact absurd rfl nonempty
  | cons c more ih =>
    obtain ⟨own, inner⟩ := forall_mem_cons.1 small
    have letter := alphanum_of_isSmall own
    rw [cons_append, words.eq_def]
    simp only [letter]
    cases more with
    | nil =>
      cases rest with
      | nil => rfl
      | cons next others =>
        have parted : joins c next = false := by simp [joins, apart next rfl]
        cases same : words (next :: others) <;> simp [same, parted]
    | cons next others =>
      have first := inner next (by simp)
      have joined : joins c next = true := by
        simp [joins, letter, alphanum_of_isSmall first, (isSmall_cases (alphanum_of_isSmall first)).2.2 first]
      rw [ih (cons_ne_nil _ _) inner]
      simp [joined]

theorem words_intercalate {runs : List (List Char)} (each : ∀ run ∈ runs, IsRun run) :
    words (intercalate ['-'] runs) = runs := by
  induction runs with
  | nil => rfl
  | cons run rest ih =>
    obtain ⟨own, others⟩ := forall_mem_cons.1 each
    cases rest with
    | nil => exact @words_run_append run [] own (by simp)
    | cons next more =>
      have hyphen : words ('-' :: intercalate ['-'] (next :: more)) = next :: more := by
        rw [words_other (by decide), ih others]
      have whole := @words_run_append run ('-' :: intercalate ['-'] (next :: more)) own (by simp)
      rwa [hyphen] at whole

theorem lowered_runs (name : List Char) : ∀ run ∈ (words name).map (·.map Char.toLower), IsRun run := by
  intro run member
  obtain ⟨word, listed, rfl⟩ := mem_map.1 member
  obtain ⟨nonempty, letters⟩ := words_letters name word listed
  refine ⟨by simpa using nonempty, fun c inside => ?_⟩
  obtain ⟨letter, inWord, rfl⟩ := mem_map.1 inside
  exact (isSmall_cases (letters letter inWord)).1

theorem words_kebabChars (name : List Char) : words (kebabChars name) = (words name).map (·.map Char.toLower) :=
  words_intercalate (lowered_runs name)

theorem kebabChars_kebabChars (name : List Char) : kebabChars (kebabChars name) = kebabChars name := by
  have lowered : ∀ word ∈ words name, (word.map Char.toLower).map Char.toLower = word.map Char.toLower := by
    intro word listed
    rw [map_map]
    exact map_congr_left (fun c inside => (alphanum_cases ((words_letters name word listed).2 c inside)).2.1.2.1)
  rw [kebabChars, words_kebabChars, map_map]
  exact congrArg (intercalate ['-']) (map_congr_left lowered)

theorem pascalChars_pascalChars (name : List Char) : pascalChars (pascalChars name) = pascalChars name := by
  rw [pascalChars_word (pascalChars_alphanum name), capitalize_pascalChars]

theorem pascalChars_camelChars (name : List Char) : pascalChars (camelChars name) = pascalChars name := by
  have letters := pascalChars_alphanum name
  rw [camelChars, pascalChars_word (decapitalize_alphanum letters), ← capitalize_pascalChars name]
  cases same : pascalChars name with
  | nil => rfl
  | cons c rest =>
    rw [same] at letters
    simp [capitalize, decapitalize, alphanum_cases, isSmall_cases, letters c (by simp)]

/-- Converting a name again changes nothing, and conversions forget each other. A hyphenated name is made of
runs of small letters and digits, and there is something to convert exactly if there is a letter or a digit. -/
theorem conversions_coherent (name : String) :
    (kebab (kebab name) = kebab name ∧ pascal (pascal name) = pascal name ∧ camel (camel name) = camel name) ∧
      (camel (pascal name) = camel name ∧ pascal (camel name) = pascal name) ∧
      (∃ runs : List (List Char), (∀ run ∈ runs, IsRun run) ∧ (kebab name).toList = intercalate ['-'] runs) ∧
      (kebab name = "" ↔ pascal name = "") ∧ (pascal name = "" ↔ ∀ c ∈ name.toList, c.isAlphanum = false) := by
  have camelPascal : camelChars (pascalChars name.toList) = camelChars name.toList := by
    rw [camelChars, pascalChars_pascalChars, camelChars]
  have camelCamel : camelChars (camelChars name.toList) = camelChars name.toList := by
    rw [camelChars, pascalChars_camelChars, camelChars]
  have lettered : pascalChars name.toList = [] ↔ ∀ c ∈ name.toList, c.isAlphanum = false := by
    rw [← head?_eq_none_iff, head?_pascalChars, Option.map_eq_none_iff, find?_eq_none]
    simp
  have hyphenated : kebabChars name.toList = [] ↔ ∀ c ∈ name.toList, c.isAlphanum = false := by
    rw [← words_eq_nil]
    constructor
    · intro empty
      have found := words_kebabChars name.toList
      rw [empty] at found
      exact map_eq_nil_iff.1 found.symm
    · intro none
      rw [kebabChars, none]
      rfl
  refine ⟨⟨?_, ?_, ?_⟩, ⟨?_, ?_⟩, ⟨_, lowered_runs name.toList, String.toList_ofList⟩, ?_, ?_⟩ <;>
    simp only [kebab, pascal, camel, String.toList_ofList, String.ofList_eq_empty_iff, kebabChars_kebabChars,
      pascalChars_pascalChars, pascalChars_camelChars, camelPascal, camelCamel, hyphenated, lettered]

/-- A letter, followed by letters and digits. -/
def isIdentifier : List Char → Bool
  | [] => false
  | c :: rest => c.isAlpha && rest.all Char.isAlphanum

theorem isIdentifier_iff :
    isIdentifier text = true ↔
      text ≠ [] ∧ (∀ c ∈ text, c.isAlphanum = true) ∧ (text.head?.any Char.isDigit) = false := by
  cases text with
  | nil => simp [isIdentifier]
  | cons c rest =>
    have alphabetic : c.isAlpha = true ↔ c.isAlphanum = true ∧ c.isDigit = false := by
      constructor
      · intro letter
        have own : c.isAlphanum = true := by simp [Char.isAlphanum, letter]
        exact ⟨own, by simpa [letter] using (alphanum_cases own).2.2.2⟩
      · rintro ⟨own, number⟩
        simp [(alphanum_cases own).2.2.2, number]
    simp [isIdentifier, alphabetic, and_right_comm]

theorem identifierChars_word (letters : ∀ c ∈ text, c.isAlphanum = true) :
    identifierChars text =
      asIdentifier (if isHookName (decapitalize text) then decapitalize text else capitalize text) := by
  rw [identifierChars, camelChars, pascalChars_word letters, decapitalize_capitalize letters]

theorem isHookName_cases (hook : isHookName text = true) :
    ∃ c rest, text = 'u' :: 's' :: 'e' :: c :: rest ∧ (c.isUpper || c.isDigit) = true := by
  unfold isHookName at hook
  split at hook
  · exact ⟨_, _, rfl, hook⟩
  · cases hook

theorem isHookName_capital (capital : capitalize text = text) : isHookName text = false := by
  cases hook : isHookName text with
  | false => rfl
  | true =>
    obtain ⟨c, rest, rfl, _⟩ := isHookName_cases hook
    exact absurd (List.cons.inj capital).1 (by decide)

theorem asIdentifier_eq (valid : isIdentifier text = true) : asIdentifier text = text := by
  cases text with
  | nil => cases valid
  | cons c rest => exact if_neg (by simpa using (isIdentifier_iff.1 valid).2.2)

/-- An identifier is the name of a hook, or a capitalized word. -/
theorem identifierChars_cases (stem : List Char) :
    isIdentifier (identifierChars stem) = true ∧
      if isHookName (camelChars stem) then
        isHookName (identifierChars stem) = true ∧ decapitalize (identifierChars stem) = identifierChars stem
      else isHookName (decapitalize (identifierChars stem)) = false ∧
        capitalize (identifierChars stem) = identifierChars stem := by
  have letters := pascalChars_alphanum stem
  unfold identifierChars
  split
  · next hook =>
    have made : ∀ d ∈ camelChars stem, d.isAlphanum = true := decapitalize_alphanum letters
    obtain ⟨c, rest, same, _⟩ := isHookName_cases hook
    rw [same] at hook made ⊢
    have valid : isIdentifier ('u' :: 's' :: 'e' :: c :: rest) = true :=
      isIdentifier_iff.2 ⟨cons_ne_nil _ _, made, rfl⟩
    exact ⟨valid, hook, rfl⟩
  · next noHook =>
    have capital := capitalize_pascalChars stem
    rw [camelChars] at noHook
    cases same : pascalChars stem with
    | nil => decide
    | cons c rest =>
      rw [same] at letters capital noHook
      cases number : c.isDigit with
      | true =>
        have prefixed : asIdentifier (c :: rest) = "Component".toList ++ c :: rest := if_pos number
        rw [prefixed]
        refine ⟨isIdentifier_iff.2 ⟨cons_ne_nil _ _, ?_, rfl⟩, rfl, rfl⟩
        exact forall_mem_append.2 ⟨all_eq_true.1 rfl, letters⟩
      | false =>
        have valid : isIdentifier (c :: rest) = true := isIdentifier_iff.2 ⟨cons_ne_nil _ _, letters, number⟩
        rw [asIdentifier_eq valid]
        exact ⟨valid, Bool.eq_false_iff.2 noHook, capital⟩

/-- The identifier of a unit is valid and its own identifier, and it tells a hook exactly if the name of
the file does. -/
theorem identifier_stable (stem : String) :
    isIdentifier (identifier stem).toList = true ∧ identifier (identifier stem) = identifier stem ∧
      isHookName (identifier stem).toList = isHookName (camel stem).toList ∧
      ∀ source : Source, Survey.kindOf stem (identifier stem) source =
        if source.classComponents.contains (identifier stem) || source.classComponents.contains stem then .stateful
        else if isHookName (camel stem).toList then .hook else .functional := by
  obtain ⟨valid, shape⟩ := identifierChars_cases stem.toList
  have letters := (isIdentifier_iff.1 valid).2.1
  have hooks : isHookName (identifierChars stem.toList) = isHookName (camelChars stem.toList) := by
    split at shape
    · next hook => rw [hook, shape.1]
    · next noHook => rw [isHookName_capital shape.2, Bool.eq_false_iff.2 noHook]
  have stable : identifierChars (identifierChars stem.toList) = identifierChars stem.toList := by
    rw [identifierChars_word letters]
    split at shape
    · rw [shape.2, shape.1, if_pos rfl, asIdentifier_eq valid]
    · rw [shape.1, shape.2, if_neg Bool.false_ne_true, asIdentifier_eq valid]
  simp only [identifier, camel, String.toList_ofList, valid, stable, hooks, Survey.kindOf, true_and, implies_true]

end Naming

namespace Output

open Naming

theorem pageBase_chars (name : String) :
    (pageBase name).toList ≠ [] ∧ (∀ c ∈ (pageBase name).toList, c.isAlphanum = true) ∧
      (pageBase name).toList.head? = some (((name.toList.find? Char.isAlphanum).map Char.toUpper).getD 'I') := by
  have head := head?_pascalChars name.toList
  unfold pageBase
  by_cases empty : (pascal name).isEmpty = true
  · have nothing : pascalChars name.toList = [] := by simpa [pascal] using empty
    rw [nothing] at head
    rw [if_pos empty, ← head]
    exact ⟨cons_ne_nil _ _, all_eq_true.1 rfl, rfl⟩
  · rw [if_neg empty, pascal, String.toList_ofList]
    have some : pascalChars name.toList ≠ [] := by simpa [pascal] using empty
    refine ⟨some, pascalChars_alphanum _, ?_⟩
    rw [← head, List.head?_eq_some_head some, Option.getD_some]

/-- The identifier of a page has letters and digits only and ends in `Page` after a base. It is valid
exactly if the first letter or digit of the name is no digit: the base begins with that one. -/
theorem pageIdentifier_valid_iff (name : String) :
    (∃ base : String, base ≠ "" ∧ pageIdentifier name = base ++ "Page") ∧
      (∀ c ∈ (pageIdentifier name).toList, c.isAlphanum = true) ∧
      (isIdentifier (pageIdentifier name).toList = true ↔
        ∀ c, name.toList.find? Char.isAlphanum = some c → c.isDigit = false) := by
  obtain ⟨some, letters, head⟩ := pageBase_chars name
  have all : ∀ c ∈ (pageIdentifier name).toList, c.isAlphanum = true := by
    rw [pageIdentifier, String.toList_append]
    exact forall_mem_append.2 ⟨letters, all_eq_true.1 rfl⟩
  have first : (pageIdentifier name).toList.head? = (pageBase name).toList.head? := by
    rw [pageIdentifier, String.toList_append, List.head?_append_of_ne_nil _ some]
  refine ⟨⟨pageBase name, by simpa using some, rfl⟩, all, ?_⟩
  rw [isIdentifier_iff, first, head, and_iff_right (by simp [pageIdentifier]), and_iff_right all]
  cases found : name.toList.find? Char.isAlphanum with
  | none => simp
  | some c => simp [(alphanum_cases (List.find?_some found)).1.2.2]

/-- The page for missing pages gets a name that is none. -/
theorem pageIdentifier_numeric :
    pageIdentifier "404" = "404Page" ∧ isIdentifier (pageIdentifier "404").toList = false := by
  decide

end Output
end Refit
