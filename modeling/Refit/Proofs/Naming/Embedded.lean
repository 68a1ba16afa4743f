import Refit.Json.Reader
import Refit.Naming.Words

/-!
Texts in markup and in literals. A child and a quoted attribute are read with their character references
replaced, a value in braces as a literal. What is written for a child is read back as it was; what is
written for an attribute is not where the text itself has a reference.
-/

namespace Refit

namespace Json

open Reader Text

variable {c : Char} {text rest read : List Char} {start fuel position : Nat}

theorem numericEscape_control {n : Nat} (control : n < 32) (more : rest ≠ []) :
    numericEscape position ('0' :: '0' :: hexDigit (n / 16) :: hexDigit (n % 16) :: rest) = .ok (Char.ofNat n, 4) := by
  have long : ¬ ('0' :: '0' :: hexDigit (n / 16) :: hexDigit (n % 16) :: rest).length ≤ 4 := by
    have := List.length_pos_iff.2 more
    simp only [List.length_cons]
    omega
  have digits : ∀ n < 32, hexDigit? (hexDigit (n / 16)) = some (n / 16) ∧
      hexDigit? (hexDigit (n % 16)) = some (n % 16) ∧ isHighSurrogate n = false ∧
      charOf n = Char.ofNat n := by decide
  obtain ⟨high, low, single, same⟩ := digits n control
  have code : hexValue? 4 ('0' :: '0' :: hexDigit (n / 16) :: hexDigit (n % 16) :: rest) = some n := by
    have zero : hexDigit? '0' = some 0 := rfl
    simp only [hexValue?, hexNumber?, zero, high, low, Option.some.injEq]
    omega
  rw [numericEscape, if_neg long, code]
  simp [single, same]

/-- One written character is read in one step. -/
theorem stringRest_escapeChar (more : rest ≠ []) :
    stringRest start (fuel + 1) ⟨position, escapeChar c ++ rest⟩ read =
      stringRest start fuel ⟨position + (escapeChar c).length, rest⟩ (c :: read) := by
  unfold escapeChar
  split
  case h_8 quote backslash _ _ _ _ _ =>
    split
    · next control =>
      have small : c.toNat < 32 := control
      simp [stringRest, numericEscape_control small more]
    · next plain =>
      have large : ¬ c.val ≤ 0x1f := by
        intro small
        exact plain (UInt32.lt_of_le_of_lt small (by decide))
      rw [stringRest.eq_def]
      dsimp only [List.singleton_append]
      split
      case h_6 same =>
        cases same
        exact if_neg large
      all_goals simp_all
  all_goals rfl

theorem length_le_escaped (text : List Char) : text.length ≤ (text.flatMap escapeChar).length := by
  induction text with
  | nil => exact Nat.le_refl _
  | cons c text ih =>
    have some : 0 < (escapeChar c).length := by
      unfold escapeChar
      split <;> first | decide | (split <;> simp)
    rw [List.flatMap_cons, List.length_append, List.length_cons]
    omega

theorem stringRest_quoted (text : List Char) (enough : text.length < fuel) (after : List Char) :
    stringRest start fuel ⟨position, text.flatMap escapeChar ++ '"' :: after⟩ read =
      .ok (String.ofList (read.reverse ++ text), ⟨position + (text.flatMap escapeChar).length + 1, after⟩) := by
  induction text generalizing fuel position read with
  | nil =>
    obtain ⟨fuel, rfl⟩ : ∃ less, fuel = less + 1 := ⟨fuel - 1, by simp at enough; omega⟩
    simp [stringRest]
  | cons c text ih =>
    obtain ⟨fuel, rfl⟩ : ∃ less, fuel = less + 1 := ⟨fuel - 1, by simp at enough; omega⟩
    have fewer : text.length < fuel := by simpa using enough
    rw [List.flatMap_cons, List.append_assoc, stringRest_escapeChar (by simp), ih fewer]
    simp [Nat.add_assoc]

end Json

namespace Naming

variable {names : List (String × Char)} {text rest : List Char} {c : Char} {n : Nat}

/-- What stands between `&` and `;`: a code in hexadecimal or decimal digits, or one of the names. -/
def referenced? (names : List (String × Char)) : List Char → Option Char
  | '#' :: 'x' :: digits =>
    if digits.isEmpty then none else (Text.hexValue? digits.length digits).map Text.charOf
  | '#' :: digits =>
    if digits.isEmpty || !digits.all Json.Reader.isDigit then none
    else some (Text.charOf (Json.Reader.natOf digits))
  | name => Json.lookup names (String.ofList name)

/-- The reference after `&`, with the number of characters that it takes. -/
def reference? (names : List (String × Char)) (rest : List Char) : Option (Char × Nat) :=
  let body := rest.takeWhile (· ≠ ';')
  if body.length < rest.length then (referenced? names body).map (·, body.length + 1) else none

/-- Replaces the references of a text whose first characters are to be skipped. -/
def decodeAfter (names : List (String × Char)) : Nat → List Char → List Char
  | _, [] => []
  | n + 1, _ :: rest => decodeAfter names n rest
  | 0, c :: rest =>
    match if c = '&' then reference? names rest else none with
    | some (meant, n) => meant :: decodeAfter names n rest
    | none => c :: decodeAfter names 0 rest

def decodeReferences (names : List (String × Char)) (text : List Char) : List Char := decodeAfter names 0 text

/-- Somewhere in the text stands a reference. -/
def HasReference (names : List (String × Char)) (text : List Char) : Prop :=
  ∃ before rest, text = before ++ '&' :: rest ∧ (reference? names rest).isSome = true

theorem reference?_length (found : reference? names rest = some (c, n)) : 0 < n ∧ n ≤ rest.length := by
  simp only [reference?] at found
  split at found
  · next ended =>
    obtain ⟨meant, _, same⟩ := Option.map_eq_some_iff.1 found
    cases same
    exact ⟨Nat.succ_pos _, ended⟩
  · cases found

theorem decodeAfter_length (names : List (String × Char)) (n : Nat) (text : List Char) :
    (decodeAfter names n text).length ≤ text.length - n := by
  fun_induction decodeAfter names n text with
  | case1 => simp
  | case2 n c rest ih => simpa using ih
  | case3 c rest meant n found ih =>
    have some : reference? names rest = some (meant, n) := by
      split at found
      · exact found
      · cases found
    simp only [List.length_cons]
    omega
  | case4 c rest found ih => simpa using ih

/-- A replaced reference makes a text shorter, so only a text without one stays. -/
theorem decodeReferences_eq_iff : decodeReferences names text = text ↔ ¬ HasReference names text := by
  unfold decodeReferences
  induction text with
  | nil => simp [decodeAfter, HasReference]
  | cons c rest ih =>
    rw [decodeAfter]
    split
    · next meant n found =>
      split at found
      · next mark =>
        subst mark
        obtain ⟨some, within⟩ := reference?_length found
        refine iff_of_false (fun same => ?_) (fun none => none ⟨[], rest, rfl, by simp [found]⟩)
        have shorter := decodeAfter_length names n rest
        have equal := congrArg List.length same
        simp only [List.length_cons] at equal
        omega
      · cases found
    · next found =>
      rw [List.cons.injEq, eq_self, true_and, ih]
      refine not_congr ⟨?_, ?_⟩
      · rintro ⟨before, after, rfl, some⟩
        exact ⟨c :: before, after, rfl, some⟩
      · rintro ⟨before, after, same, some⟩
        cases before with
        | nil =>
          simp_all
        | cons first others => exact ⟨others, after, (List.cons.inj same).2, some⟩

theorem decodeReferences_of_notMem (clear : '&' ∉ text) : decodeReferences names text = text := by
  rw [decodeReferences_eq_iff]
  rintro ⟨before, rest, rfl, _⟩
  simp at clear

/-- The text of a literal in braces. The first quote that is not escaped ends the literal, and only the
closing brace follows it. -/
def bracedValue? : List Char → Option String
  | '\x7b' :: '"' :: rest =>
    match Json.Reader.stringRest 1 (rest.length + 1) ⟨2, rest⟩ [] with
    | .ok (value, ⟨_, ['\x7d']⟩) => some value
    | _ => none
  | _ => none

/-- The value of an attribute: a text up to the next quote, or a value in braces. -/
def attribute? (names : List (String × Char)) (written : String) : Option String :=
  match written.toList with
  | '"' :: rest =>
    if rest.dropWhile (· ≠ '"') = ['"'] then
      some (String.ofList (decodeReferences names (rest.takeWhile (· ≠ '"'))))
    else none
  | other => bracedValue? other

/-- The value of a child: a text up to the next brace or tag, or a value in braces. -/
def child? (names : List (String × Char)) (written : String) : Option String :=
  if written.toList.any (['\x7b', '\x7d', '<', '>'].contains ·) then bracedValue? written.toList
  else some (String.ofList (decodeReferences names written.toList))

theorem toList_braced (text : String) :
    (braced text).toList = '\x7b' :: '"' :: (text.toList.flatMap Json.escapeChar ++ ['"', '\x7d']) := by
  simp [braced, Json.quote]

theorem bracedValue?_braced (text : String) : bracedValue? (braced text).toList = some text := by
  have longer := Json.length_le_escaped text.toList
  have enough : text.toList.length < (text.toList.flatMap Json.escapeChar ++ ['"', '\x7d']).length + 1 := by
    rw [List.length_append]
    omega
  rw [toList_braced, bracedValue?, Json.stringRest_quoted _ enough]
  simp

/-- A child is read back: one without braces, tags and references as it stands. -/
theorem child?_childText (names : List (String × Char)) (text : String) :
    (childText text = braced text ∨
      childText text = text ∧ ∀ c ∈ text.toList, c ∉ ['\x7b', '\x7d', '<', '>']) ∧
    child? names (childText text) = some text := by
  unfold childText child?
  split
  · refine ⟨.inl rfl, ?_⟩
    rw [if_pos (by simp [toList_braced]), bracedValue?_braced]
  · next safe =>
    have plain : ∀ c ∈ text.toList, c ∉ ['\x7b', '\x7d', '<', '>', '&', '\n'] := by
      intro c member mark
      exact safe (List.any_eq_true.2 ⟨c, member, List.contains_iff_mem.2 mark⟩)
    have inside : ∀ c ∈ text.toList, c ∉ ['\x7b', '\x7d', '<', '>'] := by
      intro c member mark
      exact plain c member (List.mem_append_left ['&', '\n'] mark)
    have clear : '&' ∉ text.toList := fun member => plain '&' member (by decide)
    refine ⟨.inr ⟨rfl, inside⟩, ?_⟩
    rw [if_neg (by simpa using inside), decodeReferences_of_notMem clear, String.ofList_toList]

theorem toList_quoted (text : String) : ("\"" ++ text ++ "\"").toList = '"' :: (text.toList ++ ['"']) := by
  simp

/-- An attribute in quotes is read with its references replaced. -/
theorem attribute?_quoted (names : List (String × Char)) (text : String) (clear : '"' ∉ text.toList) :
    attribute? names ("\"" ++ text ++ "\"") = some (String.ofList (decodeReferences names text.toList)) := by
  have inside : ∀ c ∈ text.toList, decide (c ≠ '"') = true := by
    intro c member
    exact decide_eq_true (fun same => clear (same ▸ member))
  rw [attribute?, toList_quoted]
  simp only [List.dropWhile_append_of_pos inside, List.takeWhile_append_of_pos inside]
  simp

/-- A text in markup ends where it is meant to, and is read back as it was: always as a child, and as an
attribute exactly if it has a quote, a line break or no character reference. -/
theorem embedded_read_back (names : List (String × Char)) (text : String) :
    ((childText text = braced text ∨
        childText text = text ∧ ∀ c ∈ text.toList, c ∉ ['\x7b', '\x7d', '<', '>']) ∧
      child? names (childText text) = some text) ∧
    (attributeValue text = braced text ∨ attributeValue text = "\"" ++ text ++ "\"" ∧ '"' ∉ text.toList) ∧
    ∃ value, attribute? names (attributeValue text) = some value ∧
      (value = text ↔ '"' ∈ text.toList ∨ '\n' ∈ text.toList ∨ ¬ HasReference names text.toList) := by
  refine ⟨child?_childText names text, ?_⟩
  unfold attributeValue
  split
  · next marked =>
    have mark : '"' ∈ text.toList ∨ '\n' ∈ text.toList := by simpa using marked
    refine ⟨.inl rfl, text, ?_, iff_of_true rfl (mark.imp_right .inl)⟩
    have read := bracedValue?_braced text
    rw [toList_braced] at read
    rw [attribute?, toList_braced]
    exact read
  · next plain =>
    obtain ⟨clear, line⟩ : '"' ∉ text.toList ∧ '\n' ∉ text.toList := by simpa using plain
    refine ⟨.inr ⟨rfl, clear⟩, _, attribute?_quoted names text clear, ?_⟩
    rw [or_iff_right clear, or_iff_right line, ← decodeReferences_eq_iff, ← String.toList_inj, String.toList_ofList]

/-- An attribute that has a reference in its text is read as something else. -/
theorem attribute_loses_reference :
    attribute? [("amp", '&')] (attributeValue "R&amp;D") = some "R&D" ∧
      child? [("amp", '&')] (childText "R&amp;D") = some "R&amp;D" := by
  decide

end Naming
end Refit
