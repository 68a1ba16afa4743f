import Refit.Files.Path

open List

namespace Refit

variable {text : List Char}

namespace Text

variable {separator : Char → Bool} {piece : List Char}

theorem splitChars_of_none (none : ∀ c ∈ piece, separator c = false) :
    splitChars separator piece = [piece] := by
  induction piece with
  | nil => rfl
  | cons c rest ih => simp [splitChars, none c (by simp), ih (fun c member => none c (by simp [member]))]

theorem splitChars_append {c : Char} (rest : List Char) (none : ∀ c ∈ piece, separator c = false)
    (is : separator c = true) :
    splitChars separator (piece ++ c :: rest) = piece :: splitChars separator rest := by
  induction piece with
  | nil => simp [splitChars, is]
  | cons first others ih =>
    simp [splitChars, none first (by simp), ih (fun c member => none c (by simp [member]))]

theorem no_separator_of_mem_splitChars (member : piece ∈ splitChars separator text) :
    ∀ c ∈ piece, separator c = false := by
  induction text generalizing piece with
  | nil => simp_all [splitChars]
  | cons first rest ih =>
    simp only [splitChars] at member
    split at member
    · rcases mem_cons.1 member with rfl | member
      · simp
      · exact ih member
    · next other =>
        cases pieces : splitChars separator rest with
        | nil => simp_all
        | cons head others =>
          rw [pieces] at member ih
          rcases mem_cons.1 member with rfl | member
          · intro c within
            rcases mem_cons.1 within with rfl | within
            · simpa using other
            · exact ih (by simp) c within
          · exact ih (by simp [member])

theorem splitChars_intercalate {separator : Char} {pieces : List (List Char)} (some : pieces ≠ [])
    (none : ∀ piece ∈ pieces, separator ∉ piece) :
    splitChars (· = separator) ([separator].intercalate pieces) = pieces := by
  induction pieces with
  | nil => exact absurd rfl some
  | cons piece rest ih =>
    have clear : ∀ c ∈ piece, decide (c = separator) = false := by
      intro c member
      have absent := none piece (by simp)
      exact decide_eq_false (fun same => absent (same ▸ member))
    cases rest with
    | nil => simpa using splitChars_of_none clear
    | cons next others =>
      have joined : [separator].intercalate (piece :: next :: others) =
          piece ++ separator :: [separator].intercalate (next :: others) := by simp
      rw [joined, splitChars_append _ clear (by simp), ih (by simp)]
      exact fun other member => none other (by simp [member])

end Text

namespace Path

variable {names : List String} {path : Path}

/-- A name that can stand in a path. -/
def ValidName (name : String) : Prop := name ≠ "" ∧ name ≠ "." ∧ '/' ∉ name.toList

instance (name : String) : Decidable (ValidName name) := inferInstanceAs (Decidable (_ ∧ _ ∧ _))

def Valid (path : Path) : Prop := ∀ name ∈ path.names, ValidName name

theorem ofString_valid (text : String) : (ofString text).Valid := by
  intro name member
  obtain ⟨member, kept⟩ := mem_filter.1 member
  obtain ⟨piece, pieceMember, rfl⟩ := mem_map.1 member
  have clear := Text.no_separator_of_mem_splitChars pieceMember
  refine ⟨by simp_all, by simp_all, fun slash => ?_⟩
  simpa using clear '/' (by simpa using slash)

theorem split_intercalate (some : names ≠ []) (valid : ∀ name ∈ names, ValidName name) :
    Text.splitChars (· = '/') (['/'].intercalate (names.map String.toList)) = names.map String.toList := by
  refine Text.splitChars_intercalate (by simpa using some) (fun piece member => ?_)
  obtain ⟨name, nameMember, rfl⟩ := mem_map.1 member
  exact (valid name nameMember).2.2

theorem filter_valid (valid : ∀ name ∈ names, ValidName name) :
    names.filter (fun name => name ≠ "" && name ≠ ".") = names := by
  refine filter_eq_self.2 (fun name member => ?_)
  obtain ⟨nonempty, noDot, _⟩ := valid name member
  simp [nonempty, noDot]

def body (names : List String) : List Char := ['/'].intercalate (names.map String.toList)

theorem filter_split_body (valid : ∀ name ∈ names, ValidName name) :
    ((Text.splitChars (· = '/') (body names)).map String.ofList).filter
      (fun name => name ≠ "" && name ≠ ".") = names := by
  cases names with
  | nil => rfl
  | cons name rest =>
    rw [body, split_intercalate (by simp) valid]
    simpa using filter_valid valid

theorem body_head (valid : ∀ name ∈ names, ValidName name) : (body names).head? ≠ some '/' := by
  cases names with
  | nil => simp [body]
  | cons name rest =>
    obtain ⟨nonempty, _, clear⟩ := valid name (by simp)
    cases chars : name.toList with
    | nil => exact absurd (String.toList_eq_nil_iff.1 chars) nonempty
    | cons c others =>
      have different : c ≠ '/' := by
        intro same
        simp [chars, same] at clear
      cases rest <;> simp [body, chars, different]

theorem rootOf_body (head : text.head? ≠ some '/') :
    rootOf text = .relative ∧ rootOf ('/' :: text) = .slash ∧ rootOf ('/' :: '/' :: text) = .doubleSlash := by
  cases text with
  | nil => exact ⟨rfl, rfl, rfl⟩
  | cons c rest =>
    have different : c ≠ '/' := by simpa using head
    refine ⟨?_, ?_, ?_⟩ <;> simp [rootOf, different]

theorem toList_toString {path : Path} (some : path.isAbsolute = true ∨ path.names ≠ []) :
    path.toString.toList = path.root.text.toList ++ body path.names := by
  have notDot : ¬ (path.root = .relative && path.names.isEmpty) = true := by
    rcases some with absolute | named
    · simp_all [isAbsolute]
    · simp [named]
  rw [toString, if_neg notDot, plainText]
  simp [body]

theorem toString_isEmpty (absolute : path.isAbsolute = true) : path.toString.isEmpty = false := by
  have chars := toList_toString (.inl absolute)
  cases root : path.root with
  | relative => simp [isAbsolute, root] at absolute
  | slash | doubleSlash =>
    rw [root] at chars
    refine Bool.eq_false_iff.2 (fun empty => ?_)
    rw [String.isEmpty_iff] at empty
    simp [empty, PathRoot.text] at chars

theorem ofNames_ne_empty {name : String} (named : name ≠ "") (rest : List String) : ofNames (name :: rest) ≠ "" := by
  intro empty
  have chars := @toList_toString ⟨.relative, name :: rest⟩ (.inr (by simp))
  rw [show Path.toString ⟨.relative, name :: rest⟩ = "" from empty] at chars
  cases rest <;> simp_all [body]

theorem ofString_toString (valid : path.Valid) : ofString path.toString = path := by
  obtain ⟨root, names⟩ := path
  by_cases bare : root = .relative ∧ names = []
  · obtain ⟨rfl, rfl⟩ := bare
    rfl
  · have some : (Path.mk root names).isAbsolute = true ∨ names ≠ [] := by
      cases root <;> simp_all [isAbsolute]
    have chars := toList_toString some
    obtain ⟨relative, slash, doubleSlash⟩ := rootOf_body (body_head valid)
    have read := filter_split_body valid
    cases root with
    | relative => simp_all [ofString, PathRoot.text, Text.split]
    | slash | doubleSlash => simp_all [ofString, PathRoot.text, Text.split, Text.splitChars]

theorem withName_name (named : path.names ≠ []) : path.withName path.name = path := by
  obtain ⟨root, names⟩ := path
  simp only [withName, parent, child, name, Path.mk.injEq, true_and]
  rw [List.getLast?_eq_some_getLast named]
  exact dropLast_concat_getLast named

end Path
end Refit
