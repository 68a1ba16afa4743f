import Refit.Proofs.Route.RoundTrip

/-!
How the path of a page is spelled. Its segments can stand in one file name with dots between them or in directories
of their own. A route in small letters is the same for all spellings of a plain path, but for its index: a segment
is left out of the route when it is spelled `index`, and no other spelling of it is.
-/

open List

namespace Refit

open Text

namespace Text

theorem toLower_foreign {c : Char} (foreign : ¬ c.toNat < 128) : c.toLower = c := by
  apply dif_neg
  rintro ⟨_, last⟩
  have bound : c.toNat ≤ 90 := UInt32.le_iff_toNat_le.1 last
  omega

theorem toLower_eq_mark {c mark : Char} (listed : mark ∈ marks) : c.toLower = mark ↔ c = mark := by
  by_cases ascii : c.toNat < 128
  · have own : marks.all (fun mark => c.toLower = mark ↔ c = mark) = true := forall_ascii c ascii (by decide +kernel)
    exact of_decide_eq_true (all_eq_true.1 own mark listed)
  · rw [toLower_foreign ascii]

theorem lowerChars_ascii {text : List Char} (ascii : ∀ c ∈ text, c.toNat < 128) (before : List Char) :
    lowerChars before text = text.map Char.toLower := by
  induction text generalizing before with
  | nil => rfl
  | cons c rest ih =>
    obtain ⟨own, others⟩ := forall_mem_cons.1 ascii
    have sigma : c ≠ 'Σ' := by
      rintro rfl
      exact absurd own (by decide)
    have dotted : c ≠ 'İ' := by
      rintro rfl
      exact absurd own (by decide)
    simp [lowerChars, sigma, dotted, lowerChar, own, ih others]

theorem dropEnd_map {property : Char → Bool} {f : Char → Char} (same : ∀ c, property (f c) = property c)
    (text : List Char) : dropEnd property (text.map f) = (dropEnd property text).map f := by
  have through : property ∘ f = property := funext same
  rw [dropEnd, ← map_reverse, dropWhile_map, through, ← map_reverse, dropEnd]

end Text

namespace Route

open Segment

variable {raw : List Char} {segment : Segment}

/-- The text that a raw segment adds to a route; empty for a segment that adds nothing. -/
def addition (lowercase : Bool) (raw : List Char) : String :=
  ((ofRaw lowercase raw).map Segment.text).getD ""

theorem text_ne_empty {lowercase : Bool} (adds : ofRaw lowercase raw = some segment) : segment.text ≠ "" := by
  cases adds_of_ofRaw adds with
  | splat => decide
  | dollar => simp [Segment.text]
  | brackets =>
    simp only [ofBrackets]
    split <;> simp [Segment.text]
  | fixed some _ low =>
    intro empty
    have lowers := ofFixed_lowers lowercase raw
    rw [empty] at lowers
    exact (head?_dropEnd some low).1 lowers.eq_nil

theorem no_slash_text {lowercase : Bool} (sole : Sole raw)
    (adds : ofRaw lowercase raw = some segment) : '/' ∉ segment.text.toList := by
  cases adds_of_ofRaw adds with
  | splat => decide
  | dollar _ starts =>
    have clear := sole.slash
    rw [starts, mem_cons, not_or] at clear
    simpa [Segment.text] using clear.2
  | @brackets inner found =>
    have clear : '/' ∉ inner := fun member => sole.slash ((infix_of_bracketed? found).subset member)
    simp only [ofBrackets]
    split <;> simp_all [Segment.text]
  | fixed => exact (sole_ofFixed sole lowercase).1.slash

theorem map_text_filterMap (lowercase : Bool) (raws : List (List Char)) :
    (raws.filterMap (ofRaw lowercase)).map Segment.text = (raws.map (addition lowercase)).filter (· ≠ "") := by
  induction raws with
  | nil => rfl
  | cons raw raws ih =>
    cases adds : ofRaw lowercase raw with
    | none => simpa [addition, adds] using ih
    | some segment => simpa [addition, adds, text_ne_empty adds] using ih

theorem parameters_ofSegments {segments : List Segment} (plain : ∀ segment ∈ segments, '/' ∉ segment.text.toList) :
    parameters (ofSegments segments) = segments.filterMap (fun segment => parameter? segment.text.toList) := by
  have own (part : List Char) : (if decide (part ≠ []) then parameter? part else none) = parameter? part := by
    cases part with
    | nil => rfl
    | cons => simp
  have filled (parts : List (List Char)) : (parts.filter (· ≠ [])).filterMap parameter? = parts.filterMap parameter? := by
    rw [filterMap_filter, funext own]
  rw [parameters, ← filled, parts_ofSegments plain, filled, filterMap_map, Function.comp_def]

/-- A segment as it is written in the path of a page. -/
inductive Spelled where
  | plain (text : List Char) (filled : text ≠ []) (clear : ∀ c ∈ text, c ∉ ['.', '/', '\\', '[', ']'])
  | bracketed (inner : List Char) (clear : ∀ c ∈ inner, c ∉ ['/', '\\', '[', ']'])

namespace Spelled

def chars : Spelled → List Char
  | plain text _ _ => text
  | bracketed inner _ => '[' :: (inner ++ [']'])

/-- The name after a dollar sign; there is none after one that stands alone. -/
def dollarName? : List Char → Option String
  | '$' :: c :: name => some (String.ofList (c :: name))
  | _ => none

def bracketName? : List Char → Option String
  | [] => none
  | '.' :: '.' :: '.' :: c :: name => some (String.ofList (c :: name))
  | name => some (String.ofList name)

/-- The name that a segment is written with. -/
def name? : Spelled → Option String
  | plain text _ _ => dollarName? text
  | bracketed inner _ => bracketName? inner

/-- A name after a dollar sign. -/
def dollar (name : List Char) (clear : ∀ c ∈ name, c ∉ ['.', '/', '\\', '[', ']']) : Spelled :=
  plain ('$' :: name) (by simp) (forall_mem_cons.2 ⟨by decide, clear⟩)

/-- The same name in brackets. -/
def square (name : List Char) (clear : ∀ c ∈ name, c ∉ ['.', '/', '\\', '[', ']']) : Spelled :=
  bracketed name (fun c member within => clear c member (mem_cons_of_mem _ within))

theorem sole_chars (segment : Spelled) : Sole segment.chars := by
  cases segment with
  | plain text _ clear =>
    have absent {c : Char} (mark : c ∈ ['.', '/', '\\', '[', ']']) : c ∉ text := fun member => clear c member mark
    exact ⟨absent (by decide), absent (by decide), dotsInside_of_no_dot (absent (by decide))⟩
  | bracketed inner clear =>
    have absent {c : Char} (mark : c ∈ ['/', '\\', '[', ']']) : c ∉ inner := fun member => clear c member mark
    have dots : dotsInside (inner ++ [']']) = true := dotsInside_closing (absent (by decide))
    refine ⟨?_, ?_, by simpa [chars, dotsInside] using dots⟩ <;> simp [chars, absent]

theorem outside_chars (segment : Spelled) : insideBrackets segment.chars = false := by
  cases segment with
  | plain text _ clear => exact outside_of_unclosed (fun closes => clear ']' closes (by decide))
  | bracketed => rfl

section

variable {name : List Char} (some : name ≠ []) (clear : ∀ c ∈ name, c ∉ ['.', '/', '\\', '[', ']']) (lowercase : Bool)
include some clear lowercase

theorem ofRaw_dollar :
    ofRaw lowercase (dollar name clear).chars = Option.some (.parameter (String.ofList name)) := by
  cases name with
  | nil => exact absurd rfl some
  | cons c name => rfl

theorem ofRaw_square :
    ofRaw lowercase (square name clear).chars = Option.some (.parameter (String.ofList name)) := by
  have short : ∀ c rest, name ≠ '.' :: '.' :: '.' :: c :: rest := by
    rintro c rest rfl
    exact clear '.' (by simp) (by decide)
  have unclosed : ']' ∉ name := fun member => clear ']' member (by decide)
  rw [square, chars, ofRaw_brackets some unclosed, ofBrackets_parameter short]

end

theorem parameter?_colon {name : List Char} (ends : name.getLast? ≠ some '*') (ending : List Char)
    (stars : ∀ c ∈ ending, c = '*') : parameter? (':' :: (name ++ ending)) = some (String.ofList name) := by
  have all : ∀ c ∈ ending.reverse, decide (c = '*') = true := by simpa using stars
  have dropped : Text.dropEnd (· = '*') (name ++ ending) = name := by
    rw [Text.dropEnd, reverse_append, dropWhile_append_of_pos all]
    exact dropEnd_eq ends
  simp [parameter?, dropped]

theorem parameter?_ofFixed (some : raw ≠ []) (low : raw.head? ≠ Option.some '_')
    (colon : raw.head? ≠ Option.some ':') (lowercase : Bool) :
    parameter? (ofFixed lowercase raw).text.toList = none := by
  have head := (head?_dropEnd some low).2
  have starts : (ofFixed lowercase raw).text.toList.head? ≠ Option.some ':' := by
    intro starts
    refine colon (head ▸ ?_)
    cases lowercase with
    | false => simpa [ofFixed, Segment.text] using starts
    | true => exact Text.colon_of_lowerChars (by simpa [ofFixed, Segment.text, Text.lower] using starts)
  unfold parameter?
  split
  · next same => exact absurd (by rw [same]; rfl) starts
  · rfl

theorem parameter?_ofBrackets {inner : List Char} (some : inner ≠ [])
    (ends : ∀ name ∈ bracketName? inner, name.toList.getLast? ≠ Option.some '*') :
    parameter? (ofBrackets inner).text.toList = bracketName? inner := by
  unfold bracketName? at ends ⊢
  split at ends
  · contradiction
  · next c name =>
      have own := parameter?_colon (ends _ rfl) ['*'] (by simp)
      simpa [ofBrackets, Segment.text] using own
  · next short =>
      have own := parameter?_colon (ends _ rfl) [] (by simp)
      rw [ofBrackets_parameter (fun c rest => short c rest)]
      simpa [Segment.text] using own

theorem parameter?_plain {text : List Char} (clear : ∀ c ∈ text, c ∉ ['.', '/', '\\', '[', ']'])
    (colon : text.head? ≠ some ':') (ends : ∀ name ∈ dollarName? text, name.toList.getLast? ≠ some '*')
    (lowercase : Bool) :
    (ofRaw lowercase text).bind (fun segment => parameter? segment.text.toList) = dollarName? text := by
  unfold dollarName? at ends ⊢
  split at ends
  · next c name =>
      have own := parameter?_colon (ends _ rfl) [] (by simp)
      simpa [ofRaw, Segment.text] using own
  · next short =>
      cases adds : ofRaw lowercase text with
      | none => rfl
      | some segment =>
        cases adds_of_ofRaw adds with
        -- a dollar sign alone is a splat, which binds nothing
        | splat => rfl
        | @dollar name some starts =>
          obtain ⟨c, rest, rfl⟩ := exists_cons_of_ne_nil some
          exact absurd starts (short c rest)
        | brackets found =>
          obtain ⟨-, -, _, rfl, -⟩ := eq_of_bracketed? found
          exact absurd (by decide) (clear '[' (by simp))
        | fixed some _ low => exact parameter?_ofFixed some low colon lowercase

theorem parameter?_chars (segment : Spelled) (colon : segment.chars.head? ≠ some ':')
    (ends : ∀ name ∈ segment.name?, name.toList.getLast? ≠ some '*') (lowercase : Bool) :
    (ofRaw lowercase segment.chars).bind (fun added => parameter? added.text.toList) = segment.name? := by
  cases segment with
  | plain text _ clear => exact parameter?_plain clear colon ends lowercase
  | bracketed inner clear =>
    by_cases some : inner = []
    · subst some
      have fixed : ofRaw lowercase (bracketed [] clear).chars = Option.some (.ofFixed lowercase ['[', ']']) := rfl
      rw [fixed]
      exact parameter?_ofFixed (by simp) (by simp) (by simp) lowercase
    · have unclosed : ']' ∉ inner := fun member => clear ']' member (by decide)
      rw [chars, ofRaw_brackets some unclosed]
      exact parameter?_ofBrackets some ends

end Spelled

def spelled : List (Joint × Spelled) → List Char
  | [] => []
  | (_, first) :: later => joined first.chars (later.map (Prod.map id Spelled.chars))

/-- The path of a page. -/
def spelledPath (steps : List (Joint × Spelled)) (extension : String) : String :=
  String.ofList (spelled steps) ++ extension

theorem no_backslash_joined {file : List Char} {later : List (Joint × List Char)} (own : '\\' ∉ file)
    (none : ∀ step ∈ later, '\\' ∉ step.2) : '\\' ∉ joined file later := by
  intro member
  rcases mem_append.1 member with inFile | inLater
  · exact own inFile
  · obtain ⟨⟨joint, next⟩, inSteps, inside⟩ := mem_flatMap.1 inLater
    rcases mem_cons.1 inside with same | inNext
    · cases joint <;> cases same
    · exact none _ inSteps inNext

theorem rawSegments_spelled (first : Joint × Spelled) (later : List (Joint × Spelled)) :
    rawSegments (spelled (first :: later)) = (first :: later).map (fun step => step.2.chars) := by
  have each (property : List Char → Prop) (holds : ∀ segment : Spelled, property segment.chars) :
      ∀ step ∈ later.map (Prod.map id Spelled.chars), property step.2 := forall_mem_map.2 (fun _ _ => holds _)
  rw [spelled, rawSegments_joined first.2.sole_chars (each _ Spelled.sole_chars)
    (each (insideBrackets · = false) Spelled.outside_chars)]
  simp

theorem no_backslash_spelled (steps : List (Joint × Spelled)) : '\\' ∉ spelled steps := by
  cases steps with
  | nil => simp [spelled]
  | cons first later =>
    apply no_backslash_joined first.2.sole_chars.backslash
    exact forall_mem_map.2 (fun step _ => step.2.sole_chars.backslash)

section

variable (lowercase : Bool) (steps : List (Joint × Spelled)) {extension : String} (listed : extension ∈ extensions)
include lowercase steps listed

theorem segments_spelledPath :
    segments lowercase (spelledPath steps extension) =
      (steps.map (fun step => step.2.chars)).filterMap (ofRaw lowercase) := by
  rw [spelledPath, segments_append (no_backslash_spelled steps) listed]
  cases steps with
  | nil => rfl
  | cons first later => rw [rawSegments_spelled]

/-- The route of a spelled path, in three parts. It is made of what the segments add, whatever joins them; a name is
the same after a dollar sign and in brackets; and the names of the segments are the parameters of the route, unless a
segment starts with a colon or a name ends with a star. -/
theorem ofPath_spelledPath :
    ofPath lowercase (spelledPath steps extension) =
        "/" ++ String.intercalate "/" ((steps.map (fun step => addition lowercase step.2.chars)).filter (· ≠ "")) ∧
    (∀ before joint name clear after, name ≠ [] →
      ofPath lowercase (spelledPath (before ++ (joint, .dollar name clear) :: after) extension) =
        ofPath lowercase (spelledPath (before ++ (joint, .square name clear) :: after) extension)) ∧
    ((∀ step ∈ steps, step.2.chars.head? ≠ some ':') →
      (∀ step ∈ steps, ∀ name ∈ step.2.name?, name.toList.getLast? ≠ some '*') →
      parameters (ofPath lowercase (spelledPath steps extension)) = steps.filterMap (fun step => step.2.name?)) := by
  refine ⟨?_, ?_, ?_⟩
  · rw [ofPath, ofSegments, segments_spelledPath lowercase steps listed, map_text_filterMap, map_map,
      Function.comp_def]
  · intro before joint name clear after some
    rw [ofPath, ofPath, segments_spelledPath lowercase _ listed, segments_spelledPath lowercase _ listed]
    simp [Spelled.ofRaw_dollar some clear, Spelled.ofRaw_square some clear]
  · intro colons stars
    rw [ofPath, segments_spelledPath lowercase steps listed, parameters_ofSegments]
    · rw [filterMap_filterMap, filterMap_map]
      apply filterMap_congr
      intro step member
      exact step.2.parameter?_chars (colons step member) (stars step member) lowercase
    · intro segment member
      obtain ⟨raw, inRaws, adds⟩ := mem_filterMap.1 member
      obtain ⟨step, _, rfl⟩ := mem_map.1 inRaws
      exact no_slash_text step.2.sole_chars adds

end

/-- The steps of the path `Users.$id/[...rest]`. -/
def userSteps : List (Joint × Spelled) :=
  [(.slash, .plain "Users".toList (by decide) (by simp)), (.dot, .dollar "id".toList (by simp)),
    (.slash, .bracketed "...rest".toList (by simp))]

theorem ofPath_userSteps :
    ".tsx" ∈ extensions ∧ (∀ step ∈ userSteps, step.2.chars.head? ≠ some ':') ∧
      (∀ step ∈ userSteps, ∀ name ∈ step.2.name?, name.toList.getLast? ≠ some '*') ∧
      ofPath true (spelledPath userSteps ".tsx") = "/users/:id/:rest*" ∧
      ofPath true (spelledPath ([] ++ (.dot, .dollar "id".toList (by simp)) :: []) ".tsx") =
        ofPath true (spelledPath ([] ++ (.dot, .square "id".toList (by simp)) :: []) ".tsx") ∧
      parameters (ofPath true (spelledPath userSteps ".tsx")) = ["id", "rest"] := by
  have listed : ".tsx" ∈ extensions := by decide
  have colons : ∀ step ∈ userSteps, step.2.chars.head? ≠ some ':' := by decide
  have stars : ∀ step ∈ userSteps, ∀ name ∈ step.2.name?, name.toList.getLast? ≠ some '*' := by decide
  obtain ⟨route, same, names⟩ := ofPath_spelledPath true userSteps listed
  refine ⟨listed, colons, stars, route.trans (by decide +kernel), same [] .dot _ _ [] (by decide), ?_⟩
  exact (names colons stars).trans (by decide)

/-- Brackets without a name are a fixed part and bind nothing, and a dollar sign without a name is a splat. -/
theorem nameless_segments :
    ofPath false "[].tsx" = "/[]" ∧ parameters (ofPath false "[].tsx") = [] ∧ ofPath false "$.tsx" = "/*" ∧
      parameters (ofPath false "[...].tsx") = ["..."] := by
  decide +kernel

variable {c : Char} {raws : List (List Char)}

/-- The letters, digits and joints of plain paths. -/
def isPlain (c : Char) : Bool := c.isAlphanum || c ∈ ['-', '_', '.', '/']

theorem ascii_of_isPlain (plain : isPlain c = true) : c.toNat < 128 := by
  rw [isPlain, Bool.or_eq_true] at plain
  rcases plain with letter | mark
  · exact ascii_of_isAlphanum letter
  · have small : ['-', '_', '.', '/'].all (·.toNat < 128) = true := by decide
    exact of_decide_eq_true (all_eq_true.1 small c (of_decide_eq_true mark))

theorem isPlain_toLower (plain : isPlain c = true) :
    isPlain c.toLower = true ∧ c.toLower.toLower = c.toLower ∧ c ∉ ['$', '[', ']', '\\', '('] := by
  have ascii := ascii_of_isPlain plain
  revert plain
  exact Text.forall_ascii c ascii (by decide +kernel)

variable {text : List Char}

section

variable (plain : ∀ c ∈ text, isPlain c = true)
include plain

theorem plain_absent (mark : c ∈ ['$', '[', ']', '\\', '(']) :
    c ∉ text := fun member => (isPlain_toLower (plain c member)).2.2 mark

theorem plain_lower : ∀ c ∈ text.map Char.toLower, isPlain c = true :=
  forall_mem_map.2 (fun c member => (isPlain_toLower (plain c member)).1)

theorem lower_plain :
    lower (String.ofList text) = String.ofList (text.map Char.toLower) := by
  rw [lower, String.toList_ofList, Text.lowerChars_ascii (fun c member => ascii_of_isPlain (plain c member))]

theorem rawSegments_lower :
    rawSegments (text.map Char.toLower) = (rawSegments text).map (List.map Char.toLower) := by
  induction text with
  | nil => rfl
  | cons c rest ih =>
    obtain ⟨own, others⟩ := forall_mem_cons.1 plain
    have outside {text : List Char} (plain : ∀ c ∈ text, isPlain c = true) : insideBrackets text = false :=
      outside_of_unclosed (plain_absent plain (by decide))
    have dot : c.toLower = '.' ↔ c = '.' := Text.toLower_eq_mark (by decide)
    have slash : c.toLower = '/' ↔ c = '/' := Text.toLower_eq_mark (by decide)
    rw [map_cons]
    simp only [rawSegments, outside others, outside (plain_lower others), dot, slash, ih others]
    split
    · rfl
    · cases rawSegments rest <;> rfl

end

/-- A raw segment that differs from the index in the case of its letters only. -/
def isIndexVariant (raw : List Char) : Bool := raw.map Char.toLower = "index".toList && raw ≠ "index".toList

theorem isIndexVariant_iff :
    isIndexVariant raw = true ↔ raw.map Char.toLower = "index".toList ∧ raw ≠ "index".toList := by
  simp only [isIndexVariant, Bool.and_eq_true, decide_eq_true_eq]

section

variable (plain : ∀ c ∈ raw, isPlain c = true)
include plain

theorem ofRaw_plain :
    Segment.ofRaw true raw =
      if raw = [] ∨ raw.head? = some '_' ∨ raw = "index".toList then none
      else some (.fixed (String.ofList ((Text.dropEnd (· = '_') raw).map Char.toLower))) := by
  split
  · next nothing =>
      rcases nothing with rfl | low | rfl
      · rfl
      · obtain ⟨rest, rfl⟩ := List.head?_eq_some_iff.1 low
        rfl
      · rfl
  · next something =>
      simp only [not_or] at something
      obtain ⟨some, low, index⟩ := something
      have absent {c : Char} (mark : c ∈ ['$', '[', ']', '\\', '(']) : raw.head? ≠ Option.some c :=
        fun starts => plain_absent plain mark (mem_of_mem_head? starts)
      have unbracketed : bracketed? raw = none := by
        cases found : bracketed? raw with
        | none => rfl
        | some inner =>
          obtain ⟨-, -, _, rfl, -⟩ := eq_of_bracketed? found
          exact absurd rfl (absent (c := '[') (by decide))
      have single : isGroup raw = false := by simp [isGroup, absent]
      have kept : ∀ c ∈ Text.dropEnd (· = '_') raw, isPlain c = true := by
        obtain ⟨ending, whole, -⟩ := exists_dropEnd_append (· = '_') raw
        intro c member
        exact plain c (whole ▸ mem_append_left _ member)
      rw [ofRaw_fixed some (absent (by decide)) low index unbracketed single, Segment.ofFixed, if_pos rfl, lower_plain kept]

theorem ofRaw_lower :
    Segment.ofRaw true (raw.map Char.toLower) = if isIndexVariant raw then none else Segment.ofRaw true raw := by
  by_cases index : raw.map Char.toLower = "index".toList
  · have nothing : Segment.ofRaw true (raw.map Char.toLower) = none := by
      rw [index]
      rfl
    by_cases own : raw = "index".toList
    · rw [own]
      rfl
    · rw [nothing, if_pos (isIndexVariant_iff.2 ⟨index, own⟩)]
  · have own : raw ≠ "index".toList := by
      rintro rfl
      exact index (by decide)
    have head : (raw.map Char.toLower).head? = some '_' ↔ raw.head? = some '_' := by
      cases raw with
      | nil => rfl
      | cons c rest => simpa using Text.toLower_eq_mark (by decide)
    have lowLine (c : Char) : decide (c.toLower = '_') = decide (c = '_') := by
      simp only [Text.toLower_eq_mark (c := c) (show '_' ∈ Text.marks by decide)]
    have again : (Text.dropEnd (· = '_') (raw.map Char.toLower)).map Char.toLower =
        (Text.dropEnd (· = '_') raw).map Char.toLower := by
      rw [Text.dropEnd_map lowLine, map_map]
      apply map_congr_left
      intro c member
      obtain ⟨ending, whole, -⟩ := exists_dropEnd_append (· = '_') raw
      exact (isPlain_toLower (plain c (whole ▸ mem_append_left _ member))).2.1
    have variant : ¬ isIndexVariant raw = true := fun variant => index (isIndexVariant_iff.1 variant).1
    rw [if_neg variant, ofRaw_plain plain, ofRaw_plain (plain_lower plain), again]
    simp only [map_eq_nil_iff, head, index, own]

theorem exists_ofRaw_variant (variant : isIndexVariant raw = true) :
    ∃ segment, Segment.ofRaw true raw = some segment := by
  obtain ⟨index, own⟩ := isIndexVariant_iff.1 variant
  have starts : raw ≠ [] ∧ raw.head? ≠ some '_' := by
    constructor
    · rintro rfl
      cases index
    · intro low
      obtain ⟨rest, rfl⟩ := List.head?_eq_some_iff.1 low
      exact absurd (List.cons.inj index).1 (by decide)
  rw [ofRaw_plain plain, if_neg (not_or.2 ⟨starts.1, not_or.2 ⟨starts.2, own⟩⟩)]
  exact ⟨_, rfl⟩

end

theorem length_segments_lower (plain : ∀ raw ∈ raws, ∀ c ∈ raw, isPlain c = true) :
    ((raws.map (List.map Char.toLower)).filterMap (Segment.ofRaw true)).length + raws.countP isIndexVariant =
      (raws.filterMap (Segment.ofRaw true)).length := by
  induction raws with
  | nil => rfl
  | cons raw raws ih =>
    obtain ⟨own, others⟩ := forall_mem_cons.1 plain
    have rest := ih others
    rw [map_cons, filterMap_cons, filterMap_cons, countP_cons, ofRaw_lower own]
    by_cases variant : isIndexVariant raw = true
    · obtain ⟨segment, adds⟩ := exists_ofRaw_variant own variant
      simp only [variant, if_true, adds, length_cons]
      omega
    · simp only [variant]
      cases Segment.ofRaw true raw with
      | none => exact rest
      | some segment =>
        simp only [length_cons, Bool.false_eq_true, if_false]
        omega

theorem filterMap_lower (plain : ∀ raw ∈ raws, ∀ c ∈ raw, isPlain c = true)
    (none : ∀ raw ∈ raws, isIndexVariant raw = false) :
    (raws.map (List.map Char.toLower)).filterMap (Segment.ofRaw true) = raws.filterMap (Segment.ofRaw true) := by
  rw [filterMap_map]
  apply filterMap_congr
  intro raw member
  simp [ofRaw_lower (plain raw member), none raw member]

theorem slashesOutside_of_unclosed (unclosed : ']' ∉ text) : slashesOutside text = true := by
  induction text with
  | nil => rfl
  | cons c rest ih =>
    rw [mem_cons, not_or] at unclosed
    have outside : insideBrackets rest = false :=
      outside_of_unclosed unclosed.2
    simp [slashesOutside, outside, ih unclosed.2]

theorem length_eq_of_ofSegments {others : List (List Char)} (sole : ∀ raw ∈ raws, Sole raw)
    (otherSole : ∀ raw ∈ others, Sole raw) {lowercase : Bool}
    (same : ofSegments (raws.filterMap (Segment.ofRaw lowercase)) =
      ofSegments (others.filterMap (Segment.ofRaw lowercase))) :
    (raws.filterMap (Segment.ofRaw lowercase)).length = (others.filterMap (Segment.ofRaw lowercase)).length := by
  have parts {raws : List (List Char)} (sole : ∀ raw ∈ raws, Sole raw) :
      (splitChars (· = '/') (ofSegments (raws.filterMap (Segment.ofRaw lowercase))).toList).filter (· ≠ []) =
        (raws.filterMap (Segment.ofRaw lowercase)).map (fun segment => segment.text.toList) := by
    have each : ∀ segment ∈ raws.filterMap (Segment.ofRaw lowercase),
        '/' ∉ segment.text.toList ∧ segment.text ≠ "" := by
      intro segment member
      obtain ⟨raw, inRaws, adds⟩ := mem_filterMap.1 member
      exact ⟨no_slash_text (sole raw inRaws) adds, text_ne_empty adds⟩
    rw [parts_ofSegments (fun segment member => (each segment member).1), filter_eq_self, forall_mem_map]
    intro segment member
    simpa using (each segment member).2
  have texts := parts sole
  rw [same, parts otherSole] at texts
  simpa using (congrArg List.length texts).symm

/-- A plain path has the same small route as the path in small letters exactly if no segment of it is a variant of the
index. -/
theorem ofPath_lower_iff {stem : List Char} (plain : ∀ c ∈ stem, isPlain c = true) {extension : String}
    (listed : extension ∈ extensions) :
    ofPath true (lower (String.ofList stem ++ extension)) = ofPath true (String.ofList stem ++ extension) ↔
      ∀ raw ∈ rawSegments stem, raw.map Char.toLower = "index".toList → raw = "index".toList := by
  have small : ∀ extension ∈ extensions, extension.toList.all isPlain = true ∧
      extension.toList.map Char.toLower = extension.toList := by decide
  obtain ⟨allEnd, sameEnd⟩ := small extension listed
  have plainEnd := all_eq_true.1 allEnd
  have lowered : lower (String.ofList stem ++ extension) = String.ofList (stem.map Char.toLower) ++ extension := by
    have whole : String.ofList stem ++ extension = String.ofList (stem ++ extension.toList) := by simp
    have plainWhole : ∀ c ∈ stem ++ extension.toList, isPlain c = true := by
      intro c member
      exact (mem_append.1 member).elim (plain c) (plainEnd c)
    rw [whole, lower_plain plainWhole, map_append, sameEnd, String.ofList_append, String.ofList_toList]
  have pieces : ∀ raw ∈ rawSegments stem, ∀ c ∈ raw, isPlain c = true := fun raw member c inRaw =>
    plain c ((infix_of_mem_rawSegments member).subset inRaw)
  have sole {text : List Char} (plain : ∀ c ∈ text, isPlain c = true) : ∀ raw ∈ rawSegments text, Sole raw :=
    sole_of_raw (slashesOutside_of_unclosed (plain_absent plain (by decide))) (plain_absent plain (by decide))
  have variants : (∀ raw ∈ rawSegments stem, raw.map Char.toLower = "index".toList → raw = "index".toList) ↔
      ∀ raw ∈ rawSegments stem, isIndexVariant raw = false := by
    simp only [← Bool.not_eq_true, isIndexVariant_iff, not_and, not_not]
  rw [lowered, ofPath, ofPath, segments_append (plain_absent (plain_lower plain) (by decide)) listed,
    segments_append (plain_absent plain (by decide)) listed, rawSegments_lower plain, variants]
  constructor
  · intro same raw member
    have soleLow := sole (plain_lower plain)
    rw [rawSegments_lower plain] at soleLow
    have sizes := length_eq_of_ofSegments soleLow (sole plain) same
    -- equal routes have equally many segments, and each variant would add one
    have count := length_segments_lower pieces
    have none : (rawSegments stem).countP isIndexVariant = 0 := by omega
    simpa using countP_eq_zero.1 none raw member
  · intro none
    rw [filterMap_lower pieces none]

theorem ofPath_lower_userList : (∀ c ∈ "Users/index.List_".toList, isPlain c = true) ∧ ".tsx" ∈ extensions ∧
    ofPath true (lower "Users/index.List_.tsx") = ofPath true "Users/index.List_.tsx" := by
  have plain : ∀ c ∈ "Users/index.List_".toList, isPlain c = true := all_eq_true.1 (by decide)
  have listed : ".tsx" ∈ extensions := by decide
  refine ⟨plain, listed, ?_⟩
  exact (ofPath_lower_iff plain listed).2 (by decide +kernel)

/-- A capital letter keeps the index in a route. -/
theorem ofPath_Index : ofPath true "Index.tsx" = "/index" ∧ ofPath true (lower "Index.tsx") = "/" := by
  decide +kernel

end Route
end Refit
