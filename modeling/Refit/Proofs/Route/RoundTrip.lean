import Refit.Proofs.Route.Upright

/-!
Routes and the files of their pages. The platform that finds its pages by their files takes the route of a
page from the name of its file; for steady routes this is the route that the file was named for.
-/

open List

namespace Refit

open Path Text

variable {files : List String}

namespace Route

open Segment Output

variable {chars raw file inner name text : List Char} {lowercase : Bool} {path extension : String} {texts : List String}

def dotsInside : List Char → Bool
  | [] => true
  | c :: rest => (c ≠ '.' || insideBrackets rest) && dotsInside rest

/-- No slash stands in brackets. -/
def slashesOutside : List Char → Bool
  | [] => true
  | c :: rest => (c ≠ '/' || !insideBrackets rest) && slashesOutside rest

variable {first second : List Char}

theorem insideBrackets_cons (c : Char) (rest : List Char) :
    insideBrackets (c :: rest) = (c = ']' || c ≠ '[' && insideBrackets rest) := by
  by_cases closes : c = ']'
  · subst closes
    rfl
  · by_cases opens : c = '['
    · subst opens
      rfl
    · simp [insideBrackets, closes, opens]

theorem insideBrackets_append (first second : List Char) :
    insideBrackets (first ++ second) = (insideBrackets first || '[' ∉ first && insideBrackets second) := by
  induction first with
  | nil => simp [insideBrackets]
  | cons c rest ih =>
    by_cases opens : c = '['
    · subst opens
      rfl
    · simp [insideBrackets_cons, ih, opens, Ne.symm opens, Bool.or_assoc]

theorem outside_of_unclosed (unclosed : ']' ∉ first) : insideBrackets first = false := by
  induction first with
  | nil => rfl
  | cons c rest ih =>
    rw [mem_cons, not_or] at unclosed
    simp [insideBrackets_cons, Ne.symm unclosed.1, ih unclosed.2]

theorem insideBrackets_left (unclosed : ']' ∉ second) : insideBrackets (first ++ second) = insideBrackets first := by
  simp [insideBrackets_append, outside_of_unclosed unclosed]

theorem inside_closing (unopened : '[' ∉ first) : insideBrackets (first ++ ']' :: second) = true := by
  simp [insideBrackets_append, unopened, insideBrackets]

theorem dotsInside_left (unclosed : ']' ∉ second) (dots : dotsInside (first ++ second) = true) :
    dotsInside first = true := by
  induction first with
  | nil => rfl
  | cons c rest ih =>
    simp only [cons_append, dotsInside, Bool.and_eq_true, insideBrackets_left unclosed] at dots ⊢
    exact ⟨dots.1, ih dots.2⟩

theorem no_dot (unclosed : ']' ∉ first) (dots : dotsInside first = true) : '.' ∉ first := by
  induction first with
  | nil => simp
  | cons c rest ih =>
    rw [mem_cons, not_or] at unclosed
    simp only [dotsInside, Bool.and_eq_true, Bool.or_eq_true, decide_eq_true_eq] at dots
    rw [mem_cons, not_or]
    refine ⟨?_, ih unclosed.2 dots.2⟩
    rcases dots.1 with plain | inside
    · exact Ne.symm plain
    · exact absurd (inside.symm.trans (outside_of_unclosed unclosed.2)) (by decide)

theorem dotsInside_of_no_dot (plain : '.' ∉ first) : dotsInside first = true := by
  induction first with
  | nil => rfl
  | cons c rest ih =>
    rw [mem_cons, not_or] at plain
    simp [dotsInside, Ne.symm plain.1, ih plain.2]

theorem insideBrackets_filter (text : List Char) :
    insideBrackets (text.filter (· ∈ marks)) = insideBrackets text := by
  induction text with
  | nil => rfl
  | cons c rest ih =>
    by_cases mark : c ∈ marks
    · rw [filter_cons_of_pos (by simpa using mark), insideBrackets_cons, insideBrackets_cons, ih]
    · have other : c ≠ ']' ∧ c ≠ '[' := by constructor <;> rintro rfl <;> exact mark (by decide)
      rw [filter_cons_of_neg (by simpa using mark), ih, insideBrackets_cons]
      simp [other]

theorem dotsInside_filter (text : List Char) : dotsInside (text.filter (· ∈ marks)) = dotsInside text := by
  induction text with
  | nil => rfl
  | cons c rest ih =>
    by_cases mark : c ∈ marks
    · rw [filter_cons_of_pos (by simpa using mark), dotsInside, dotsInside, insideBrackets_filter, ih]
    · have other : c ≠ '.' := by
        rintro rfl
        exact mark (by decide)
      rw [filter_cons_of_neg (by simpa using mark), ih, dotsInside]
      simp [other]

/-- A text that is a single raw segment. -/
structure Sole (raw : List Char) : Prop where
  slash : '/' ∉ raw
  backslash : '\\' ∉ raw
  dots : dotsInside raw = true

theorem rawSegments_brackets {later : List (List Char)} (raws : rawSegments chars = first :: later) :
    insideBrackets first = insideBrackets chars ∧ dotsInside first = true ∧
      ∀ raw ∈ later, insideBrackets raw = false ∧ dotsInside raw = true := by
  induction chars generalizing first later with
  | nil =>
    cases raws
    exact ⟨rfl, rfl, by simp⟩
  | cons c rest ih =>
    rcases rawSegments_cons c rest with ⟨separates, outside, cut⟩ | ⟨stays, segment, others, inner, kept⟩
    · cases cut.symm.trans raws
      refine ⟨?_, rfl, fun raw member => ?_⟩
      · rcases separates with rfl | rfl <;> exact outside.symm
      · cases inner : rawSegments rest with
        | nil => simp [inner] at member
        | cons segment others =>
          obtain ⟨same, dots, after⟩ := ih inner
          rw [inner] at member
          rcases mem_cons.1 member with rfl | member
          · exact ⟨same.trans outside, dots⟩
          · exact after raw member
    · cases kept.symm.trans raws
      obtain ⟨same, dots, after⟩ := ih inner
      refine ⟨by rw [insideBrackets_cons, insideBrackets_cons, same], ?_, after⟩
      simp only [dotsInside, Bool.and_eq_true, Bool.or_eq_true, decide_eq_true_eq, same]
      exact ⟨stays.imp_left And.left, dots⟩

theorem no_slash_of_raw (outside : slashesOutside chars = true) (member : raw ∈ rawSegments chars) :
    '/' ∉ raw := by
  induction chars generalizing raw with
  | nil => simp_all [rawSegments]
  | cons c rest ih =>
    simp only [slashesOutside, Bool.and_eq_true, Bool.or_eq_true, decide_eq_true_eq, Bool.not_eq_true'] at outside
    rcases rawSegments_cons c rest with ⟨_, _, cut⟩ | ⟨stays, segment, others, inner, kept⟩
    · rw [cut] at member
      rcases mem_cons.1 member with rfl | member
      · simp
      · exact ih outside.2 member
    · rw [kept] at member
      rcases mem_cons.1 member with rfl | member
      · have different : c ≠ '/' := by
          rintro rfl
          rcases stays with plain | inside
          · exact plain.2 rfl
          · rcases outside.1 with plain | out
            · exact plain rfl
            · exact absurd (inside.symm.trans out) (by decide)
        rw [mem_cons, not_or]
        exact ⟨Ne.symm different, ih outside.2 (by simp [inner])⟩
      · exact ih outside.2 (by simp [inner, member])

theorem Sole.rawSegments_append {rest segment : List Char} {others : List (List Char)} (sole : Sole file)
    (raws : rawSegments rest = segment :: others) :
    rawSegments (file ++ rest) = (file ++ segment) :: others := by
  have slash := sole.slash
  have dots := sole.dots
  clear sole
  induction file with
  | nil => exact raws
  | cons c tail ih =>
    rw [mem_cons, not_or] at slash
    simp only [dotsInside, Bool.and_eq_true, Bool.or_eq_true] at dots
    have more := ih slash.2 dots.2
    rcases rawSegments_cons c (tail ++ rest) with ⟨separates, outside, _⟩ | ⟨_, _, _, inner, kept⟩
    · rcases separates with rfl | rfl
      · have inside := dots.1.resolve_left (by simp)
        simp [insideBrackets_append, inside] at outside
      · exact absurd rfl slash.1
    · cases inner.symm.trans more
      exact kept

/-- What stands between two raw segments of a path: a dot within a file name, a slash between directories. -/
inductive Joint where
  | dot
  | slash
  deriving DecidableEq

def Joint.char : Joint → Char
  | dot => '.'
  | slash => '/'

def joined (file : List Char) (later : List (Joint × List Char)) : List Char :=
  file ++ later.flatMap (fun (joint, next) => joint.char :: next)

theorem joined_cons (file next : List Char) (joint : Joint) (later : List (Joint × List Char)) :
    joined file ((joint, next) :: later) = file ++ joint.char :: joined next later := by
  simp [joined]

variable {later : List (Joint × List Char)}

theorem outside_joined (own : insideBrackets file = false)
    (outside : ∀ step ∈ later, insideBrackets step.2 = false) : insideBrackets (joined file later) = false := by
  induction later generalizing file with
  | nil => simpa [joined] using own
  | cons step later ih =>
    obtain ⟨joint, next⟩ := step
    obtain ⟨first, rest⟩ := forall_mem_cons.1 outside
    rw [joined_cons, insideBrackets_append, own]
    cases joint <;> simp [insideBrackets, Joint.char, ih first rest]

theorem rawSegments_joined (own : Sole file) (sole : ∀ step ∈ later, Sole step.2)
    (outside : ∀ step ∈ later, insideBrackets step.2 = false) :
    rawSegments (joined file later) = file :: later.map Prod.snd := by
  induction later generalizing file with
  | nil => simpa [joined] using own.rawSegments_append (show rawSegments [] = [] :: [] from rfl)
  | cons step later ih =>
    obtain ⟨joint, next⟩ := step
    obtain ⟨soleNext, soleLater⟩ := forall_mem_cons.1 sole
    obtain ⟨outsideNext, outsideLater⟩ := forall_mem_cons.1 outside
    have rest := ih soleNext soleLater outsideLater
    have after := outside_joined outsideNext outsideLater
    have cut : rawSegments (joint.char :: joined next later) = [] :: next :: later.map Prod.snd := by
      cases joint <;> simp [rawSegments, Joint.char, after, rest]
    rw [joined_cons, own.rawSegments_append cut, append_nil, map_cons]

theorem intercalate_eq_joined (file : List Char) (later : List (List Char)) :
    ['/'].intercalate (file :: later) = joined file (later.map (Joint.slash, ·)) := by
  induction later generalizing file with
  | nil => simp [joined]
  | cons next later ih => rw [intercalate_cons_cons, ih, map_cons, joined_cons, Joint.char]

theorem rawSegments_intercalate {files : List (List Char)} (some : files ≠ []) (sole : ∀ file ∈ files, Sole file)
    (outside : ∀ file ∈ files.tail, insideBrackets file = false) :
    rawSegments (['/'].intercalate files) = files := by
  cases files with
  | nil => exact absurd rfl some
  | cons file later =>
    rw [intercalate_eq_joined, rawSegments_joined (sole file (by simp))]
    · simp
    · exact forall_mem_map.2 (fun next member => sole next (by simp [member]))
    · exact forall_mem_map.2 outside

/-- Whether the text of a segment names a file from which it can be read back. A parameter needs a name that
    its brackets can hold; a fixed text must not be what adds nothing to a route or a parameter. -/
def isSteady : List Char → Bool
  | ':' :: name =>
    !name.isEmpty && name ≠ ['*'] && !name.contains ']' && (name.getLast? ≠ some '*' || !name.contains '[')
  | text => text ≠ ['*'] && text ≠ "index".toList && !isGroup text && (bracketed? text).isNone

/-- The file name of a segment is one raw segment, and the segment is read back from it. -/
structure Returns (text : String) : Prop where
  slash : '/' ∉ text.toList
  nonempty : text ≠ ""
  sole : Sole (routeFile text).toList
  filled : routeFile text ≠ ""
  again : ∃ segment, ofRaw false (routeFile text).toList = some segment ∧ segment.text = text

theorem bracketed?_eq (some : inner ≠ []) (unclosed : ']' ∉ inner) :
    bracketed? ('[' :: (inner ++ [']'])) = Option.some inner := by
  have before : ∀ c ∈ inner, decide (c ≠ ']') = true := by
    intro c member
    exact decide_eq_true (fun same => unclosed (same ▸ member))
  have taken : (inner ++ [']']).takeWhile (fun c => decide (c ≠ ']')) = inner := by
    rw [takeWhile_append_of_pos before]
    simp
  have dropped : (inner ++ [']']).dropWhile (fun c => decide (c ≠ ']')) = [']'] := by
    rw [dropWhile_append_of_pos before]
    simp
  simp only [bracketed?, taken, dropped]
  simp [some]

theorem ofRaw_brackets (some : inner ≠ []) (unclosed : ']' ∉ inner) (lowercase : Bool) :
    ofRaw lowercase ('[' :: (inner ++ [']'])) = Option.some (ofBrackets inner) := by
  simp [ofRaw, bracketed?_eq some unclosed]

theorem ofBrackets_parameter (short : ∀ c rest, name ≠ '.' :: '.' :: '.' :: c :: rest) :
    ofBrackets name = .parameter (String.ofList name) := by
  unfold ofBrackets
  split
  · exact absurd rfl (short _ _)
  · rfl

theorem dotsInside_closing (unopened : '[' ∉ first) : dotsInside (first ++ [']']) = true := by
  induction first with
  | nil => rfl
  | cons c rest ih =>
    rw [mem_cons, not_or] at unopened
    simp [dotsInside, inside_closing unopened.2, ih unopened.2]

theorem returns_brackets {text : String} (file : (routeFile text).toList = '[' :: (inner ++ [']']))
    (some : inner ≠ []) (unclosed : ']' ∉ inner) (slash : '/' ∉ inner) (backslash : '\\' ∉ inner)
    (dots : dotsInside (inner ++ [']']) = true) (plain : '/' ∉ text.toList) (nonempty : text ≠ "")
    (same : (ofBrackets inner).text = text) :
    Returns text ∧ insideBrackets (routeFile text).toList = false := by
  have sole : Sole ('[' :: (inner ++ [']'])) := ⟨by simp [slash], by simp [backslash], by simpa [dotsInside] using dots⟩
  have filled : routeFile text ≠ "" := by
    intro empty
    simp [empty] at file
  refine ⟨⟨plain, nonempty, file ▸ sole, filled, ?_⟩, by rw [file]; rfl⟩
  exact ⟨ofBrackets inner, by rw [file, ofRaw_brackets some unclosed], same⟩

section

variable (steady : isSteady (':' :: name) = true)
include steady

theorem returns_parameter (slash : '/' ∉ name)
    (backslash : '\\' ∉ name) (single : name.getLast? ≠ some '*' → dotsInside (name ++ [']']) = true ∧
      ∀ c rest, name ≠ '.' :: '.' :: '.' :: c :: rest) :
    Returns (String.ofList (':' :: name)) ∧
      insideBrackets (routeFile (String.ofList (':' :: name))).toList = false := by
  simp only [isSteady, Bool.and_eq_true, Bool.or_eq_true, Bool.not_eq_true', decide_eq_true_eq, isEmpty_eq_false_iff,
    contains_eq_mem, decide_eq_false_iff_not] at steady
  obtain ⟨⟨⟨some, more⟩, unclosed⟩, starred⟩ := steady
  have plain : '/' ∉ (String.ofList (':' :: name)).toList := by simpa using slash
  have nonempty : String.ofList (':' :: name) ≠ "" := by simp
  by_cases star : name.getLast? = Option.some '*'
  · obtain ⟨front, rfl⟩ := List.getLast?_eq_some_iff.1 star
    have unopened := starred.resolve_left (by simp)
    simp only [mem_append, not_or] at unclosed slash backslash unopened
    have file : (routeFile (String.ofList (':' :: (front ++ ['*'])))).toList =
        '[' :: (('.' :: '.' :: '.' :: front) ++ [']']) := by
      simp [routeFile]
    cases front with
    | nil => simp at more
    | cons c rest =>
      refine returns_brackets file (by simp) (by simpa using unclosed.1) (by simpa using slash.1)
        (by simpa using backslash.1) (dotsInside_closing (by simpa using unopened.1)) plain nonempty ?_
      apply String.toList_inj.1
      simp [ofBrackets, Segment.text]
  · obtain ⟨dots, short⟩ := single star
    have file : (routeFile (String.ofList (':' :: name))).toList = '[' :: (name ++ [']']) := by
      simp [routeFile, star]
    refine returns_brackets file some unclosed slash backslash dots plain nonempty ?_
    rw [ofBrackets_parameter short]
    simp [Segment.text]

theorem isSteady_unclosed : ']' ∉ name := by
  simp only [isSteady, Bool.and_eq_true, Bool.not_eq_true', contains_eq_mem, decide_eq_false_iff_not] at steady
  exact steady.1.2

theorem returns_undotted (slash : '/' ∉ name) (backslash : '\\' ∉ name)
    (dots : dotsInside name = true) :
    Returns (String.ofList (':' :: name)) ∧
      insideBrackets (routeFile (String.ofList (':' :: name))).toList = false := by
  have undotted := no_dot (isSteady_unclosed steady) dots
  refine returns_parameter steady slash backslash (fun _ => ⟨dotsInside_of_no_dot (by simpa using undotted), ?_⟩)
  rintro c rest rfl
  simp at undotted

end

theorem ofRaw_fixed (some : text ≠ []) (dollar : text.head? ≠ Option.some '$')
    (low : text.head? ≠ Option.some '_') (index : text ≠ "index".toList) (unbracketed : bracketed? text = none)
    (single : isGroup text = false) (lowercase : Bool) :
    ofRaw lowercase text = Option.some (ofFixed lowercase text) := by
  cases text with
  | nil => exact absurd rfl some
  | cons c rest =>
    unfold ofRaw
    split
    · contradiction
    · simp_all
    · simp_all
    · simp_all
    · rw [if_neg index, unbracketed]
      simp [single]

theorem dropEnd_eq {mark : Char} (ends : text.getLast? ≠ some mark) : dropEnd (· = mark) text = text := by
  rcases eq_nil_or_concat text with rfl | ⟨front, c, rfl⟩
  · rfl
  · have different : c ≠ mark := by simpa using ends
    simp [dropEnd, different]

theorem getLast?_dropEnd (text : List Char) : (dropEnd (· = '_') text).getLast? ≠ some '_' := by
  intro ends
  rw [dropEnd, List.getLast?_reverse] at ends
  have stops := List.head?_dropWhile_not (· = '_') text.reverse
  rw [ends] at stops
  simp at stops

theorem head?_dropEnd (some : text ≠ []) (low : text.head? ≠ Option.some '_') :
    dropEnd (· = '_') text ≠ [] ∧ (dropEnd (· = '_') text).head? = text.head? := by
  obtain ⟨ending, whole, dropped⟩ := exists_dropEnd_append (· = '_') text
  cases kept : dropEnd (· = '_') text with
  | cons c rest =>
    rw [kept] at whole
    exact ⟨by simp, by simp [← whole]⟩
  | nil =>
    rw [kept] at whole
    subst whole
    cases ending with
    | nil => exact absurd rfl some
    | cons c rest => exact absurd (by simpa using dropped c (by simp)) low

theorem ofFixed_lowers (lowercase : Bool) (raw : List Char) :
    Text.Lowers (dropEnd (· = '_') raw) (ofFixed lowercase raw).text.toList := by
  cases lowercase with
  | false => simpa [ofFixed, Segment.text] using Text.Lowers.refl _
  | true => simpa [ofFixed, Segment.text, lower] using lowers_lowerChars [] _

theorem sole_ofFixed (sole : Sole raw) (lowercase : Bool) :
    Sole (ofFixed lowercase raw).text.toList ∧
      insideBrackets (ofFixed lowercase raw).text.toList = insideBrackets raw := by
  obtain ⟨ending, whole, dropped⟩ := exists_dropEnd_append (· = '_') raw
  have lowers := ofFixed_lowers lowercase raw
  generalize dropEnd (· = '_') raw = kept at whole lowers
  generalize (ofFixed lowercase raw).text.toList = text at lowers
  have unclosed : ']' ∉ ending := fun member => absurd (dropped _ member) (by decide)
  have same := lowers.filter
  have comes {c : Char} (mark : c ∈ marks) (member : c ∈ text) : c ∈ raw := by
    have inText : c ∈ text.filter (· ∈ marks) := mem_filter.2 ⟨member, by simpa using mark⟩
    rw [same] at inText
    rw [← whole]
    exact mem_append_left _ (mem_filter.1 inText).1
  refine ⟨⟨fun member => sole.slash (comes (by decide) member),
    fun member => sole.backslash (comes (by decide) member), ?_⟩, ?_⟩
  · rw [← dotsInside_filter, same, dotsInside_filter]
    exact dotsInside_left unclosed (whole.symm ▸ sole.dots)
  · rw [← insideBrackets_filter, same, insideBrackets_filter, ← whole, insideBrackets_left unclosed]

theorem isSteady_fixed (unnamed : ∀ name, text ≠ ':' :: name) (steady : isSteady text = true) :
    text ≠ ['*'] ∧ text ≠ "index".toList ∧ isGroup text = false ∧ bracketed? text = none := by
  unfold isSteady at steady
  split at steady
  · exact absurd rfl (unnamed _)
  · simpa [and_assoc] using steady

theorem returns_fixed (sole : Sole raw) (some : raw ≠ []) (dollar : raw.head? ≠ Option.some '$')
    (low : raw.head? ≠ Option.some '_') (steady : isSteady (ofFixed lowercase raw).text.toList = true) :
    Returns (ofFixed lowercase raw).text ∧ (insideBrackets raw = false →
      insideBrackets (routeFile (ofFixed lowercase raw).text).toList = false) := by
  obtain ⟨own, brackets⟩ := sole_ofFixed sole lowercase
  have lowers := ofFixed_lowers lowercase raw
  obtain ⟨keeps, head⟩ := head?_dropEnd some low
  have last := getLast?_dropEnd raw
  generalize (ofFixed lowercase raw).text = text at own brackets lowers steady ⊢
  have nonempty : text.toList ≠ [] := fun none => keeps (none ▸ lowers).eq_nil
  have noDollar : text.toList.head? ≠ Option.some '$' := fun starts => dollar (head ▸ lowers.head (by decide) starts)
  have noLow : text.toList.head? ≠ Option.some '_' := fun starts => low (head ▸ lowers.head (by decide) starts)
  have noLast : text.toList.getLast? ≠ Option.some '_' := fun ends => last (lowers.getLast (by decide) ends)
  by_cases named : ∃ name, text.toList = ':' :: name
  · obtain ⟨name, chars⟩ := named
    obtain rfl : text = String.ofList (':' :: name) := by rw [← chars, String.ofList_toList]
    simp only [String.toList_ofList] at own steady
    obtain ⟨slash, backslash, dots⟩ := own
    obtain ⟨returns, outside⟩ := returns_undotted steady (by simpa using slash) (by simpa using backslash)
      (by simpa [dotsInside] using dots)
    exact ⟨returns, fun _ => outside⟩
  · replace named : ∀ name, text.toList ≠ ':' :: name := fun name chars => named ⟨name, chars⟩
    obtain ⟨splat, index, single, unbracketed⟩ := isSteady_fixed named steady
    have file : routeFile text = text := by
      unfold routeFile
      split
      · contradiction
      · next name chars => exact absurd chars (named name)
      · rfl
    have again : ofRaw false text.toList = Option.some (.fixed text) := by
      rw [ofRaw_fixed nonempty noDollar noLow index unbracketed single]
      simp [ofFixed, dropEnd_eq noLast]
    have filled : text ≠ "" := fun empty => nonempty (by simp [empty])
    rw [file, brackets]
    exact ⟨⟨own.slash, filled, by rw [file]; exact own, by rw [file]; exact filled, by rw [file]; exact ⟨_, again, rfl⟩⟩, id⟩

theorem eq_of_bracketed? (found : bracketed? raw = some inner) :
    inner ≠ [] ∧ ']' ∉ inner ∧ ∃ ending, raw = '[' :: (inner ++ [']'] ++ ending) ∧ ']' ∉ ending := by
  unfold bracketed? at found
  split at found
  · next rest =>
      dsimp only at found
      split at found
      · cases found
      · next filled =>
          have whole : rest.takeWhile (· ≠ ']') ++ rest.dropWhile (· ≠ ']') = rest := takeWhile_append_dropWhile
          split at found
          · next closes =>
              cases found
              refine ⟨by simpa using filled, fun member => by simpa using mem_takeWhile_imp member, ?_⟩
              simp only [Bool.or_eq_true, decide_eq_true_eq] at closes
              rcases closes with closes | closes <;> rw [closes] at whole
              · exact ⟨[], by rw [append_nil, whole], by simp⟩
              · exact ⟨['\n'], by rw [append_assoc, singleton_append, whole], by simp⟩
          · cases found
  · cases found

theorem returns_ofBrackets (sole : Sole raw) (found : bracketed? raw = some inner)
    (steady : isSteady (ofBrackets inner).text.toList = true) :
    Returns (ofBrackets inner).text ∧
      insideBrackets (routeFile (ofBrackets inner).text).toList = false := by
  obtain ⟨-, -, ending, rfl, unclosed⟩ := eq_of_bracketed? found
  obtain ⟨slash, backslash, dots⟩ := sole
  simp only [mem_cons, mem_append, not_or] at slash backslash
  replace dots : dotsInside (inner ++ [']']) = true := dotsInside_left unclosed (by simpa [dotsInside] using dots)
  unfold ofBrackets at steady ⊢
  split at steady
  · next c name =>
      have text : (Segment.remainder (String.ofList (c :: name))).text = String.ofList (':' :: (c :: name ++ ['*'])) := by
        apply String.toList_inj.1
        simp [Segment.text]
      rw [text, String.toList_ofList] at steady
      rw [text]
      exact returns_parameter steady (by simp_all) (by simp_all) (fun other => absurd List.getLast?_concat other)
  · next short =>
      have text : (Segment.parameter (String.ofList inner)).text = String.ofList (':' :: inner) := by
        simp [Segment.text]
      rw [text, String.toList_ofList] at steady
      rw [text]
      exact returns_parameter steady slash.2.1.1 backslash.2.1.1 (fun _ => ⟨dots, fun c rest => short c rest⟩)

theorem returns_ofRaw (sole : Sole raw) {segment : Segment} (adds : ofRaw lowercase raw = some segment)
    (steady : isSteady segment.text.toList = true) :
    Returns segment.text ∧
      (insideBrackets raw = false → insideBrackets (routeFile segment.text).toList = false) := by
  cases adds_of_ofRaw adds with
  | splat => exact absurd steady (by decide)
  | @dollar name _ starts =>
    subst starts
    have text : (Segment.parameter (String.ofList name)).text = String.ofList (':' :: name) := by
      simp [Segment.text]
    rw [text, String.toList_ofList] at steady
    rw [text]
    obtain ⟨slash, backslash, dots⟩ := sole
    obtain ⟨returns, outside⟩ := returns_undotted steady (by simpa using slash) (by simpa using backslash)
      (by simpa [dotsInside] using dots)
    exact ⟨returns, fun _ => outside⟩
  | brackets found =>
    obtain ⟨returns, outside⟩ := returns_ofBrackets sole found steady
    exact ⟨returns, fun _ => outside⟩
  | fixed some dollar low => exact returns_fixed sole some dollar low steady

/-- A path whose slashes are outside of brackets and whose segments are steady. -/
structure Steady (lowercase : Bool) (path : String) : Prop where
  slashes : slashesOutside (Text.replace "\\" "/" path).toList = true
  steady : ∀ segment ∈ segments lowercase path, isSteady segment.text.toList = true

instance (lowercase : Bool) (path : String) : Decidable (Steady lowercase path) :=
  decidable_of_iff (_ ∧ _) ⟨fun ⟨slashes, steady⟩ => ⟨slashes, steady⟩, fun ⟨slashes, steady⟩ => ⟨slashes, steady⟩⟩

theorem slashesOutside_left (unclosed : ']' ∉ second) (outside : slashesOutside (first ++ second) = true) :
    slashesOutside first = true := by
  induction first with
  | nil => rfl
  | cons c rest ih =>
    simp only [cons_append, slashesOutside, Bool.and_eq_true, insideBrackets_left unclosed] at outside ⊢
    exact ⟨outside.1, ih outside.2⟩

theorem no_backslash_replace (text : String) : '\\' ∉ (Text.replace "\\" "/" text).toList := by
  have none (chars : List Char) : '\\' ∉ replaceFrom ['\\'] ['/'] 0 chars := by
    induction chars with
    | nil => simp [replaceFrom]
    | cons c rest ih =>
      by_cases same : c = '\\'
      · subst same
        simpa [replaceFrom] using ih
      · simpa [replaceFrom, Ne.symm same] using ih
  simpa [Text.replace] using none text.toList

theorem dropSuffix_append (text ending : String) : dropSuffix ending (text ++ ending) = text := by
  have ends : endsWith (text ++ ending) ending = true := by simp [endsWith]
  have size : (text ++ ending).length - ending.length = text.toList.length := by
    rw [String.length_append, Nat.add_sub_cancel, String.length_toList]
  rw [dropSuffix, if_pos ends, size, String.toList_append, take_left, String.ofList_toList]

theorem exists_dropExtension_append (text : String) :
    ∃ ending, (dropExtension text).toList ++ ending = text.toList ∧ ']' ∉ ending := by
  have unclosed : ∀ extension ∈ extensions, ']' ∉ extension.toList := by decide
  unfold dropExtension
  split
  · next extension found =>
      have ends : endsWith text extension = true := by simpa using List.find?_some found
      obtain ⟨front, chars⟩ := isSuffixOf_iff_suffix.1 ends
      obtain rfl : String.ofList front ++ extension = text := by
        apply String.toList_inj.1
        simpa using chars
      exact ⟨extension.toList, by rw [dropSuffix_append, String.toList_append],
        unclosed extension (mem_of_find?_eq_some found)⟩
  · exact ⟨[], by simp, by simp⟩

theorem sole_of_raw (outside : slashesOutside chars = true) (backslash : '\\' ∉ chars) :
    ∀ raw ∈ rawSegments chars, Sole raw := by
  intro raw member
  refine ⟨no_slash_of_raw outside member, fun inside => backslash ((infix_of_mem_rawSegments member).subset inside), ?_⟩
  cases raws : rawSegments chars with
  | nil => exact absurd raws (rawSegments_ne_nil _)
  | cons first later =>
    obtain ⟨_, dots, after⟩ := rawSegments_brackets raws
    rw [raws] at member
    rcases mem_cons.1 member with rfl | member
    · exact dots
    · exact (after raw member).2

theorem Steady.sole (steady : Steady lowercase path) :
    ∀ raw ∈ rawSegments (dropExtension (Text.replace "\\" "/" path)).toList, Sole raw := by
  obtain ⟨ending, whole, unclosed⟩ := exists_dropExtension_append (Text.replace "\\" "/" path)
  have outside := slashesOutside_left unclosed (whole.symm ▸ steady.slashes)
  have backslash := no_backslash_replace path
  rw [← whole, mem_append, not_or] at backslash
  exact sole_of_raw outside backslash.1

theorem Steady.returns (steady : Steady lowercase path) :
    ∀ segment ∈ segments lowercase path, Returns segment.text := by
  intro segment member
  obtain ⟨raw, inRaws, adds⟩ := mem_filterMap.1 member
  exact (returns_ofRaw (steady.sole raw inRaws) adds (steady.steady segment member)).1

theorem Steady.outside (steady : Steady lowercase path) :
    ∀ segment ∈ (segments lowercase path).tail, insideBrackets (routeFile segment.text).toList = false := by
  intro segment member
  have whole := mem_of_mem_tail member
  have sole := steady.sole
  unfold segments at member
  cases raws : rawSegments (dropExtension (Text.replace "\\" "/" path)).toList with
  | nil => exact absurd raws (rawSegments_ne_nil _)
  | cons first later =>
    have after := (rawSegments_brackets raws).2.2
    rw [raws] at member sole
    have tail : segment ∈ later.filterMap (ofRaw lowercase) := by
      rw [filterMap_cons] at member
      split at member
      · exact mem_of_mem_tail member
      · exact member
    obtain ⟨raw, inLater, adds⟩ := mem_filterMap.1 tail
    exact (returns_ofRaw (sole raw (by simp [inLater])) adds (steady.steady segment whole)).2 (after raw inLater).1

def pageNames (files : List String) (extension : String) : List String :=
  files.dropLast ++ [files.getLast?.getD "index" ++ extension]

theorem dropExtension_append (text : String) (listed : extension ∈ extensions) :
    dropExtension (text ++ extension) = text := by
  have found : extensions.find? (endsWith (text ++ extension) ·) = some extension := by
    simp only [extensions, mem_cons, not_mem_nil, or_false] at listed
    rcases listed with rfl | rfl | rfl | rfl <;>
      simp [extensions, endsWith, List.isSuffixOf]
  simp only [dropExtension, found, dropSuffix_append]

theorem segments_append {stem : List Char} (backslash : '\\' ∉ stem) (listed : extension ∈ extensions)
    (lowercase : Bool) :
    segments lowercase (String.ofList stem ++ extension) = (rawSegments stem).filterMap (ofRaw lowercase) := by
  have none : ∀ extension ∈ extensions, '\\' ∉ extension.toList := by decide
  have clear : '\\' ∉ (String.ofList stem ++ extension).toList := by
    simpa using ⟨backslash, none extension listed⟩
  rw [segments, replace_backslash clear, dropExtension_append _ listed, String.toList_ofList]

theorem intercalate_ending (front : List (List Char)) (last ending : List Char) :
    ['/'].intercalate (front ++ [last ++ ending]) = ['/'].intercalate (front ++ [last]) ++ ending := by
  cases front with
  | nil => simp
  | cons first rest => simp [intercalate_eq_joined, joined]

theorem toList_pageNames (some : files ≠ []) (extension : String) :
    (ofNames (pageNames files extension)).toList =
      ['/'].intercalate (files.map String.toList) ++ extension.toList := by
  obtain ⟨front, last, rfl⟩ : ∃ front last, files = front ++ [last] :=
    ⟨_, _, (dropLast_concat_getLast some).symm⟩
  rw [ofNames, toList_toString (.inr (by simp [pageNames]))]
  simp [body, PathRoot.text, pageNames, intercalate_ending]

theorem no_backslash_intercalate {files : List (List Char)} (none : ∀ file ∈ files, '\\' ∉ file) :
    '\\' ∉ ['/'].intercalate files := by
  cases files with
  | nil => simp
  | cons file later =>
    rw [intercalate_eq_joined]
    simpa [joined, Joint.char] using none

theorem segments_pageNames (some : files ≠ []) (sole : ∀ file ∈ files, Sole file.toList)
    (outside : ∀ file ∈ files.tail, insideBrackets file.toList = false) (typed : Bool) :
    segments false (ofNames (pageNames files (markupExtension typed))) =
      (files.map String.toList).filterMap (ofRaw false) := by
  have text : ofNames (pageNames files (markupExtension typed)) =
      String.ofList (['/'].intercalate (files.map String.toList)) ++ markupExtension typed := by
    apply String.toList_inj.1
    rw [toList_pageNames some, String.toList_append, String.toList_ofList]
  have clear : '\\' ∉ ['/'].intercalate (files.map String.toList) :=
    no_backslash_intercalate (forall_mem_map.2 (fun file member => (sole file member).backslash))
  rw [text, segments_append clear (by cases typed <;> decide),
    rawSegments_intercalate (by simpa using some) (forall_mem_map.2 sole)]
  rw [← map_tail]
  exact forall_mem_map.2 outside

theorem map_text_again (returns : ∀ text ∈ texts, Returns text) :
    (((texts.map routeFile).map String.toList).filterMap (ofRaw false)).map Segment.text = texts := by
  induction texts with
  | nil => rfl
  | cons text rest ih =>
    obtain ⟨segment, again, same⟩ := (returns text (by simp)).again
    have more := ih (fun other member => returns other (by simp [member]))
    simp only [map_cons, filterMap_cons, again, same, more]

theorem ofPath_pageNames (returns : ∀ text ∈ texts, Returns text)
    (outside : ∀ text ∈ texts.tail, insideBrackets (routeFile text).toList = false) (typed : Bool) :
    ofPath false (ofNames (pageNames (texts.map routeFile) (markupExtension typed))) =
      "/" ++ String.intercalate "/" texts := by
  cases texts with
  | nil => cases typed <;> decide +kernel
  | cons text rest =>
    rw [ofPath, ofSegments, segments_pageNames (by simp) (forall_mem_map.2 (fun text member => (returns text member).sole)),
      map_text_again returns]
    exact forall_mem_map.2 outside

theorem parts_ofSegments {segments : List Segment} (plain : ∀ segment ∈ segments, '/' ∉ segment.text.toList) :
    (splitChars (· = '/') (ofSegments segments).toList).filter (· ≠ []) =
      (segments.map (fun segment => segment.text.toList)).filter (· ≠ []) := by
  rw [toList_ofSegments, splitChars_at [] _ (by simp)]
  cases segments with
  | nil => rfl
  | cons segment rest =>
    rw [splitChars_intercalate (by simp) (forall_mem_map.2 plain)]
    rfl

end Route

namespace Output

open Route

theorem routeSegments_ofSegments {segments : List Segment} (returns : ∀ segment ∈ segments, Returns segment.text) :
    routeSegments (ofSegments segments) = segments.map Segment.text := by
  have filled : ∀ text ∈ segments.map (fun segment => segment.text.toList), decide (text ≠ []) = true := by
    rw [forall_mem_map]
    intro segment member
    simpa using (returns segment member).nonempty
  have parts := parts_ofSegments (fun segment member => (returns segment member).slash)
  rw [filter_eq_self.2 filled] at parts
  have same := congrArg (List.map String.ofList) parts
  simpa [routeSegments, Text.split, filter_map, Function.comp_def] using same

theorem pageNames_valid (sole : ∀ file ∈ files, Sole file.toList) (filled : ∀ file ∈ files, file ≠ "") (typed : Bool) :
    ∀ name ∈ pageNames files (markupExtension typed), Path.ValidName name := by
  intro name member
  rcases mem_append.1 member with inner | last
  · have inFiles := (dropLast_sublist files).mem inner
    refine ⟨filled name inFiles, ?_, (sole name inFiles).slash⟩
    rintro rfl
    exact absurd (sole "." inFiles).dots (by decide)
  · obtain rfl := mem_singleton.1 last
    have slash : '/' ∉ (files.getLast?.getD "index").toList := by
      cases ends : files.getLast? with
      | none => decide
      | some file => exact (sole file (mem_of_getLast? ends)).slash
    refine ⟨fun empty => ?_, fun dot => ?_, fun inside => ?_⟩
    · have chars := congrArg String.toList empty
      cases typed <;> simp [markupExtension] at chars
    · have size := congrArg (fun text => text.toList.length) dot
      cases typed <;> simp [markupExtension] at size
    · rw [String.toList_append, mem_append] at inside
      rcases inside with inside | inside
      · exact slash inside
      · cases typed <;> simp [markupExtension] at inside

theorem pagePath_eq {page : Page} {options : Options} {segments : List Segment} (nextjs : options.platform = .nextjs)
    (route : page.route = ofSegments segments) (returns : ∀ segment ∈ segments, Returns segment.text) (root : Path)
    (analysis : Analysis) :
    pagePath root page analysis options = root.below ("pages" ::
      pageNames ((segments.map Segment.text).map routeFile) (markupExtension (isTyped analysis options))) := by
  have all : ∀ name ∈ "pages" :: pageNames ((segments.map Segment.text).map routeFile)
      (markupExtension (isTyped analysis options)), Path.ValidName name := by
    refine forall_mem_cons.2 ⟨by decide, pageNames_valid ?_ ?_ _⟩ <;> simp only [forall_mem_map]
    · exact fun segment member => (returns segment member).sole
    · exact fun segment member => (returns segment member).filled
  have path : pagePath root page analysis options = under root ("pages" ::
      pageNames ((segments.map Segment.text).map routeFile) (markupExtension (isTyped analysis options))) := by
    simp only [pagePath, nextjs, route, routeSegments_ofSegments returns]
    rfl
  rw [path, under_clear (fun name member => (all name member).2.2)]
  exact congrArg root.below (filter_valid all)

section

variable {options : Options} (nextjs : options.platform = .nextjs) {lowercase : Bool} {path : String}
  (steady : Steady lowercase path) {page : Page} (route : page.route = ofPath lowercase path) (root : Path)
  (analysis : Analysis)
include nextjs steady route root analysis

theorem exists_pagePath :
    ∃ names, pagePath root page analysis options = root.below ("pages" :: names) ∧
      ofPath false (ofNames names) = page.route := by
  refine ⟨_, pagePath_eq nextjs route steady.returns root analysis, ?_⟩
  rw [route, ofPath_pageNames (forall_mem_map.2 steady.returns)]
  · rfl
  · rw [← map_tail]
    exact forall_mem_map.2 steady.outside

/-- On the platform that finds its pages by their files, the route of a steady path is read back from the file of
its page, and pages of different routes have different files. -/
theorem pagePath_recovers_route :
    (∃ names, (pagePath root page analysis options).relativeTo? (under root [pageRoot options.platform]) = some names ∧
      ofPath false (ofNames names) = page.route) ∧
    ∀ otherLowercase otherPath, Steady otherLowercase otherPath → ∀ other : Page, other.route = ofPath otherLowercase otherPath →
      other.route ≠ page.route →
        pagePath root other analysis options ≠ pagePath root page analysis options := by
  obtain ⟨names, place, read⟩ := exists_pagePath nextjs steady route root analysis
  constructor
  · have pages : under root [pageRoot options.platform] = root.child "pages" := by
      rw [nextjs]
      rfl
    refine ⟨names, ?_, read⟩
    simp [place, pages, relativeTo?, below, child]
  · intro otherLowercase otherPath otherSteady other otherRoute different same
    obtain ⟨otherNames, otherPlace, otherRead⟩ := exists_pagePath nextjs otherSteady otherRoute root analysis
    rw [place, otherPlace] at same
    have equal : otherNames = names := by simpa [below] using same
    exact different (otherRead ▸ read ▸ equal ▸ rfl)

end

def typedAnalysis : Analysis :=
  { root := "project", source := "lovable", framework := "react", language := "typescript", packageManager := "npm",
    layout := { sourceDir := "src", componentsDir := "src/components" } }

def pageOptions : Options := { OptionsOf.plain false "out" with platform := .nextjs }

/-- All kinds of segments that a route takes from a path. -/
def mixedPath : String := "Blog/_layout/[x.y]/$id_.Edit_.[...rest].tsx"

def mixedPage : Page := ⟨"Blog", mixedPath, ofPath true mixedPath, [], false, false, none, {}⟩

def rootPage : Page := ⟨"Index", "index.tsx", ofPath true "index.tsx", [], false, false, none, {}⟩

theorem pagePath_recovers_route_mixed :
    Steady true mixedPath ∧ mixedPage.route = "/blog/:x.y/:id_/edit/:rest*" ∧
      (∃ names, (pagePath ⟨.relative, ["out"]⟩ mixedPage typedAnalysis pageOptions).relativeTo?
          (under ⟨.relative, ["out"]⟩ [pageRoot pageOptions.platform]) = some names ∧
        ofPath false (ofNames names) = mixedPage.route) ∧
      pagePath ⟨.relative, ["out"]⟩ rootPage typedAnalysis pageOptions ≠
        pagePath ⟨.relative, ["out"]⟩ mixedPage typedAnalysis pageOptions := by
  have steady : Steady true mixedPath := by decide +kernel
  have route : mixedPage.route = "/blog/:x.y/:id_/edit/:rest*" := by decide +kernel
  have different : rootPage.route ≠ mixedPage.route := by decide +kernel
  have own : mixedPage.route = ofPath true mixedPath := rfl
  obtain ⟨read, apart⟩ := pagePath_recovers_route (show pageOptions.platform = .nextjs from rfl) steady own
    ⟨.relative, ["out"]⟩ typedAnalysis
  exact ⟨steady, route, read, apart true "index.tsx" (by decide +kernel) rootPage rfl different⟩

/-- A page that is called like the page of the root but for the case of its name. -/
def capitalPage : Page := ⟨"Index", "Index.tsx", ofPath true "Index.tsx", [], false, false, none, {}⟩

/-- Made small, the name of the page is that of the root, and its file gives another route. -/
theorem pagePath_merges_index :
    slashesOutside capitalPage.path.toList = true ∧ capitalPage.route = "/index" ∧ rootPage.route = "/" ∧
      pagePath ⟨.relative, ["out"]⟩ capitalPage typedAnalysis pageOptions = ⟨.relative, ["out", "pages", "index.tsx"]⟩ ∧
      pagePath ⟨.relative, ["out"]⟩ rootPage typedAnalysis pageOptions = ⟨.relative, ["out", "pages", "index.tsx"]⟩ ∧
      ofPath false "index.tsx" = "/" := by
  decide +kernel

end Output
end Refit
