import Refit.Proofs.Output.Names

/-!
Routes of pages do not climb. A double dot in a route can only come from the end of a pair of brackets,
where it goes back over a part of the same brackets. This needs file names without backslashes, since a
backslash counts as a slash in a route.
-/

open List

namespace Refit

open Path Output Text

/-- Names in which each double dot goes back over the name right before it. -/
inductive Upright : List String → Prop
  | nil : Upright []
  | down {name : String} {rest : List String} (plain : name ≠ "..") (upright : Upright rest) :
      Upright (name :: rest)
  | back {name : String} {rest : List String} (plain : name ≠ "..") (upright : Upright rest) :
      Upright (name :: ".." :: rest)

namespace Upright

variable {names others : List String}

theorem of_plain (plain : ".." ∉ names) : Upright names := by
  induction names with
  | nil => exact .nil
  | cons name rest ih =>
    rw [mem_cons, not_or] at plain
    exact .down (Ne.symm plain.1) (ih plain.2)

theorem append (first : Upright names) (second : Upright others) : Upright (names ++ others) := by
  induction first with
  | nil => exact second
  | down plain _ ih => exact .down plain ih
  | back plain _ ih => exact .back plain ih

theorem flatMap {α : Type} {parts : List α} {of : α → List String} (each : ∀ part ∈ parts, Upright (of part)) :
    Upright (parts.flatMap of) := by
  induction parts with
  | nil => exact .nil
  | cons part rest ih =>
    exact (each part (by simp)).append (ih (fun other member => each other (by simp [member])))

theorem dropLast (upright : Upright names) : Upright names.dropLast := by
  induction upright with
  | nil => exact .nil
  | @down name rest plain inner ih =>
    cases rest with
    | nil => exact .nil
    | cons next others => exact .down plain ih
  | @back name rest plain inner ih =>
    cases rest with
    | nil => exact .down plain .nil
    | cons next others => exact .back plain ih

theorem concat (some : names ≠ []) (plain : ".." ∉ names) (last : String) : Upright (names ++ [last]) := by
  induction names with
  | nil => exact absurd rfl some
  | cons name rest ih =>
    rw [mem_cons, not_or] at plain
    have own : name ≠ ".." := Ne.symm plain.1
    cases rest with
    | cons next others => exact .down own (ih (by simp) plain.2)
    | nil =>
      by_cases dots : last = ".."
      · subst dots
        exact .back own .nil
      · exact .down own (.down dots .nil)

theorem flatten (upright : Upright names) (place : List String) :
    ∃ rest, Disk.flatten place names = place ++ rest := by
  induction upright generalizing place with
  | nil => exact ⟨[], by simp [Disk.flatten]⟩
  | @down name rest plain _ ih =>
    obtain ⟨more, same⟩ := ih (place ++ [name])
    exact ⟨name :: more, by rw [Disk.flatten, if_neg plain, same, append_assoc]; rfl⟩
  | @back name rest plain _ ih =>
    obtain ⟨more, same⟩ := ih place
    exact ⟨more, by rw [Disk.flatten, if_neg plain, Disk.flatten, if_pos rfl, dropLast_concat, same]⟩

end Upright

namespace Route

variable {chars raw inner : List Char} {lowercase : Bool}

theorem rawSegments_ne_nil (chars : List Char) : rawSegments chars ≠ [] := by
  cases chars with
  | nil => simp [rawSegments]
  | cons c rest =>
    simp only [rawSegments]
    split
    · simp
    · split <;> simp

theorem rawSegments_cons (c : Char) (rest : List Char) :
    ((c = '.' ∨ c = '/') ∧ insideBrackets rest = false ∧ rawSegments (c :: rest) = [] :: rawSegments rest) ∨
    ((c ≠ '.' ∧ c ≠ '/' ∨ insideBrackets rest = true) ∧
      ∃ segment others, rawSegments rest = segment :: others ∧ rawSegments (c :: rest) = (c :: segment) :: others) := by
  simp only [rawSegments]
  split
  · next cut =>
      simp only [Bool.and_eq_true, Bool.or_eq_true, decide_eq_true_eq, Bool.not_eq_true'] at cut
      exact .inl ⟨cut.1, cut.2, rfl⟩
  · next kept =>
      cases inner : rawSegments rest with
      | nil => exact absurd inner (rawSegments_ne_nil rest)
      | cons segment others =>
        refine .inr ⟨?_, segment, others, rfl, rfl⟩
        by_cases inside : insideBrackets rest = true
        · exact .inr inside
        · simp only [inside, Bool.not_false, Bool.and_true, Bool.or_eq_true, decide_eq_true_eq, not_or] at kept
          exact .inl kept

theorem prefix_of_rawSegments {segment : List Char} {others : List (List Char)}
    (raws : rawSegments chars = segment :: others) : segment <+: chars := by
  induction chars generalizing segment others with
  | nil =>
    cases raws
    exact prefix_rfl
  | cons c rest ih =>
    rcases rawSegments_cons c rest with ⟨_, _, cut⟩ | ⟨_, first, more, inner, kept⟩
    · cases cut.symm.trans raws
      exact nil_prefix
    · cases kept.symm.trans raws
      exact cons_prefix_cons.2 ⟨rfl, ih inner⟩

theorem infix_of_mem_rawSegments (member : raw ∈ rawSegments chars) : raw <:+: chars := by
  induction chars generalizing raw with
  | nil => simp_all [rawSegments]
  | cons c rest ih =>
    rcases rawSegments_cons c rest with ⟨_, _, cut⟩ | ⟨_, first, more, inner, kept⟩
    · rw [cut] at member
      rcases mem_cons.1 member with rfl | member
      · exact nil_infix
      · exact (ih member).trans (suffix_cons c rest).isInfix
    · rw [kept] at member
      rcases mem_cons.1 member with rfl | member
      · exact (prefix_of_rawSegments kept).isInfix
      · exact (ih (by simp [inner, member])).trans (suffix_cons c rest).isInfix

theorem closing_mem_of_inside {rest segment : List Char} {others : List (List Char)}
    (inside : insideBrackets rest = true) (raws : rawSegments rest = segment :: others) : ']' ∈ segment := by
  induction rest generalizing segment others with
  | nil => cases inside
  | cons c rest ih =>
    rcases rawSegments_cons c rest with ⟨separates, outside, cut⟩ | ⟨_, first, more, inner, kept⟩
    · have skipped : insideBrackets (c :: rest) = insideBrackets rest := by
        rcases separates with rfl | rfl <;> rfl
      rw [skipped, outside] at inside
      cases inside
    · cases kept.symm.trans raws
      by_cases closes : c = ']'
      · simp [closes]
      · have opens : c ≠ '[' := by
          rintro rfl
          cases inside
        have skipped : insideBrackets (c :: rest) = insideBrackets rest := by
          simp [insideBrackets]
        exact mem_cons_of_mem _ (ih (skipped.symm.trans inside) inner)

theorem closing_after_dot (member : raw ∈ rawSegments chars) {before after : List Char}
    (dot : raw = before ++ '.' :: after) : ']' ∈ after := by
  induction chars generalizing raw before with
  | nil => simp_all [rawSegments]
  | cons c rest ih =>
    rcases rawSegments_cons c rest with ⟨_, _, cut⟩ | ⟨stays, first, more, inner, kept⟩
    · rw [cut] at member
      rcases mem_cons.1 member with rfl | member
      · simp at dot
      · exact ih member dot
    · rw [kept] at member
      rcases mem_cons.1 member with rfl | member
      · cases before with
        | nil =>
          obtain ⟨rfl, rfl⟩ := List.cons.inj dot
          exact closing_mem_of_inside (stays.resolve_left (fun plain => plain.1 rfl)) inner
        | cons head tail =>
          obtain ⟨rfl, tail⟩ := List.cons.inj dot
          exact ih (by simp [inner]) tail
      · exact ih (by simp [inner, member]) dot

/-- After a separator, no raw segment starts with a dot: the separator would stand in the same brackets. -/
theorem head_ne_dot_of_later {first : List Char} {later : List (List Char)}
    (raws : rawSegments chars = first :: later) (member : raw ∈ later) : raw.head? ≠ some '.' := by
  induction chars generalizing first later with
  | nil =>
    cases raws
    cases member
  | cons c rest ih =>
    rcases rawSegments_cons c rest with ⟨_, outside, cut⟩ | ⟨_, segment, more, inner, kept⟩
    · cases cut.symm.trans raws
      cases inner : rawSegments rest with
      | nil => simp [inner] at member
      | cons segment more =>
        rw [inner] at member
        rcases mem_cons.1 member with rfl | member
        · intro dotted
          cases rest with
          | nil =>
            cases inner
            cases dotted
          | cons d others =>
            rcases rawSegments_cons d others with ⟨_, _, cut⟩ | ⟨stays, segment, more, _, kept⟩
            · cases cut.symm.trans inner
              cases dotted
            · cases kept.symm.trans inner
              obtain rfl : d = '.' := by simpa using dotted
              have inside := stays.resolve_left (fun plain => plain.1 rfl)
              exact absurd (outside.symm.trans inside) (by simp)
        · exact ih inner member
    · cases kept.symm.trans raws
      exact ih inner member

theorem dots_start_of_raw (member : raw ∈ rawSegments chars) (climbs : ['.', '.', '/'] <+: raw) :
    ['.', '.', '/'] <+: chars := by
  cases raws : rawSegments chars with
  | nil => exact absurd raws (rawSegments_ne_nil chars)
  | cons first later =>
    rw [raws] at member
    rcases mem_cons.1 member with rfl | member
    · exact climbs.trans (prefix_of_rawSegments raws)
    · obtain ⟨rest, rfl⟩ := climbs
      exact absurd rfl (head_ne_dot_of_later raws member)

def fileNames (pieces : List (List Char)) : List String :=
  steps (pieces.map (fun piece => routeFile (String.ofList piece)))

theorem fileNames_append (first second : List (List Char)) :
    fileNames (first ++ second) = fileNames first ++ fileNames second := by
  simp [fileNames, steps]

/-- Empty pieces lead nowhere, so it does not matter that they are left out. -/
theorem steps_routeSegments (route : String) :
    steps ((routeSegments route).map routeFile) =
      fileNames (splitChars (· = '/') route.toList) := by
  have dropped (texts : List String) : steps ((texts.filter (· ≠ "")).map routeFile) =
      steps (texts.map routeFile) := by
    induction texts with
    | nil => rfl
    | cons text rest ih =>
      by_cases empty : text = ""
      · rw [filter_cons_of_neg (by simp [empty]), ih, empty]
        rfl
      · rw [filter_cons_of_pos (by simp [empty])]
        simp only [map_cons, steps, filter_cons] at ih ⊢
        rw [ih]
  unfold routeSegments fileNames split
  rw [dropped, map_map]
  rfl

theorem routeFile_dots {segment : String} (climbs : routeFile segment = "..") : segment = ".." := by
  have chars := congrArg String.toList climbs
  unfold routeFile at climbs chars
  split at chars
  · simp at chars
  · split at chars <;> simp at chars
  · exact String.toList_inj.1 chars

theorem dots_of_mem_fileNames {pieces : List (List Char)} (member : ".." ∈ fileNames pieces) :
    ['.', '.'] ∈ pieces := by
  obtain ⟨piece, inPieces, same⟩ := mem_map.1 (mem_filter.1 member).1
  have chars := congrArg String.toList (routeFile_dots same)
  rw [String.toList_ofList] at chars
  subst chars
  exact inPieces

theorem fileNames_parameter (piece : List Char) : ∃ name, fileNames [':' :: piece] = [name] := by
  have bracket : ∃ rest, (routeFile (String.ofList (':' :: piece))).toList = '[' :: rest := by
    simp only [routeFile, String.toList_ofList]
    split <;> simp
  obtain ⟨rest, chars⟩ := bracket
  simp only [fileNames, map_cons]
  generalize routeFile (String.ofList (':' :: piece)) = name at chars ⊢
  have some : name ≠ "" := by
    rintro rfl
    simp at chars
  have noDot : name ≠ "." := by
    rintro rfl
    simp at chars
  exact ⟨name, by simp [steps, some, noDot]⟩

theorem upright_of_parameter {name : List Char} (clear : ¬ ['/', '.', '.', '/'] <:+: name) :
    Upright (fileNames (splitChars (· = '/') (':' :: name))) := by
  cases pieces : splitChars (· = '/') name with
  | nil => exact absurd pieces (splitChars_ne_nil name)
  | cons piece others =>
    have own : splitChars (· = '/') (':' :: name) = (':' :: piece) :: others :=
      @Text.splitChars_plain (· = '/') [':'] name piece others (by simp) pieces
    rw [own]
    rcases eq_nil_or_concat others with rfl | ⟨middle, last, rfl⟩
    · exact .of_plain (fun member => by simpa using dots_of_mem_fileNames member)
    · have plain : ".." ∉ fileNames ((':' :: piece) :: middle) := by
        intro member
        have inMiddle : ['.', '.'] ∈ middle := by simpa using dots_of_mem_fileNames member
        obtain ⟨earlier, later, rfl⟩ := append_of_mem inMiddle
        refine clear (@Text.inner_piece name ['.', '.'] (piece :: earlier) (later ++ [last]) (by simp) (by simp) ?_)
        rw [pieces]
        simp
      have some : fileNames ((':' :: piece) :: middle) ≠ [] := by
        obtain ⟨first, same⟩ := fileNames_parameter piece
        rw [← singleton_append, fileNames_append, same]
        simp
      have few : fileNames [last] = [] ∨ ∃ name, fileNames [last] = [name] := by
        simp only [fileNames, steps, map_cons, filter_cons]
        split <;> simp
      rw [concat_eq_append, ← cons_append, fileNames_append]
      rcases few with none | ⟨name, one⟩
      · rw [none, append_nil]
        exact .of_plain plain
      · rw [one]
        exact .concat some plain name

/-- What is known of a raw segment of a path that does not climb. -/
structure Grown (raw : List Char) : Prop where
  inner : ¬ ['/', '.', '.', '/'] <:+: raw
  start : ¬ ['.', '.', '/'] <+: raw
  closed : ∀ before after, raw = before ++ '.' :: after → ']' ∈ after

theorem upright_ofFixed (grown : Grown raw) (lowercase : Bool) :
    Upright (fileNames (splitChars (· = '/') (Segment.ofFixed lowercase raw).text.toList)) := by
  have plain : ['.', '.'] ∉ splitChars (· = '/') (dropEnd (· = '_') raw) := by
    obtain ⟨ending, whole, dropped⟩ := exists_dropEnd_append (· = '_') raw
    have start : dropEnd (· = '_') raw <+: raw := ⟨ending, whole⟩
    intro member
    rcases dots_mem_splitChars member with first | inner | ⟨before, last⟩
    · exact grown.start (first.trans start)
    · exact grown.inner (inner.trans start.isInfix)
    · have closing : ']' ∈ '.' :: ending := grown.closed before _ (by rw [← whole, ← last]; simp)
      rcases mem_cons.1 closing with same | inEnding
      · cases same
      · exact absurd (dropped _ inEnding) (by decide)
  refine .of_plain (fun member => plain ?_)
  have found := dots_of_mem_fileNames member
  simp only [Segment.ofFixed, Segment.text] at found
  cases lowercase with
  | false => simpa using found
  | true => exact dots_of_lower (by simpa [lower] using found)

theorem infix_of_bracketed? (found : bracketed? raw = some inner) : inner <:+: raw := by
  unfold bracketed? at found
  split at found
  · next rest =>
      dsimp only at found
      split at found
      · cases found
      · split at found
        · cases found
          refine IsInfix.trans ?_ (suffix_cons _ _).isInfix
          exact takeWhile_prefix _ |>.isInfix
        · cases found
  · cases found

theorem upright_ofBrackets (clear : ¬ ['/', '.', '.', '/'] <:+: inner) :
    Upright (fileNames (splitChars (· = '/') (Segment.ofBrackets inner).text.toList)) := by
  unfold Segment.ofBrackets
  split
  · next c name =>
      have ended : ¬ ['/', '.', '.', '/'] <:+: c :: name ++ ['*'] := by
        rintro ⟨before, after, same⟩
        rcases eq_nil_or_concat after with rfl | ⟨others, last, rfl⟩
        · have ends := congrArg List.getLast? same
          rw [List.getLast?_concat] at ends
          simp at ends
        · rw [concat_eq_append, ← append_assoc] at same
          have within : ['/', '.', '.', '/'] <:+: c :: name := ⟨before, others, (append_inj' same rfl).1⟩
          exact clear (within.trans (suffix_append ['.', '.', '.'] (c :: name)).isInfix)
      simpa [Segment.text] using upright_of_parameter ended
  · simpa [Segment.text] using upright_of_parameter clear

/-- How a raw segment comes to add a segment to a route. -/
inductive Adds (lowercase : Bool) (raw : List Char) : Segment → Prop
  | splat (alone : raw = ['$']) : Adds lowercase raw .splat
  | dollar {name : List Char} (some : name ≠ []) (starts : raw = '$' :: name) :
      Adds lowercase raw (.parameter (String.ofList name))
  | brackets {inner : List Char} (found : bracketed? raw = some inner) : Adds lowercase raw (.ofBrackets inner)
  | fixed (some : raw ≠ []) (dollar : raw.head? ≠ Option.some '$') (low : raw.head? ≠ Option.some '_') :
      Adds lowercase raw (.ofFixed lowercase raw)

theorem adds_of_ofRaw {segment : Segment} (adds : Segment.ofRaw lowercase raw = some segment) :
    Adds lowercase raw segment := by
  unfold Segment.ofRaw at adds
  split at adds
  · cases adds
  · cases adds
    exact .splat rfl
  · next name more =>
      cases adds
      exact .dollar (fun none => more (by rw [none])) rfl
  · cases adds
  · next filled _ dollar low =>
    split at adds
    · cases adds
    · split at adds
      · next found =>
          cases adds
          exact .brackets found
      · split at adds
        · cases adds
        · cases adds
          exact .fixed filled (fun starts => (List.head?_eq_some_iff.1 starts).elim dollar)
            (fun starts => (List.head?_eq_some_iff.1 starts).elim low)

theorem upright_ofRaw (grown : Grown raw) {segment : Segment} (adds : Segment.ofRaw lowercase raw = some segment) :
    Upright (fileNames (splitChars (· = '/') segment.text.toList)) := by
  cases adds_of_ofRaw adds with
  | splat => exact .of_plain (by decide)
  | @dollar name _ starts =>
    subst starts
    have clear : ¬ ['/', '.', '.', '/'] <:+: name := fun within =>
      grown.inner (within.trans (suffix_cons _ _).isInfix)
    simpa [Segment.text] using upright_of_parameter clear
  | brackets found => exact upright_ofBrackets (fun within => grown.inner (within.trans (infix_of_bracketed? found)))
  | fixed => exact upright_ofFixed grown lowercase

theorem intercalate_cons_cons (file next : List Char) (others : List (List Char)) :
    ['/'].intercalate (file :: next :: others) = file ++ '/' :: ['/'].intercalate (next :: others) := by
  simp

theorem toList_ofSegments (segments : List Segment) :
    (ofSegments segments).toList = [] ++ '/' :: ['/'].intercalate (segments.map (·.text.toList)) := by
  simp [ofSegments, Function.comp_def]

theorem fileNames_ofSegments (segments : List Segment) :
    fileNames (splitChars (· = '/') (ofSegments segments).toList) =
      segments.flatMap (fun segment => fileNames (splitChars (· = '/') segment.text.toList)) := by
  have joined (texts : List (List Char)) : fileNames (splitChars (· = '/') (['/'].intercalate texts)) =
      texts.flatMap (fun text => fileNames (splitChars (· = '/') text)) := by
    induction texts with
    | nil => decide
    | cons text rest ih =>
      cases rest with
      | nil => simp
      | cons next others =>
        rw [intercalate_cons_cons, splitChars_at text _ (by simp), fileNames_append, ih]
        rfl
  have empty : fileNames [[]] = [] := by decide
  rw [toList_ofSegments, splitChars_at [] _ (by simp), fileNames_append, joined, flatMap_map]
  simp [splitChars, empty]

theorem replace_backslash {text : String} (none : '\\' ∉ text.toList) : Text.replace "\\" "/" text = text := by
  have same (chars : List Char) (none : '\\' ∉ chars) : replaceFrom ['\\'] ['/'] 0 chars = chars := by
    induction chars with
    | nil => rfl
    | cons c rest ih =>
      rw [mem_cons, not_or] at none
      simp [replaceFrom, none.1, ih none.2]
  have whole : replaceFrom "\\".toList "/".toList 0 text.toList = text.toList := same _ none
  rw [Text.replace, whole, String.ofList_toList]

theorem prefix_dropExtension (text : String) : (dropExtension text).toList <+: text.toList := by
  unfold dropExtension
  split
  · unfold dropSuffix
    split
    · rw [String.toList_ofList]
      exact take_prefix _ _
    · exact prefix_rfl
  · exact prefix_rfl

section

variable {names : List String} (valid : ∀ name ∈ names, Path.ValidName name) (plain : ".." ∉ names)
include valid plain

theorem no_dots_of_names :
    ¬ ['/', '.', '.', '/'] <:+: (ofNames names).toList ∧ ¬ ['.', '.', '/'] <+: (ofNames names).toList := by
  have pieces : ['.', '.'] ∉ splitChars (· = '/') (ofNames names).toList := by
    by_cases empty : names = []
    · subst empty
      decide
    · rw [ofNames, toList_toString (.inr empty)]
      change _ ∉ splitChars (· = '/') ([] ++ body names)
      rw [nil_append, body, split_intercalate empty valid]
      intro member
      obtain ⟨name, inNames, same⟩ := mem_map.1 member
      have dots : name = ".." := String.toList_inj.1 same
      exact plain (dots ▸ inNames)
  generalize (ofNames names).toList = text at pieces
  constructor
  · rintro ⟨before, after, rfl⟩
    refine pieces ?_
    have cut : before ++ ['/', '.', '.', '/'] ++ after = before ++ '/' :: (['.', '.'] ++ '/' :: after) := by simp
    rw [cut, splitChars_at _ _ (by simp), splitChars_append _ (by simp) (by simp)]
    simp
  · rintro ⟨after, rfl⟩
    refine pieces ?_
    have cut : ['.', '.', '/'] ++ after = ['.', '.'] ++ '/' :: after := by simp
    rw [cut, splitChars_append _ (by simp) (by simp)]
    simp

theorem route_upright (clear : '\\' ∉ (ofNames names).toList) (lowercase : Bool) :
    Upright (steps ((routeSegments (ofPath lowercase (ofNames names))).map routeFile)) := by
  obtain ⟨inner, start⟩ := no_dots_of_names valid plain
  have shorter := prefix_dropExtension (ofNames names)
  rw [steps_routeSegments, ofPath, fileNames_ofSegments, segments, replace_backslash clear]
  refine .flatMap (fun segment member => ?_)
  obtain ⟨raw, inRaws, adds⟩ := mem_filterMap.1 member
  have grown : Grown raw :=
    { inner := fun within => inner ((within.trans (infix_of_mem_rawSegments inRaws)).trans shorter.isInfix)
      start := fun first => start ((dots_start_of_raw inRaws first).trans shorter)
      closed := fun _ _ dot => closing_after_dot inRaws dot }
  exact upright_ofRaw grown adds

end

end Route
end Refit
