import Refit.Proofs.Project.Companions
import Refit.Proofs.Run.Distinct

/-!
The marks in the names of companions. The path that is asked for a companion has the marks of its file, and
so has the one that it gets, unless it had to be numbered: the number stands before the extension, where the
mark of a test or a story ends.
-/

open List

namespace Refit

theorem Text.occursIn_iff {part text : List Char} : occursIn part text = true ↔ part <:+: text := by
  refine ⟨Output.infix_of_occursIn, ?_⟩
  rintro ⟨start, rest, rfl⟩
  exact occursIn_append start part rest

theorem Text.infix_beside {c : Char} {part first second : List Char} (clear : c ∉ part)
    (inside : part <:+: first ++ c :: second) : part <:+: first ∨ part <:+: second := by
  obtain ⟨before, after, same⟩ := inside
  rw [append_assoc] at same
  rcases append_eq_append_iff.1 same with ⟨rest, rfl, ends⟩ | ⟨rest, rfl, ends⟩
  · rcases append_eq_append_iff.1 ends with ⟨more, rfl, _⟩ | ⟨more, rfl, stops⟩
    · exact .inl ⟨before, more, by simp⟩
    · cases more with
      | nil => exact .inl ⟨before, [], by simp⟩
      | cons d others =>
        obtain ⟨rfl, _⟩ := List.cons.inj stops
        exact absurd (by simp) clear
  · cases rest with
    | nil =>
      cases part with
      | nil => exact .inl nil_infix
      | cons d others =>
        obtain ⟨rfl, _⟩ := List.cons.inj ends
        exact absurd (by simp) clear
    | cons d others =>
      obtain ⟨_, rfl⟩ := List.cons.inj ends
      exact .inr ⟨others, after, by simp⟩

namespace FileKind

/-- The marks that tell what a companion is. A companion without any is a test. -/
def marksOf (file : String) : List String :=
  if hasMark (Path.ofString file).name then companionMarks.filter (Text.contains (Path.ofString file).name ·)
  else [".test."]

theorem companionMarks_shape : ∀ mark ∈ companionMarks,
    mark.toList.head? = some '.' ∧ mark.toList.count '.' = 2 ∧ '-' ∉ mark.toList := by decide

end FileKind

namespace Path

/-- An extension begins with the last dot of a name. -/
theorem count_suffix (path : Path) : path.suffix.toList.count '.' ≤ 1 := by
  unfold suffix suffixOf
  split
  · next position found =>
      have parts : path.name.toList = (path.name.toList.reverse.dropWhile (· ≠ '.')).reverse ++
          (path.name.toList.reverse.takeWhile (· ≠ '.')).reverse := by
        rw [← reverse_append, takeWhile_append_dropWhile, reverse_reverse]
      have none : '.' ∉ path.name.toList.reverse.takeWhile (· ≠ '.') := by
        intro dot
        simpa using mem_takeWhile_imp dot
      simp only [lastDot] at found
      generalize path.name.toList.reverse.dropWhile (· ≠ '.') = front at parts
      generalize path.name.toList.reverse.takeWhile (· ≠ '.') = ending at parts none found
      rw [parts] at found ⊢
      simp only [length_append, length_reverse, Option.ite_none_right_eq_some, Bool.and_eq_true,
        decide_eq_true_eq] at found
      obtain ⟨⟨⟨longer, _⟩, _⟩, place⟩ := found
      obtain rfl : front.length - 1 = position := by
        rw [← Option.some.inj place]
        omega
      have free : ending.reverse.count '.' = 0 := count_eq_zero.2 (by simpa using none)
      rw [String.toList_ofList, drop_append_of_le_length (by rw [length_reverse]; omega), count_append,
        free, Nat.add_zero]
      refine count_le_length.trans ?_
      rw [length_drop, length_reverse]
      omega
  · simp

theorem names_ofString_ne_nil {text : String} {c : Char} (member : c ∈ text.toList) (slash : c ≠ '/') (dot : c ≠ '.') :
    (ofString text).names ≠ [] := by
  obtain ⟨piece, listed, inside⟩ := @Text.exists_mem_splitChars (· = '/') _ _ member (decide_eq_false slash)
  refine ne_nil_of_mem (mem_filter.2 ⟨mem_map_of_mem listed, ?_⟩)
  have other (text : String) (apart : c ∉ text.toList) : String.ofList piece ≠ text := by
    rintro rfl
    exact apart (by simpa using inside)
  simp [other "" (by simp), other "." (by simpa using dot)]

theorem clear_name_join (base : Path) {text : String} (some : (ofString text).names ≠ []) :
    '/' ∉ (base.join (ofString text)).name.toList := by
  have same : (base.join (ofString text)).name = (ofString text).name := by
    unfold join
    split
    · rfl
    · simp [name, List.getLast?_eq_some_getLast some]
  rw [same]
  exact clear_name (ofString_valid text)

end Path

namespace Output

open FileKind

theorem infix_fromDot {part text : List Char} (inside : '.' :: part <:+: text) :
    '.' :: part <:+: '.' :: (text.dropWhile (· ≠ '.')).drop 1 := by
  obtain ⟨before, after, rfl⟩ := inside
  induction before with
  | nil => exact ⟨[], after, by simp⟩
  | cons c others ih =>
    by_cases dot : c = '.'
    · subst dot
      exact ⟨'.' :: others, after, by simp⟩
    · simpa [dot] using ih

theorem contains_beside (component : Path) (companion : String) :
    ∀ mark ∈ marksOf companion, Text.contains (beside component companion) mark = true := by
  intro mark member
  rw [Text.contains, Text.occursIn_iff]
  unfold marksOf at member
  unfold beside
  split at member
  · next marked =>
      obtain ⟨known, occurs⟩ := mem_filter.1 member
      rw [if_pos marked]
      have head := (companionMarks_shape mark known).1
      cases letters : mark.toList with
      | nil => simp [letters] at head
      | cons c rest =>
        obtain rfl : c = '.' := by simpa [letters] using head
        have inName := Text.occursIn_iff.1 occurs
        rw [letters] at inName
        have chars (rest : String) : (component.stem ++ "." ++ rest).toList =
            component.stem.toList ++ '.' :: rest.toList := by simp
        rw [chars, afterDot, String.toList_ofList]
        exact (infix_fromDot inName).trans (suffix_append _ _).isInfix
  · next plain =>
      rw [if_neg plain]
      rw [mem_singleton.1 member]
      have chars (rest : String) : (component.stem ++ "." ++ ("test." ++ rest)).toList =
          component.stem.toList ++ ".test.".toList ++ rest.toList := by simp
      rw [chars]
      exact infix_append _ _ _

theorem contains_numbered (path : Path) (n : Nat) {mark : String} (known : mark ∈ companionMarks) :
    Text.contains (Names.numbered path n).name mark = Text.contains path.stem mark := by
  obtain ⟨_, dots, clear⟩ := companionMarks_shape mark known
  rw [Names.numbered, Path.name_withName, Bool.eq_iff_iff, Text.contains, Text.contains, Text.occursIn_iff,
    Text.occursIn_iff]
  have chars : (path.stem ++ "-" ++ toString n ++ path.suffix).toList =
      path.stem.toList ++ '-' :: ((toString n).toList ++ path.suffix.toList) := by simp
  rw [chars]
  constructor
  · intro inside
    refine (Text.infix_beside clear inside).resolve_right (fun later => ?_)
    have digits : (toString n).toList.count '.' = 0 := by
      refine count_eq_zero.2 (fun dot => ?_)
      have inDigits : '.' ∈ Nat.toDigits 10 n := by simpa using dot
      exact absurd (Nat.isDigit_of_mem_toDigits (by decide) (by decide) inDigits) (by decide)
    have many := later.sublist.count_le '.'
    have few := path.count_suffix
    rw [count_append] at many
    omega
  · intro inside
    exact inside.trans (prefix_append _ _).isInfix

theorem clear_componentPath (root : Path) (component : Component) (analysis : Analysis) (options : Options) :
    '/' ∉ (componentPath root component analysis options).name.toList := by
  unfold componentPath
  split
  · refine Path.clear_name_join _ (@Path.names_ofString_ne_nil _ 's' ?_ (by decide) (by decide))
    cases isTyped analysis options <;> simp [scriptExtension]
  · refine Path.clear_name_join _ (@Path.names_ofString_ne_nil _ 'x' ?_ (by decide) (by decide))
    cases isTyped analysis options <;> simp [markupExtension]

theorem Names.Offers.clear {path target : Path} (offers : Offers path target) (clear : '/' ∉ path.name.toList) :
    '/' ∉ target.name.toList := by
  rcases offers with rfl | ⟨n, rfl⟩
  · exact clear
  · rw [numbered, Path.name_withName]
    exact (valid_numbered clear n).1.2.2

/-- What a companion asked for and got: the name that was asked for has the marks of its file. If the path had to be
    numbered, only those marks are left that stand before the extension as a whole. -/
structure Marked (file : String) (requested target : Path) : Prop where
  asked : ∀ mark ∈ marksOf file, Text.contains requested.name mark = true
  got : target = requested ∨
    (∃ n : Nat, target = requested.withName (requested.stem ++ "-" ++ toString n ++ requested.suffix)) ∧
      ∀ mark ∈ companionMarks, Text.contains target.name mark = Text.contains requested.stem mark

theorem marked_companion {component target : Path} (clear : '/' ∉ component.name.toList) (companion : String)
    (offers : Names.Offers (companionPath component companion) target) :
    Marked companion (companionPath component companion) target where
  asked := by
    have name : (companionPath component companion).name = beside component companion := by
      rw [companionPath_eq clear, Path.name_below (cons_ne_nil _ _)]
      rfl
    rw [name]
    exact contains_beside component companion
  got := by
    rcases offers with same | ⟨n, rfl⟩
    · exact .inl same
    · exact .inr ⟨⟨n, rfl⟩, fun mark known => contains_numbered _ n known⟩

end Output

namespace Migration

open Session Stage Output

/-- A journal tells where the companions that a run migrated went, and their names are as they should be. -/
def CompanionsMarked (observer : Option Observer) (session final : Session) : Prop :=
  ∃ items held, Untouched session held ∧ Journal items held (prepared observer session).2.1 ∧
    (∀ item ∈ items, ∃ chosen found, final.outcome.analysis = some found ∧ Surveyed session chosen found ∧
      item.Fits (Placed session.output session.options chosen found)) ∧
    final.outcome.migratedFiles = items.filterMap (fun item => item.fate.delivered?.map (·.toString)) ∧
    ∀ item ∈ items, item.role = .test ∨ item.role = .story → ∀ requested target,
      item.fate = .delivered requested target → Marked item.file requested target

/-- Every companion that a run migrates was asked for under a name with its marks, and keeps them, unless its path
    had to be numbered. -/
theorem companions_marked {migration : Migration} {source : String} {observer : Option Observer}
    {texts : List ExtractedText} {world : World} {started : Moment} {session final : Session}
    {told : List Progress} (begins : migration.session source texts world = .ok session)
    (ends : runSession observer started session = (final, told)) : CompanionsMarked observer session final := by
  obtain ⟨_, _, _, _, rfl⟩ := session_eq_ok begins
  obtain ⟨items, held, untouched, journal, fits, _⟩ := runSession_writes observer started _
  have files := (runSession_migratedFiles observer started _).trans journal.migratedFiles_eq
  rw [untouched.files] at files
  rw [ends] at fits files
  refine ⟨items, held, untouched, journal, fits, files, ?_⟩
  intro item member role requested target fate
  obtain ⟨chosen, found, _, _, suits⟩ := fits item member
  obtain ⟨path, asked, offers⟩ := journal.offers item member target (by rw [fate]; rfl)
  obtain rfl : requested = path := by
    rw [fate] at asked
    exact Option.some.inj asked
  have placed := suits requested asked
  obtain ⟨kind, file, _⟩ := item
  rcases role with rfl | rfl
  · cases placed with
    | test _ _ given => exact marked_companion (given.clear (clear_componentPath _ _ _ _)) file offers
  · cases placed with
    | story _ _ given => exact marked_companion (given.clear (clear_componentPath _ _ _ _)) file offers

def matedRegistry : Registry :=
  { plainRegistry with options := { plainRegistry.options with migrateTests := true } }

/-- A world with a component that has a test beside it and another one in a directory of tests. -/
def matedWorld : World :=
  { buttonWorld with
    disk :=
      { root := .directory
          [("project", .directory
            [("lovable.json", .file []),
             ("src", .directory [("components", .directory
               [("A.test.tsx", .file (Text.Utf8.encode "f()")), ("A.tsx", .file (Text.Utf8.encode "<p/>")),
                ("__tests__", .directory [("A.tsx", .file (Text.Utf8.encode "g()"))])])])])]
        workingDirectory := []
        homes := [] } }

def matedSession : Session :=
  (builtin matedRegistry matedRegistry none).fresh ⟨.slash, ["project"]⟩ ⟨.slash, ["out"]⟩ [] matedWorld

theorem mated_begins :
    (builtin matedRegistry matedRegistry none).session "/project" [] matedWorld = .ok matedSession := rfl

theorem mated_ends :
    (runSession none matedWorld.clock.now matedSession).1.outcome.analysis.toList.flatMap
        (fun analysis => analysis.components.map (·.tests)) =
      [["src/components/A.test.tsx", "src/components/__tests__/A.tsx"]] ∧
    (runSession none matedWorld.clock.now matedSession).1.outcome.migratedFiles.take 3 =
      ["/out/src/components/A.jsx", "/out/src/components/A.test.tsx", "/out/src/components/A.test-2.tsx"] := by
  decide +kernel

theorem companions_marked_tested :
    ∃ final told, (builtin matedRegistry matedRegistry none).session "/project" [] matedWorld = .ok matedSession ∧
      runSession none matedWorld.clock.now matedSession = (final, told) ∧
      "/out/src/components/A.test.tsx" ∈ final.outcome.migratedFiles ∧ CompanionsMarked none matedSession final := by
  have migrated : "/out/src/components/A.test.tsx" ∈
      (runSession none matedWorld.clock.now matedSession).1.outcome.migratedFiles.take 3 :=
    mated_ends.2 ▸ mem_cons_of_mem _ mem_cons_self
  exact ⟨_, _, mated_begins, Prod.mk.eta.symm, mem_of_mem_take migrated,
    companions_marked mated_begins Prod.mk.eta.symm⟩

/-- Of two tests of a component the second one gets a number, and its name does not have the mark of a test any
    more. -/
theorem companions_lose_mark :
    (builtin matedRegistry matedRegistry none).session "/project" [] matedWorld = .ok matedSession ∧
      (runSession none matedWorld.clock.now matedSession).1.outcome.analysis.toList.flatMap
          (fun analysis => analysis.components.map (·.tests)) =
        [["src/components/A.test.tsx", "src/components/__tests__/A.tsx"]] ∧
      (runSession none matedWorld.clock.now matedSession).1.outcome.migratedFiles.take 3 =
        ["/out/src/components/A.jsx", "/out/src/components/A.test.tsx", "/out/src/components/A.test-2.tsx"] ∧
      FileKind.hasMark "A.test-2.tsx" = false :=
  ⟨mated_begins, mated_ends.1, mated_ends.2, by decide⟩

end Migration
end Refit
