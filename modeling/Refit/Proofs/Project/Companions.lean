import Refit.Proofs.Adapter.Faulty

/-!
Components and the files that accompany them. A companion belongs to the component that stands in its
directory, or in the one above a directory of tests, and has its name; no other component lists it.
-/

open List

namespace Refit

open Path DiskAction FileKind

theorem Text.occursIn_append (start part rest : List Char) : Text.occursIn part (start ++ part ++ rest) = true := by
  induction start with
  | nil => cases part <;> cases rest <;> simp [Text.occursIn]
  | cons c start ih =>
    rw [cons_append, cons_append, occursIn, ih, Bool.or_true]

@[simp] theorem parent_child (path : Path) (name : String) : (path.child name).parent = path := by
  simp [child, parent]

theorem forall₂_of_mapM {ε α β : Type} {f : α → Except ε β} {items : List α} {results : List β}
    (done : items.mapM f = .ok results) : List.Forall₂ (fun item result => f item = .ok result) items results := by
  induction items generalizing results with
  | nil =>
    cases done
    exact .nil
  | cons item rest ih =>
    rw [mapM_cons] at done
    obtain ⟨value, first, done⟩ := bind_ok done
    obtain ⟨values, others, done⟩ := bind_ok done
    cases done
    exact .cons first (ih others)

/-- Whether a file is among the companions of a component. -/
def Component.lists (component : Component) (file : String) : Bool :=
  component.tests.contains file || component.story = some file

namespace Survey

open Disk

variable {survey : Survey} {directory path unit : Path} {stem key : String} {names : List String} {paths : List Path}

/-- The names from the root of the project to a file of it. -/
def Leads (survey : Survey) (names : List String) (path : Path) : Prop :=
  path = survey.root.below names ∧ names ≠ [] ∧ ∀ name ∈ names, Path.ValidName name

theorem files_named (regular : survey.disk.Regular) (within : directory.Within survey.root)
    {extensions : List String} (walked : survey.files directory extensions = .ok paths) :
    paths.Nodup ∧ ∀ path ∈ paths, ∃ names, survey.Leads names path := by
  have below := files_below regular.tidy within walked
  unfold files at walked
  cases found : Walk.files ⟨extensions, survey.rules⟩ survey.disk directory survey.root with
  | error fault =>
    rw [found] at walked
    cases walked
  | ok files =>
    rw [found] at walked
    obtain rfl : files = paths := Except.ok.inj walked
    unfold Walk.files at found
    split at found
    · next entries there =>
        obtain ⟨place, located, holds⟩ := entry?_some.1 there
        have tidyTree := Entry.tidy_get? regular.tidy holds
        split at found
        · next names relative =>
            cases found
            refine ⟨(Walk.below_nodup _ names tidyTree).map (fun left right same => ?_), fun path member => ?_⟩
            · simpa [Path.below] using same
            · have file := below path member
              obtain ⟨reached, yielded, rfl⟩ := mem_map.1 member
              obtain ⟨name, rest, rfl⟩ := (Walk.yields_of_mem _ names _ reached yielded).starts
              exact ⟨_, rfl, by simp, valid_below regular.named file⟩
        · cases found
    · cases found
      simp

theorem separate_eq {units companions : List Path} (done : survey.separate paths = .ok (units, companions)) :
    units = paths.filter (fun path => (survey.isCompanion path).toOption = some false) ∧
      companions = paths.filter (fun path => (survey.isCompanion path).toOption = some true) := by
  induction paths generalizing units companions with
  | nil =>
    cases done
    exact ⟨rfl, rfl⟩
  | cons path rest ih =>
    obtain ⟨companion, kind, done⟩ := bind_ok done
    obtain ⟨⟨others, tied⟩, separated, done⟩ := bind_ok done
    obtain ⟨rfl, rfl⟩ := ih separated
    cases companion <;> cases done <;> simp [kind, Except.toOption]

def ownerOf (path : Path) : Path × String :=
  (if path.parent.name = testsDirectory then path.parent.parent else path.parent, beforeDot path.name)

theorem ownerKey_eq (path : Path) : survey.ownerKey path = survey.companionKey (ownerOf path).1 (ownerOf path).2 := rfl

theorem relative_below (names : List String) : survey.relative (survey.root.below names) = .ok (ofNames names) := by
  simp [Survey.relative, seenFrom]

theorem splitChars_key (made : survey.companionKey directory stem = .ok key) (clear : '/' ∉ stem.toList)
    (below : directory = survey.root.below names)
    (valid : ∀ name ∈ names, Path.ValidName name) :
    Text.splitChars (· = '/') key.toList = names.map String.toList ++ [stem.toList] := by
  have own : Text.splitChars (· = '/') stem.toList = [stem.toList] :=
    Text.splitChars_of_none (fun c member => decide_eq_false (fun same => clear (same ▸ member)))
  subst below
  unfold companionKey at made
  split at made
  · next same =>
      cases made
      obtain rfl : names = [] := by
        have lengths := congrArg (fun path => path.names.length) same
        simpa [Path.below] using lengths
      exact own
  · next different =>
      rw [relative_below] at made
      cases made
      have some : names ≠ [] := by
        rintro rfl
        exact different (by simp [Path.below])
      have body : (ofNames names).toList = Path.body names := by
        rw [ofNames, toList_toString (.inr some)]
        rfl
      rw [String.toList_append, String.toList_append, body]
      simp only [append_assoc]
      rw [show "/".toList ++ stem.toList = '/' :: stem.toList from rfl, Text.splitChars_at _ _ (by simp), own, Path.body,
        split_intercalate some valid]

theorem below_of_key (made : survey.companionKey directory stem = .ok key) :
    ∃ names, directory = survey.root.below names := by
  unfold companionKey at made
  split at made
  · next same => exact ⟨[], by simp [same, Path.below]⟩
  · obtain ⟨text, seen, _⟩ := bind_ok made
    obtain ⟨names, below, _⟩ := seenFrom_ok seen
    exact ⟨names, below⟩

section

variable {names : List String} (leads : survey.Leads names path)
include leads

theorem Leads.parent :
    path.parent = survey.root.below names.dropLast := by
  obtain ⟨rfl, some, _⟩ := leads
  exact parent_below some survey.root

theorem Leads.clear_name : '/' ∉ path.name.toList := by
  obtain ⟨rfl, some, valid⟩ := leads
  rw [name_below some]
  exact (valid _ (getLast_mem some)).2.2

theorem Leads.clear_beforeDot :
    '/' ∉ (beforeDot path.name).toList := by
  intro slash
  rw [beforeDot, String.toList_ofList] at slash
  exact leads.clear_name ((takeWhile_sublist _).subset slash)

end

theorem key_eq_iff {otherNames : List String} {otherKey : String} (leads : survey.Leads names path)
    (otherLeads : survey.Leads otherNames unit) (made : survey.ownerKey path = .ok key)
    (otherMade : survey.companionKey unit.parent unit.stem = .ok otherKey) :
    key = otherKey ↔ ownerOf path = (unit.parent, unit.stem) := by
  rw [ownerKey_eq] at made
  constructor
  · intro same
    obtain ⟨above, below⟩ := below_of_key made
    have shorter : above <+: names := by
      have start : (ownerOf path).1.names <+: path.names := by
        have parent (path : List String) : path.dropLast <+: path := dropLast_prefix path
        unfold ownerOf
        split
        · exact (parent _).trans (parent _)
        · exact parent _
      rw [below, leads.1] at start
      exact (prefix_append_right_inj _).1 start
    have first := splitChars_key made leads.clear_beforeDot below
      (fun name member => leads.2.2 name (shorter.subset member))
    have second := splitChars_key otherMade (clear_stem otherLeads.clear_name) otherLeads.parent
      (fun name member => otherLeads.2.2 name ((dropLast_sublist _).subset member))
    rw [same, second] at first
    obtain ⟨directories, stems⟩ := append_inj' first (by simp)
    have equal : otherNames.dropLast = above := map_injective_iff.2 (fun _ _ => String.toList_inj.1) directories
    have stem : unit.stem = (ownerOf path).2 := String.toList_inj.1 (by simpa using stems)
    exact Prod.ext (by rw [below, ← equal, otherLeads.parent]) stem.symm
  · intro same
    rw [same, otherMade] at made
    exact (Except.ok.inj made).symm

def textOf (survey : Survey) (path : Path) : String := (survey.relative path).toOption.getD ""

/-- The first story, among files of the project, of the component of a directory and name. -/
def storyOf? (survey : Survey) (files : List Path) (owner : Path × String) : Option Path :=
  files.find? (fun path => ownerOf path = owner && isStory (survey.textOf path))

theorem Leads.relative (leads : survey.Leads names path) :
    survey.relative path = .ok (survey.textOf path) := by
  rw [textOf, leads.1, relative_below]
  rfl

theorem Leads.textOf_inj {otherNames : List String} {other : Path} (leads : survey.Leads names path)
    (otherLeads : survey.Leads otherNames other) (same : survey.textOf path = survey.textOf other) : path = other := by
  obtain ⟨rfl, _, valid⟩ := leads
  obtain ⟨rfl, _, otherValid⟩ := otherLeads
  simp only [textOf, relative_below] at same
  have read : (⟨.relative, names⟩ : Path) = ⟨.relative, otherNames⟩ := by
    rw [← ofString_toString (show Path.Valid ⟨.relative, names⟩ from valid),
      ← ofString_toString (show Path.Valid ⟨.relative, otherNames⟩ from otherValid)]
    exact congrArg ofString same
  cases read
  rfl

section

variable {files : List Path} {companions : Companions} (tied : survey.companionsOf files = .ok companions)
include tied

theorem ownerKey_of_companionsOf (member : path ∈ files) :
    ∃ key, survey.ownerKey path = .ok key := by
  have pairs := forall₂_of_mapM tied
  clear tied
  induction pairs with
  | nil => cases member
  | cons entered _ ih =>
    rcases mem_cons.1 member with rfl | later
    · obtain ⟨key, keyed, _⟩ := bind_ok entered
      exact ⟨key, keyed⟩
    · exact ih later

theorem attached_eq (leads : ∀ path ∈ files, ∃ names, survey.Leads names path)
    (unitLeads : survey.Leads names unit) (made : survey.companionKey unit.parent unit.stem = .ok key) :
    (companions.filter (fun entry => entry.1 = key)).map (·.2) =
      (files.filter (fun path => ownerOf path = (unit.parent, unit.stem))).map survey.textOf := by
  have pairs := (forall₂_and_left _ _).2 ⟨leads, forall₂_of_mapM tied⟩
  clear tied leads
  induction pairs with
  | nil => rfl
  | @cons path entry _ _ first _ ih =>
    obtain ⟨⟨otherNames, leads⟩, entered⟩ := first
    obtain ⟨ownerKey, keyed, entered⟩ := bind_ok entered
    obtain ⟨text, seen, entered⟩ := bind_ok entered
    cases entered
    obtain rfl : survey.textOf path = text := Except.ok.inj (leads.relative.symm.trans seen)
    have equal := key_eq_iff leads unitLeads keyed made
    by_cases same : ownerKey = key
    · simp [same, equal.1 same, ih]
    · simp [same, mt equal.2 same, ih]

end

section

variable {files : List Path} {companions : Companions} {unit : Path} {names : List String} {component : Component}
  {reading : Reading}

section

variable (tied : survey.companionsOf files = .ok companions)
  (leads : ∀ path ∈ files, ∃ names, survey.Leads names path) (unitLeads : survey.Leads names unit)
  (made : survey.componentOf companions unit = .ok (component, reading))
include tied leads unitLeads made

theorem componentOf_attached :
    survey.relative unit = .ok component.path ∧ component.name = unit.stem ∧
      component.tests = ((files.filter (fun path => ownerOf path = (unit.parent, unit.stem))).map survey.textOf).filter
        (fun file => !isStory file) ∧
      component.story = (survey.storyOf? files (unit.parent, unit.stem)).map survey.textOf := by
  obtain ⟨key, keyed, seen, name, tests, story⟩ := componentOf_ok made
  have attached := attached_eq tied leads unitLeads keyed
  rw [attached] at tests story
  exact ⟨seen, name, tests, by simpa [storyOf?] using story⟩

theorem lists_iff (member : path ∈ files) :
    component.lists (survey.textOf path) = true ↔ ownerOf path = (unit.parent, unit.stem) ∧
      (isStory (survey.textOf path) = true → survey.storyOf? files (ownerOf path) = some path) := by
  obtain ⟨_, _, tests, story⟩ := componentOf_attached tied leads unitLeads made
  obtain ⟨_, here⟩ := leads path member
  have equal {other : Path} (inFiles : other ∈ files) (same : survey.textOf other = survey.textOf path) : other = path := by
    obtain ⟨_, there⟩ := leads other inFiles
    exact there.textOf_inj here same
  have listed : component.lists (survey.textOf path) = true ↔
      survey.textOf path ∈ component.tests ∨ component.story = some (survey.textOf path) := by
    simp [Component.lists]
  rw [listed, tests, story]
  constructor
  · rintro (test | first)
    · obtain ⟨attached, plain⟩ := mem_filter.1 test
      obtain ⟨other, chosen, same⟩ := mem_map.1 attached
      obtain ⟨inFiles, owned⟩ := mem_filter.1 chosen
      obtain rfl := equal inFiles same
      exact ⟨of_decide_eq_true owned, fun story => by simp [story] at plain⟩
    · obtain ⟨other, found, same⟩ := Option.map_eq_some_iff.1 first
      obtain rfl := equal (mem_of_find?_eq_some found) same
      have owned := List.find?_some found
      simp only [Bool.and_eq_true, decide_eq_true_eq] at owned
      exact ⟨owned.1, fun _ => owned.1 ▸ found⟩
  · rintro ⟨owned, first⟩
    cases kind : isStory (survey.textOf path) with
    | false =>
      refine .inl (mem_filter.2 ⟨mem_map_of_mem (mem_filter.2 ⟨member, by simp [owned]⟩), by simp [kind]⟩)
    | true => exact .inr (by rw [← owned, first kind]; rfl)

end

end

/-- The file accompanies the unit of a name in a directory: by a mark after the name, or by the name alone in a
    directory of tests. -/
def Accompanies (directory : Path) (stem : String) (path : Path) : Prop :=
  ∃ ending, (∃ mark ∈ companionMarks, path = directory.child (stem ++ mark ++ ending)) ∨
    path = (directory.child testsDirectory).child (stem ++ "." ++ ending)

theorem beforeDot_append (plain : '.' ∉ stem.toList) {rest : String} (dot : rest.toList.head? = some '.') :
    beforeDot (stem ++ rest) = stem := by
  obtain ⟨tail, dotted⟩ : ∃ tail, rest.toList = '.' :: tail := List.head?_eq_some_iff.1 dot
  have before : ∀ c ∈ stem.toList, decide (c ≠ '.') = true := by
    intro c member
    exact decide_eq_true (fun same => plain (same ▸ member))
  rw [beforeDot, String.toList_append, dotted, takeWhile_append_of_pos before]
  simp

theorem head_mark {mark : String} (known : mark ∈ companionMarks) (ending : String) :
    (mark ++ ending).toList.head? = some '.' := by
  have start : ∀ mark ∈ companionMarks, mark.toList.head? = some '.' := by decide
  rw [String.toList_append, List.head?_append, start mark known]
  rfl

theorem Accompanies.owner (accompanies : Accompanies directory stem path) (plain : '.' ∉ stem.toList)
    (outside : directory.name = testsDirectory → directory = survey.root)
    (keyed : survey.ownerKey path = .ok key) : ownerOf path = (directory, stem) := by
  obtain ⟨ending, ⟨mark, known, rfl⟩ | rfl⟩ := accompanies
  · have other : directory.name ≠ testsDirectory := by
      intro tests
      -- A root that is itself a directory of tests would stand for one that the survey does not reach.
      obtain ⟨names, below⟩ := below_of_key keyed
      rw [parent_child, if_pos tests, outside tests] at below
      have lengths := congrArg (fun path => path.names.length) below
      simp only [Path.parent, Path.below, length_dropLast, length_append] at lengths
      have empty : survey.root.names = [] := length_eq_zero_iff.1 (by omega)
      rw [outside tests, Path.name, empty] at tests
      exact absurd tests (by decide)
    rw [ownerOf, parent_child, if_neg other, name_child, String.append_assoc,
      beforeDot_append plain (head_mark known ending)]
  · rw [ownerOf, parent_child, name_child, if_pos rfl, parent_child, name_child,
      String.append_assoc, beforeDot_append plain (by simp)]

theorem Accompanies.isCompanion (accompanies : Accompanies directory stem path) {above : List String}
    (below : directory = survey.root.below above) : survey.isCompanion path = .ok true := by
  obtain ⟨ending, ⟨mark, known, rfl⟩ | rfl⟩ := accompanies
  · have marked : hasMark (stem ++ mark ++ ending) = true := by
      refine any_eq_true.2 ⟨mark, known, ?_⟩
      rw [Text.contains, String.toList_append, String.toList_append]
      exact Text.occursIn_append _ _ _
    rw [Survey.isCompanion, FileKind.isCompanion, name_child, if_pos marked]
    rfl
  · subst below
    have seen : ((survey.root.below above).child testsDirectory).child (stem ++ "." ++ ending) =
        survey.root.below (above ++ [testsDirectory, stem ++ "." ++ ending]) := by
      simp [Path.child, Path.below]
    rw [seen, Survey.isCompanion, FileKind.isCompanion]
    split
    · rfl
    · rw [relativeTo?_below]
      refine congrArg Except.ok (contains_iff_mem.2 ?_)
      simp

theorem Leads.outside_tests (leads : survey.Leads names unit)
    (single : (survey.isCompanion unit).toOption = some false) :
    unit.parent.name = testsDirectory → unit.parent = survey.root := by
  intro tests
  rw [leads.parent] at tests ⊢
  obtain ⟨rfl, _, _⟩ := leads
  by_cases top : names.dropLast = []
  · simp [top, Path.below]
  · exfalso
    rw [name_below top] at tests
    have under : names.dropLast.contains testsDirectory = true :=
      contains_iff_mem.2 (tests ▸ getLast_mem top)
    rw [Survey.isCompanion, FileKind.isCompanion, relativeTo?_below] at single
    split at single
    · cases single
    · dsimp only at single
      rw [under] at single
      cases single

/-- The component of a unit, and no other one, names a file, and it does so once. -/
def OnlyAt (survey : Survey) (components : List Component) (unit : Path) (file : String) : Prop :=
  ∃ component, components.filter (·.lists file) = [component] ∧ survey.relative unit = .ok component.path ∧
    component.name = unit.stem ∧
    if isStory file then component.story = some file ∧ file ∉ component.tests
    else component.tests.count file = 1 ∧ component.story ≠ some file

section

variable {files units : List Path} {companions : Companions} {made : List (Component × Reading)}

section

variable (tied : survey.companionsOf files = .ok companions)
  (leads : ∀ path ∈ files, ∃ names, survey.Leads names path)
  (unitLeads : ∀ unit ∈ units, ∃ names, survey.Leads names unit)
include tied leads unitLeads

theorem filter_lists (done : units.mapM (survey.componentOf companions) = .ok made) (member : path ∈ files) :
    List.Forall₂ (fun unit item => (∃ names, survey.Leads names unit) ∧ survey.componentOf companions unit = .ok item)
      (units.filter (fun unit => ownerOf path = (unit.parent, unit.stem) ∧
        (isStory (survey.textOf path) = true → survey.storyOf? files (ownerOf path) = some path)))
      (made.filter (fun item => item.1.lists (survey.textOf path))) := by
  refine rel_filter ?_ ((forall₂_and_left _ _).2 ⟨unitLeads, forall₂_of_mapM done⟩)
  rintro unit ⟨component, reading⟩ ⟨⟨_, leadsUnit⟩, single⟩
  exact decide_eq_true_iff.trans (lists_iff tied leads leadsUnit single member).symm

theorem onlyAt_of_filter (nodup : files.Nodup) (done : units.mapM (survey.componentOf companions) = .ok made)
    (member : path ∈ files) (owned : ownerOf path = (unit.parent, unit.stem))
    (first : isStory (survey.textOf path) = true → survey.storyOf? files (ownerOf path) = some path)
    (alone : units.filter (fun unit => ownerOf path = (unit.parent, unit.stem)) = [unit]) :
    survey.OnlyAt (made.map (·.1)) unit (survey.textOf path) := by
  have pairs := filter_lists tied leads unitLeads done member
  simp only [eq_true first, and_true, alone] at pairs
  obtain ⟨⟨component, reading⟩, rest, ⟨⟨_, leadsUnit⟩, single⟩, none, equal⟩ := forall₂_cons_left_iff.1 pairs
  obtain rfl := forall₂_nil_left_iff.1 none
  obtain ⟨seen, named, tests, story⟩ := componentOf_attached tied leads leadsUnit single
  refine ⟨component, ?_, seen, named, ?_⟩
  · rw [filter_map]
    exact congrArg _ equal
  · split
    · next kind =>
        refine ⟨by rw [story, ← owned, first kind]; rfl, fun test => ?_⟩
        rw [tests] at test
        simpa [kind] using (mem_filter.1 test).2
    · next kind =>
        refine ⟨count_eq_one_of_mem ?_ ?_, fun same => ?_⟩
        · rw [tests]
          refine ((nodup.filter _).map_on (fun left inFiles right otherInFiles same => ?_)).filter _
          obtain ⟨_, here⟩ := leads left (mem_filter.1 inFiles).1
          obtain ⟨_, there⟩ := leads right (mem_filter.1 otherInFiles).1
          exact here.textOf_inj there same
        · rw [tests]
          exact mem_filter.2
            ⟨mem_map_of_mem (mem_filter.2 ⟨member, decide_eq_true owned⟩), by simpa using kind⟩
        · obtain ⟨other, found, equalText⟩ := Option.map_eq_some_iff.1 (story.symm.trans same)
          have chosen := List.find?_some found
          simp only [Bool.and_eq_true] at chosen
          exact kind (equalText ▸ chosen.2)

end

end

/-- A file that accompanies a unit is named once, by the component of that unit, and by no other one. There is
    room for one story, so the stories after the first one are named nowhere. -/
theorem analyze_attaches_companions (regular : survey.disk.Regular) (down : survey.layout.looksDown = true)
    {texts : List ExtractedText} {analysis : Analysis} {records after : List Log.Record}
    (run : exec (survey.analyze texts) records = (.ok analysis, after)) :
    ∃ paths units companions,
      survey.files (survey.place analysis.layout.componentsDir) sourceExtensions = .ok paths ∧
      survey.separate paths = .ok (units, companions) ∧
      ∀ unit ∈ units, '.' ∉ unit.stem.toList →
        (∀ other ∈ units, other.parent = unit.parent → other.stem = unit.stem → other = unit) →
        ∀ path ∈ paths, Accompanies unit.parent unit.stem path →
          path ∈ companions ∧ ∃ text, survey.relative path = .ok text ∧
            if isStory text = true ∧ survey.storyOf? companions (unit.parent, unit.stem) ≠ some path then
              analysis.components.filter (·.lists text) = []
            else survey.OnlyAt analysis.components unit text := by
  obtain ⟨_, structured, ⟨made, surveyed, told⟩, _⟩ := analyze_ok run
  obtain ⟨paths, walked, surveyed⟩ := bind_ok surveyed
  obtain ⟨⟨units, files⟩, separated, surveyed⟩ := bind_ok surveyed
  obtain ⟨companions, tied, done⟩ := bind_ok surveyed
  have within := within_join (structureOf_leadsDown down structured).components survey.root
  obtain ⟨nodup, leads⟩ := files_named regular within walked
  obtain ⟨unitsEq, filesEq⟩ := separate_eq separated
  have unitLeads : ∀ unit ∈ units, ∃ names, survey.Leads names unit := by
    intro unit member
    exact leads unit (mem_filter.1 (unitsEq ▸ member)).1
  have fileLeads : ∀ path ∈ files, ∃ names, survey.Leads names path := by
    intro path member
    exact leads path (mem_filter.1 (filesEq ▸ member)).1
  refine ⟨paths, units, files, walked, separated, fun unit inUnits plain sole path inPaths accompanies => ?_⟩
  obtain ⟨_, leadsUnit⟩ := unitLeads unit inUnits
  have companion : path ∈ files := by
    rw [filesEq]
    refine mem_filter.2 ⟨inPaths, ?_⟩
    rw [accompanies.isCompanion leadsUnit.parent]
    rfl
  have owned : ownerOf path = (unit.parent, unit.stem) := by
    have single : (survey.isCompanion unit).toOption = some false := by
      rw [unitsEq] at inUnits
      exact of_decide_eq_true (mem_filter.1 inUnits).2
    obtain ⟨key, keyed⟩ := ownerKey_of_companionsOf tied companion
    exact accompanies.owner plain (leadsUnit.outside_tests single) keyed
  obtain ⟨_, leadsPath⟩ := leads path inPaths
  refine ⟨companion, survey.textOf path, leadsPath.relative, ?_⟩
  rw [told]
  split
  · next later =>
      have none : ¬(isStory (survey.textOf path) = true → survey.storyOf? files (ownerOf path) = some path) := by
        rw [owned]
        exact fun first => later.2 (first later.1)
      have pairs := filter_lists tied fileLeads unitLeads done companion
      simp only [eq_false none, and_false, decide_false, filter_false] at pairs
      rw [filter_map]
      exact congrArg _ (forall₂_nil_left_iff.1 pairs)
  · next first =>
      have alone : units.filter (fun other => ownerOf path = (other.parent, other.stem)) = [unit] := by
        have equal : ∀ other ∈ units, decide (ownerOf path = (other.parent, other.stem)) = decide (other = unit) := by
          intro other inUnits
          rw [owned, decide_eq_decide, Prod.mk.injEq]
          exact ⟨fun same => sole other inUnits same.1.symm same.2.symm, fun same => by simp [same]⟩
        rw [filter_congr equal, filter_eq, count_eq_one_of_mem (unitsEq ▸ nodup.filter _) inUnits]
        rfl
      refine onlyAt_of_filter tied fileLeads unitLeads (filesEq ▸ nodup.filter _) done companion owned (fun kind => ?_) alone
      rw [owned]
      by_contra different
      exact first ⟨kind, different⟩

/-- A project with two components of one name, one of them with tests and two stories. -/
def storybook : Survey :=
  { disk :=
      { root := .directory
          [("project", .directory
            [("src", .directory [("components", .directory
              [("D.stories.tsx", .file []),
               ("D.story.tsx", .file []),
               ("D.test.tsx", .file []),
               ("D.tsx", .file []),
               ("__tests__", .directory [("D.tsx", .file [])]),
               ("forms", .directory [("D.spec.ts", .file []), ("D.tsx", .file [])])])])])]
        workingDirectory := []
        homes := [] }
    root := ⟨.slash, ["project"]⟩
    layout := { source := "" }
    rules := [] }

theorem storybook_runs : ∃ analysis after, exec (storybook.analyze []) [] = (.ok analysis, after) ∧
    analysis.layout.componentsDir = "src/components" ∧
    analysis.components.map (fun component => (component.path, component.tests, component.story)) =
      [("src/components/D.tsx", ["src/components/D.test.tsx", "src/components/__tests__/D.tsx"],
          some "src/components/D.stories.tsx"),
       ("src/components/forms/D.tsx", ["src/components/forms/D.spec.ts"], none)] := by
  have told : (exec (storybook.analyze []) []).1.toOption.map
      (fun analysis => (analysis.layout.componentsDir,
        analysis.components.map (fun component => (component.path, component.tests, component.story)))) =
      some ("src/components",
        [("src/components/D.tsx", ["src/components/D.test.tsx", "src/components/__tests__/D.tsx"],
            some "src/components/D.stories.tsx"),
         ("src/components/forms/D.tsx", ["src/components/forms/D.spec.ts"], none)]) := by
    decide +kernel
  rcases run : exec (storybook.analyze []) [] with ⟨_ | analysis, after⟩
  · rw [run] at told
    cases told
  · rw [run] at told
    exact ⟨analysis, after, rfl, Prod.mk.inj (Option.some.inj told)⟩

theorem analyze_attaches_companions_storybook :
    storybook.disk.Regular ∧ storybook.layout.looksDown = true ∧
      ∃ analysis after, exec (storybook.analyze []) [] = (.ok analysis, after) ∧
        storybook.OnlyAt analysis.components (storybook.place "src/components/D.tsx") "src/components/__tests__/D.tsx" ∧
        storybook.OnlyAt analysis.components (storybook.place "src/components/D.tsx") "src/components/D.stories.tsx" ∧
        analysis.components.filter (·.lists "src/components/D.story.tsx") = [] := by
  have regular : storybook.disk.Regular := ⟨by decide +kernel, by decide +kernel, by decide⟩
  have down : storybook.layout.looksDown = true := by decide +kernel
  obtain ⟨analysis, after, run, there, _⟩ := storybook_runs
  refine ⟨regular, down, analysis, after, run, ?_⟩
  obtain ⟨paths, units, companions, walked, separated, attaches⟩ := analyze_attaches_companions regular down run
  rw [there] at walked
  have found := congrArg Except.toOption walked
  obtain rfl := Option.some.inj found
  have parts := congrArg Except.toOption separated
  obtain ⟨rfl, rfl⟩ := Prod.mk.inj (Option.some.inj parts)
  have attached := attaches (storybook.place "src/components/D.tsx") (by decide +kernel) (by decide +kernel) (by decide +kernel)
  refine ⟨?_, ?_, ?_⟩
  · obtain ⟨_, text, seen, named⟩ := attached (storybook.place "src/components/__tests__/D.tsx") (by decide +kernel)
      ⟨"tsx", .inr (by decide +kernel)⟩
    cases seen
    rwa [if_neg (by decide +kernel)] at named
  · obtain ⟨_, text, seen, named⟩ := attached (storybook.place "src/components/D.stories.tsx") (by decide +kernel)
      ⟨"tsx", .inl ⟨".stories.", by decide, by decide +kernel⟩⟩
    cases seen
    rwa [if_neg (by decide +kernel)] at named
  · obtain ⟨_, text, seen, named⟩ := attached (storybook.place "src/components/D.story.tsx") (by decide +kernel)
      ⟨"tsx", .inl ⟨".story.", by decide, by decide +kernel⟩⟩
    cases seen
    rwa [if_pos (by decide +kernel)] at named

/-- A second story stands beside its component and is found, but no component names it. -/
theorem analyze_omits_story :
    storybook.disk.isFile (storybook.place "src/components/D.tsx") = true ∧
      storybook.disk.isFile (storybook.place "src/components/D.story.tsx") = true ∧
      Accompanies (storybook.place "src/components") "D" (storybook.place "src/components/D.story.tsx") ∧
      ∃ analysis after, exec (storybook.analyze []) [] = (.ok analysis, after) ∧
        ∀ component ∈ analysis.components, component.lists "src/components/D.story.tsx" = false := by
  refine ⟨by decide +kernel, by decide +kernel, ⟨"tsx", .inl ⟨".story.", by decide, by decide +kernel⟩⟩, ?_⟩
  obtain ⟨analysis, after, run, _, told⟩ := storybook_runs
  refine ⟨analysis, after, run, fun component member => ?_⟩
  have none : ∀ entry ∈ analysis.components.map (fun component => (component.path, component.tests, component.story)),
      (entry.2.1.contains "src/components/D.story.tsx" || entry.2.2 = some "src/components/D.story.tsx") = false := by
    rw [told]
    decide +kernel
  exact none _ (mem_map_of_mem member)

end Survey
end Refit
