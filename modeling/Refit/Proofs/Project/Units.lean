import Refit.Proofs.Files.Actions
import Refit.Proofs.Project.Locality

open List

namespace Refit

open Path

namespace Entry

mutual

def named : Entry → Bool
  | file _ => true
  | directory entries => namedAll entries

def namedAll : List (String × Entry) → Bool
  | [] => true
  | (name, entry) :: rest => decide (Path.ValidName name) && entry.named && namedAll rest

end

theorem named_directory {entries : List (String × Entry)} :
    (directory entries).named = true ↔ ∀ item ∈ entries, Path.ValidName item.1 ∧ item.2.named = true := by
  rw [named]
  induction entries with
  | nil => simp [namedAll]
  | cons item rest ih =>
    simp [namedAll, ih]

theorem valid_of_get? {tree entry : Entry} {place : List String} (named : tree.named = true)
    (found : tree.get? place = some entry) : ∀ name ∈ place, Path.ValidName name :=
  (get?_descends Path.ValidName named_directory.1 named found).1

end Entry

namespace Disk

/-- A disk as an operating system keeps it: directories list each name once and in order, and every
    name can stand in a path. -/
structure Regular (disk : Disk) : Prop where
  tidy : disk.root.tidy = true
  named : disk.root.named = true
  start : ∀ name ∈ disk.workingDirectory, Path.ValidName name

/-- A text leads from the root of a project to a file of it. -/
def HasUnit (disk : Disk) (root : Path) (relative : String) : Prop :=
  disk.FileBelow root (root.join (ofString relative))

theorem valid_below {disk : Disk} {root : Path} {names : List String} (named : disk.root.named = true)
    (file : disk.FileBelow root (root.below names)) : ∀ name ∈ names, Path.ValidName name := by
  obtain ⟨⟨others, plain, same⟩, content, found⟩ := file
  obtain rfl : names = others := by simpa [Path.below] using same
  obtain ⟨place, located, holds⟩ := entry_ok.1 found
  have reached : place = disk.placeOf root ++ names := by
    rw [eq_placeOf located, placeOf_below disk root plain]
  intro name member
  exact Entry.valid_of_get? named holds name (by simp [reached, member])

end Disk

theorem exists_of_mem_mapM {ε α β : Type} {f : α → Except ε β} {items : List α} {results : List β}
    (done : items.mapM f = .ok results) : ∀ result ∈ results, ∃ item ∈ items, f item = .ok result := by
  induction items generalizing results with
  | nil =>
    cases done
    simp
  | cons item rest ih =>
    rw [mapM_cons] at done
    obtain ⟨value, first, done⟩ := bind_ok done
    obtain ⟨values, others, done⟩ := bind_ok done
    cases done
    refine forall_mem_cons.2 ⟨⟨item, by simp, first⟩, fun result member => ?_⟩
    obtain ⟨origin, inRest, made⟩ := ih others result member
    exact ⟨origin, by simp [inRest], made⟩

def Component.units (component : Component) : List String :=
  component.path :: component.tests ++ component.story.toList

namespace Survey

open Disk

variable {survey : Survey} {path directory : Path} {text : String} {companions : Companions}
  {made : Component × Reading} {found : Structure}

/-- A text is the path of a file of the project, seen from the root. -/
def Tells (survey : Survey) (text : String) : Prop :=
  ∃ path, FileBelow survey.disk survey.root path ∧ survey.relative path = .ok text

theorem seenFrom_ok (seen : seenFrom directory path = .ok text) :
    ∃ names, path = directory.below names ∧ text = ofNames names := by
  unfold seenFrom at seen
  split at seen
  · next names below =>
      cases seen
      exact ⟨names, (below_relativeTo? below).symm, rfl⟩
  · cases seen

theorem Tells.names {text : String} (tells : survey.Tells text) (named : survey.disk.root.named = true) :
    ∃ names, text = ofNames names ∧ Path.Valid ⟨.relative, names⟩ ∧
      FileBelow survey.disk survey.root (survey.root.below names) := by
  obtain ⟨path, file, seen⟩ := tells
  obtain ⟨names, rfl, rfl⟩ := seenFrom_ok seen
  exact ⟨names, rfl, valid_below named file, file⟩

/-- The path of a file leads to the file. -/
theorem Tells.hasUnit (tells : survey.Tells text) (named : survey.disk.root.named = true) :
    HasUnit survey.disk survey.root text := by
  obtain ⟨names, rfl, valid, file⟩ := tells.names named
  have joined : survey.root.join (ofString (ofNames names)) = survey.root.below names := by
    rw [ofNames, ofString_toString valid]
    rfl
  unfold HasUnit
  rwa [joined]

theorem Tells.nonempty (tells : survey.Tells text) (named : survey.disk.root.named = true) : text ≠ "" := by
  obtain ⟨names, rfl, valid, _⟩ := tells.names named
  cases names with
  | nil => decide
  | cons name rest => exact ofNames_ne_empty (valid name (by simp)).1 rest

theorem companionsOf_tells {paths : List Path} (files : ∀ path ∈ paths, FileBelow survey.disk survey.root path)
    (done : survey.companionsOf paths = .ok companions) : ∀ entry ∈ companions, survey.Tells entry.2 := by
  intro entry member
  obtain ⟨path, inPaths, made⟩ := exists_of_mem_mapM done entry member
  obtain ⟨key, _, rest⟩ := bind_ok made
  obtain ⟨relative, seen, last⟩ := bind_ok rest
  cases last
  exact ⟨path, files path inPaths, seen⟩

theorem componentOf_ok (done : survey.componentOf companions path = .ok made) :
    ∃ key, survey.companionKey path.parent path.stem = .ok key ∧ survey.relative path = .ok made.1.path ∧
      made.1.name = path.stem ∧
      made.1.tests = ((companions.filter (fun entry => entry.1 = key)).map (·.2)).filter (fun file => !isStory file) ∧
      made.1.story = ((companions.filter (fun entry => entry.1 = key)).map (·.2)).find? isStory := by
  obtain ⟨relative, seen, rest⟩ := bind_ok done
  obtain ⟨key, keyed, rest⟩ := bind_ok rest
  obtain ⟨reading, _, rest⟩ := bind_ok rest
  split at rest
  all_goals
    cases rest
    exact ⟨key, keyed, seen, rfl, rfl, rfl⟩

theorem componentOf_tells (there : FileBelow survey.disk survey.root path)
    (attached : ∀ entry ∈ companions, survey.Tells entry.2)
    (done : survey.componentOf companions path = .ok made) : ∀ file ∈ made.1.units, survey.Tells file := by
  obtain ⟨key, _, seen, _, tests, story⟩ := componentOf_ok done
  have others : ∀ file ∈ (companions.filter (fun entry => entry.1 = key)).map (·.2), survey.Tells file := by
    intro file member
    obtain ⟨entry, kept, rfl⟩ := mem_map.1 member
    exact attached entry (mem_filter.1 kept).1
  intro file member
  rw [Component.units, tests, story] at member
  rcases mem_append.1 member with member | story
  · rcases mem_cons.1 member with rfl | test
    · exact ⟨path, there, seen⟩
    · exact others file (mem_filter.1 test).1
  · exact others file (mem_of_find?_eq_some (Option.mem_toList.1 story))

theorem components_origin (regular : survey.disk.Regular) (down : LeadsDown found)
    {made : List (Component × Reading)} (done : survey.components found = .ok made) :
    ∃ companions, (∀ entry ∈ companions, survey.Tells entry.2) ∧ ∀ item ∈ made, ∃ path,
      FileBelow survey.disk survey.root path ∧ survey.componentOf companions path = .ok item := by
  have within : (survey.place found.componentsDir).Within survey.root :=
    within_join down.components survey.root
  obtain ⟨paths, walked, rest⟩ := bind_ok done
  obtain ⟨⟨units, companionFiles⟩, separated, rest⟩ := bind_ok rest
  obtain ⟨companions, attached, rest⟩ := bind_ok rest
  have files := files_below regular.tidy within walked
  obtain ⟨own, others⟩ := mem_separate separated
  refine ⟨companions, companionsOf_tells (fun path member => files path (others path member)) attached,
    fun item inMade => ?_⟩
  obtain ⟨path, inUnits, single⟩ := exists_of_mem_mapM rest item inMade
  exact ⟨path, files path (own path inUnits), single⟩

theorem pages_origin (regular : survey.disk.Regular) (down : LeadsDown found) {made : List (Page × Reading)}
    (done : survey.pages found = .ok made) :
    ∀ item ∈ made, ∃ directory path below, directory.Within survey.root ∧ FileBelow survey.disk survey.root path ∧
      survey.relative path = .ok item.1.path ∧ seenFrom directory path = .ok below ∧
      item.1.route = Route.ofPath survey.layout.lowercaseRoutes below := by
  unfold pages at done
  cases named : found.pagesDir.filter (· ≠ "") with
  | none =>
    rw [named] at done
    cases done
    simp
  | some name =>
    have within : (survey.place name).Within survey.root :=
      within_join (down.pages name (Option.filter_eq_some_iff.1 named).1) survey.root
    rw [named] at done
    obtain ⟨paths, walked, rest⟩ := bind_ok done
    obtain ⟨⟨units, companionFiles⟩, separated, rest⟩ := bind_ok rest
    intro item inMade
    obtain ⟨path, inUnits, single⟩ := exists_of_mem_mapM rest item inMade
    have file := files_below regular.tidy within walked path ((mem_separate separated).1 path inUnits)
    obtain ⟨relative, seen, rest⟩ := bind_ok single
    obtain ⟨below, seenBelow, rest⟩ := bind_ok rest
    obtain ⟨reading, _, last⟩ := bind_ok rest
    cases last
    exact ⟨_, path, below, within, file, seen, seenBelow, rfl⟩

theorem styling_tells (regular : survey.disk.Regular) (down : survey.layout.looksDown = true)
    {packages : Tooling.Packages} {made : StyleUse} (done : survey.styling packages = .ok made) :
    ∀ file ∈ made.files, survey.Tells file := by
  have downs := all_eq_true.1 down
  obtain ⟨lists, walked, rest⟩ := bind_ok done
  obtain ⟨files, seen, last⟩ := bind_ok rest
  cases last
  intro file member
  obtain ⟨path, inLists, single⟩ := exists_of_mem_mapM seen file member
  obtain ⟨paths, inWalked, inPaths⟩ := mem_flatten.1 inLists
  obtain ⟨name, listed, found⟩ := exists_of_mem_mapM walked paths inWalked
  have within : (survey.place name).Within survey.root :=
    within_join (downs name (by simp [(mem_filter.1 listed).1])) survey.root
  exact ⟨path, files_below regular.tidy within found path inPaths, single⟩

theorem descends_of_seenFrom (named : survey.disk.root.named = true)
    (within : directory.Within survey.root) (file : FileBelow survey.disk survey.root path)
    (seen : seenFrom directory path = .ok text) :
    ∃ names, ofString text = ⟨.relative, names⟩ ∧ ".." ∉ names := by
  obtain ⟨names, rfl, rfl⟩ := seenFrom_ok seen
  obtain ⟨above, _, rfl⟩ := within
  rw [below_below] at file
  have valid := valid_below named file
  obtain ⟨⟨others, plain, same⟩, _⟩ := file
  obtain rfl : above ++ names = others := by simpa [Path.below] using same
  refine ⟨names, ofString_toString (fun name member => valid name (by simp [member])), ?_⟩
  exact fun member => plain (mem_append_right _ member)

theorem assets_found (regular : survey.disk.Regular) (down : LeadsDown found) {sources : Sources}
    {made : List Asset} (done : survey.assets found sources = .ok made) :
    ∀ asset ∈ made, survey.Tells asset.path ∧
      ∃ names, ofString asset.name = ⟨.relative, names⟩ ∧ ".." ∉ names := by
  obtain ⟨lists, gathered, last⟩ := bind_ok done
  cases last
  intro asset member
  obtain ⟨assets, inLists, inAssets⟩ := mem_flatten.1 member
  obtain ⟨name, listed, found⟩ := exists_of_mem_mapM gathered assets inLists
  have leads : leadsDown name = true := by
    rcases mem_append.1 (mem_filter.1 listed).1 with inPublic | inAssets
    · exact down.publics name (by simpa using inPublic)
    · exact down.assets name (by simpa using inAssets)
  have within : (survey.place name).Within survey.root := within_join leads survey.root
  obtain ⟨paths, walked, rest⟩ := bind_ok found
  obtain ⟨path, kept, single⟩ := exists_of_mem_mapM rest asset inAssets
  have file := files_below regular.tidy within walked path (mem_filter.1 kept).1
  obtain ⟨content, _, rest⟩ := bind_ok single
  obtain ⟨relative, related, rest⟩ := bind_ok rest
  obtain ⟨below, seen, last⟩ := bind_ok rest
  cases last
  exact ⟨⟨path, file, related⟩, descends_of_seenFrom regular.named within file seen⟩

end Survey

/-- An analysis tells of files of a project. -/
structure Analysis.Grounded (disk : Disk) (root : Path) (analysis : Analysis) : Prop where
  there : Path.ofString analysis.root = root
  components : ∀ component ∈ analysis.components, ∀ file ∈ component.units, disk.HasUnit root file
  pages : ∀ page ∈ analysis.pages, disk.HasUnit root page.path
  styles : ∀ file ∈ analysis.styling.files, disk.HasUnit root file
  assets : ∀ asset ∈ analysis.assets, disk.HasUnit root asset.path ∧
    ∃ names, Path.ofString asset.name = ⟨.relative, names⟩ ∧ ".." ∉ names

theorem Report.exec_ofExcept_ok {α : Type} {outcome : Except Fault α} {records after : List Log.Record}
    {value : α} (run : exec (Report.ofExcept outcome) records = (.ok value, after)) : outcome = .ok value := by
  cases outcome with
  | error fault => cases run
  | ok other =>
    cases run
    rfl

namespace Survey

/-- An analysis tells of files that were found in a survey. -/
structure Covers (survey : Survey) (analysis : Analysis) : Prop where
  components : ∀ component ∈ analysis.components, ∀ file ∈ component.units, survey.Tells file
  pages : ∀ page ∈ analysis.pages, survey.Tells page.path
  styles : ∀ file ∈ analysis.styling.files, survey.Tells file
  assets : ∀ asset ∈ analysis.assets, survey.Tells asset.path ∧
    ∃ names, Path.ofString asset.name = ⟨.relative, names⟩ ∧ ".." ∉ names

variable {survey : Survey} {texts : List ExtractedText} {analysis : Analysis} {records after : List Log.Record}

theorem analyze_ok (run : exec (survey.analyze texts) records = (.ok analysis, after)) :
    analysis.root = survey.root.toString ∧ survey.structureOf = .ok analysis.layout ∧
      (∃ made, survey.components analysis.layout = .ok made ∧ analysis.components = made.map (·.1)) ∧
      (∃ made, survey.pages analysis.layout = .ok made ∧ analysis.pages = made.map (·.1)) ∧
      (∃ packages, survey.styling packages = .ok analysis.styling) ∧
      ∃ sources, survey.assets analysis.layout sources = .ok analysis.assets := by
  obtain ⟨_, _, _, run⟩ := exec_bind_ok run
  obtain ⟨_, _, _, run⟩ := exec_bind_ok run
  obtain ⟨found, _, structured, run⟩ := exec_bind_ok run
  obtain ⟨_, _, _, run⟩ := exec_bind_ok run
  obtain ⟨components, _, surveyed, run⟩ := exec_bind_ok run
  obtain ⟨_, _, _, run⟩ := exec_bind_ok run
  obtain ⟨pages, _, paged, run⟩ := exec_bind_ok run
  obtain ⟨_, _, _, run⟩ := exec_bind_ok run
  obtain ⟨styling, _, styled, run⟩ := exec_bind_ok run
  obtain ⟨assets, _, gathered, run⟩ := exec_bind_ok run
  obtain ⟨_, _, _, run⟩ := exec_bind_ok run
  cases run
  exact ⟨rfl, Report.exec_ofExcept_ok structured, ⟨components, Report.exec_ofExcept_ok surveyed, rfl⟩,
    ⟨pages, Report.exec_ofExcept_ok paged, rfl⟩, ⟨_, Report.exec_ofExcept_ok styled⟩, _, Report.exec_ofExcept_ok gathered⟩

theorem analyze_covers (regular : survey.disk.Regular) (down : survey.layout.looksDown = true)
    (run : exec (survey.analyze texts) records = (.ok analysis, after)) :
    analysis.root = survey.root.toString ∧ survey.Covers analysis := by
  obtain ⟨there, structured, ⟨components, surveyed, told⟩, ⟨pages, paged, toldPages⟩, ⟨_, styled⟩, _, gathered⟩ :=
    analyze_ok run
  have leads := structureOf_leadsDown down structured
  obtain ⟨companions, attached, origin⟩ := components_origin regular leads surveyed
  have pageOrigin := pages_origin regular leads paged
  exact ⟨there,
    { components := by
        rw [told]
        refine forall_mem_map.2 (fun item inMade => ?_)
        obtain ⟨path, file, single⟩ := origin item inMade
        exact componentOf_tells file attached single
      pages := by
        rw [toldPages]
        refine forall_mem_map.2 (fun item inMade => ?_)
        obtain ⟨_, path, _, _, file, seen, _⟩ := pageOrigin item inMade
        exact ⟨path, file, seen⟩
      styles := styling_tells regular down styled
      assets := assets_found regular leads gathered }⟩

theorem analyze_grounded (regular : survey.disk.Regular) (valid : survey.root.Valid)
    (down : survey.layout.looksDown = true) (run : exec (survey.analyze texts) records = (.ok analysis, after)) :
    analysis.Grounded survey.disk survey.root := by
  obtain ⟨there, covers⟩ := analyze_covers regular down run
  exact
    { there := by rw [there, ofString_toString valid]
      components := fun component member file unit => (covers.components component member file unit).hasUnit regular.named
      pages := fun page member => (covers.pages page member).hasUnit regular.named
      styles := fun file member => (covers.styles file member).hasUnit regular.named
      assets := fun asset member =>
        ⟨(covers.assets asset member).1.hasUnit regular.named, (covers.assets asset member).2⟩ }

end Survey
end Refit
