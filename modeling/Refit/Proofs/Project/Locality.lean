import Refit.Adapter.Basic
import Refit.Proofs.Files.Walk

open List

namespace Refit

open FileKind Path

variable {α : Type} {items : List α} {name text : String} {names : List String} {paths : List Path}

/-- A path that leads down from another one. -/
def Path.Within (path root : Path) : Prop := ∃ names, ".." ∉ names ∧ path = root.below names

def Path.leadsDown (text : String) : Bool :=
  !(ofString text).isAbsolute && !(ofString text).names.isEmpty
    && !(ofString text).names.contains ".."

theorem Path.join_eq_below (down : leadsDown text = true) (root : Path) :
    root.join (ofString text) = root.below (ofString text).names ∧ ".." ∉ (ofString text).names ∧
      (ofString text).names ≠ [] := by
  simp only [leadsDown, Bool.and_eq_true, Bool.not_eq_true'] at down
  refine ⟨by simp [join, down.1.1, below], by simpa using down.2, by simpa using down.1.2⟩

theorem Path.within_join (down : leadsDown text = true) (root : Path) :
    (root.join (ofString text)).Within root := by
  obtain ⟨same, plain, _⟩ := join_eq_below down root
  exact ⟨(ofString text).names, plain, same⟩

theorem Path.within_child (root : Path) (down : name ≠ "..") : (root.child name).Within root :=
  ⟨[name], by simpa using Ne.symm down, rfl⟩

namespace Disk

/-- Two disks hold the same below a path. -/
def SameBelow (root : Path) (disk other : Disk) : Prop :=
  ∀ path : Path, path.Within root → other.entry path = disk.entry path

variable {root path : Path} {disk other : Disk}

section

variable (same : SameBelow root disk other) (within : path.Within root)

include same within

theorem SameBelow.entry? : other.entry? path = disk.entry? path := by
  unfold Disk.entry?
  rw [same path within]

theorem SameBelow.isDirectory : other.isDirectory path = disk.isDirectory path := by
  unfold Disk.isDirectory
  rw [same.entry? within]

theorem SameBelow.isFile : other.isFile path = disk.isFile path := by
  unfold Disk.isFile
  rw [same.entry? within]

theorem SameBelow.exists? : other.exists? path = disk.exists? path := by
  unfold Disk.exists?
  rw [same.entry? within]

theorem SameBelow.readFile : other.readFile path = disk.readFile path := by
  unfold Disk.readFile Disk.readBytes
  rw [same path within]

theorem SameBelow.readText : other.readText path = disk.readText path := by
  unfold Disk.readText
  rw [same.readFile within]

theorem SameBelow.readLossy : other.readLossy path = disk.readLossy path := by
  unfold Disk.readLossy
  rw [same.readFile within]

theorem SameBelow.files (walk : Walk) (base : Path) : walk.files other path base = walk.files disk path base := by
  unfold Walk.files
  rw [same.entry? within]

end

/-- Nothing is found below a path. -/
def Bare (disk : Disk) (root : Path) : Prop :=
  ∀ names, names ≠ [] → ".." ∉ names → disk.entry? (root.below names) = none

theorem SameBelow.manifest (same : SameBelow root disk other) : Manifest.load other root = Manifest.load disk root := by
  have within : (root.child "package.json").Within root := within_child root (by decide)
  simp only [Manifest.load, same.exists? within, same.readText within]

end Disk

theorem Entry.no_dots {tree entry : Entry} (tidy : tree.tidy = true) {place : List String}
    (found : tree.get? place = some entry) : ".." ∉ place :=
  fun member => (get?_descends (· ≠ "..") (fun ordered => (tidy_directory.1 ordered).1) tidy found).1 _ member rfl

theorem Path.below_relativeTo? {path base : Path}
    (relative : path.relativeTo? base = some names) : base.below names = path := by
  unfold relativeTo? at relative
  split at relative
  · next under =>
      simp only [Bool.and_eq_true] at under
      obtain ⟨rest, joined⟩ := isPrefixOf_iff_prefix.1 under.2
      have names : base.names ++ path.names.drop base.names.length = path.names := by
        rw [← joined, drop_left]
      obtain ⟨root, pathNames⟩ := path
      simp_all [below]
  · cases relative

theorem Path.below_below (path : Path) (first second : List String) :
    (path.below first).below second = path.below (first ++ second) := by
  simp [below]

namespace Disk

variable {root path directory base : Path} {disk other : Disk}

theorem entry_below {tree entry : Entry} (found : disk.entry path = .ok tree)
    (plain : ".." ∉ names) (inner : tree.get? names = some entry) : disk.entry (path.below names) = .ok entry := by
  obtain ⟨place, located, holds⟩ := entry_ok.1 found
  have reached : disk.root.get? (place ++ names) = some entry := by
    rw [Entry.get?_append, holds]
    exact inner
  refine entry_ok.2 ⟨place ++ names, ?_, reached⟩
  unfold locate at located ⊢
  rw [absoluteNames_below, locateFrom_append, located]
  exact locateFrom_plain plain (by simp [Entry.at?, reached])

/-- A path leads down to a file. -/
def FileBelow (disk : Disk) (root path : Path) : Prop :=
  path.Within root ∧ ∃ content, disk.entry path = .ok (.file content)

theorem Walk_files_below {walk : Walk} (tidy : disk.root.tidy = true)
    (within : directory.Within root) (walked : walk.files disk directory base = .ok paths) :
    ∀ path ∈ paths, FileBelow disk root path := by
  unfold Walk.files at walked
  split at walked
  · next entries found =>
      obtain ⟨place, located, holds⟩ := entry?_some.1 found
      have tidyTree := Entry.tidy_get? tidy holds
      cases relative : directory.relativeTo? base with
      | none => simp [relative] at walked
      | some names =>
        simp only [relative, Except.ok.injEq] at walked
        subst walked
        intro path member
        obtain ⟨reached, yielded, rfl⟩ := mem_map.1 member
        obtain ⟨rest, content, rfl, inner⟩ := (walk.yields_of_mem names _ reached yielded).there tidyTree
        have plain := Entry.no_dots tidyTree inner
        obtain ⟨above, down, rfl⟩ := within
        rw [← below_below, below_relativeTo? relative]
        refine ⟨⟨above ++ rest, by simp [down, plain], below_below _ _ _⟩, content, ?_⟩
        exact entry_below (entry_ok.2 ⟨place, located, holds⟩) plain inner
  · cases walked
    simp

end Disk

theorem mapM_congr {ε β : Type} {f g : α → Except ε β} (same : ∀ item ∈ items, f item = g item) :
    items.mapM f = items.mapM g := by
  induction items with
  | nil => rfl
  | cons item rest ih =>
    rw [mapM_cons, mapM_cons, same item (by simp), ih (fun other member => same other (by simp [member]))]

theorem any_congr_mem {p q : α → Bool} (same : ∀ item ∈ items, p item = q item) :
    items.any p = items.any q := by
  induction items with
  | nil => rfl
  | cons item rest ih =>
    rw [any_cons, any_cons, same item (by simp), ih (fun other member => same other (by simp [member]))]

theorem find?_congr_mem {p q : α → Bool} (same : ∀ item ∈ items, p item = q item) :
    items.find? p = items.find? q := by
  induction items with
  | nil => rfl
  | cons item rest ih =>
    rw [List.find?_cons, List.find?_cons, same item (by simp), ih (fun other member => same other (by simp [member]))]

namespace Dialect

open Disk

variable {root : Path} {disk other : Disk} {rules : List IgnoreRule} {dialect : Dialect}

theorem someM_congr {f g : α → Except Fault Bool} {items : List α} (same : ∀ item ∈ items, f item = g item) :
    someM f items = someM g items := by
  induction items with
  | nil => rfl
  | cons item rest ih =>
    simp only [someM, same item (by simp), ih (fun other member => same other (by simp [member]))]

/-- The places that the signals of a framework look at are below the project. -/
def looksDown (dialect : Dialect) : Bool :=
  (dialect.profile.markerFiles ++ dialect.profile.layoutDirs ++ dialect.profile.scanDirs).all leadsDown

theorem usedIn_local (tidy : disk.root.tidy = true) (same : SameBelow root disk other)
    (down : leadsDown name = true) : dialect.usedIn rules other root name = dialect.usedIn rules disk root name := by
  have within : (placeOf root name).Within root := within_join down root
  simp only [usedIn, same.isDirectory within, same.files within]
  split
  · rfl
  · cases walked : Walk.files ⟨sourceExtensions, rules⟩ disk (placeOf root name) root with
    | error fault => rfl
    | ok paths =>
      refine someM_congr (fun path member => ?_)
      have file := Walk_files_below tidy within walked path member
      simp only [usesToken, same.readLossy file.1]

theorem hasRouteModule_local (same : SameBelow root disk other) (down : leadsDown name = true) :
    hasRouteModule rules other root name = hasRouteModule rules disk root name := by
  have within : (placeOf root name).Within root := within_join down root
  simp only [hasRouteModule, same.isDirectory within, same.files within]

section

variable (tidy : disk.root.tidy = true) (same : SameBelow root disk other) (down : dialect.looksDown = true)
include tidy same down

theorem check_local (signal : Signal) :
    dialect.check rules other root signal = dialect.check rules disk root signal := by
  have downs : ∀ name ∈ dialect.profile.markerFiles ++ dialect.profile.layoutDirs ++ dialect.profile.scanDirs,
      leadsDown name = true := all_eq_true.1 down
  have within : ∀ name ∈ dialect.profile.markerFiles ++ dialect.profile.layoutDirs ++ dialect.profile.scanDirs,
      (placeOf root name).Within root := fun name member => within_join (downs name member) root
  cases signal with
  | markerFile =>
    simp only [check]
    rw [any_congr_mem (fun name member => same.exists? (within name (by simp [member])))]
  | dependency => simp only [check, same.manifest]
  | layoutDirectory =>
    simp only [check]
    rw [any_congr_mem (fun name member => same.isDirectory (within name (by simp [member])))]
  | usage =>
    simp only [check]
    rw [someM_congr (fun name member => usedIn_local tidy same (downs name (by simp [member])))]
  | remixStack => simp only [check, same.manifest]
  | routeModules =>
    refine someM_congr (fun name member => hasRouteModule_local same ?_)
    revert name
    decide

theorem recognises_local :
    dialect.recognises rules other root = dialect.recognises rules disk root := by
  have here : root.Within root := ⟨[], by simp, by simp [Path.below]⟩
  simp only [recognises, checks, same.isDirectory here, check_local tidy same down]

end

theorem someM_false {f : α → Except Fault Bool} {items : List α} (fails : ∀ item ∈ items, f item = .ok false) :
    someM f items = .ok false := by
  induction items with
  | nil => rfl
  | cons item rest ih =>
    simp only [someM, fails item (by simp)]
    exact ih (fun other member => fails other (by simp [member]))

theorem tryChecks_false {outcomes : List (String × Except Fault Bool)}
    (fails : ∀ check ∈ outcomes, check.2 = .ok false) : dialect.tryChecks root outcomes = pure false := by
  induction outcomes with
  | nil => rfl
  | cons check rest ih =>
    obtain ⟨name, outcome⟩ := check
    obtain rfl := fails (name, outcome) (by simp)
    exact ih (fun other member => fails other (by simp [member]))

theorem check_bare (bare : disk.Bare root) (down : dialect.looksDown = true) (signal : Signal) :
    dialect.check rules disk root signal = .ok false := by
  have downs : ∀ name ∈ dialect.profile.markerFiles ++ dialect.profile.layoutDirs ++ dialect.profile.scanDirs,
      leadsDown name = true := all_eq_true.1 down
  have missing : ∀ name, leadsDown name = true → disk.entry? (placeOf root name) = none := by
    intro name leads
    obtain ⟨same, plain, nonempty⟩ := join_eq_below leads root
    rw [placeOf, same]
    exact bare _ nonempty plain
  have noManifest : Manifest.load disk root = .ok [] := by
    have gone : disk.entry? (root.child "package.json") = none := bare ["package.json"] (by simp) (by decide)
    simp [Manifest.load, exists?, gone, pure, Except.pure]
  have noPackages : Manifest.packageNames [] = [] := rfl
  cases signal with
  | markerFile =>
    have absent : dialect.profile.markerFiles.any (fun name => disk.exists? (placeOf root name)) = false := by
      refine any_eq_false.2 (fun name member => ?_)
      simp [exists?, missing name (downs name (by simp [member]))]
    simp [check, absent]
  | dependency => simp [check, noManifest, noPackages, bind, Except.bind, pure, Except.pure]
  | layoutDirectory =>
    have absent : dialect.profile.layoutDirs.any (fun name => disk.isDirectory (placeOf root name)) = false := by
      refine any_eq_false.2 (fun name member => ?_)
      simp [isDirectory, missing name (downs name (by simp [member]))]
    simp [check, absent]
  | usage =>
    simp only [check]
    split
    · rfl
    · refine someM_false (fun name member => ?_)
      simp [usedIn, isDirectory, missing name (downs name (by simp [member])), pure, Except.pure]
  | remixStack => simp [check, noManifest, noPackages, bind, Except.bind, pure, Except.pure]
  | routeModules =>
    refine someM_false (fun name member => ?_)
    have leads : ∀ name ∈ routeDirectories, leadsDown name = true := by decide
    simp [hasRouteModule, isDirectory, missing name (leads name member)]

theorem recognises_bare (bare : disk.Bare root) (down : dialect.looksDown = true) :
    dialect.recognises rules disk root = pure false := by
  unfold recognises
  split
  · refine tryChecks_false (fun check member => ?_)
    obtain ⟨signal, _, rfl⟩ := mem_map.1 member
    exact check_bare bare down signal
  · rfl

end Dialect

/-- The places of a layout are below the project. -/
def Layout.looksDown (layout : Layout) : Bool :=
  (layout.sourceDirs ++ layout.componentDirs ++ layout.pageDirs ++ layout.styleDirs ++ layout.assetDirs
    ++ layout.publicDirs ++ layout.testDirs ++ layout.typescriptMarks ++ layout.configFiles).all leadsDown

namespace Survey

open Disk

variable {names : List String} {name : String} {found : Structure} {path : Path}

def on (survey : Survey) (other : Disk) : Survey := { survey with disk := other }

variable {survey : Survey} {other : Disk}

section

variable (same : SameBelow survey.root survey.disk other) (down : ∀ name ∈ names, leadsDown name = true)
include same down

theorem firstDirectory?_local :
    (survey.on other).firstDirectory? names = survey.firstDirectory? names :=
  find?_congr_mem (fun name member => same.isDirectory (within_join (down name member) survey.root))

theorem directoryOf_local :
    (survey.on other).directoryOf names = survey.directoryOf names := by
  unfold directoryOf
  rw [firstDirectory?_local same down]

end

theorem structureOf_local (same : SameBelow survey.root survey.disk other)
    (down : survey.layout.looksDown = true) : (survey.on other).structureOf = survey.structureOf := by
  simp only [Layout.looksDown, all_append, Bool.and_eq_true, all_eq_true, and_assoc] at down
  obtain ⟨sources, components, pages, styles, assets, publics, tests, marks, configs⟩ := down
  have within {names : List String} (down : ∀ name ∈ names, leadsDown name = true) (name : String)
      (member : name ∈ names) : (survey.place name).Within survey.root := within_join (down name member) survey.root
  have sourceDir := directoryOf_local same sources
  have componentsDir := directoryOf_local same components
  have pagesDir := firstDirectory?_local same pages
  have stylesDir := firstDirectory?_local same styles
  have assetsDir := firstDirectory?_local same assets
  have publicDir := firstDirectory?_local same publics
  have configFiles := filter_congr (fun name member => same.isFile (within configs name member))
  have marked := any_congr_mem (fun name member => same.exists? (within marks name member))
  have tested := any_congr_mem (fun name member => same.isDirectory (within tests name member))
  unfold structureOf
  dsimp only [on, place] at *
  simp only [sourceDir, componentsDir, pagesDir, stylesDir, assetsDir, publicDir, configFiles, marked, tested]

/-- The directories and files that were found are below the project. -/
structure LeadsDown (found : Structure) : Prop where
  components : leadsDown found.componentsDir = true
  pages : ∀ name ∈ found.pagesDir, leadsDown name = true
  assets : ∀ name ∈ found.assetsDir, leadsDown name = true
  publics : ∀ name ∈ found.publicDir, leadsDown name = true
  configurations : ∀ name ∈ found.configFiles, leadsDown name = true

theorem mem_of_firstDirectory? (found : name ∈ survey.firstDirectory? names) : name ∈ names :=
  mem_of_find?_eq_some found

theorem mem_of_directoryOf (found : survey.directoryOf names = .ok name) : name ∈ names := by
  unfold directoryOf at found
  split at found
  · next first =>
      cases found
      exact mem_of_firstDirectory? (Option.mem_def.2 (Option.filter_eq_some_iff.1 first).1)
  · cases found
    simp
  · cases found

theorem structureOf_leadsDown (down : survey.layout.looksDown = true) (done : survey.structureOf = .ok found) :
    LeadsDown found := by
  have downs := all_eq_true.1 down
  unfold structureOf at done
  cases sources : survey.directoryOf survey.layout.sourceDirs with
  | error fault => simp [sources, bind, Except.bind] at done
  | ok sourceDir =>
    cases components : survey.directoryOf survey.layout.componentDirs with
    | error fault => simp [sources, components, bind, Except.bind] at done
    | ok componentsDir =>
      simp only [sources, components, bind, Except.bind, pure, Except.pure, Except.ok.injEq] at done
      subst done
      refine ⟨downs _ (by simp [mem_of_directoryOf components]), ?_, ?_, ?_, ?_⟩
      iterate 3 exact fun name member => downs name (by simp [mem_of_firstDirectory? member])
      exact fun name member => downs name (by simp [(mem_filter.1 member).1])

theorem files_local (same : SameBelow survey.root survey.disk other) {directory : Path}
    (within : directory.Within survey.root) (extensions : List String) :
    (survey.on other).files directory extensions = survey.files directory extensions := by
  unfold files
  dsimp only [on]
  rw [same.files within]

theorem files_below (tidy : survey.disk.root.tidy = true) {directory : Path} (within : directory.Within survey.root)
    {extensions : List String} {paths : List Path} (walked : survey.files directory extensions = .ok paths) :
    ∀ path ∈ paths, FileBelow survey.disk survey.root path := by
  unfold files at walked
  cases found : Walk.files ⟨extensions, survey.rules⟩ survey.disk directory survey.root with
  | error fault =>
    rw [found] at walked
    cases walked
  | ok files =>
    rw [found] at walked
    obtain rfl : files = paths := Except.ok.inj walked
    exact Walk_files_below tidy within found

theorem separate_local (paths : List Path) : (survey.on other).separate paths = survey.separate paths := by
  induction paths with
  | nil => rfl
  | cons path rest ih =>
    simp only [separate, ih]
    rfl

theorem mem_separate {units companions : List Path} (done : survey.separate paths = .ok (units, companions)) :
    (∀ path ∈ units, path ∈ paths) ∧ ∀ path ∈ companions, path ∈ paths := by
  induction paths generalizing units companions with
  | nil =>
    cases done
    simp
  | cons path rest ih =>
    simp only [separate, bind, Except.bind] at done
    split at done
    · cases done
    · split at done
      · cases done
      · next others separated =>
          obtain ⟨inUnits, inCompanions⟩ := ih separated
          split at done
          · cases done
            exact ⟨fun other member => mem_cons_of_mem _ (inUnits other member), forall_mem_cons.2
              ⟨by simp, fun other member => mem_cons_of_mem _ (inCompanions other member)⟩⟩
          · cases done
            exact ⟨forall_mem_cons.2
              ⟨by simp, fun other member => mem_cons_of_mem _ (inUnits other member)⟩,
              fun other member => mem_cons_of_mem _ (inCompanions other member)⟩

variable (same : SameBelow survey.root survey.disk other)

include same

theorem readUnit_local (within : path.Within survey.root) (relative : String) :
    (survey.on other).readUnit path relative = survey.readUnit path relative := by
  unfold readUnit
  dsimp only [on]
  rw [same.readText within]

theorem componentOf_local (within : path.Within survey.root) (companions : Companions) :
    (survey.on other).componentOf companions path = survey.componentOf companions path := by
  unfold componentOf
  simp only [readUnit_local same within]
  rfl

theorem components_local (tidy : survey.disk.root.tidy = true) (down : LeadsDown found) :
    (survey.on other).components found = survey.components found := by
  have within : (survey.place found.componentsDir).Within survey.root :=
    within_join down.components survey.root
  have walked : (survey.on other).files ((survey.on other).place found.componentsDir) sourceExtensions =
      survey.files (survey.place found.componentsDir) sourceExtensions := files_local same within _
  unfold components
  rw [walked]
  cases files : survey.files (survey.place found.componentsDir) sourceExtensions with
  | error fault => rfl
  | ok paths =>
    simp only [bind, Except.bind, separate_local]
    cases separated : survey.separate paths with
    | error fault => rfl
    | ok parts =>
      obtain ⟨units, companionFiles⟩ := parts
      have below := files_below tidy within files
      have own := (mem_separate separated).1
      dsimp only
      have attached : (survey.on other).companionsOf companionFiles = survey.companionsOf companionFiles := rfl
      rw [attached]
      cases survey.companionsOf companionFiles with
      | error fault => rfl
      | ok companions =>
        exact mapM_congr (fun path member => componentOf_local same (below path (own path member)).1 companions)

theorem pageOf_local (within : path.Within survey.root) (directory : Path) :
    (survey.on other).pageOf directory path = survey.pageOf directory path := by
  unfold pageOf
  simp only [readUnit_local same within]
  rfl

theorem pages_local (tidy : survey.disk.root.tidy = true) (down : LeadsDown found) :
    (survey.on other).pages found = survey.pages found := by
  unfold pages
  cases named : found.pagesDir.filter (· ≠ "") with
  | none => rfl
  | some name =>
    have within : (survey.place name).Within survey.root :=
      within_join (down.pages name (Option.filter_eq_some_iff.1 named).1) survey.root
    have walked : (survey.on other).files ((survey.on other).place name) sourceExtensions =
        survey.files (survey.place name) sourceExtensions := files_local same within _
    dsimp only
    rw [walked]
    cases files : survey.files (survey.place name) sourceExtensions with
    | error fault => rfl
    | ok paths =>
      simp only [bind, Except.bind, separate_local]
      cases separated : survey.separate paths with
      | error fault => rfl
      | ok parts =>
        have below := files_below tidy within files
        have own := (mem_separate separated).1
        exact mapM_congr (fun path member => pageOf_local same (below path (own path member)).1 _)

theorem styling_local (down : survey.layout.looksDown = true) (packages : Tooling.Packages) :
    (survey.on other).styling packages = survey.styling packages := by
  have downs := all_eq_true.1 down
  have within : ∀ name ∈ survey.layout.styleDirs, (survey.place name).Within survey.root :=
    fun name member => within_join (downs name (by simp [member])) survey.root
  have there : survey.layout.styleDirs.filter (fun name => other.isDirectory (survey.place name)) =
      survey.layout.styleDirs.filter (fun name => survey.disk.isDirectory (survey.place name)) :=
    filter_congr (fun name member => same.isDirectory (within name member))
  have walked : (survey.layout.styleDirs.filter (fun name => survey.disk.isDirectory (survey.place name))).mapM
        (fun name => (survey.on other).files (survey.place name) styleExtensions) =
      (survey.layout.styleDirs.filter (fun name => survey.disk.isDirectory (survey.place name))).mapM
        (fun name => survey.files (survey.place name) styleExtensions) :=
    mapM_congr (fun name member => files_local same (within name (mem_filter.1 member).1) _)
  unfold styling
  dsimp only [on, place] at *
  rw [there, walked]
  rfl

theorem assetOf_local (within : path.Within survey.root) (sources : Sources) (directory : Path) :
    (survey.on other).assetOf sources directory path = survey.assetOf sources directory path := by
  unfold assetOf
  dsimp only [on]
  rw [same.readFile within]
  rfl

theorem assetsIn_local (tidy : survey.disk.root.tidy = true) (sources : Sources) (down : leadsDown name = true) :
    (survey.on other).assetsIn sources name = survey.assetsIn sources name := by
  have within : (survey.place name).Within survey.root := within_join down survey.root
  have walked : (survey.on other).files ((survey.on other).place name) [] = survey.files (survey.place name) [] :=
    files_local same within _
  unfold assetsIn
  dsimp only
  rw [walked]
  cases files : survey.files (survey.place name) [] with
  | error fault => rfl
  | ok paths =>
    have below := files_below tidy within files
    exact mapM_congr (fun path member => assetOf_local same (below path (mem_filter.1 member).1).1 _ _)

theorem assets_local (tidy : survey.disk.root.tidy = true) (down : LeadsDown found) (sources : Sources) :
    (survey.on other).assets found sources = survey.assets found sources := by
  unfold assets
  rw [mapM_congr (fun name member => assetsIn_local same tidy sources ?_)]
  rcases mem_append.1 (mem_filter.1 member).1 with inPublic | inAssets
  · exact down.publics name (by simpa using inPublic)
  · exact down.assets name (by simpa using inAssets)

theorem configurationOf_local (down : leadsDown name = true) :
    (survey.on other).configurationOf name = survey.configurationOf name := by
  have within : (survey.place name).Within survey.root := within_join down survey.root
  unfold configurationOf
  have read : (survey.on other).disk.readLossy ((survey.on other).place name) =
      survey.disk.readLossy (survey.place name) := same.readLossy within
  rw [read]

theorem configurations_local (down : LeadsDown found) :
    (survey.on other).configurations found = survey.configurations found := by
  refine mapM_congr (fun name member => ?_)
  rw [configurationOf_local same (down.configurations name (mem_filter.1 member).1)]

theorem analyze_local (tidy : survey.disk.root.tidy = true)
    (down : survey.layout.looksDown = true) (texts : List ExtractedText) :
    (survey.on other).analyze texts = survey.analyze texts := by
  have locks : lockFiles.filter (fun name => other.exists? (survey.place name)) =
      lockFiles.filter (fun name => survey.disk.exists? (survey.place name)) := by
    refine filter_congr (fun name member => same.exists? (within_join ?_ survey.root))
    revert name
    decide
  have manifest : Manifest.load other survey.root = Manifest.load survey.disk survey.root := same.manifest
  have structures := structureOf_local same down
  cases done : survey.structureOf with
  | error fault =>
    simp only [analyze, structures, done, Report.ofExcept, throw_bind]
    dsimp only [on]
    rw [manifest]
  | ok found =>
    have leads := structureOf_leadsDown down done
    have within : (survey.place found.componentsDir).Within survey.root :=
      within_join leads.components survey.root
    have noted : (survey.on other).noteMissing found = survey.noteMissing found := by
      have there : (survey.on other).disk.isDirectory ((survey.on other).place found.componentsDir) =
          survey.disk.isDirectory (survey.place found.componentsDir) := same.isDirectory within
      simp only [noteMissing, there]
      rfl
    simp only [analyze, structures, done, Report.ofExcept, pure_bind, noted,
      components_local same tidy leads, pages_local same tidy leads, styling_local same down,
      assets_local same tidy leads, configurations_local same leads]
    dsimp only [on, place] at *
    rw [manifest, locks]

end Survey

end Refit
