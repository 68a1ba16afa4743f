import Refit.Proofs.Project.Units
import Refit.Run.World

namespace Refit

variable {path : Path}

namespace Disk

variable {start disk after : Disk} {root path : Path} {place : List String} {made put : List String → Prop}

/-- At a place there is a file of the project. -/
def ProjectFile (disk : Disk) (root : Path) (place : List String) : Prop :=
  disk.placeOf root <+: place ∧ ∃ content, disk.at? place = some (.file content)

/-- A disk keeps the files of a project as they were at the start. -/
structure Keeps (start : Disk) (root : Path) (disk : Disk) : Prop where
  workingDirectory : disk.workingDirectory = start.workingDirectory
  homes : disk.homes = start.homes
  tidy : disk.root.tidy = true
  directories : ∀ place, start.at? place = some .directory → disk.at? place = some .directory
  files : ∀ place content, start.placeOf root <+: place → start.at? place = some (.file content) →
    disk.at? place = some (.file content)

theorem Keeps.refl (tidy : start.root.tidy = true) (root : Path) : Keeps start root start :=
  ⟨rfl, rfl, tidy, fun _ => id, fun _ _ _ => id⟩

theorem Keeps.changes (keeps : Keeps start root disk) (changes : Changes put disk after)
    (spared : ∀ place, put place → ¬ start.ProjectFile root place) : Keeps start root after where
  workingDirectory := changes.workingDirectory.trans keeps.workingDirectory
  homes := changes.homes.trans keeps.homes
  tidy := changes.tidy keeps.tidy
  directories place stands := changes.directories place (keeps.directories place stands)
  files place content below stands :=
    changes.kept place content (fun on => spared place on ⟨below, content, stands⟩)
      (keeps.files place content below stands)

theorem Keeps.placeOf (keeps : Keeps start root disk) (path : Path) : disk.placeOf path = start.placeOf path :=
  placeOf_congr keeps.workingDirectory path

theorem placeOf_within (within : path.Within root) : start.placeOf root <+: start.placeOf path := by
  obtain ⟨names, plain, rfl⟩ := within
  rw [placeOf_below start root plain]
  exact List.prefix_append _ _

theorem Keeps.entry (keeps : Keeps start root disk) (file : start.FileBelow root path) :
    disk.entry path = start.entry path := by
  obtain ⟨within, content, found⟩ := file
  obtain ⟨place, located, holds⟩ := entry_ok.1 found
  have below : start.placeOf root <+: place := by
    rw [eq_placeOf located]
    exact placeOf_within within
  have stands := keeps.files place content below (Entry.at?_file.2 holds)
  rw [found]
  exact entry_ok.2 ⟨place, locate_mono keeps.workingDirectory keeps.directories located, Entry.at?_file.1 stands⟩

theorem Keeps.readText (keeps : Keeps start root disk) (file : start.FileBelow root path) :
    disk.readText path = start.readText path := by
  unfold Disk.readText Disk.readFile readBytes
  rw [keeps.entry file]

section

variable (touched : Touched (fun _ => False) put disk after)
  (files : ∀ place, put place → ∃ content, disk.at? place = some (.file content))
include touched files

theorem Touched.isDirectory (probe : List String) :
    (after.at? probe).map Standing.isDirectory = (disk.at? probe).map Standing.isDirectory := by
  induction touched with
  | refl => rfl
  | tail _ touch ih =>
    rw [← ih]
    cases touch with
    | directory _ _ there => exact there.elim
    | file content located notDirectory there =>
      rw [@at?_put_leaf _ _ (.file content) (fun _ _ => rfl) (inside_of_locate located) notDirectory probe]
      split
      · next same =>
          subst same
          obtain ⟨old, stands⟩ := files _ there
          rw [ih, stands]
          rfl
      · rfl

theorem Touched.sameBelow
    (spared : ∀ place, put place → ¬ disk.ProjectFile root place) : SameBelow root disk after := by
  intro path within
  have located : after.locate path = disk.locate path :=
    locate_congr path touched.changes.workingDirectory (touched.isDirectory files)
  rw [entry_eq, entry_eq, located]
  cases found : disk.locate path with
  | error refusal => rfl
  | ok place =>
    have below : disk.placeOf root <+: place := by
      rw [eq_placeOf found]
      exact placeOf_within within
    have same : after.root.get? place = disk.root.get? place := by
      refine touched.get? (fun _ impossible => impossible.elim) (fun other there above => ?_)
      exact spared other there ⟨below.trans above, files other there⟩
    dsimp only
    rw [same]

end

end Disk

namespace Workshop

open Disk

variable {shop : Workshop} {start disk : Disk} {root : Path} {analysis : Analysis}

section

variable (keeps : Keeps start root disk) (grounded : analysis.Grounded start root) {relative : String}
include keeps grounded

theorem convertUnit_keeps (file : start.HasUnit root relative) :
    shop.convertUnit disk analysis relative = shop.convertUnit start analysis relative := by
  unfold convertUnit
  rw [grounded.there, keeps.readText file]

theorem component_keeps {component : Component} (member : component ∈ analysis.components) :
    shop.component disk component analysis = shop.component start component analysis := by
  have file := grounded.components component member component.path (by simp [Component.units])
  simp only [Workshop.component, convertUnit_keeps keeps grounded file]

theorem page_keeps {page : Page} (member : page ∈ analysis.pages) :
    shop.page disk page analysis = shop.page start page analysis := by
  simp only [Workshop.page, convertUnit_keeps keeps grounded (grounded.pages page member)]

theorem companion_keeps (file : start.HasUnit root relative) :
    shop.companion disk relative analysis = shop.companion start relative analysis := by
  simp only [Workshop.companion, convertUnit_keeps keeps grounded file]

theorem carriedStyles_keeps (generated : List (String × String)) :
    shop.carriedStyles disk analysis.styling analysis generated =
      shop.carriedStyles start analysis.styling analysis generated := by
  unfold carriedStyles
  split
  · refine mapM_congr (fun relative member => ?_)
    unfold carriedStyle
    rw [grounded.there, keeps.readText (grounded.styles relative member)]
  · rfl

end

end Workshop

open Disk DiskAction

theorem Log.Router.handlers_emit (router : Log.Router) (record : Log.Record) :
    (router.emit record).handlers = router.handlers := by
  unfold emit
  split <;> rfl

theorem Log.Router.mem_handlers_of_filesFor {router : Log.Router} {record : Log.Record}
    (member : path ∈ router.filesFor record) : .file path ∈ router.handlers := by
  unfold filesFor at member
  split at member
  · obtain ⟨handler, inHandlers, is⟩ := List.mem_filterMap.1 member
    cases handler with
    | silent | console => cases is
    | file found =>
      cases is
      exact inHandlers
  · cases member

namespace World

variable {start world : World} {root : Path} {put : List String → Prop} {disk : Disk}

/-- A place where a log file belongs. -/
def LogPlace (world : World) (place : List String) : Prop :=
  ∃ path, .file path ∈ world.log.handlers ∧ place = world.disk.placeOf path

theorem appendText_touched (text : String)
    (there : ∀ content, disk.at? (disk.placeOf path) = some (.file content) → put (disk.placeOf path)) :
    Touched (fun _ => False) put disk (appendText disk path text) := by
  unfold appendText
  split
  · next content read =>
      have found : disk.entry path = .ok (.file content) := by
        unfold readBytes at read
        split at read
        · next entry =>
            cases read
            exact entry
        · cases read
        · cases read
      obtain ⟨place, located, holds⟩ := entry_ok.1 found
      obtain rfl := eq_placeOf located
      have stands : disk.at? (disk.placeOf path) = some (.file content) := Entry.at?_file.2 holds
      rcases writeBytes_cases path (content ++ Text.Utf8.encode text) disk with
        ⟨fault, failed⟩ | ⟨place, reached, notDirectory, wrote⟩
      · have same : ((writeBytes path (content ++ Text.Utf8.encode text)).run.run disk).2 = disk :=
          congrArg Prod.snd failed
        rw [same]
        exact .refl
      · obtain rfl := eq_placeOf reached
        have written := congrArg Prod.snd wrote
        rw [show ((writeBytes path (content ++ Text.Utf8.encode text)).run.run disk).2 = _ from written]
        exact .single (.file disk _ reached notDirectory (there content stands))
  · exact .refl

theorem appendAll_touched {paths : List Path} (line : String)
    (there : ∀ path ∈ paths, ∀ content,
      disk.at? (disk.placeOf path) = some (.file content) → put (disk.placeOf path)) :
    Touched (fun _ => False) put disk (paths.foldl (fun disk path => appendText disk path line) disk) := by
  induction paths generalizing disk with
  | nil => exact .refl
  | cons path rest ih =>
    have first : Touched (fun _ => False) put disk (appendText disk path line) :=
      appendText_touched line (there path (by simp))
    refine first.trans (ih (fun other member content stands => ?_))
    rw [placeOf_touched first] at stands ⊢
    by_cases known : put (disk.placeOf other)
    · exact known
    · exact there other (by simp [member]) content (first.changes.fresh _ content known stands)

theorem note_touched (world : World) (record : Log.Record) :
    Touched (fun _ => False)
      (fun place => world.LogPlace place ∧ ∃ content, world.disk.at? place = some (.file content))
      world.disk (world.note record).disk := by
  refine appendAll_touched _ (fun path member content stands => ⟨⟨path, ?_, rfl⟩, content, stands⟩)
  exact Log.Router.mem_handlers_of_filesFor member

theorem handlers_note (world : World) (record : Log.Record) :
    (world.note record).log.handlers = world.log.handlers := Log.Router.handlers_emit _ _

/-- A world that differs from another one by what was logged since. -/
structure Relogged (start world : World) : Prop where
  handlers : world.log.handlers = start.log.handlers
  touched : Touched (fun _ => False)
    (fun place => start.LogPlace place ∧ ∃ content, start.disk.at? place = some (.file content))
    start.disk world.disk

theorem Relogged.refl (world : World) : Relogged world world := ⟨rfl, .refl⟩

theorem Relogged.note (relogged : Relogged start world) (record : Log.Record) :
    Relogged start (world.note record) where
  handlers := (handlers_note world record).trans relogged.handlers
  touched := by
    refine relogged.touched.trans (appendAll_touched _ (fun path member content stands => ?_))
    have logged : start.LogPlace (world.disk.placeOf path) := by
      refine ⟨path, ?_, placeOf_touched relogged.touched path⟩
      rw [← relogged.handlers]
      exact Log.Router.mem_handlers_of_filesFor member
    have kind := relogged.touched.isDirectory (fun _ there => there.2) (world.disk.placeOf path)
    refine ⟨logged, ?_⟩
    rw [stands] at kind
    cases before : start.disk.at? (world.disk.placeOf path) with
    | none => simp [before] at kind
    | some standing =>
      cases standing with
      | file old => exact ⟨old, rfl⟩
      | directory => simp [before, Standing.isDirectory] at kind

theorem Relogged.noteAll (relogged : Relogged start world) (records : List Log.Record) :
    Relogged start (world.noteAll records) := by
  induction records generalizing world with
  | nil => exact relogged
  | cons record rest ih => exact ih (relogged.note record)

/-- The log is kept away from the files of a project. -/
def LogsApart (world : World) (root : Path) : Prop :=
  ∀ place, world.LogPlace place → ¬ world.disk.ProjectFile root place

theorem Relogged.sameBelow (relogged : Relogged start world) (apart : start.LogsApart root) :
    SameBelow root start.disk world.disk :=
  relogged.touched.sameBelow (fun _ there => there.2) (fun place there => apart place there.1)

theorem keeps_note (apart : start.LogsApart root) (handlers : world.log.handlers = start.log.handlers)
    (keeps : Keeps start.disk root world.disk) (record : Log.Record) :
    Keeps start.disk root (world.note record).disk := by
  refine keeps.changes (note_touched world record).changes (fun place there => apart place ?_)
  obtain ⟨⟨path, member, rfl⟩, _⟩ := there
  exact ⟨path, handlers ▸ member, keeps.placeOf path⟩

end World
end Refit
