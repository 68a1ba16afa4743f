import Refit.Proofs.Files.Restoring
import Refit.Proofs.Run.Backup
import Refit.Proofs.Project.Keeping

open List

namespace Refit

open Disk Path DiskAction

namespace World

variable {world middle after : World} {probe : List String}

/-- No operation is refused. -/
def Willing (world : World) : Prop :=
  (∀ operation path, world.refuses operation path = false) ∧ ∀ calls, world.falters calls = false

theorem at?_note (off : ¬ world.LogPlace probe) (record : Log.Record) :
    (world.note record).disk.at? probe = world.disk.at? probe :=
  (note_touched world record).at? (fun impossible => impossible) (fun there => off there.1)

theorem directories_note (world : World) (record : Log.Record) (probe : List String) :
    (world.note record).disk.at? probe = some .directory ↔ world.disk.at? probe = some .directory := by
  have touched := note_touched world record
  by_cases there : world.LogPlace probe ∧ ∃ content, world.disk.at? probe = some (.file content)
  · obtain ⟨_, content, stands⟩ := there
    obtain ⟨later, still⟩ := touched.changes.files probe content stands
    simp [stands, still]
  · rw [touched.at? (fun impossible => impossible) there]

theorem file_of_note {record : Log.Record} {content : List UInt8}
    (stands : (world.note record).disk.at? probe = some (.file content)) :
    ∃ old, world.disk.at? probe = some (.file old) := by
  by_cases there : world.LogPlace probe ∧ ∃ content, world.disk.at? probe = some (.file content)
  · exact there.2
  · rw [(note_touched world record).at? (fun impossible => impossible) there] at stands
    exact ⟨content, stands⟩

/-- A world that differs in its disk, and in what was done and said so far. -/
structure Goes (world after : World) : Prop where
  willing : world.Willing → after.Willing
  handlers : after.log.handlers = world.log.handlers
  workingDirectory : after.disk.workingDirectory = world.disk.workingDirectory

theorem Goes.trans (first : Goes world middle) (second : Goes middle after) : Goes world after :=
  ⟨fun willing => second.willing (first.willing willing), second.handlers.trans first.handlers,
    second.workingDirectory.trans first.workingDirectory⟩

theorem Goes.logPlace (goes : Goes world after) (there : after.LogPlace probe) : world.LogPlace probe := by
  obtain ⟨path, member, rfl⟩ := there
  exact ⟨path, goes.handlers ▸ member, placeOf_congr goes.workingDirectory path⟩

theorem goes_note (world : World) (record : Log.Record) : Goes world (world.note record) :=
  ⟨id, handlers_note world record, (note_touched world record).changes.workingDirectory⟩

end World

namespace Rollback

open Stage (Beside)

variable {world emptied : World} {data : RollbackData} {path : Path} {backup below : List String} {standing : Standing}

theorem exec_perform {operation : FileOperation} {action : DiskAction Unit} {disk : Disk}
    (willing : world.Willing) (acted : exec action world.disk = (.ok (), disk)) :
    exec (perform operation path action) world = (.ok (), world.record operation path true disk) := by
  have run : World.perform operation path action world = (.ok (), world.record operation path true disk) := by
    unfold World.perform
    rw [willing.1, willing.2, show action.run.run world.disk = _ from acted]
    rfl
  rw [perform, exec_get_bind, run]
  rfl

/-- A created path leads to a place. -/
def CreatedAt (disk : Disk) (data : RollbackData) (probe : List String) : Prop :=
  ∃ created ∈ data.createdPaths, disk.locate (ofString created) = .ok probe

theorem removeCreated_clears (willing : world.Willing) (tidy : world.disk.root.tidy = true)
    (root : world.disk.at? [] = some .directory) (created : String) (count : Nat) :
    ∃ total after, exec (removeCreated count created) world = (.ok total, after) ∧ World.Goes world after ∧
      Cleared (world.disk.locate (ofString created) = .ok ·) world.disk after.disk := by
  rw [removeCreated, exec_get_bind]
  cases is : world.disk.isFile (ofString created) with
  | true =>
    obtain ⟨place, content, located, stands⟩ := isFile_iff.1 is
    have nonempty : place ≠ [] := by
      rintro rfl
      cases root.symm.trans stands
    rw [if_pos rfl, exec_bind, exec_perform willing (exec_removeFile located stands)]
    refine ⟨count + 1, _, rfl, ⟨id, rfl, rfl⟩, (cleared_erase tidy nonempty stands).congr (fun probe => ?_)⟩
    rw [located, Except.ok.injEq, eq_comm]
  | false =>
    refine ⟨count, world, rfl, ⟨id, rfl, rfl⟩, cleared_of_no_file (fun place content located stands => ?_)⟩
    cases is.symm.trans (isFile_iff.2 ⟨place, content, located, stands⟩)

theorem removeAll_clears {list : List String} (willing : world.Willing) (tidy : world.disk.root.tidy = true)
    (root : world.disk.at? [] = some .directory) (count : Nat) :
    ∃ total after, exec (list.foldlM removeCreated count) world = (.ok total, after) ∧ World.Goes world after ∧
      Cleared (fun probe => ∃ created ∈ list, world.disk.locate (ofString created) = .ok probe)
        world.disk after.disk := by
  induction list generalizing world count with
  | nil =>
    refine ⟨count, world, rfl, ⟨id, rfl, rfl⟩, ?_⟩
    simpa using Cleared.refl world.disk
  | cons created rest ih =>
    obtain ⟨total, middle, first, goes, cleared⟩ := removeCreated_clears willing tidy root created count
    obtain ⟨last, after, others, further, clearer⟩ :=
      ih (goes.willing willing) (cleared.tidy tidy) ((cleared.directories []).2 root) total
    refine ⟨last, after, ?_, goes.trans further, ?_⟩
    · rw [foldlM_cons, exec_bind, first]
      exact others
    · -- no directory is removed, so the later paths lead where they led at first
      refine (cleared.trans clearer).congr (fun probe => ?_)
      simp only [cleared.locate, exists_mem_cons_iff]

/-- A world from which the created files are gone, and in which log files may have grown. -/
structure Emptied (world emptied : World) (data : RollbackData) : Prop where
  goes : World.Goes world emptied
  tidy : emptied.disk.root.tidy = true
  directories : ∀ probe, emptied.disk.at? probe = some .directory ↔ world.disk.at? probe = some .directory
  files : ∀ probe content, emptied.disk.at? probe = some (.file content) →
    ¬ CreatedAt world.disk data probe ∧ ∃ old, world.disk.at? probe = some (.file old)
  kept : ∀ probe, ¬ world.LogPlace probe → ¬ CreatedAt world.disk data probe →
    emptied.disk.at? probe = world.disk.at? probe

theorem exists_emptied (willing : world.Willing) (tidy : world.disk.root.tidy = true)
    (root : world.disk.at? [] = some .directory) (data : RollbackData) :
    ∃ total emptied, exec (data.createdPaths.reverse.foldlM removeCreated 0) world = (.ok total, emptied) ∧
      Emptied world emptied data := by
  obtain ⟨total, emptied, run, goes, cleared⟩ := @removeAll_clears world data.createdPaths.reverse willing tidy root 0
  simp only [mem_reverse] at cleared
  refine ⟨total, emptied, run, goes, cleared.tidy tidy, cleared.directories, ?_, fun probe _ kept => cleared.at? kept⟩
  intro probe content stands
  obtain ⟨before, kept⟩ := (cleared.files probe content).1 stands
  exact ⟨kept, content, before⟩

theorem Emptied.note (empty : Emptied world emptied data) (record : Log.Record) :
    Emptied world (emptied.note record) data where
  goes := empty.goes.trans (World.goes_note _ _)
  tidy := (World.note_touched emptied record).changes.tidy empty.tidy
  directories probe := by rw [World.directories_note, empty.directories]
  files probe content stands := by
    obtain ⟨old, before⟩ := World.file_of_note stands
    exact empty.files probe old before
  kept probe off kept := by rw [World.at?_note (fun there => off (empty.goes.logPlace there)), empty.kept probe off kept]

theorem Emptied.locate {place : List String} (empty : Emptied world emptied data)
    (located : world.disk.locate path = .ok place) : emptied.disk.locate path = .ok place :=
  locate_mono empty.goes.workingDirectory (fun probe => (empty.directories probe).2) located

theorem Emptied.isDirectory (empty : Emptied world emptied data) (is : world.disk.isDirectory path = true) :
    emptied.disk.isDirectory path = true := by
  obtain ⟨place, located, stands⟩ := isDirectory_iff.1 is
  exact isDirectory_iff.2 ⟨place, empty.locate located, (empty.directories place).2 stands⟩

/-- What a rollback needs of the world. The path of the output goes through no file that stays, nothing is in the way
    of a file or directory of the backup, and neither the output nor a created path nor the log is in the backup. -/
structure Ready (world : World) (data : RollbackData) (path : Path) (backup : List String) : Prop where
  tidy : world.disk.root.tidy = true
  located : world.disk.locate (Path.ofString data.backupPath) = .ok backup
  stands : world.disk.at? backup = some .directory
  start : world.disk.isDirectory ⟨path.root, []⟩ = true
  way : ∀ probe content, world.disk.Passes path probe → world.disk.at? probe = some (.file content) →
    CreatedAt world.disk data probe
  files : ∀ below content, world.disk.at? (backup ++ below) = some (.file content) →
    world.disk.at? (world.disk.placeOf path ++ below) ≠ some .directory ∧
      ¬ world.disk.Passes path (world.disk.placeOf path ++ below)
  directories : ∀ below content, world.disk.at? (backup ++ below) = some .directory →
    world.disk.at? (world.disk.placeOf path ++ below) = some (.file content) →
      CreatedAt world.disk data (world.disk.placeOf path ++ below)
  beside : Beside backup (world.disk.placeOf path)
  created : ∀ probe, CreatedAt world.disk data probe → ¬ backup <+: probe
  logs : ∀ below, ¬ world.LogPlace (backup ++ below) ∧
    (world.LogPlace (world.disk.placeOf path ++ below) → world.disk.at? (backup ++ below) = none)

/-- What a disk is like after a rollback. -/
structure RolledBack (world : World) (data : RollbackData) (path : Path) (backup : List String) (after : Disk) :
    Prop where
  covered : ∀ below standing, world.disk.at? (backup ++ below) = some standing →
    after.at? (world.disk.placeOf path ++ below) = some standing
  way : ∀ probe, world.disk.Passes path probe → after.at? probe = some .directory
  directories : ∀ probe, world.disk.at? probe = some .directory → after.at? probe = some .directory
  files : ∀ probe content, after.at? probe = some (.file content) →
    (∃ below, probe = world.disk.placeOf path ++ below ∧
      world.disk.at? (backup ++ below) = some (.file content)) ∨
    ¬ CreatedAt world.disk data probe ∧ ∃ old, world.disk.at? probe = some (.file old)
  kept : ∀ probe, (∀ below, probe = world.disk.placeOf path ++ below → world.disk.at? (backup ++ below) = none) →
    ¬ world.disk.Passes path probe → ¬ CreatedAt world.disk data probe → ¬ world.LogPlace probe →
      after.at? probe = world.disk.at? probe

section

variable (ready : Ready world data path backup)
include ready

theorem Ready.backup_kept (empty : Emptied world emptied data)
    (below : List String) : emptied.disk.at? (backup ++ below) = world.disk.at? (backup ++ below) :=
  empty.kept _ (ready.logs below).1 (fun created => ready.created _ created (prefix_append _ _))

theorem Ready.copies (empty : Emptied world emptied data) :
    ∃ copied, exec (copyTree (ofString data.backupPath) path) emptied.disk = (.ok (), copied) ∧
      copied.workingDirectory = world.disk.workingDirectory ∧ RolledBack world data path backup copied := by
  have start := empty.goes.workingDirectory
  obtain ⟨made, making, there⟩ := makeForCopy_runs (empty.isDirectory ready.start)
    (fun part within content stands => by
      rw [placeOf_congr start] at stands
      obtain ⟨left, old, before⟩ := empty.files _ content stands
      exact left (ready.way _ old ⟨part, within, rfl⟩ before))
  have touched := makeForCopy_touches making
  have directories (probe : List String) (stands : world.disk.at? probe = some .directory) :
      made.at? probe = some .directory := touched.changes.directories probe ((empty.directories probe).2 stands)
  have file {probe : List String} {content : List UInt8} (stands : made.at? probe = some (.file content)) :
      ¬ CreatedAt world.disk data probe ∧ ∃ old, world.disk.at? probe = some (.file old) :=
    empty.files probe content (touched.changes.fresh probe content (fun off => off) stands)
  obtain ⟨entries, held⟩ := Entry.at?_directory.1 ((empty.directories backup).2 ready.stands)
  have tree (below : List String) : (Entry.directory entries).at? below = world.disk.at? (backup ++ below) := by
    rw [← ready.backup_kept empty, Disk.at?, Entry.at?_append, held]
    rfl
  obtain ⟨place, located, stands⟩ := isDirectory_iff.1 there
  obtain rfl : place = world.disk.placeOf path := by
    rw [eq_placeOf located, placeOf_touched touched, placeOf_congr start]
  -- where the backup and the output differ in kind, the file of the two is a created one and gone
  have accepts : made.Accepts (.directory entries) (world.disk.placeOf path) := by
    intro below new old isNew isOld
    rw [tree] at isNew
    cases new with
    | file content =>
      cases old with
      | file other => rfl
      | directory =>
        obtain ⟨clear, off⟩ := ready.files below content isNew
        have before : emptied.disk.at? (world.disk.placeOf path ++ below) = some .directory := by
          rwa [touched.at? (fun passes => off ((passes_congr start path _).1 passes)) (fun none => none)] at isOld
        exact absurd ((empty.directories _).1 before) clear
    | directory =>
      cases old with
      | directory => rfl
      | file content =>
        obtain ⟨left, other, before⟩ := file isOld
        exact absurd (ready.directories below other isNew before) left
  have apart : made.placeOf (ofString data.backupPath) ≠ world.disk.placeOf path := by
    rw [placeOf_touched touched, ← eq_placeOf (empty.locate ready.located)]
    intro same
    exact ready.beside.1 (same ▸ prefix_rfl)
  obtain ⟨copied, run, overlaid⟩ := copyTree_overlays
    (entry_ok.2 ⟨backup, empty.locate ready.located, held⟩) (Entry.tidy_get? empty.tidy held) making located stands
    accepts apart
  have uncovered {probe : List String}
      (off : ∀ below, probe = world.disk.placeOf path ++ below → world.disk.at? (backup ++ below) = none) :
      copied.at? probe = made.at? probe :=
    overlaid.uncovered probe (fun below is => (tree below).trans (off below is))
  refine ⟨copied, run, overlaid.workingDirectory.trans (touched.changes.workingDirectory.trans start), ?_⟩
  exact
    { covered := fun below standing held => overlaid.covered below standing ((tree below).trans held)
      way := fun probe passes => overlaid.directories accepts
        (at?_passed there ((passes_congr (touched.changes.workingDirectory.trans start) path probe).2 passes))
      directories := fun probe stands => overlaid.directories accepts (directories probe stands)
      files := by
        intro probe content stands
        by_cases off : ∀ below, probe = world.disk.placeOf path ++ below → world.disk.at? (backup ++ below) = none
        · rw [uncovered off] at stands
          exact .inr (file stands)
        · simp only [not_forall] at off
          obtain ⟨below, rfl, held⟩ := off
          obtain ⟨standing, found⟩ := Option.ne_none_iff_exists'.1 held
          rw [overlaid.covered below standing ((tree below).trans found)] at stands
          exact .inl ⟨below, rfl, found.trans stands⟩
      kept := by
        intro probe off aside created log
        rw [uncovered off, touched.at? (fun passes => aside ((passes_congr start path _).1 passes)) (fun none => none),
          empty.kept probe log created] }

theorem Ready.unlogged (held : world.disk.at? (backup ++ below) = some standing) :
    ¬ world.LogPlace (world.disk.placeOf path ++ below) := by
  intro there
  cases held.symm.trans ((ready.logs below).2 there)

end

theorem RolledBack.note {after : World} (rolled : RolledBack world data path backup after.disk)
    (ready : Ready world data path backup) (goes : World.Goes world after) (record : Log.Record) :
    RolledBack world data path backup (after.note record).disk where
  covered below standing held := by
    rw [World.at?_note (fun there => ready.unlogged held (goes.logPlace there)), rolled.covered below standing held]
  way probe passes := (World.directories_note _ _ _).2 (rolled.way probe passes)
  directories probe stands := (World.directories_note _ _ _).2 (rolled.directories probe stands)
  files probe content stands := by
    obtain ⟨old, before⟩ := World.file_of_note stands
    rcases rolled.files probe old before with ⟨below, rfl, held⟩ | left
    · rw [World.at?_note (fun there => ready.unlogged held (goes.logPlace there))] at stands
      cases before.symm.trans stands
      exact .inl ⟨below, rfl, held⟩
    · exact .inr left
  kept probe off aside created log := by
    rw [World.at?_note (fun there => log (goes.logPlace there)), rolled.kept probe off aside created log]

theorem Ready.rollsBack {outputPath : String} (ready : Ready world data (ofString outputPath) backup)
    (willing : world.Willing) (named : data.backupPath ≠ "") :
    ∃ after, exec (rollBack (some data) outputPath) world = (.ok (), after) ∧ World.Goes world after ∧
      RolledBack world data (ofString outputPath) backup after.disk := by
  let path := ofString outputPath
  let source := ofString data.backupPath
  have is : world.disk.isDirectory source = true := isDirectory_iff.2 ⟨backup, ready.located, ready.stands⟩
  have root : world.disk.at? [] = some .directory := by
    cases backup with
    | nil => exact ready.stands
    | cons name rest => exact directory_above (by simp) ready.stands
  obtain ⟨total, emptied, removing, empty⟩ := exists_emptied willing ready.tidy root data
  have noted := empty.note ⟨.info, part, "Removed " ++ toString total ++ " created files under " ++ path.toString⟩
  obtain ⟨disk, copying, start, rolled⟩ := ready.copies noted
  let copied := (emptied.note
    ⟨.info, part, "Removed " ++ toString total ++ " created files under " ++ path.toString⟩).record .copyTree path true disk
  have goes : World.Goes world copied := ⟨noted.goes.willing, noted.goes.handlers, start⟩
  have restored : RolledBack world data path backup copied.disk := rolled
  refine ⟨copied.note ⟨.info, part, "Restored " ++ path.toString ++ " from backup " ++ source.toString⟩, ?_,
    goes.trans (World.goes_note _ _), restored.note ready goes _⟩
  have filled : data.backupPath.isEmpty = false := by simpa using named
  simp only [rollBack, filled, Bool.false_eq_true, if_false]
  rw [exec_get_bind, is]
  simp only [Bool.not_true, Bool.false_eq_true, if_false]
  rw [exec_bind, removing]
  dsimp only
  rw [exec_bind, note, exec_modify]
  dsimp only
  rw [exec_bind, exec_perform (noted.goes.willing willing) copying]
  rfl

theorem RolledBack.not_file {after : Disk} (rolled : RolledBack world data path backup after)
    (start : after.workingDirectory = world.disk.workingDirectory) {created : String}
    (member : created ∈ data.createdPaths)
    (leads : (∃ place, world.disk.locate (ofString created) = .ok place) ∨
      ".." ∉ world.disk.absoluteNames (ofString created))
    (apart : ∀ below content, world.disk.placeOf (ofString created) = world.disk.placeOf path ++ below →
      world.disk.at? (backup ++ below) ≠ some (.file content)) :
    after.isFile (ofString created) = false := by
  cases is : after.isFile (ofString created) with
  | false => rfl
  | true =>
    obtain ⟨place, content, located, stands⟩ := isFile_iff.1 is
    obtain rfl : place = world.disk.placeOf (ofString created) := by
      rw [eq_placeOf located, placeOf_congr start]
    rcases rolled.files _ content stands with ⟨below, there, held⟩ | ⟨left, old, before⟩
    · exact absurd held (apart below content there)
    · refine absurd ⟨created, member, ?_⟩ left
      rcases leads with ⟨place, found⟩ | plain
      · rw [found, eq_placeOf found]
      · -- without double dots a path leads to its names as soon as something stands there
        have flat : world.disk.placeOf (ofString created) = world.disk.absoluteNames (ofString created) := by
          rw [placeOf_eq, flatten_plain plain, nil_append]
        rw [flat] at before ⊢
        have stood : world.disk.root.at? ([] ++ world.disk.absoluteNames (ofString created)) ≠ none := by
          exact Option.ne_none_iff_exists'.2 ⟨_, before⟩
        simpa [locate] using locateFrom_plain plain stood

/-- A rollback does what its log says, or nothing. Without a backup that is a directory it ends in a fault and leaves
the world as it is. Otherwise, if nothing is in its way, the disk is as `RolledBack` describes, and no created path is
a file any more but where the backup has one. -/
theorem rollBack_restores_backup (world : World) (outputPath : String) :
    exec (rollBack none outputPath) world = (.error .noBackup, world) ∧
    ∀ data : RollbackData,
      (data.backupPath = "" → exec (rollBack (some data) outputPath) world = (.error .noBackup, world)) ∧
      (data.backupPath ≠ "" → world.disk.isDirectory (ofString data.backupPath) = false →
        exec (rollBack (some data) outputPath) world =
          (.error (.backupMissing (ofString data.backupPath).toString), world)) ∧
      ∀ backup, world.Willing → data.backupPath ≠ "" → Ready world data (ofString outputPath) backup →
        ∃ after, exec (rollBack (some data) outputPath) world = (.ok (), after) ∧
          RolledBack world data (ofString outputPath) backup after.disk ∧
          ∀ created ∈ data.createdPaths,
            (∃ place, world.disk.locate (ofString created) = .ok place) ∨
              ".." ∉ world.disk.absoluteNames (ofString created) →
            (∀ below content,
              world.disk.placeOf (ofString created) = world.disk.placeOf (ofString outputPath) ++ below →
                world.disk.at? (backup ++ below) ≠ some (.file content)) →
            after.disk.isFile (ofString created) = false := by
  refine ⟨rfl, fun data => ⟨?_, ?_, ?_⟩⟩
  · intro unnamed
    have empty : data.backupPath.isEmpty = true := by simp [unnamed]
    simp only [rollBack, empty]
    rfl
  · intro named missing
    have filled : data.backupPath.isEmpty = false := by simpa using named
    simp only [rollBack, filled, Bool.false_eq_true, if_false]
    rw [exec_get_bind, missing]
    rfl
  · intro backup willing named ready
    obtain ⟨after, run, goes, rolled⟩ := ready.rollsBack willing named
    exact ⟨after, run, rolled, fun created member => rolled.not_file goes.workingDirectory member⟩

/-- A world with a backup at `b` and an output that one of two files was created in. -/
def keptWorld : World :=
  { disk :=
      { root := .directory
          [("b", .directory [("d", .directory []), ("x", .file [1])]),
           ("out", .directory [("f", .file [2]), ("k", .file [3])])]
        workingDirectory := []
        homes := [] }
    clock := ⟨⟨0, 0⟩, 0⟩
    refuses := fun _ _ => false
    calls := []
    log := Log.Router.initial
    stamp := "" }

/-- The log of a run that created a file twice and changed another one. -/
def keptData : RollbackData :=
  { backupPath := "/b"
    operations := [⟨.create, "/out/f"⟩, ⟨.other "modify", "/out/k"⟩, ⟨.create, "/out/f"⟩] }

theorem keptWorld_backup (held : keptWorld.disk.at? (["b"] ++ below) = some standing) :
    below = [] ∨ below = ["d"] ∨ below = ["x"] := by
  have inner : (Entry.directory [("d", .directory []), ("x", .file [1])]).at? below = some standing := held
  cases below with
  | nil => exact .inl rfl
  | cons name rest =>
    rw [Entry.at?_cons_entry, Entry.at?_cons_entry] at inner
    split at inner
    · next same =>
        subst same
        cases rest with
        | nil => exact .inr (.inl rfl)
        | cons => cases inner
    · split at inner
      · next same =>
          subst same
          cases rest with
          | nil => exact .inr (.inr rfl)
          | cons => cases inner
      · cases inner

theorem keptWorld_passes {probe : List String} (passes : keptWorld.disk.Passes (ofString "/out") probe) :
    probe = [] ∨ probe = ["out"] := by
  obtain ⟨names, part, rfl⟩ := passes
  have whole : (ofString "/out") = ⟨.slash, ["out"]⟩ := by decide +kernel
  rcases prefix_cons_iff.1 part with rfl | ⟨rest, rfl, more⟩
  · exact .inl rfl
  · rw [prefix_nil.1 more]
    exact .inr rfl

theorem keptWorld_ready : Ready keptWorld keptData (ofString "/out") ["b"] := by
  have place : keptWorld.disk.placeOf (ofString "/out") = ["out"] := by decide +kernel
  have unlogged (probe : List String) : ¬ keptWorld.LogPlace probe := by
    rintro ⟨path, member, _⟩
    simp [keptWorld, Log.Router.initial] at member
  refine
    { tidy := by decide +kernel
      located := by decide +kernel
      stands := by decide +kernel
      start := by decide +kernel
      way := ?_
      files := ?_
      directories := ?_
      beside := place ▸ ⟨by decide, by decide⟩
      created := ?_
      logs := fun below => ⟨unlogged _, fun there => absurd there (unlogged _)⟩ }
  · intro probe content passes file
    rcases keptWorld_passes passes with rfl | rfl <;> cases file
  · intro below content held
    rcases keptWorld_backup held with rfl | rfl | rfl
    · cases held
    · cases held
    · refine ⟨by decide +kernel, fun passes => ?_⟩
      rcases keptWorld_passes passes with same | same <;> cases same
  · intro below content held file
    rcases keptWorld_backup held with rfl | rfl | rfl <;> cases file
  · rintro probe ⟨created, member, located⟩
    obtain rfl : created = "/out/f" := by simpa [keptData, RollbackData.createdPaths] using member
    have leads : keptWorld.disk.locate (ofString "/out/f") = .ok ["out", "f"] := by decide +kernel
    cases leads.symm.trans located
    decide

theorem rollBack_keptWorld :
    keptWorld.Willing ∧ Ready keptWorld keptData (ofString "/out") ["b"] ∧
      ∃ after, exec (rollBack (some keptData) "/out") keptWorld = (.ok (), after) ∧
        RolledBack keptWorld keptData (ofString "/out") ["b"] after.disk ∧
        after.disk.isFile (ofString "/out/f") = false := by
  have willing : keptWorld.Willing := ⟨fun _ _ => rfl, fun _ => rfl⟩
  obtain ⟨_, any⟩ := rollBack_restores_backup keptWorld "/out"
  obtain ⟨_, _, restores⟩ := any keptData
  obtain ⟨after, run, rolled, removed⟩ := restores ["b"] willing (by decide) keptWorld_ready
  refine ⟨willing, keptWorld_ready, after, run, rolled, removed "/out/f" (by decide) (.inr (by decide +kernel)) ?_⟩
  intro below content there held
  have places : keptWorld.disk.placeOf (ofString "/out/f") = ["out", "f"] ∧
      keptWorld.disk.placeOf (ofString "/out") = ["out"] := by decide +kernel
  obtain rfl : below = ["f"] := (List.cons.inj there).2.symm
  cases held

/-- A log whose created path goes through a directory that only the backup has. -/
def detourData : RollbackData := { backupPath := "/b", operations := [⟨.create, "/out/d/../f"⟩] }

/-- A directory of the backup is new in the output, and a created path that leads nowhere before the rollback can lead
to a file after it. -/
theorem rollBack_new_directory :
    (keptWorld.disk.at? ["out", "d"] = none ∧
      (exec (rollBack (some keptData) "/out") keptWorld).2.disk.at? ["out", "d"] = some .directory) ∧
    (keptWorld.disk.isFile (ofString "/out/d/../f") = false ∧
      (exec (rollBack (some detourData) "/out") keptWorld).2.disk.isFile (ofString "/out/d/../f") = true) := by
  decide +kernel

end Rollback
end Refit
