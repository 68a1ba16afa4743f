import Refit.Proofs.Run.Aftermath
import Refit.Proofs.Run.Rollback

open List

namespace Refit

open Disk Path DiskAction

/-- The world in which no operation is refused any more. -/
def World.willing (world : World) : World := { world with refuses := fun _ _ => false, falters := fun _ => false }

namespace Rollback

open Stage (Beside)

variable {world : World}

/-- What a rollback needs of the world: a backup beside the output, whose files all belong to what was
    created, and nothing in the way of the copy. -/
structure Undoable (world : World) (data : RollbackData) (output backup : List String) : Prop where
  tidy : world.disk.root.tidy = true
  located : world.disk.locate (Path.ofString data.backupPath) = .ok backup
  stands : world.disk.at? backup = some .directory
  nonempty : output ≠ []
  above : world.disk.at? output.dropLast = some .directory
  beside : Beside backup output
  created : ∀ created ∈ data.createdPaths, ∃ place,
    world.disk.locate (Path.ofString created) = .ok place ∧ output <+: place
  files : ∀ below content, world.disk.at? (output ++ below) = some (.file content) →
    ∃ created ∈ data.createdPaths, world.disk.placeOf (Path.ofString created) = output ++ below
  logs : ∀ place, world.LogPlace place → ¬ output <+: place ∧ ¬ backup <+: place
  free : ∀ below content, world.disk.at? (backup ++ below) = some (.file content) →
    world.disk.at? (output ++ below) ≠ some .directory

theorem not_prefix_below {output backup : List String} (beside : Beside backup output) (below : List String) :
    ¬ output <+: backup ++ below := by
  intro within
  rcases prefix_or_prefix_of_prefix within (prefix_append backup below) with above | inside
  · exact beside.2 above
  · exact beside.1 inside

variable {data : RollbackData} {output backup : List String}

section

variable (undoable : Undoable world data output backup)
include undoable

theorem Undoable.createdAt {below : List String} {content : List UInt8}
    (stands : world.disk.at? (output ++ below) = some (.file content)) :
    CreatedAt world.disk data (output ++ below) := by
  obtain ⟨created, member, is⟩ := undoable.files below content stands
  obtain ⟨place, located, _⟩ := undoable.created created member
  exact ⟨created, member, by rw [located, eq_placeOf located, is]⟩

theorem Undoable.ready {path : Path} (leads : world.disk.Leads path)
    (place : world.disk.placeOf path = output) : Ready world data path backup := by
  subst place
  refine
    { tidy := undoable.tidy
      located := undoable.located
      stands := undoable.stands
      beside := undoable.beside
      start := ?_
      way := ?_
      files := ?_
      directories := fun below content _ file => undoable.createdAt file
      created := ?_
      logs := ?_ }
  · obtain ⟨front, names, rfl, _, is⟩ := leads
    exact @isDirectory_passed _ front [] is nil_prefix
  · intro probe content passes file
    rcases leads.passes passes with directory | ⟨rest, whole⟩
    · cases file.symm.trans directory
    · rcases eq_nil_or_concat rest with rfl | ⟨front, name, rfl⟩
      · -- only the output itself can be a file
        rw [append_nil] at whole
        have own := @Undoable.createdAt _ _ _ _ undoable [] content (by rwa [append_nil, ← whole])
        rwa [append_nil, ← whole] at own
      · have above := undoable.above
        rw [← whole, concat_eq_append, ← append_assoc, dropLast_concat] at above
        by_cases direct : front = []
        · rw [direct, append_nil] at above
          cases file.symm.trans above
        · cases file.symm.trans (directory_above direct above)
  · intro below content file
    refine ⟨undoable.free below content file, fun passes => ?_⟩
    rcases leads.passes passes with directory | within
    · exact undoable.free below content file directory
    · have short := within.length_le
      rw [length_append] at short
      obtain rfl : below = [] := eq_nil_of_length_eq_zero (by omega)
      rw [append_nil] at file
      cases file.symm.trans undoable.stands
  · rintro probe ⟨created, member, located⟩ within
    obtain ⟨place, found, under⟩ := undoable.created created member
    cases located.symm.trans found
    obtain ⟨below, rfl⟩ := within
    exact not_prefix_below undoable.beside below under
  · intro below
    refine ⟨fun there => (undoable.logs _ there).2 (prefix_append _ _), fun there => ?_⟩
    exact absurd (prefix_append _ _) (undoable.logs _ there).1

theorem Undoable.restores (willing : world.Willing)
    (named : data.backupPath ≠ "") {outputPath : String} (leads : world.disk.Leads (ofString outputPath))
    (place : world.disk.placeOf (ofString outputPath) = output) :
    ∃ restored, exec (rollBack (some data) outputPath) world = (.ok (), restored) ∧
      ∀ below content, restored.disk.at? (output ++ below) = some (.file content) ↔
        world.disk.at? (backup ++ below) = some (.file content) := by
  obtain ⟨restored, run, _, rolled⟩ := (undoable.ready leads place).rollsBack willing named
  subst place
  refine ⟨restored, run, fun below content => ⟨fun stands => ?_, rolled.covered below _⟩⟩
  rcases rolled.files _ content stands with ⟨other, same, held⟩ | ⟨left, old, before⟩
  · rwa [append_cancel_left same]
  · exact absurd (undoable.createdAt before) left

end

end Rollback
namespace Migration

open Session Stage

variable {session held : Session} {path : Path} {world : World} {disk : Disk} {below : List String}
  {content : List UInt8} {data : RollbackData}

theorem no_file_of_unpopulated (resolved : path.Resolved) (unpopulated : isPopulated disk path = false)
    (notFile : disk.isFile path = false) (below : List String) (content : List UInt8) :
    disk.at? (path.names ++ below) ≠ some (.file content) := by
  intro stands
  cases below with
  | nil =>
    rw [append_nil] at stands
    have is : disk.isFile path = true :=
      isFile_iff.2 ⟨_, content, locate_resolved resolved (by simp [stands]), stands⟩
    cases notFile.symm.trans is
  | cons name rest => cases unpopulated.symm.trans (isPopulated_of_below resolved stands)

/-- What a run asks of its surroundings: paths in full, no file in the output, and log files that are
    there and not in the source. -/
structure Poised (session : Session) : Prop where
  tidy : session.world.disk.root.tidy = true
  source : session.source.Resolved
  output : session.output.Resolved
  outside : ¬ session.source.names <+: session.output.names
  unpopulated : isPopulated session.world.disk session.output = false
  notFile : session.world.disk.isFile session.output = false
  logs : ∀ place, session.world.LogPlace place →
    (∃ content, session.world.disk.at? place = some (.file content)) ∧ ¬ session.source.names <+: place

theorem Poised.logs_below {place probe : List String} (poised : Poised session)
    (none : ∀ below content, session.world.disk.at? (place ++ below) ≠ some (.file content))
    (there : session.world.LogPlace probe) : ¬ place <+: probe := by
  rintro ⟨below, rfl⟩
  obtain ⟨⟨content, stands⟩, _⟩ := poised.logs _ there
  exact none below content stands

/-- The world right after the backup of a run: the source is at its path, and no file is in the output. -/
structure Secured (session : Session) (path : Path) (world : World) : Prop where
  resolved : path.Resolved
  nonempty : session.output.names ≠ []
  beside : Beside path.names session.output.names
  tidy : world.disk.root.tidy = true
  workingDirectory : world.disk.workingDirectory = session.world.disk.workingDirectory
  directories : ∀ probe, session.world.disk.at? probe = some .directory → world.disk.at? probe = some .directory
  handlers : world.log.handlers = session.world.log.handlers
  history : ∃ call, world.history = session.world.history ++ [call] ∧ call.creates = false
  copied : ∀ below, world.disk.at? (path.names ++ below) = session.world.disk.at? (session.source.names ++ below)
  stands : world.disk.at? path.names = some .directory
  above : world.disk.at? session.output.names.dropLast = some .directory
  empty : ∀ below content, world.disk.at? (session.output.names ++ below) ≠ some (.file content)

/-- A source that is there is not in the output, so that the output is not the root. -/
theorem Poised.output_named (poised : Poised session)
    (stands : session.world.disk.at? session.source.names = some .directory) : session.output.names ≠ [] := by
  intro root
  cases names : session.source.names with
  | nil => exact poised.outside (by simp [names])
  | cons name rest =>
    have below : session.world.disk.at? (session.output.names ++ name :: rest) = some .directory := by
      rwa [root, ← names]
    cases poised.unpopulated.symm.trans (isPopulated_of_below poised.output below)

theorem Backed.secured (backed : Backed session held path world) (poised : Poised session)
    (absent : session.world.disk.at? path.names = none) (different : path ≠ session.output) :
    Secured session path world := by
  obtain ⟨moment, rfl⟩ := backed.named
  have resolved := backupPath_resolved poised.source poised.output moment
  have names : (backupPath session moment).names =
      session.output.names.dropLast ++ [backupName session.source moment] := by
    rw [backupPath_eq poised.source.valid]
    rfl
  obtain ⟨relogged, history⟩ := backed.surveyed.surveys
  -- only log files have changed since the run began, and none of them is in the source
  have same (probe : List String) (off : ¬ session.world.LogPlace probe) :
      held.world.disk.at? probe = session.world.disk.at? probe :=
    relogged.touched.at? (fun impossible => impossible) (fun there => off there.1)
  have sameSource (below : List String) :
      held.world.disk.at? (session.source.names ++ below) = session.world.disk.at? (session.source.names ++ below) :=
    same _ (fun there => (poised.logs _ there).2 (prefix_append _ _))
  have stillAbsent : held.world.disk.at? (backupPath session moment).names = none := by
    rw [same, absent]
    intro there
    obtain ⟨⟨content, stands⟩, _⟩ := poised.logs _ there
    cases absent.symm.trans stands
  obtain ⟨disk, acted, rfl⟩ := Call.perform_ok backed.taken
  have run : exec (copyTree session.source (backupPath session moment)) held.world.disk = (.ok (), disk) :=
    acted
  have tidy := relogged.touched.changes.tidy poised.tidy
  obtain ⟨is, fresh⟩ := copyTree_fresh tidy resolved (by simp [names]) stillAbsent run
  simp only [placeOf_resolved _ poised.source, sameSource] at fresh
  obtain ⟨place, located, stands⟩ := isDirectory_iff.1 is
  obtain rfl : place = session.source.names := (eq_placeOf located).trans (placeOf_resolved _ poised.source)
  have there : disk.at? (backupPath session moment).names = some .directory := by
    have whole := fresh []
    rw [append_nil] at whole
    rw [whole, ← stands]
    simpa using (sameSource []).symm
  have nonempty := poised.output_named (by simpa [stands] using (sameSource []).symm)
  have places : session.output.names.dropLast ++ [backupName session.source moment] ≠ session.output.names := by
    intro equal
    refine different ?_
    rw [backupPath_eq poised.source.valid]
    cases out : session.output
    simpa [child, parent, out] using equal
  have beside (below : List String) := beside_of_neighbour nonempty places below
  obtain ⟨entries, entry⟩ := Entry.at?_directory.1 stands
  have touched : Touched _ _ held.world.disk
      (exec (copyTree session.source (backupPath session moment)) held.world.disk).2 :=
    copyTree_alters (entry_ok.2 ⟨_, located, entry⟩) (Entry.tidy_get? tidy entry)
  rw [run] at touched
  have none := no_file_of_unpopulated poised.output poised.unpopulated poised.notFile
  refine ⟨resolved, nonempty, ?_, touched.changes.tidy tidy, ?_, ?_, relogged.handlers,
    ⟨⟨.copyTree, backupPath session moment, true, disk⟩, ?_, rfl⟩, fresh, there, ?_, ?_⟩
  · rw [names]
    simpa using beside []
  · exact touched.changes.workingDirectory.trans relogged.touched.changes.workingDirectory
  · exact fun probe stands => touched.changes.directories _ (relogged.touched.changes.directories _ stands)
  · rw [← history]
    rfl
  · rw [names] at there
    exact directory_above (by simp) there
  · intro below content stands
    -- the copy lands at the path of the backup, which is beside the output
    have off : ¬ (Entry.directory entries).Lands (held.world.disk.placeOf (backupPath session moment))
        (session.output.names ++ below) := by
      rw [placeOf_resolved _ resolved, names]
      exact fun lands => (beside below).1 (prefix_of_lands lands)
    have before := touched.changes.fresh _ content off stands
    rw [same _ (fun there => poised.logs_below none there (prefix_append _ _))] at before
    exact none below content before

theorem Secured.undoable (secured : Secured session path world) (poised : Poised session)
    (absent : session.world.disk.at? path.names = none) {final : World} {calls : List Performed}
    (tended : World.Tended world final calls) (stands : ∀ call ∈ calls, call.creates = true → call.Stands)
    (valid : ∀ call ∈ calls, call.creates = true → call.path.Valid)
    (under : ∀ call ∈ calls, call.creates = true →
      session.output.names <+: session.world.disk.placeOf call.path)
    (free : ∀ below content, session.world.disk.at? (session.source.names ++ below) = some (.file content) →
      final.disk.at? (session.output.names ++ below) ≠ some .directory)
    (backup : data.backupPath = path.toString)
    (created : data.createdPaths = Performed.creations calls) :
    Rollback.Undoable final.willing data session.output.names path.names ∧
      ∀ below content, final.disk.at? (path.names ++ below) = some (.file content) ↔
        session.world.disk.at? (session.source.names ++ below) = some (.file content) := by
  have changes := tended.changes stands
  have start := placeOf_congr secured.workingDirectory
  have logPlace {place : List String} (there : world.LogPlace place) : session.world.LogPlace place := by
    obtain ⟨path, member, rfl⟩ := there
    exact ⟨path, secured.handlers ▸ member, start path⟩
  have none := no_file_of_unpopulated poised.output poised.unpopulated poised.notFile
  have noBackup (below : List String) (content : List UInt8) :
      session.world.disk.at? (path.names ++ below) ≠ some (.file content) := by
    by_cases here : below = []
    · simp [here, absent]
    · simp [at?_below_none here (by simp [absent] : session.world.disk.at? path.names ≠ some .directory)]
  have logs (place : List String) (there : world.LogPlace place) :
      ¬ session.output.names <+: place ∧ ¬ path.names <+: place :=
    ⟨poised.logs_below none (logPlace there), poised.logs_below noBackup (logPlace there)⟩
  have files (below : List String) (content : List UInt8) :
      final.disk.at? (path.names ++ below) = some (.file content) ↔
        session.world.disk.at? (session.source.names ++ below) = some (.file content) := by
    have off : ¬ (world.LogPlace (path.names ++ below) ∨
        ∃ call ∈ calls, call.creates = true ∧ path.names ++ below = world.disk.placeOf call.path) := by
      rintro (there | ⟨call, member, creates, is⟩)
      · exact (logs _ there).2 (prefix_append _ _)
      · have within := under call member creates
        rw [← start, ← is] at within
        exact Rollback.not_prefix_below secured.beside below within
    rw [← secured.copied]
    exact ⟨changes.fresh _ content off, changes.kept _ content off⟩
  -- a created path is read back from its text, and is still where it was
  have made {text : String} (member : text ∈ data.createdPaths) :
      ∃ call ∈ calls, call.creates = true ∧ ofString text = call.path := by
    rw [created] at member
    obtain ⟨call, inCalls, rfl⟩ := mem_map.1 member
    obtain ⟨inCalls, creates⟩ := mem_filter.1 inCalls
    exact ⟨call, inCalls, creates, ofString_toString (valid call inCalls creates)⟩
  refine ⟨?_, files⟩
  exact
    { tidy := changes.tidy secured.tidy
      located := by
        rw [backup, ofString_toString secured.resolved.valid]
        exact changes.locate (locate_resolved secured.resolved (by simp [secured.stands]))
      stands := changes.directories _ secured.stands
      nonempty := secured.nonempty
      above := changes.directories _ secured.above
      beside := secured.beside
      created := by
        intro text member
        obtain ⟨call, inCalls, creates, is⟩ := made member
        rw [is]
        refine ⟨_, tended.located stands call inCalls creates, ?_⟩
        rw [start]
        exact under call inCalls creates
      files := by
        intro below content file
        by_cases put : ∃ call ∈ calls, call.creates = true ∧
            session.output.names ++ below = world.disk.placeOf call.path
        · obtain ⟨call, inCalls, creates, is⟩ := put
          refine ⟨call.path.toString, ?_, ?_⟩
          · rw [created]
            exact mem_map.2 ⟨call, mem_filter.2 ⟨inCalls, creates⟩, rfl⟩
          · rw [ofString_toString (valid call inCalls creates), is]
            exact placeOf_congr changes.workingDirectory call.path
        · refine absurd (changes.fresh _ content ?_ file) (secured.empty below content)
          rintro (there | there)
          · exact (logs _ there).1 (prefix_append _ _)
          · exact put there
      logs := by
        rintro place ⟨path, member, rfl⟩
        refine logs _ ⟨path, tended.handlers ▸ member, ?_⟩
        exact placeOf_congr changes.workingDirectory path
      free := fun below content file => free below content ((files below content).1 file) }

theorem placeOf_of_resolveUser {raw resolved : Path} (plain : disk.expandUser raw = some raw)
    (done : disk.resolveUser raw = .ok resolved) : disk.placeOf raw = resolved.names := by
  rw [Disk.resolveUser, plain] at done
  dsimp only at done
  split at done
  · cases done
  · cases done
    rfl

theorem Leads.mono {after : Disk} (leads : disk.Leads path) (start : after.workingDirectory = disk.workingDirectory)
    (directories : ∀ probe, disk.at? probe = some .directory → after.at? probe = some .directory) :
    after.Leads path := by
  obtain ⟨front, names, is, plain, there⟩ := leads
  obtain ⟨place, located, stands⟩ := isDirectory_iff.1 there
  exact ⟨front, names, is, plain, isDirectory_iff.2 ⟨place, locate_mono start directories located,
    directories place stands⟩⟩

section

variable {migration : Migration} {source : String} {texts : List ExtractedText}

theorem runSession_secured {start : World}
    (real : migration.options.dryRun = false) (begins : migration.session source texts start = .ok session)
    {observer : Option Observer} {started : Moment}
    (taken : (runSession observer started session).1.outcome.rollbackData = some data) :
    ∃ held path world calls, Backed session held path world ∧ data.backupPath = path.toString ∧
      data.backupPath ≠ "" ∧ data = (runSession observer started session).1.rollback ∧
      World.Tended world (runSession observer started session).1.world calls := by
  obtain ⟨fresh, _⟩ := ledger_session begins
  obtain ⟨all, _, _, backup, attached⟩ := runSession_ledger real begins observer started
  rw [attached] at taken
  split at taken
  · next took =>
      cases taken
      have unnamed : session.rollback.backupPath = "" := by simpa using fresh.backup
      have named : (runSession observer started session).1.rollback.backupPath ≠ "" := by
        intro empty
        simp [empty, took] at backup
      obtain ⟨held, path, world, calls, backed, is, tended⟩ := runSession_backed unnamed named
      exact ⟨held, path, world, calls, backed, is, named, rfl, tended⟩
  · cases taken

/-- After a rollback the files of the output are those of the source, whatever failed in the run. The
    path of the output must lead there from a directory without double dots, and every file that the
    run has made must stand at its path. -/
theorem rollBack_restores {world : World}
    (observer : Option Observer) (started : Moment) {told : List Progress} {final : Session} {data : RollbackData}
    (real : migration.options.dryRun = false) (regular : world.disk.Regular)
    (begins : migration.session source texts world = .ok session)
    (ends : runSession observer started session = (final, told))
    (taken : final.outcome.rollbackData = some data)
    (unpopulated : isPopulated world.disk session.output = false)
    (notFile : world.disk.isFile session.output = false)
    (fresh : world.disk.exists? (ofString data.backupPath) = false)
    (different : ofString data.backupPath ≠ session.output)
    (outside : ¬ session.source.names <+: session.output.names)
    (under : ∀ call ∈ final.world.history.drop world.history.length, call.creates = true →
      session.output.names <+: world.disk.placeOf call.path)
    (free : ∀ below content, world.disk.at? (session.source.names ++ below) = some (.file content) →
      final.world.disk.at? (session.output.names ++ below) ≠ some .directory)
    (logs : ∀ place, world.LogPlace place →
      (∃ content, world.disk.at? place = some (.file content)) ∧ ¬ session.source.names <+: place)
    (stands : ∀ call ∈ final.world.history.drop world.history.length, call.creates = true → call.Stands)
    (plain : world.disk.expandUser (ofString migration.options.outputPath) =
      some (ofString migration.options.outputPath))
    (leads : world.disk.Leads (ofString migration.options.outputPath)) :
    ∃ restored, exec (migration.rollBack final.outcome) final.world.willing = (.ok (), restored) ∧
      ∀ below content, restored.disk.at? (session.output.names ++ below) = some (.file content) ↔
        world.disk.at? (session.source.names ++ below) = some (.file content) := by
  obtain rfl : final = (runSession observer started session).1 := by rw [ends]
  obtain ⟨held, path, backedWorld, calls, backed, backup, named, same, tended⟩ := runSession_secured real begins taken
  obtain ⟨all, history, created, _⟩ := runSession_ledger real begins observer started
  obtain ⟨recorded, listed⟩ := runSession_recorded observer started session
  obtain ⟨sourcePath, outputPath, sourceFound, outputFound, rfl⟩ := session_eq_ok begins
  have sourceResolved := resolved_of_resolveUser regular.start (ofString_valid source) sourceFound
  have outputResolved := resolved_of_resolveUser regular.start (ofString_valid _) outputFound
  have poised : Poised (migration.fresh sourcePath outputPath texts world) :=
    ⟨regular.tidy, sourceResolved, outputResolved, outside, unpopulated, notFile, logs⟩
  obtain ⟨moment, isPath⟩ := backed.named
  have pathResolved : path.Resolved := isPath ▸ backupPath_resolved sourceResolved outputResolved moment
  rw [backup, ofString_toString pathResolved.valid] at fresh different
  have absent : world.disk.at? path.names = none := by
    by_contra there
    cases fresh.symm.trans (exists_of_at? (locate_resolved pathResolved there) there)
  have secured := backed.secured poised absent different
  -- the calls of the run are its backup and those after it
  obtain ⟨call, before, notMade⟩ := secured.history
  have split : all = call :: calls := by
    have both := history.symm.trans tended.history
    rw [before, append_assoc] at both
    exact append_cancel_left both
  have recent : (runSession observer started (migration.fresh sourcePath outputPath texts world)).1.world.history.drop
      world.history.length = call :: calls := by
    rw [history, drop_left, split]
  have allRecorded : recorded = all := append_cancel_left (listed.history.symm.trans history)
  rw [recent] at under stands
  have later {other : Performed} (member : other ∈ calls) : other ∈ call :: calls := mem_cons_of_mem _ member
  obtain ⟨undoable, files⟩ := secured.undoable poised absent tended
    (fun other member => stands other (later member))
    (fun other member creates => creates_valid outputResolved.valid listed
      (by rw [allRecorded, split]; exact later member) creates)
    (fun other member => under other (later member)) free backup
    (by rw [same, created, split]; simp [Performed.creations, notMade])
  have changes := tended.changes (fun other member => stands other (later member))
  have start := changes.workingDirectory.trans secured.workingDirectory
  obtain ⟨restored, run, shown⟩ := undoable.restores ⟨fun _ _ => rfl, fun _ => rfl⟩ named
    (Leads.mono leads start (fun probe there => changes.directories _ (secured.directories _ there)))
    ((placeOf_congr start _).trans (placeOf_of_resolveUser plain outputFound))
  refine ⟨restored, ?_, fun below content => (shown below content).trans (files below content)⟩
  rw [Migration.rollBack, taken]
  exact run

end

theorem stands_of_isFile {call : Performed} (is : call.disk.isFile call.path = true) : call.Stands := by
  obtain ⟨place, content, located, stands⟩ := isFile_iff.1 is
  exact ⟨content, eq_placeOf located ▸ stands⟩

theorem at?_file_cons {name : String} {entry : Entry} {rest : List (String × Entry)}
    (stands : (Entry.directory ((name, entry) :: rest)).at? below = some (.file content)) :
    (∃ inner, below = name :: inner ∧ entry.at? inner = some (.file content)) ∨
      (Entry.directory rest).at? below = some (.file content) := by
  cases below with
  | nil => cases stands
  | cons other inner =>
    rw [Entry.at?_cons_entry] at stands
    split at stands
    · next same => exact .inl ⟨inner, by rw [same], stands⟩
    · exact .inr stands

theorem at?_file_leaf {old : List UInt8} (stands : (Entry.file old).at? below = some (.file content)) :
    below = [] := by
  cases below with
  | nil => rfl
  | cons => cases stands

theorem at?_file_none (stands : (Entry.directory []).at? below = some (.file content)) : False := by
  cases below <;> cases stands

theorem button_files (stands : buttonWorld.disk.at? ("project" :: below) = some (.file content)) :
    below = ["lovable.json"] ∨ below = ["src", "components", "A.tsx"] := by
  rcases at?_file_cons stands with ⟨inProject, is, project⟩ | none
  · obtain ⟨_, rfl⟩ := List.cons.inj is
    rcases at?_file_cons project with ⟨_, rfl, leaf⟩ | others
    · exact .inl (by rw [at?_file_leaf leaf])
    rcases at?_file_cons others with ⟨inSources, rfl, sources⟩ | none
    · rcases at?_file_cons sources with ⟨inComponents, rfl, components⟩ | none
      · rcases at?_file_cons components with ⟨_, rfl, leaf⟩ | none
        · exact .inr (by rw [at?_file_leaf leaf])
        · exact (at?_file_none none).elim
      · exact (at?_file_none none).elim
    · exact (at?_file_none none).elim
  · exact (at?_file_none none).elim

/-- A world in which one of the files of the output cannot be written. -/
def unreadWorld : World :=
  { buttonWorld with refuses := fun operation path => operation = .writeText && path.name = "README.md" }

def outputRegistry (path : String) : Registry :=
  { plainRegistry with options := { plainRegistry.options with outputPath := path } }

def outputMigration (path : String) : Migration := builtin (outputRegistry path) (outputRegistry path) none

def outputSession (path : String) : Session :=
  (outputMigration path).fresh ⟨.slash, ["project"]⟩ ⟨.slash, ["out"]⟩ [] unreadWorld

def outputRun (path : String) : Session := (runSession none unreadWorld.clock.now (outputSession path)).1

/-- A run has taken a backup at a new path, its files stand in the output, and no directory of the
    output is in the way of a file of the project. -/
def CanUndo (final : Session) : Prop :=
  (final.outcome.rollbackData.isSome = true ∧
    ∀ data ∈ final.outcome.rollbackData, unreadWorld.disk.exists? (ofString data.backupPath) = false ∧
      ofString data.backupPath ≠ ⟨.slash, ["out"]⟩) ∧
  (∀ call ∈ final.world.history, call.creates = true →
    ["out"] <+: unreadWorld.disk.placeOf call.path ∧ call.disk.isFile call.path = true) ∧
  final.world.disk.at? ["out", "lovable.json"] = none ∧
  final.world.disk.at? ["out", "src", "components", "A.tsx"] = none

instance (final : Session) : Decidable (CanUndo final) := by
  unfold CanUndo
  infer_instance

theorem output_undone : CanUndo (outputRun "/out") ∧
    (outputRun "/out").outcome.errors.map (·.file) = ["README.md"] := by
  decide +kernel

theorem rollBack_restores_unread :
    ∃ final told data restored,
      (outputMigration "/out").session "/project" [] unreadWorld = .ok (outputSession "/out") ∧
      runSession none unreadWorld.clock.now (outputSession "/out") = (final, told) ∧
      final.outcome.rollbackData = some data ∧ CanUndo final ∧
      final.outcome.errors.map (·.file) = ["README.md"] ∧ unreadWorld.disk.Regular ∧
      unreadWorld.disk.Leads (ofString "/out") ∧
      exec ((outputMigration "/out").rollBack final.outcome) final.world.willing = (.ok (), restored) ∧
      ∀ below content, restored.disk.at? ("out" :: below) = some (.file content) ↔
        unreadWorld.disk.at? ("project" :: below) = some (.file content) := by
  have begins : (outputMigration "/out").session "/project" [] unreadWorld = .ok (outputSession "/out") := rfl
  have regular : unreadWorld.disk.Regular := ⟨by decide +kernel, by decide +kernel, by decide⟩
  have leads : unreadWorld.disk.Leads (ofString "/out") :=
    ⟨⟨.slash, []⟩, ["out"], by decide +kernel, by decide, by decide +kernel⟩
  have ends : runSession none unreadWorld.clock.now (outputSession "/out") =
      (outputRun "/out", (runSession none unreadWorld.clock.now (outputSession "/out")).2) := rfl
  obtain ⟨undone, errors⟩ := output_undone
  obtain ⟨⟨some, backups⟩, calls, noManifest, noComponent⟩ := id undone
  obtain ⟨data, taken⟩ := Option.isSome_iff_exists.1 some
  have free : ∀ below content, unreadWorld.disk.at? ("project" :: below) = .some (.file content) →
      (outputRun "/out").world.disk.at? ("out" :: below) ≠ .some .directory := by
    intro below content stands
    rcases button_files stands with rfl | rfl
    · simp [noManifest]
    · simp [noComponent]
  have logs : ∀ place, unreadWorld.LogPlace place →
      (∃ content, unreadWorld.disk.at? place = .some (.file content)) ∧ ¬ ["project"] <+: place := by
    rintro place ⟨path, member, _⟩
    simp [unreadWorld, buttonWorld, Log.Router.initial] at member
  obtain ⟨restored, run, files⟩ := rollBack_restores none unreadWorld.clock.now rfl regular begins
    ends taken
    (by decide +kernel) (by decide +kernel) (backups data taken).1 (backups data taken).2 (by decide)
    (fun call member creates => (calls call (mem_of_mem_drop member) creates).1) free logs
    (fun call member creates => stands_of_isFile (calls call (mem_of_mem_drop member) creates).2)
    (by decide +kernel) leads
  exact ⟨_, _, data, restored, begins, ends, taken, undone, errors, regular, leads, run, files⟩

/-- A path of the output that goes through a file of the project leads nowhere. -/
theorem rollBack_fails_dotted :
    (outputMigration "project/lovable.json/../../out").session "/project" [] unreadWorld =
        .ok (outputSession "project/lovable.json/../../out") ∧
      CanUndo (outputRun "project/lovable.json/../../out") ∧
      (exec ((outputMigration "project/lovable.json/../../out").rollBack
        (outputRun "project/lovable.json/../../out").outcome)
          (outputRun "project/lovable.json/../../out").world.willing).1.toBool = false ∧
      (exec ((outputMigration "project/lovable.json/../../out").rollBack
        (outputRun "project/lovable.json/../../out").outcome)
          (outputRun "project/lovable.json/../../out").world.willing).2.disk.isFile
            ⟨.slash, ["out", "lovable.json"]⟩ = false :=
  ⟨rfl, by decide +kernel⟩

end Migration
end Refit
