import Refit.Proofs.Run.Aftermath

/-!
Runs that come to nothing leave the output alone. A run that does not get past its survey makes no call,
and one whose output is populated is rejected before it has done more than take a backup beside it.
-/

namespace Refit

open Disk DiskAction

namespace World

/-- From one world to another nothing changed in an output but log files. -/
structure Spares (output : Path) (start world : World) : Prop where
  handlers : world.log.handlers = start.log.handlers
  changes : Disk.Changes (fun _ => True) start.disk world.disk
  same : ∀ below, ¬ start.LogPlace (output.names ++ below) →
    world.disk.at? (output.names ++ below) = start.disk.at? (output.names ++ below)

variable {output : Path} {start middle world : World}

theorem Spares.of_same (disk : world.disk = start.disk) (handlers : world.log.handlers = start.log.handlers) :
    Spares output start world :=
  ⟨handlers, by rw [disk]; exact .refl _, fun _ _ => by rw [disk]⟩

theorem Spares.trans (first : Spares output start middle) (second : Spares output middle world) :
    Spares output start world where
  handlers := second.handlers.trans first.handlers
  changes := first.changes.trans second.changes
  same below unlogged := by
    rw [second.same below ?_, first.same below unlogged]
    rintro ⟨path, member, there⟩
    rw [first.handlers] at member
    exact unlogged ⟨path, member, there.trans (placeOf_congr first.changes.workingDirectory path)⟩

theorem Spares.of_relogged (relogged : Relogged start world) : Spares output start world where
  handlers := relogged.handlers
  changes := relogged.touched.changes.mono (fun _ _ => trivial)
  same _ unlogged := relogged.touched.at? id (fun there => unlogged there.1)

theorem Spares.note (world : World) (record : Log.Record) : Spares output world (world.note record) :=
  .of_relogged ((Relogged.refl world).note record)

theorem backUp_touches {world : World} (tidy : world.disk.root.tidy = true) (source path : Path) :
    ∃ tree : Entry, Touched (DiskAction.Around world.disk path) (tree.Lands (world.disk.placeOf path)) world.disk
      ((Call.backUp source path).perform world).2.disk := by
  obtain ⟨tree, touched⟩ := copyTree_touches tidy source path
  rcases (Call.backUp source path).perform_cases world with ⟨_, run⟩ | ⟨_, disk, acted, run⟩ | ⟨disk, acted, run⟩
  · rw [run]
    exact ⟨tree, .refl⟩
  all_goals
    rw [show exec (copyTree source path) world.disk = (_, disk) from acted] at touched
    rw [run]
    exact ⟨tree, touched⟩

theorem Spares.backUp {name : String} (tidy : world.disk.root.tidy = true) (nonempty : output.names ≠ [])
    (beside : (output.parent.child name).Resolved) (different : output.parent.child name ≠ output) (source : Path) :
    Spares output world ((Call.backUp source (output.parent.child name)).perform world).2 := by
  obtain ⟨tree, touched⟩ := backUp_touches tidy source (output.parent.child name)
  have log : ((Call.backUp source (output.parent.child name)).perform world).2.log = world.log := by
    rcases (Call.backUp source (output.parent.child name)).perform_cases world with
      ⟨_, run⟩ | ⟨_, disk, _, run⟩ | ⟨disk, _, run⟩ <;> rw [run] <;> rfl
  refine ⟨by rw [log], touched.changes.mono (fun _ _ => trivial), fun below _ => ?_⟩
  obtain ⟨unmade, unput⟩ := Stage.away_of_neighbour nonempty beside different world.disk tree below
  exact touched.at? unmade unput

end World

theorem Session.Trace.looks {s t : Session} (trace : Trace Event.looks s t) :
    World.Relogged s.world t.world ∧ t.world.calls = s.world.calls ∧ t.world.clock = s.world.clock ∧
      t.rollback = s.rollback := by
  induction trace with
  | refl => exact ⟨.refl s.world, rfl, rfl, rfl⟩
  | tail _ last ih =>
    obtain ⟨relogged, rest⟩ := ih
    obtain ⟨event, is, step⟩ := last
    cases step with
    | logged _ record => exact ⟨relogged.note record, rest⟩
    | chosen | analyzed => exact ⟨⟨relogged.handlers, relogged.touched⟩, rest⟩
    | _ => cases is

theorem Session.Trace.unattached {can : Event → Prop} {s t : Session} (trace : Trace can s t) :
    t.outcome.rollbackData = s.outcome.rollbackData := by
  induction trace with
  | refl => rfl
  | tail _ last ih =>
    obtain ⟨_, _, step⟩ := last
    obtain ⟨_, accounts⟩ := step.accounts
    exact accounts.unattached.trans ih

namespace Migration

open Session Stage Event

variable {observer : Option Observer} {session : Session} {fault : Fault}

/-- The backup that a run is to take, if it gets so far. -/
def intended (session : Session) : Path := backupPath session session.world.clock.now

/-- A session of a run that was rejected: the output is spared, and at most the backup was taken. -/
structure Rejected (session t : Session) : Prop where
  spares : World.Spares session.output session.world t.world
  called : t.world.calls = session.world.calls ∧ t.rollback = session.rollback ∨
    session.options.createBackup = true ∧ session.options.dryRun = false ∧
      t.world.calls = session.world.calls ++ [(.copyTree, intended session)] ∧
      (t.rollback = session.rollback ∨
        t.rollback = { session.rollback with backupPath := (intended session).toString })

theorem Rejected.note {t : Session} (rejected : Rejected session t) (record : Log.Record) :
    Rejected session { t with world := t.world.note record } :=
  ⟨rejected.spares.trans (.note t.world record), rejected.called⟩

theorem announced_setup {t : Session} (populated : isPopulated session.world.disk session.output = true)
    (rejected : Rejected session t) (same : t.output = session.output) (total : Nat) :
    ∃ fault after, exec (announced observer total 4 ⟨"setup", "Preparing output directory", setup⟩) t =
      (.error fault, after) ∧ Rejected session after := by
  rcases announced_cases observer total 4 ⟨"setup", "Preparing output directory", setup⟩ t with
    ⟨fault, run⟩ | ⟨record, run⟩
  · exact ⟨fault, t, run, rejected⟩
  · have noted := rejected.note record
    have full : isPopulated (t.world.note record).disk t.output = true := by
      rw [same]
      exact isPopulated_of_changes noted.spares.changes populated
    rw [run]
    have refused := exec_setup { t with world := t.world.note record }
    cases looked : (t.world.note record).blind with
    | some fault =>
      rw [looked] at refused
      exact ⟨fault, _, refused, noted⟩
    | none =>
      rw [looked] at refused
      rw [if_pos full] at refused
      exact ⟨_, _, refused, noted⟩

theorem exec_backup_rejected {s : Session} (rejected : Rejected session s)
    (untaken : s.world.calls = session.world.calls ∧ s.rollback = session.rollback)
    (same : SameRun session s) (clock : s.world.clock = session.world.clock) (tidy : session.world.disk.root.tidy = true)
    (source : session.source.Resolved) (output : session.output.Resolved) (nonempty : session.output.names ≠ [])
    (different : intended session ≠ session.output) : Rejected session (exec backup s).2 := by
  cases wanted : (!s.options.createBackup || s.options.dryRun) with
  | true =>
    rw [exec_backup_unwanted wanted]
    exact rejected
  | false =>
    have wants : session.options.createBackup = true ∧ session.options.dryRun = false := by
      rw [same.options] at wanted
      simpa using wanted
    have path : backupPath s s.world.readClock.1 = intended session := by
      unfold intended backupPath
      rw [same.output, same.source, show s.world.readClock.1 = session.world.clock.now from congrArg Clock.now clock]
    have child := backupPath_eq source.valid session.world.clock.now
    have resolved := backupPath_resolved source output session.world.clock.now
    rw [intended, child] at different
    rw [child] at resolved
    have spared : World.Spares session.output s.world
        ((Call.backUp s.source (intended session)).perform (timed s).world).2 := by
      have taken := @World.Spares.backUp session.output (timed s).world _ (rejected.spares.changes.tidy tidy) nonempty
        resolved different s.source
      have clocked : World.Spares session.output s.world (timed s).world := .of_same rfl rfl
      rw [intended, child]
      exact clocked.trans taken
    have called := Call.calls_perform (Call.backUp s.source (intended session)) (timed s).world
    obtain ⟨chosen, is, ⟨fault, world, performed, run⟩ | ⟨world, performed, run⟩⟩ := exec_backup_wanted wanted
    · rw [is, path] at performed
      rw [performed] at spared called
      rw [run]
      refine ⟨rejected.spares.trans spared, .inr ⟨wants.1, wants.2, ?_, .inl untaken.2⟩⟩
      exact called.trans (congrArg (· ++ _) untaken.1)
    · rw [is, path] at performed
      rw [performed] at spared called
      rw [run]
      refine ⟨(rejected.spares.trans spared).trans (.note world _), .inr ⟨wants.1, wants.2, ?_, .inr ?_⟩⟩
      · exact called.trans (congrArg (· ++ _) untaken.1)
      · rw [is, path, Stage.backedUp, untaken.2]

theorem laid_rejected (populated : isPopulated session.world.disk session.output = true)
    (tidy : session.world.disk.root.tidy = true) (source : session.source.Resolved) (output : session.output.Resolved)
    (nonempty : session.output.names ≠ []) (different : intended session ≠ session.output)
    (observer : Option Observer) :
    (∃ fault, (laid observer session).1 = .error fault) ∧ Rejected session (laid observer session).2 := by
  have parts : inTurn observer stages.length 1 (stages.take 4) = (do
      inTurn observer stages.length 1 (stages.take 2)
      announced observer stages.length 3 ⟨"backup", "Creating backup", do let _ ← backup⟩
      announced observer stages.length 4 ⟨"setup", "Preparing output directory", setup⟩) := by
    have halves : stages.take 4 = stages.take 2 ++ (stages.take 4).drop 2 := rfl
    rw [halves, inTurn_append]
    exact bind_congr (fun _ => bind_congr (fun _ => bind_pure_unit))
  have trace := looked_trace observer session
  unfold laid
  rw [parts, exec_bind]
  rcases first : exec (inTurn observer stages.length 1 (stages.take 2)) (begun session) with ⟨outcome, s⟩
  rw [first] at trace
  have same := trace.sameRun
  obtain ⟨relogged, calls, clock, rollback⟩ := trace.looks
  have looked : Rejected session s := ⟨.of_relogged relogged, .inl ⟨calls, rollback⟩⟩
  cases outcome with
  | error fault => exact ⟨⟨fault, rfl⟩, looked⟩
  | ok =>
    dsimp only
    rw [exec_bind]
    rcases announced_cases observer stages.length 3 ⟨"backup", "Creating backup", do let _ ← backup⟩ s with
      ⟨fault, run⟩ | ⟨record, run⟩
    · rw [run]
      exact ⟨⟨fault, rfl⟩, looked⟩
    · have again : SameRun session { s with world := s.world.note record } :=
        ⟨same.source, same.output, same.options, same.candidates, same.texts⟩
      have backed := exec_backup_rejected (looked.note record) ⟨calls, rollback⟩ again clock tidy source output nonempty different
      have traced : Traces (backsUp session) backup { s with world := s.world.note record } := backup_traces again
      have kept := (Trace.sameRun traced).output.trans again.output
      rw [run, exec_bind]
      rcases taken : exec backup { s with world := s.world.note record } with ⟨outcome, t⟩
      rw [taken] at backed kept
      cases outcome with
      | error fault => exact ⟨⟨fault, rfl⟩, backed⟩
      | ok value =>
        obtain ⟨fault, after, run, rejected⟩ := @announced_setup observer _ _ populated backed kept stages.length
        dsimp only [exec_pure]
        rw [run]
        exact ⟨⟨fault, rfl⟩, rejected⟩

theorem completed_of_laid (failed : (laid observer session).1 = .error fault) :
    (completed observer session).1 = .error fault ∧ (completed observer session).2.1 = (laid observer session).2 := by
  have before := prepared_eq observer session
  rw [show laid observer session = (.error fault, (laid observer session).2) from Prod.ext failed rfl] at before
  obtain ⟨ended, held⟩ := Prod.mk.inj before
  unfold completed
  rcases run : prepared observer session with ⟨outcome, last, told⟩
  rw [run] at ended held
  cases ended
  exact ⟨rfl, held⟩

theorem runSession_of_laid (failed : (laid observer session).1 = .error fault) (started : Moment) :
    (runSession observer started session).1 = closed (conclude started (abort fault (laid observer session).2)) := by
  obtain ⟨ended, held⟩ := completed_of_laid failed
  rw [runSession_eq, ended, held]
  rfl

theorem runSession_rejected (populated : isPopulated session.world.disk session.output = true)
    (tidy : session.world.disk.root.tidy = true) (source : session.source.Resolved) (output : session.output.Resolved)
    (nonempty : session.output.names ≠ []) (different : intended session ≠ session.output)
    (observer : Option Observer) (started : Moment) :
    (runSession observer started session).1.outcome.aborted = true ∧
      Rejected session (runSession observer started session).1 ∧
      (runSession observer started session).1.outcome.rollbackData =
        if (runSession observer started session).1.rollback.backupPath.isEmpty then session.outcome.rollbackData
        else some (runSession observer started session).1.rollback := by
  obtain ⟨⟨fault, failed⟩, rejected⟩ := laid_rejected populated tidy source output nonempty different observer
  rw [runSession_of_laid failed]
  have aborted : Rejected session (conclude started (abort fault (laid observer session).2)) :=
    ⟨(rejected.note _).spares.trans (.of_same rfl rfl), rejected.called⟩
  refine ⟨rfl, aborted.note _, ?_⟩
  rw [← (laid_trace observer session).unattached]
  rfl

theorem runSession_unlaid
    (failed : (runStages observer stages.length 1 (stages.take 2) (begun session) []).1 = .error fault)
    (started : Moment) : (runSession observer started session).1.world.calls = session.world.calls := by
  have trace := looked_trace observer session
  rw [(runStages_inTurn observer stages.length 1 (stages.take 2) (begun session) []).1] at failed
  have ended : laid observer session =
      (.error fault, (exec (inTurn observer stages.length 1 (stages.take 2)) (begun session)).2) := by
    have halves : stages.take 4 = stages.take 2 ++ (stages.take 4).drop 2 := rfl
    rw [laid, halves, inTurn_append, exec_bind]
    rcases run : exec (inTurn observer stages.length 1 (stages.take 2)) (begun session) with ⟨outcome, s⟩
    rw [run] at failed
    cases failed
    rfl
  rw [runSession_of_laid (congrArg Prod.fst ended), ended]
  exact trace.looks.2.1

/-- A migration that fails in its first two stages makes no call. One into a populated output is aborted;
    it makes no call but to copy the source to its backup, and at every place in the output stands what
    stood there, log files apart. -/
theorem migrate_spares_output {migration : Migration} {source : String} {texts : List ExtractedText} {world : World}
    (regular : world.disk.Regular) {session : Session}
    (begins : migration.session source texts world.readClock.2 = .ok session) (observer : Option Observer) :
    ∃ outcome told after, migration.migrate source observer texts world = (.ok (outcome, told), after) ∧
      (∀ fault, (runStages observer stages.length 1 (stages.take 2) (begun session) []).1 = .error fault →
        after.calls = world.calls) ∧
      (isPopulated world.disk session.output = true → session.output.names ≠ [] → intended session ≠ session.output →
        outcome.aborted = true ∧
        (after.calls = world.calls ∨ session.options.createBackup = true ∧ session.options.dryRun = false ∧
          after.calls = world.calls ++ [(.copyTree, intended session)]) ∧
        ∀ below, ¬ world.LogPlace (session.output.names ++ below) →
          after.disk.at? (session.output.names ++ below) = world.disk.at? (session.output.names ++ below)) := by
  refine ⟨_, _, _, migrate_eq begins observer, ?_⟩
  obtain ⟨sourcePath, outputPath, foundSource, foundOutput, rfl⟩ := session_eq_ok begins
  refine ⟨fun fault failed => runSession_unlaid failed _, fun populated nonempty different => ?_⟩
  have resolvedSource : sourcePath.Resolved :=
    Disk.resolved_of_resolveUser regular.start (Path.ofString_valid source) foundSource
  have resolvedOutput : outputPath.Resolved :=
    Disk.resolved_of_resolveUser regular.start (Path.ofString_valid _) foundOutput
  obtain ⟨aborted, rejected, _⟩ := @runSession_rejected (migration.fresh sourcePath outputPath texts world.readClock.2)
    populated regular.tidy resolvedSource resolvedOutput nonempty different observer world.readClock.1
  refine ⟨aborted, ?_, rejected.spares.same⟩
  rcases rejected.called with ⟨none, _⟩ | ⟨wanted, real, taken, _⟩
  · exact .inl none
  · exact .inr ⟨wanted, real, taken⟩

/-- A world with a project, and with something in the output. -/
def occupiedWorld : World :=
  { buttonWorld with
    disk :=
      { root := .directory
          [("out", .directory [("keep.txt", .file [1])]), ("project", .directory [("lovable.json", .file [])])]
        workingDirectory := []
        homes := [] } }

def occupiedSession : Session :=
  (builtin plainRegistry plainRegistry none).fresh ⟨.slash, ["project"]⟩ ⟨.slash, ["out"]⟩ [] occupiedWorld.readClock.2

theorem migrate_spares_output_occupied :
    ∃ outcome told after,
      (builtin plainRegistry plainRegistry none).migrate "/project" none [] occupiedWorld = (.ok (outcome, told), after) ∧
      outcome.aborted = true ∧ after.calls.length = 1 ∧ after.disk.at? ["out", "keep.txt"] = some (.file [1]) := by
  have begins : (builtin plainRegistry plainRegistry none).session "/project" [] occupiedWorld.readClock.2 =
      .ok occupiedSession := rfl
  have regular : occupiedWorld.disk.Regular := ⟨by decide, by decide, by decide⟩
  have unlogged (place : List String) : ¬ occupiedWorld.LogPlace place := by
    rintro ⟨path, member, _⟩
    simp [occupiedWorld, buttonWorld, Log.Router.initial] at member
  obtain ⟨outcome, told, after, run, _, spared⟩ := migrate_spares_output regular begins none
  obtain ⟨aborted, _, same⟩ := spared (by decide) (by decide) (by decide +kernel)
  refine ⟨outcome, told, after, run, aborted, ?_, same ["keep.txt"] (unlogged _)⟩
  have whole := congrArg (fun done => done.2.calls.length) run
  rw [← whole]
  decide +kernel

/-- A world with a project whose log is kept in the output. -/
def loggedWorld : World :=
  { buttonWorld with
    disk :=
      { root := .directory
          [("out", .directory [("run.log", .file [])]), ("project", .directory [("lovable.json", .file [])])]
        workingDirectory := []
        homes := [] }
    log := Log.Router.initial.withFile ⟨.slash, ["out", "run.log"]⟩ }

def loggedSession : Session :=
  (builtin plainRegistry plainRegistry none).fresh ⟨.slash, ["project"]⟩ ⟨.slash, ["out"]⟩ [] loggedWorld.readClock.2

theorem migrate_adds_to_log :
    (builtin plainRegistry plainRegistry none).session "/project" [] loggedWorld.readClock.2 = .ok loggedSession ∧
      isPopulated loggedWorld.disk loggedSession.output = true ∧ loggedSession.output.names ≠ [] ∧
      intended loggedSession ≠ loggedSession.output ∧
      ((builtin plainRegistry plainRegistry none).migrate "/project" none [] loggedWorld).2.disk.at? ["out", "run.log"] ≠
        loggedWorld.disk.at? ["out", "run.log"] :=
  ⟨rfl, by decide, by decide, by decide +kernel, by decide +kernel⟩

end Migration
end Refit
