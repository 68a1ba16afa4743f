import Refit.Proofs.Run.Distinct

open List

namespace Refit

open Disk DiskAction

variable {call : Call}

namespace Performed

/-- A file that was to be made stands at its path. -/
def Stands (call : Performed) : Prop :=
  ∃ content, call.disk.at? (call.disk.placeOf call.path) = some (.file content)

end Performed

theorem Call.changes_of_acted (other : call.operation ≠ .copyTree) {disk after : Disk}
    {outcome : Except FileFault Unit} (acted : exec call.action disk = (outcome, after)) :
    (outcome = .ok () → call.creates = false) ∧ Disk.Changes (fun _ => False) disk after ∨
    call.creates = true ∧ outcome = .ok () ∧ after.locate call.path = .ok (disk.placeOf call.path) ∧
      ((∃ content, after.at? (disk.placeOf call.path) = some (.file content)) →
        Disk.Changes (· = disk.placeOf call.path) disk after) := by
  cases call with
  | backUp => exact absurd rfl other
  | makeDirectory path =>
    have touched : Touched (fun _ => True) (fun _ => False) disk (exec (makeDirectories path) disk).2 :=
      makeDirectories_alters path disk
    rw [show exec (makeDirectories path) disk = (outcome, after) from acted] at touched
    exact .inl ⟨fun _ => rfl, touched.changes⟩
  | write path content =>
    rcases writeFile_cases acted with ⟨_, rfl, changes⟩ | ⟨done, located, puts⟩
    · exact .inl ⟨by simp, changes⟩
    · exact .inr ⟨rfl, done, located, fun _ => puts.changes⟩
  | copy source path =>
    rcases copyFile_cases acted with ⟨_, rfl, changes⟩ | ⟨done, located, _, puts | ⟨directory, _⟩⟩
    · exact .inl ⟨by simp, changes⟩
    · exact .inr ⟨rfl, done, located, fun _ => puts.changes⟩
    · refine .inr ⟨rfl, done, located, fun ⟨content, stands⟩ => ?_⟩
      exact nomatch directory.symm.trans stands

namespace World

/-- Files were put at the places of calls that made them, and into the log. -/
structure Tended (start world : World) (calls : List Performed) : Prop where
  history : world.history = start.history ++ calls
  handlers : world.log.handlers = start.log.handlers
  changes : (∀ call ∈ calls, call.creates = true → call.Stands) →
    Disk.Changes (fun place => start.LogPlace place ∨ ∃ call ∈ calls, call.creates = true ∧
      place = start.disk.placeOf call.path) start.disk world.disk
  located : (∀ call ∈ calls, call.creates = true → call.Stands) → ∀ call ∈ calls, call.creates = true →
    world.disk.locate call.path = .ok (start.disk.placeOf call.path)

variable {start middle world : World} {calls more : List Performed}

theorem Tended.of_same (disk : world.disk = start.disk) (log : world.log = start.log)
    (history : world.history = start.history) : Tended start world [] where
  history := by rw [history, append_nil]
  handlers := by rw [log]
  changes _ := by
    rw [disk]
    exact .refl _
  located _ := by simp

theorem Tended.note (world : World) (record : Log.Record) : Tended world (world.note record) [] where
  history := by simp [World.note]
  handlers := handlers_note world record
  changes _ := (note_touched world record).changes.mono (fun _ there => .inl there.1)
  located _ := by simp

theorem Tended.trans (first : Tended start middle calls) (second : Tended middle world more) :
    Tended start world (calls ++ more) where
  history := by rw [second.history, first.history, append_assoc]
  handlers := second.handlers.trans first.handlers
  changes stands := by
    have early := first.changes (fun call member => stands call (mem_append_left _ member))
    have late := second.changes (fun call member => stands call (mem_append_right _ member))
    refine (early.mono ?_).trans (late.mono ?_)
    · exact fun place there => there.imp_right (fun ⟨call, member, rest⟩ => ⟨call, mem_append_left _ member, rest⟩)
    · rintro place (⟨path, member, rfl⟩ | ⟨call, member, creates, rfl⟩)
      · exact .inl ⟨path, first.handlers ▸ member, placeOf_congr early.workingDirectory path⟩
      · exact .inr ⟨call, mem_append_right _ member, creates, placeOf_congr early.workingDirectory call.path⟩
  located stands call member creates := by
    have early := first.changes (fun call member => stands call (mem_append_left _ member))
    have later := second.changes (fun call member => stands call (mem_append_right _ member))
    rcases mem_append.1 member with old | new
    · exact later.locate (first.located (fun call member => stands call (mem_append_left _ member)) call old creates)
    · rw [second.located (fun call member => stands call (mem_append_right _ member)) call new creates,
        placeOf_congr early.workingDirectory]

theorem Tended.perform (other : call.operation ≠ .copyTree) (world : World) :
    ∃ calls, Tended world (call.perform world).2 calls := by
  have failing {disk : Disk} (changes : Disk.Changes (fun _ => False) world.disk disk) (succeeded : Bool)
      (none : (⟨call.operation, call.path, succeeded, disk⟩ : Performed).creates = false) :
      Tended world (world.record call.operation call.path succeeded disk)
        [⟨call.operation, call.path, succeeded, disk⟩] :=
    ⟨rfl, rfl, fun _ => changes.anywhere, by simp [none]⟩
  rcases call.perform_cases world with ⟨_, run⟩ | ⟨_, disk, acted, run⟩ | ⟨disk, acted, run⟩
  · rw [run]
    exact ⟨_, failing (.refl _) false rfl⟩
  · rw [run]
    rcases Call.changes_of_acted other acted with ⟨_, changes⟩ | ⟨_, impossible, _⟩
    · exact ⟨_, failing changes false rfl⟩
    · cases impossible
  · rw [run]
    rcases Call.changes_of_acted other acted with ⟨none, changes⟩ | ⟨creates, _, located, puts⟩
    · refine ⟨_, failing changes true ?_⟩
      have plain := none rfl
      cases call with
      | makeDirectory | backUp => rfl
      | write | copy => cases plain
    · refine ⟨[⟨call.operation, call.path, true, disk⟩], rfl, rfl, fun stands => ?_, fun stands => ?_⟩
      · have made := (Call.performed_creates creates disk).1
        obtain ⟨content, there⟩ := stands _ (mem_singleton.2 rfl) made
        rw [← eq_placeOf located] at there
        refine (puts ⟨content, there⟩).mono (fun place is => .inr ⟨_, mem_singleton.2 rfl, made, is⟩)
      · intro performed member creates
        obtain rfl := mem_singleton.1 member
        exact located

end World

def Event.follows : Event → Prop
  | backedUp _ | failed (.backUp _ _) => False
  | _ => True

def Event.looks : Event → Prop
  | logged | chosen | analyzed => True
  | _ => False

def Event.surveys : Event → Prop
  | logged | timed | chosen | analyzed => True
  | _ => False

namespace Session

variable {s t : Session}

theorem Step.tended {event : Event} {s t : Session} (step : Step event s t) (follows : event.follows) :
    ∃ calls, World.Tended s.world t.world calls := by
  have performed (call : Call) (other : call.operation ≠ .copyTree) {outcome : Except Fault Unit} {world : World}
      (run : call.perform s.world = (outcome, world)) : ∃ calls, World.Tended s.world world calls := by
    have tended := World.Tended.perform other s.world
    rwa [run] at tended
  have storing {call : Call} (creates : call.creates = true) : call.operation ≠ .copyTree := by
    cases call with
    | makeDirectory | backUp => cases creates
    | write | copy => simp [Call.operation]
  cases step with
  | logged _ record => exact ⟨[], .note s.world record⟩
  | failed _ call _ run =>
    refine performed call ?_ run
    cases call with
    | backUp => exact follows.elim
    | makeDirectory | write | copy => simp [Call.operation]
  | made _ path _ run => exact performed _ (by simp [Call.operation]) run
  | delivered _ call _ creates run | added _ call _ creates run => exact performed call (storing creates) run
  | backedUp => exact follows.elim
  | _ => exact ⟨[], .of_same rfl rfl rfl⟩

theorem Trace.tended (trace : Trace Event.follows s t) :
    ∃ calls, World.Tended s.world t.world calls := by
  induction trace with
  | refl => exact ⟨[], .of_same rfl rfl rfl⟩
  | tail _ last ih =>
    obtain ⟨calls, first⟩ := ih
    obtain ⟨_, follows, step⟩ := last
    obtain ⟨more, second⟩ := step.tended follows
    exact ⟨calls ++ more, first.trans second⟩

theorem Trace.backupPath (trace : Trace Event.follows s t) :
    t.rollback.backupPath = s.rollback.backupPath := by
  induction trace with
  | refl => rfl
  | tail _ last ih =>
    obtain ⟨_, follows, step⟩ := last
    obtain ⟨_, accounts⟩ := step.accounts
    rcases accounts.backup with ⟨_, same⟩ | ⟨_, rfl, _⟩
    · exact same.trans ih
    · exact follows.elim

theorem Trace.surveys (trace : Trace Event.surveys s t) :
    World.Relogged s.world t.world ∧ t.world.history = s.world.history := by
  induction trace with
  | refl => exact ⟨.refl s.world, rfl⟩
  | tail _ last ih =>
    obtain ⟨event, is, step⟩ := last
    cases step with
    | logged _ record => exact ⟨ih.1.note record, ih.2⟩
    | timed | chosen | analyzed => exact ⟨⟨ih.1.handlers, ih.1.touched⟩, ih.2⟩
    | _ => cases is

end Session

namespace Migration

open Session Stage Event

variable {observer : Option Observer} {session : Session} {event : Event}

theorem follows_of_surveys (is : event.surveys) : event.follows := by
  cases event with
  | _ => trivial

theorem follows_of_setsUp (is : event.setsUp) : event.follows := by
  cases event with
  | failed call =>
    cases call with
    | makeDirectory => trivial
    | backUp | write | copy => cases is
  | _ => trivial

theorem follows_of_migrates (is : event.migrates) : event.follows := by
  cases event with
  | failed call =>
    cases call with
    | backUp => cases is
    | makeDirectory | write | copy => trivial
  | _ => trivial

theorem follows_of_finalizes {output : Path} (is : event.finalizes output) : event.follows := by
  cases event with
  | failed call =>
    obtain ⟨names, _, content, rfl⟩ := is
    trivial
  | _ => trivial

/-- A run takes a backup of its source, which is as it was when the run began. -/
structure Backed (session held : Session) (path : Path) (world : World) : Prop where
  surveyed : Trace surveys session held
  named : ∃ moment, path = backupPath session moment
  taken : (Call.backUp session.source path).perform held.world = (.ok (), world)

theorem inTurn_follows {list : List NamedStage} (each : ∀ stage ∈ list, ∀ after, Traces follows stage.run after)
    (observer : Option Observer) (total number : Nat) (s : Session) :
    Trace follows s (exec (inTurn observer total number list) s).2 := by
  rw [← (runStages_inTurn observer total number list s []).2]
  exact runStages_trace trivial observer total number [] (fun stage member after _ => each stage member after)

theorem announced_cases (observer : Option Observer) (total number : Nat) (stage : NamedStage) (s : Session) :
    (∃ fault, exec (announced observer total number stage) s = (.error fault, s)) ∨
    ∃ record, exec (announced observer total number stage) s =
      exec stage.run { s with world := s.world.note record } := by
  unfold announced
  split
  · exact .inl ⟨_, rfl⟩
  · exact .inr ⟨_, rfl⟩

theorem exec_backs_up (observer : Option Observer) (total : Nat) (s : Session) :
    (exec (inTurn observer total 3 ((stages.take 4).drop 2)) s).2.rollback.backupPath = s.rollback.backupPath ∨
    ∃ held path world, Backed s held path world ∧
      Trace follows (backedUp held path world) (exec (inTurn observer total 3 ((stages.take 4).drop 2)) s).2 := by
  have setting (after : Session) :
      Trace follows after (exec (inTurn observer total 4 ((stages.take 4).drop 3)) after).2 := by
    refine inTurn_follows (fun stage member later => ?_) observer total 4 after
    obtain rfl := mem_singleton.1 member
    exact Trace.mono setup_traces (fun _ => follows_of_setsUp)
  have parts : inTurn observer total 3 ((stages.take 4).drop 2) = (do
      announced observer total 3 ⟨"backup", "Creating backup", do let _ ← Stage.backup⟩
      inTurn observer total 4 ((stages.take 4).drop 3)) := rfl
  rw [parts, exec_bind]
  rcases announced_cases observer total 3 ⟨"backup", "Creating backup", do let _ ← Stage.backup⟩ s with
    ⟨fault, run⟩ | ⟨record, run⟩
  · rw [run]
    exact .inl rfl
  · let noted : Session := { s with world := s.world.note record }
    have begins : exec (announced observer total 3 ⟨"backup", "Creating backup", do let _ ← Stage.backup⟩) s =
        exec (do let _ ← Stage.backup : Stage Unit) noted := run
    have logged : Trace surveys s noted := .of_step (.logged s _) trivial
    rw [begins, exec_bind]
    cases wanted : (!noted.options.createBackup || noted.options.dryRun) with
    | true =>
      rw [exec_backup_unwanted wanted]
      exact .inl (setting noted).backupPath
    | false =>
      obtain ⟨path, is, ⟨fault, world, _, run⟩ | ⟨world, taken, run⟩⟩ := exec_backup_wanted wanted
      · rw [run]
        exact .inl rfl
      · rw [run]
        refine .inr ⟨timed noted, path, world, ⟨?_, ⟨_, is⟩, taken⟩, setting (backedUp noted path world)⟩
        have clocked : Trace surveys noted (timed noted) := .of_step (.timed noted) trivial
        exact logged.trans clocked

theorem looked_trace (observer : Option Observer) (session : Session) :
    Trace looks session (exec (inTurn observer stages.length 1 (stages.take 2)) (begun session)).2 := by
  have begins : Trace looks session (begun session) := .of_step (.logged session _) trivial
  rw [← (runStages_inTurn observer stages.length 1 (stages.take 2) (begun session) []).2]
  refine begins.trans (runStages_trace trivial observer _ _ [] (fun stage member after _ => ?_))
  simp only [stages, List.take, mem_cons, not_mem_nil, or_false] at member
  rcases member with rfl | rfl
  · refine Trace.mono validate_traces (fun event is => ?_)
    cases event <;> trivial
  · refine Trace.mono analyze_traces (fun event is => ?_)
    cases event <;> trivial

theorem laid_backed (observer : Option Observer) (session : Session) :
    (laid observer session).2.rollback.backupPath = session.rollback.backupPath ∨
    ∃ held path world, Backed session held path world ∧
      Trace follows (backedUp held path world) (laid observer session).2 := by
  have parts : inTurn observer stages.length 1 (stages.take 4) = (do
      inTurn observer stages.length 1 (stages.take 2)
      inTurn observer stages.length 3 ((stages.take 4).drop 2)) :=
    inTurn_append observer stages.length 1 (stages.take 2) ((stages.take 4).drop 2)
  have surveyed : Trace surveys session (exec (inTurn observer stages.length 1 (stages.take 2)) (begun session)).2 := by
    refine (looked_trace observer session).mono (fun event is => ?_)
    cases event <;> trivial
  unfold laid
  rw [parts, exec_bind]
  rcases first : exec (inTurn observer stages.length 1 (stages.take 2)) (begun session) with ⟨outcome, s⟩
  rw [first] at surveyed
  have same := (surveyed.mono (fun _ => follows_of_surveys)).backupPath
  cases outcome with
  | error fault => exact .inl same
  | ok =>
    rcases exec_backs_up observer stages.length s with unchanged | ⟨held, path, world, backed, follows⟩
    · exact .inl (unchanged.trans same)
    · have run := Trace.sameRun surveyed
      refine .inr ⟨held, path, world, ⟨surveyed.trans backed.surveyed, ?_, ?_⟩, follows⟩
      · obtain ⟨moment, is⟩ := backed.named
        exact ⟨moment, by rw [is, backupPath, backupPath, run.output, run.source]⟩
      · rw [← run.source]
        exact backed.taken

/-- Once the stages before the migration stage are over, no backup is taken any more. -/
theorem completed_follows (observer : Option Observer) (session : Session) :
    Trace follows (laid observer session).2 (completed observer session).2.1 := by
  have finalized : Trace follows (prepared observer session).2.1 (completed observer session).2.1 :=
    (completed_trace observer session).mono (fun _ => follows_of_finalizes)
  rcases prepared_cases observer session with ⟨fault, _, held⟩ | ⟨record, _, migrated⟩
  · rwa [held] at finalized
  · have noted : Trace follows (laid observer session).2
        { (laid observer session).2 with world := (laid observer session).2.world.note record } :=
      .of_step (.logged _ record) trivial
    have further : Trace follows { (laid observer session).2 with world := (laid observer session).2.world.note record }
        (prepared observer session).2.1 := by
      rw [show (prepared observer session).2.1 = _ from congrArg Prod.snd migrated]
      exact Trace.mono migrate_traces (fun _ => follows_of_migrates)
    exact (noted.trans further).trans finalized

theorem concluded_tended (ended : Except Fault Unit) (started : Moment) (s : Session) :
    World.Tended s.world (closed (conclude started (settled ended s))).world [] := by
  have first : World.Tended s.world (settled ended s).world [] := by
    cases ended with
    | ok => exact .of_same rfl rfl rfl
    | error fault => exact .note s.world _
  have second : World.Tended (settled ended s).world (conclude started (settled ended s)).world [] :=
    .of_same rfl rfl rfl
  exact (first.trans second).trans (.note _ _)

theorem runSession_backed {started : Moment} (unnamed : session.rollback.backupPath = "")
    (named : (runSession observer started session).1.rollback.backupPath ≠ "") :
    ∃ held path world calls, Backed session held path world ∧
      (runSession observer started session).1.rollback.backupPath = path.toString ∧
      World.Tended world (runSession observer started session).1.world calls := by
  have last : (runSession observer started session).1.rollback = (completed observer session).2.1.rollback := by
    rw [runSession_eq]
    cases (completed observer session).1 <;> rfl
  have after := completed_follows observer session
  rcases laid_backed observer session with none | ⟨held, path, world, backed, follows⟩
  · rw [last, after.backupPath, none] at named
    exact absurd unnamed named
  · have whole : Trace Event.follows (backedUp held path world) (completed observer session).2.1 := follows.trans after
    obtain ⟨calls, tended⟩ := whole.tended
    have ended := concluded_tended (completed observer session).1 started (completed observer session).2.1
    refine ⟨held, path, world, [] ++ calls ++ [], backed, ?_, ?_⟩
    · rw [last, whole.backupPath]
      rfl
    · rw [runSession_eq]
      exact ((World.Tended.note world _).trans tended).trans ended

theorem runSession_ledger {migration : Migration} {source : String} {texts : List ExtractedText} {world : World}
    (real : migration.options.dryRun = false) (begins : migration.session source texts world = .ok session)
    (observer : Option Observer) (started : Moment) :
    ∃ calls, (runSession observer started session).1.world.history = world.history ++ calls ∧
      (runSession observer started session).1.rollback.createdPaths = Performed.creations calls ∧
      (runSession observer started session).1.rollback.backupPath.isEmpty = !calls.any Performed.backsUp ∧
      (runSession observer started session).1.outcome.rollbackData =
        if calls.any Performed.backsUp then some (runSession observer started session).1.rollback else none := by
  obtain ⟨fresh, unmigrated, same, absolute⟩ := ledger_session begins
  obtain ⟨earlier, held, _⟩ := fresh.prepared absolute (by rw [same, real]) (prepared_trace observer session) unmigrated
  obtain ⟨finishing, done, _, _⟩ := held.finalized (completed_trace observer session)
  obtain ⟨settled, _⟩ := ledger_settled (completed observer session).1 done
  rw [runSession_eq]
  exact ⟨earlier ++ finishing, settled.history, settled.created, settled.backup, rollbackData_conclude started settled⟩

end Migration
end Refit
