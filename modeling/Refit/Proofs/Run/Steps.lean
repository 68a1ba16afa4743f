import Mathlib.Logic.Relation
import Refit.Proofs.Exec
import Refit.Run.Migration

/-!
What a run can do, step by step. Every stage is a sequence of steps of few kinds; what holds of all
steps holds of all runs.
-/

namespace Refit

open DiskAction

variable {fault : Fault}

/-- An operation of a run on the disk. -/
inductive Call where
  | makeDirectory (path : Path)
  | write (path : Path) (content : String)
  | copy (source path : Path)
  | backUp (source path : Path)

namespace Call

variable {call : Call}

def operation : Call → FileOperation
  | makeDirectory _ => .ensureDirectory
  | write _ _ => .writeText
  | copy _ _ => .copyFile
  | backUp _ _ => .copyTree

def path : Call → Path
  | makeDirectory path | write path _ | copy _ path | backUp _ path => path

def action : Call → DiskAction Unit
  | makeDirectory path => makeDirectories path
  | write path content => writeFile path (Text.Utf8.encode content)
  | copy source path => copyFile source path
  | backUp source path => copyTree source path

def perform (call : Call) (world : World) : Except Fault Unit × World :=
  World.perform call.operation call.path call.action world

/-- Whether the call makes a file of the output. -/
def creates : Call → Bool
  | write _ _ | copy _ _ => true
  | makeDirectory _ | backUp _ _ => false

theorem perform_cases (call : Call) (world : World) :
    ((world.refuses call.operation call.path || world.falters world.calls) = true ∧
      call.perform world = (.error (world.failure call.operation call.path),
        world.record call.operation call.path false world.disk)) ∨
    (∃ fault disk, call.action.run.run world.disk = (.error fault, disk) ∧
      call.perform world = (.error (.file fault), world.record call.operation call.path false disk)) ∨
    ∃ disk, call.action.run.run world.disk = (.ok (), disk) ∧
      call.perform world = (.ok (), world.record call.operation call.path true disk) := by
  unfold perform World.perform
  split
  · next refused => exact .inl ⟨refused, rfl⟩
  · rcases run : call.action.run.run world.disk with ⟨outcome, disk⟩
    cases outcome with
    | ok => exact .inr (.inr ⟨disk, rfl, rfl⟩)
    | error fault => exact .inr (.inl ⟨fault, disk, rfl, rfl⟩)

theorem perform_ok {world after : World} (run : call.perform world = (.ok (), after)) :
    ∃ disk, call.action.run.run world.disk = (.ok (), disk) ∧
      after = world.record call.operation call.path true disk := by
  rcases call.perform_cases world with ⟨_, failed⟩ | ⟨_, _, _, failed⟩ | ⟨disk, acted, done⟩
  · cases failed.symm.trans run
  · cases failed.symm.trans run
  · cases done.symm.trans run
    exact ⟨disk, acted, rfl⟩

theorem perform_error {world after : World} (run : call.perform world = (.error fault, after)) :
    ∃ disk, (disk = world.disk ∨ ∃ cause, call.action.run.run world.disk = (.error cause, disk)) ∧
      after = world.record call.operation call.path false disk := by
  rcases call.perform_cases world with ⟨_, refused⟩ | ⟨cause, disk, acted, failed⟩ | ⟨_, _, done⟩
  · cases refused.symm.trans run
    exact ⟨world.disk, .inl rfl, rfl⟩
  · cases failed.symm.trans run
    exact ⟨disk, .inr ⟨cause, acted⟩, rfl⟩
  · cases done.symm.trans run

end Call

/-- The kinds of steps. -/
inductive Event where
  | logged
  | timed
  | chosen
  | analyzed
  | claimed
  | problem
  | unitProblem
  | warned
  | skipped
  | changed
  | counted
  /-- A call that failed. -/
  | failed (call : Call)
  | made (path : Path)
  | backedUp (path : Path)
  /-- A file of the output was made for a file of the source. -/
  | delivered (call : Call)
  /-- The same in a dry run. -/
  | pretended (path : Path)
  /-- A file was made that belongs to the output as a whole. -/
  | added (call : Call)

namespace Session

variable {allowed : Event → Prop} {s t : Session} {event : Event}

def change (session : Session) (f : Outcome → Outcome) : Session :=
  { session with outcome := f session.outcome }

def created (session : Session) (path : Path) (world : World) : Session :=
  { session with
    world := world
    rollback :=
      { session.rollback with
        operations := session.rollback.operations ++ [⟨.create, path.toString⟩] } }

def migrated (session : Session) (path : Path) : Session :=
  session.change (fun outcome => { outcome with migratedFiles := outcome.migratedFiles ++ [path.toString] })

inductive Step : Event → Session → Session → Prop
  | logged (s : Session) (record : Log.Record) :
      Step .logged s { s with world := s.world.note record }
  | timed (s : Session) : Step .timed s { s with world := s.world.readClock.2 }
  | chosen (s : Session) (adapter : Adapter) : Step .chosen s { s with adapter := some adapter }
  | analyzed (s : Session) (analysis : Analysis) :
      Step .analyzed s (s.change (fun outcome =>
        { outcome with
          analysis := some analysis
          warnings := outcome.warnings ++ analysis.notices
          summary := { outcome.summary with totalFiles := Stage.totalFiles analysis } }))
  | claimed (s : Session) (path : Path) : Step .claimed s { s with names := (s.names.claim path).2 }
  | problem (s : Session) (problem : Problem) :
      Step .problem s (s.change (fun outcome => { outcome with errors := outcome.errors ++ [problem] }))
  | unitProblem (s : Session) :
      Step .unitProblem s (s.change (fun outcome => { outcome with unitFailures := outcome.unitFailures + 1 }))
  | warned (s : Session) (notice : Notice) :
      Step .warned s (s.change (fun outcome => { outcome with warnings := outcome.warnings ++ [notice] }))
  | skipped (s : Session) (file : String) :
      Step .skipped s (s.change (fun outcome =>
        { outcome with skippedFiles := outcome.skippedFiles ++ [file] }))
  | changed (s : Session) (f : Changes → Changes) : Step .changed s (s.change (·.countChange f))
  | counted (s : Session) : Step .counted s (s.change Outcome.counted)
  | failed (s : Session) (call : Call) {fault : Fault} {world : World} (real : s.options.dryRun = false)
      (run : call.perform s.world = (.error fault, world)) :
      Step (.failed call) s { s with world := world }
  | made (s : Session) (path : Path) {world : World} (real : s.options.dryRun = false)
      (run : (Call.makeDirectory path).perform s.world = (.ok (), world)) :
      Step (.made path) s { s with world := world }
  | backedUp (s : Session) (path : Path) {world : World} (real : s.options.dryRun = false)
      (run : (Call.backUp s.source path).perform s.world = (.ok (), world)) :
      Step (.backedUp path) s
        { s with world := world, rollback := { s.rollback with backupPath := path.toString } }
  | delivered (s : Session) (call : Call) {world : World} (real : s.options.dryRun = false)
      (creates : call.creates = true) (run : call.perform s.world = (.ok (), world)) :
      Step (.delivered call) s ((s.created call.path world).migrated call.path)
  | pretended (s : Session) (path : Path) (dry : s.options.dryRun = true) :
      Step (.pretended path) s (s.migrated path)
  | added (s : Session) (call : Call) {world : World} (real : s.options.dryRun = false)
      (creates : call.creates = true) (run : call.perform s.world = (.ok (), world)) :
      Step (.added call) s (s.created call.path world)

/-- Steps of the allowed kinds lead from one session to another. -/
def Trace (allowed : Event → Prop) : Session → Session → Prop :=
  Relation.ReflTransGen (fun s t => ∃ event, allowed event ∧ Step event s t)

theorem Trace.of_step (step : Step event s t) (is : allowed event) : Trace allowed s t :=
  .single ⟨event, is, step⟩

/-- The parts of a session that no step changes. -/
structure SameRun (s t : Session) : Prop where
  source : t.source = s.source
  output : t.output = s.output
  options : t.options = s.options
  candidates : t.candidates = s.candidates
  texts : t.texts = s.texts

theorem SameRun.refl (s : Session) : SameRun s s := ⟨rfl, rfl, rfl, rfl, rfl⟩

theorem SameRun.trans {u : Session} (first : SameRun s t) (second : SameRun t u) : SameRun s u :=
  ⟨second.source.trans first.source, second.output.trans first.output, second.options.trans first.options,
    second.candidates.trans first.candidates, second.texts.trans first.texts⟩

theorem Step.sameRun (step : Step event s t) : SameRun s t := by
  cases step <;> exact ⟨rfl, rfl, rfl, rfl, rfl⟩

theorem Trace.sameRun (trace : Trace allowed s t) : SameRun s t := by
  induction trace with
  | refl => exact .refl s
  | tail _ last ih =>
    obtain ⟨_, _, step⟩ := last
    exact ih.trans step.sameRun

theorem Trace.mono {more : Event → Prop} (trace : Trace allowed s t)
    (wider : ∀ event, allowed event → more event) : Trace more s t := by
  induction trace with
  | refl => exact .refl
  | tail _ last ih =>
    obtain ⟨event, is, step⟩ := last
    exact ih.tail ⟨event, wider event is, step⟩

end Session

theorem World.noteAll_rest (world : World) (records : List Log.Record) :
    world.noteAll records =
      { world with disk := (world.noteAll records).disk, log := (world.noteAll records).log } := by
  induction records generalizing world with
  | nil => rfl
  | cons record rest ih => exact ih (world.note record)

namespace Stage

open Session

variable {α β : Type} {allowed : Event → Prop} {s : Session} {step : Stage α}
  {onFault : Fault → Stage Unit} {after : Session}

/-- Whatever a step comes to, it gets there by steps of the allowed kinds. -/
def Traces (allowed : Event → Prop) (step : Stage α) (s : Session) : Prop := Trace allowed s (exec step s).2

theorem traces_pure (value : α) : Traces allowed (pure value : Stage α) s := .refl

theorem traces_throw (fault : Fault) : Traces allowed (throw fault : Stage α) s := .refl

theorem traces_bind {next : α → Stage β} (first : Traces allowed step s)
    (second : ∀ value after, SameRun s after → Traces allowed (next value) after) :
    Traces allowed (step >>= next) s :=
  exec_bind_related (Trace allowed) .trans first (fun value after _ trace => second value after trace.sameRun)

theorem traces_get_bind {next : Session → Stage β} (second : Traces allowed (next s) s) :
    Traces allowed (get >>= next) s := by
  unfold Traces
  rwa [exec_get_bind]

theorem traces_ite {condition : Prop} [Decidable condition] {other : Stage α} (holds : Traces allowed step s)
    (fails : Traces allowed other s) :
    Traces allowed (if condition then step else other) s := by
  split
  · exact holds
  · exact fails

theorem traces_tryCatch {onFault : Fault → Stage α} (first : Traces allowed step s)
    (caught : ∀ fault after, SameRun s after → Traces allowed (onFault fault) after) :
    Traces allowed (tryCatch step onFault) s := by
  unfold Traces at first ⊢
  rw [exec_tryCatch]
  rcases run : exec step s with ⟨outcome, after⟩
  rw [run] at first
  cases outcome with
  | ok value => exact first
  | error fault => exact first.trans (caught fault after first.sameRun)

theorem traces_forM {items : List α} {f : α → Stage Unit}
    (each : ∀ item ∈ items, ∀ after, SameRun s after → Traces allowed (f item) after) :
    Traces allowed (items.forM f) s :=
  exec_forM_related (Trace allowed) (fun _ => .refl) .trans
    (fun item member after trace => each item member after trace.sameRun)

theorem exec_lift (step : World → Except Fault α × World) (s : Session) :
    exec (lift step) s = ((step s.world).1, { s with world := (step s.world).2 }) := by
  rw [lift, exec_get_bind]
  rcases run : step s.world with ⟨outcome, world⟩
  cases outcome <;> rfl

theorem exec_note (level : Log.Level) (part message : String) (s : Session) :
    exec (note level part message) s =
      (.ok (), { s with world := s.world.note ⟨level, part, message⟩ }) := rfl

theorem exec_options (s : Session) : exec options s = (.ok s.options, s) := rfl

theorem trace_noteAll (logs : allowed .logged) (records : List Log.Record) (s : Session) :
    Trace allowed s { s with world := s.world.noteAll records } := by
  induction records generalizing s with
  | nil => exact .refl
  | cons record rest ih => exact (Trace.of_step (.logged s record) logs).trans (ih _)

theorem traces_note (logs : allowed .logged) (level : Log.Level) (part message : String) :
    Traces allowed (note level part message) s :=
  .of_step (.logged s _) logs

theorem traces_report (logs : allowed .logged) (work : Report α) : Traces allowed (report work) s := by
  unfold Traces report
  rw [exec_lift]
  exact trace_noteAll logs _ s

theorem traces_now (times : allowed .timed) : Traces allowed now s := by
  unfold Traces now
  exact .of_step (.timed s) times

theorem traces_adapter : Traces allowed adapter s := by
  refine traces_get_bind ?_
  split
  · exact traces_pure _
  · exact traces_throw _

section

variable (logs : allowed .logged)
include logs

theorem traces_problem (records : allowed .problem) (file kind : String)
    (fault : Fault) : Traces allowed (Stage.problem file kind fault) s :=
  traces_bind (traces_note logs _ _ _) (fun _ after _ => .of_step (.problem after _) records)

theorem traces_unitProblem (records : allowed .problem)
    (counts : allowed .unitProblem) (file kind : String) (fault : Fault) :
    Traces allowed (Stage.unitProblem file kind fault) s :=
  traces_bind (traces_problem logs records _ _ _) (fun _ after _ => .of_step (.unitProblem after) counts)

theorem traces_warn (warns : allowed .warned) (notice : Notice) :
    Traces allowed (warn notice) s :=
  traces_bind (traces_note logs _ _ _) (fun _ after _ => .of_step (.warned after notice) warns)

theorem traces_claim (warns : allowed .warned) (claims : allowed .claimed)
    (path : Path) (file : String) : Traces allowed (claim path file) s := by
  refine traces_get_bind ?_
  have step : Step .claimed s { s with names := (s.names.claim path).2 } := .claimed s path
  rcases given : s.names.claim path with ⟨claimed, names⟩
  rw [given] at step
  refine traces_bind (.of_step step claims) (fun _ after _ => ?_)
  split
  · exact traces_throw _
  · exact traces_pure _
  · exact traces_bind (traces_warn logs warns _) (fun _ _ _ => traces_pure _)

end

theorem traces_attempt (first : Traces allowed step s) (caught : ∀ fault after, Traces allowed (onFault fault) after) :
    Traces allowed (attempt step onFault) s :=
  traces_tryCatch (traces_bind first (fun _ _ _ => traces_pure _))
    (fun fault after _ => traces_bind (caught fault after) (fun _ _ _ => traces_pure _))

theorem exec_attempt_ok {value : α} (onFault : Fault → Stage Unit) (run : exec step s = (.ok value, after)) :
    exec (attempt step onFault) s = (.ok (some value), after) := by
  rw [attempt, exec_tryCatch, exec_bind, run]
  rfl

theorem exec_attempt_error (onFault : Fault → Stage Unit) (run : exec step s = (.error fault, after)) :
    exec (attempt step onFault) s = exec (do onFault fault; pure none) after := by
  rw [attempt, exec_tryCatch, exec_bind, run]

theorem exec_perform (call : Call) (s : Session) :
    exec (perform call.operation call.path call.action) s =
      ((call.perform s.world).1, { s with world := (call.perform s.world).2 }) := exec_lift _ s

/-- Makes a file and records that it was created, unless the run is dry. -/
def store (call : Call) : Stage Unit := do
  if (← options).dryRun then pure ()
  else
    perform call.operation call.path call.action
    recordCreate call.path

theorem write_eq_store (path : Path) (content : String) : write path content = store (.write path content) := rfl

/-- A file is stored, or not, for lack of room or for any other reason. A dry run stores none. -/
theorem store_cases (call : Call) (s : Session) :
    (s.options.dryRun = true ∧ exec (store call) s = (.ok (), s)) ∨
    (s.options.dryRun = false ∧ ∃ fault world, call.perform s.world = (.error (.file fault), world) ∧
      exec (store call) s = (.error (.file fault), { s with world := world })) ∨
    (s.options.dryRun = false ∧ ∃ fault world, fault.isFileFault = false ∧
      call.perform s.world = (.error fault, world) ∧ exec (store call) s = (.error fault, { s with world := world })) ∨
    (s.options.dryRun = false ∧ ∃ world, call.perform s.world = (.ok (), world) ∧
      exec (store call) s = (.ok (), s.created call.path world)) := by
  have start : exec (store call) s = exec (if s.options.dryRun then pure () else do
      perform call.operation call.path call.action
      recordCreate call.path) s := by
    rw [store, exec_bind, exec_options]
  cases mode : s.options.dryRun with
  | true =>
    rw [mode] at start
    exact .inl ⟨rfl, start⟩
  | false =>
    rw [mode, if_neg (by simp), exec_bind, exec_perform] at start
    have failing {fault : Fault} {world : World} (run : call.perform s.world = (.error fault, world)) :
        exec (store call) s = (.error fault, { s with world := world }) := by rw [start, run]
    rcases call.perform_cases s.world with ⟨_, run⟩ | ⟨fault, disk, _, run⟩ | ⟨disk, _, run⟩
    · cases kind : s.world.failure call.operation call.path with
      | file fault =>
        rw [kind] at run
        exact .inr (.inl ⟨rfl, fault, _, run, failing run⟩)
      | _ =>
        rw [kind] at run
        exact .inr (.inr (.inl ⟨rfl, _, _, rfl, run, failing run⟩))
    · exact .inr (.inl ⟨rfl, fault, _, run, failing run⟩)
    · exact .inr (.inr (.inr ⟨rfl, _, run, by rw [start, run]; rfl⟩))

theorem exec_attemptFiles_ok {step : Stage Unit} (onFault : Fault → Stage Unit)
    (run : exec step s = (.ok (), after)) : exec (attemptFiles step onFault) s = (.ok true, after) := by
  rw [attemptFiles, exec_tryCatch, exec_bind, run]
  rfl

theorem exec_attemptFiles_file {step : Stage Unit} {fault : FileFault} (onFault : Fault → Stage Unit)
    (run : exec step s = (.error (.file fault), after)) :
    exec (attemptFiles step onFault) s =
      exec (do onFault (.file fault); pure false) after := by
  rw [attemptFiles, exec_tryCatch, exec_bind, run]
  rfl

theorem exec_attemptFiles_other {step : Stage Unit} (other : fault.isFileFault = false)
    (onFault : Fault → Stage Unit) (run : exec step s = (.error fault, after)) :
    exec (attemptFiles step onFault) s = (.error fault, after) := by
  rw [attemptFiles, exec_tryCatch, exec_bind, run]
  dsimp only
  rw [other]
  rfl

/-- A file that is made is counted among the migrated ones; a failure of files is handed over. -/
theorem traces_deliver (call : Call) {target : Path} {more other : Stage α} (creates : call.creates = true)
    (path : call.path = target) (delivers : allowed (.delivered call)) (fails : allowed (.failed call))
    (pretends : allowed (.pretended target)) (caught : ∀ fault after, Traces allowed (onFault fault) after)
    (rest : ∀ after, Traces allowed more after) (without : ∀ after, Traces allowed other after) :
    Traces allowed (do if ← attemptFiles (store call) onFault then do migrated target; more else other) s := by
  subst path
  unfold Traces
  rw [exec_bind]
  rcases store_cases call s with ⟨dry, run⟩ | ⟨real, fault, world, failed, run⟩ |
      ⟨real, fault, world, other, failed, run⟩ | ⟨real, world, done, run⟩
  · rw [exec_attemptFiles_ok onFault run]
    exact (Trace.of_step (.pretended s call.path dry) pretends).trans (rest _)
  · have failure : Trace allowed s (exec (onFault (.file fault)) { s with world := world }).2 :=
      (Trace.of_step (.failed s call real failed) fails).trans (caught _ _)
    rw [exec_attemptFiles_file onFault run, exec_bind]
    rcases handled : exec (onFault (.file fault)) { s with world := world } with ⟨outcome, after⟩
    rw [handled] at failure
    cases outcome with
    | error => exact failure
    | ok => exact failure.trans (without after)
  · rw [exec_attemptFiles_other other onFault run]
    exact .of_step (.failed s call real failed) fails
  · rw [exec_attemptFiles_ok onFault run]
    exact (Trace.of_step (.delivered s call real creates done) delivers).trans (rest _)

end Stage
end Refit
