import Refit.Proofs.Project.Keeping
import Refit.Proofs.Run.RollbackLog

/-!
A dry run beside a real one. As long as the operations of the real run succeed and leave the project
alone, each step comes to the same in both.
-/

namespace Refit

open Disk

variable {f : Outcome → Outcome}

/-- An adapter that comes with the program. -/
def Adapter.Builtin (adapter : Adapter) : Prop :=
  ∃ registry : Registry, ∃ dialect ∈ Registry.builtin, adapter = registry.ofDialect dialect

namespace Performed

/-- The places where an operation of a run can put a file. -/
def Reaches (disk : Disk) (source : Path) (call : Performed) (place : List String) : Prop :=
  match call.operation with
  | .writeText | .copyFile => place = disk.placeOf call.path
  | .copyTree => ∃ tree, disk.root.get? (disk.placeOf source) = some tree ∧
      tree.Lands (disk.placeOf call.path) place
  | .ensureDirectory | .removeFile => False

/-- An operation of a run succeeded and put nothing over a file of the project; a backup went
    elsewhere than to the output. -/
structure Harmless (disk : Disk) (source output : Path) (call : Performed) : Prop where
  succeeded : call.succeeded = true
  apart : call.operation = .copyTree → disk.placeOf call.path ≠ disk.placeOf output
  spares : ∀ place, call.Reaches disk source place → ¬ disk.ProjectFile source place

end Performed

def Session.dry (session : Session) (world : World) : Session :=
  { session with
    options := { session.options with dryRun := true }
    rollback := {}
    world := world }

/-- What is fixed while two runs are compared. -/
structure Setting where
  start : World
  source : Path
  output : Path
  analysis : Option Analysis
  regular : start.disk.Regular
  sourceResolved : source.Resolved
  outputResolved : output.Resolved
  apart : start.LogsApart source
  grounded : ∀ found ∈ analysis, found.Grounded start.disk source

namespace Setting

variable {setting : Setting} {real : Session} {world : World} {history : List Performed}

def analyzed (setting : Setting) (found : Analysis)
    (grounded : found.Grounded setting.start.disk setting.source) : Setting :=
  { setting with
    analysis := some found
    grounded := fun _ is => Option.some.inj is ▸ grounded }

/-- The operations since the start were harmless. -/
def Fine (setting : Setting) (history : List Performed) : Prop :=
  ∀ call ∈ history.drop setting.start.history.length,
    call.Harmless setting.start.disk setting.source setting.output

theorem Fine.before {more : List Performed} (fine : setting.Fine more) (grown : history <+: more) :
    setting.Fine history := by
  obtain ⟨calls, rfl⟩ := grown
  intro call member
  refine fine call ?_
  rw [List.drop_append]
  exact List.mem_append_left _ member

theorem Fine.last {call : Performed} (fine : setting.Fine (history ++ [call]))
    (grown : setting.start.history.length ≤ history.length) :
    call.Harmless setting.start.disk setting.source setting.output := by
  refine fine call ?_
  rw [List.drop_append_of_le_length grown]
  simp

/-- A real run and the world of a dry one that has come as far. -/
structure Mirrored (setting : Setting) (real : Session) (world : World) : Prop where
  wet : real.options.dryRun = false
  source : real.source = setting.source
  output : real.output = setting.output
  analysis : real.outcome.analysis = setting.analysis
  builtin : ∀ adapter ∈ real.adapter, adapter.Builtin
  grown : setting.start.history.length ≤ real.world.history.length
  handlers : real.world.log.handlers = setting.start.log.handlers ∧
    world.log.handlers = setting.start.log.handlers
  blind : world.blind = real.world.blind
  keeps : Keeps setting.start.disk setting.source real.world.disk ∧
    Keeps setting.start.disk setting.source world.disk

theorem Mirrored.noteAll (mirrored : setting.Mirrored real world) (records : List Log.Record) :
    setting.Mirrored { real with world := real.world.noteAll records } (world.noteAll records) := by
  induction records generalizing real world with
  | nil => exact mirrored
  | cons record rest ih =>
    have noted : setting.Mirrored { real with world := real.world.note record } (world.note record) :=
      { mirrored with
        handlers := ⟨(World.handlers_note _ _).trans mirrored.handlers.1,
          (World.handlers_note _ _).trans mirrored.handlers.2⟩
        keeps := ⟨World.keeps_note setting.apart mirrored.handlers.1 mirrored.keeps.1 record,
          World.keeps_note setting.apart mirrored.handlers.2 mirrored.keeps.2 record⟩ }
    exact ih noted

theorem Mirrored.change (mirrored : setting.Mirrored real world)
    (same : (f real.outcome).analysis = real.outcome.analysis) : setting.Mirrored (real.change f) world :=
  { mirrored with analysis := same.trans mirrored.analysis }

end Setting

theorem Session.Trace.history {allowed : Event → Prop} {s t : Session} (trace : Trace allowed s t) :
    s.world.history <+: t.world.history := by
  induction trace with
  | refl => exact List.prefix_rfl
  | tail _ last ih =>
    obtain ⟨_, _, step⟩ := last
    obtain ⟨calls, accounts⟩ := step.accounts
    rw [accounts.history]
    exact ih.trans (List.prefix_append _ _)

namespace Stage

open Session Setting Event

variable {α β : Type} {setting : Setting} {fine : List Performed → Prop} {real : Session}
  {world : World} {other step : Stage α} {onFault : Fault → Stage Unit}

/-- If what a real run did by the end of a step is fine, a dry run does the same in a step of its own. -/
def Mirrors (setting : Setting) (fine : List Performed → Prop) (step other : Stage α) (real : Session)
    (world : World) : Prop :=
  fine (exec step real).2.world.history →
    ∃ after, exec other (real.dry world) = ((exec step real).1, (exec step real).2.dry after) ∧
      setting.Mirrored (exec step real).2 after

/-- A dry run does the same whatever the real one has done. -/
abbrev Agrees (setting : Setting) (step other : Stage α) (real : Session) (world : World) : Prop :=
  Mirrors setting (fun _ => True) step other real world

/-- As long as all is fine, a dry run does the same in the same step. -/
abbrev Follows (setting : Setting) (step : Stage α) (real : Session) (world : World) : Prop :=
  Mirrors setting setting.Fine step step real world

theorem mirrors_pure (mirrored : setting.Mirrored real world) (value : α) :
    Mirrors setting fine (pure value) (pure value) real world := fun _ => ⟨world, rfl, mirrored⟩

theorem mirrors_throw (mirrored : setting.Mirrored real world) (fault : Fault) :
    Mirrors setting fine (throw fault : Stage α) (throw fault) real world := fun _ => ⟨world, rfl, mirrored⟩

theorem mirrors_get_bind {next other : Session → Stage β}
    (second : Mirrors setting fine (next real) (other (real.dry world)) real world) :
    Mirrors setting fine (get >>= next) (get >>= other) real world := by
  unfold Mirrors
  rwa [exec_get_bind]

theorem mirrors_bind {next further : α → Stage β} (first : Agrees setting step other real world)
    (second : ∀ value after later, exec step real = (.ok value, after) → setting.Mirrored after later →
      Mirrors setting fine (next value) (further value) after later) :
    Mirrors setting fine (step >>= next) (other >>= further) real world := by
  intro ends
  obtain ⟨middle, same, mirrored⟩ := first trivial
  rw [exec_bind] at ends ⊢
  rw [exec_bind, same]
  rcases run : exec step real with ⟨outcome, after⟩
  rw [run] at ends mirrored
  cases outcome with
  | error fault => exact ⟨middle, rfl, mirrored⟩
  | ok value => exact second value after middle run mirrored ends

theorem mirrors_seq {next further : α → Stage β} (first : Mirrors setting setting.Fine step other real world)
    (grows : ∀ value after, Traces migrates (next value) after)
    (second : ∀ value after later, setting.Mirrored after later →
      Mirrors setting setting.Fine (next value) (further value) after later) :
    Mirrors setting setting.Fine (step >>= next) (other >>= further) real world := by
  intro ends
  rw [exec_bind] at ends ⊢
  rw [exec_bind]
  rcases run : exec step real with ⟨outcome, after⟩
  unfold Mirrors at first
  rw [run] at ends first
  cases outcome with
  | error fault =>
    obtain ⟨middle, same, mirrored⟩ := first ends
    rw [same]
    exact ⟨middle, rfl, mirrored⟩
  | ok value =>
    obtain ⟨middle, same, mirrored⟩ := first (ends.before (grows value after).history)
    rw [same]
    exact second value after middle mirrored ends

theorem mirrors_forM {items : List α} {f : α → Stage Unit} (mirrored : setting.Mirrored real world)
    (grows : ∀ item ∈ items, ∀ after, Traces migrates (f item) after)
    (each : ∀ item ∈ items, ∀ after later, setting.Mirrored after later → Follows setting (f item) after later) :
    Follows setting (items.forM f) real world := by
  induction items generalizing real world with
  | nil => exact mirrors_pure mirrored _
  | cons item rest ih =>
    refine mirrors_seq (each item (by simp) real world mirrored) (fun _ after => ?_) (fun _ _ _ later => ?_)
    · exact traces_forM (fun other member after _ => grows other (by simp [member]) after)
    · exact ih later (fun other member => grows other (by simp [member]))
        (fun other member => each other (by simp [member]))

section

variable (mirrored : setting.Mirrored real world)

include mirrored

theorem mirrors_report {work other : Report α} (same : other = work) :
    Mirrors setting fine (report work) (report other) real world := by
  subst same
  intro _
  rw [exec_report, exec_report]
  exact ⟨world.noteAll (exec other []).2, rfl, mirrored.noteAll _⟩

theorem mirrors_note (level : Log.Level) (part message : String) :
    Mirrors setting fine (note level part message) (note level part message) real world :=
  fun _ => ⟨world.note ⟨level, part, message⟩, rfl, mirrored.noteAll [⟨level, part, message⟩]⟩

theorem mirrors_change (same : (f real.outcome).analysis = real.outcome.analysis) :
    Mirrors setting fine (change f) (change f) real world :=
  fun _ => ⟨world, rfl, mirrored.change same⟩

theorem mirrors_problem (file kind : String) (fault : Fault) :
    Mirrors setting fine (problem file kind fault) (problem file kind fault) real world :=
  mirrors_bind (mirrors_note mirrored _ _ _) (fun _ _ _ _ mirrored => mirrors_change mirrored rfl)

theorem mirrors_unitProblem (file kind : String) (fault : Fault) :
    Mirrors setting fine (unitProblem file kind fault) (unitProblem file kind fault) real world :=
  mirrors_bind (mirrors_problem mirrored _ _ _) (fun _ _ _ _ mirrored => mirrors_change mirrored rfl)

theorem mirrors_warn (notice : Notice) : Mirrors setting fine (warn notice) (warn notice) real world :=
  mirrors_bind (mirrors_note mirrored _ _ _) (fun _ _ _ _ mirrored => mirrors_change mirrored rfl)

theorem mirrors_claim (path : Path) (file : String) :
    Mirrors setting fine (claim path file) (claim path file) real world := by
  refine mirrors_get_bind ?_
  dsimp only [Session.dry]
  rcases real.names.claim path with ⟨claimed, names⟩
  have renamed : setting.Mirrored { real with names := names } world := { mirrored with }
  have taken : Agrees setting (set { real with names := names } : Stage PUnit)
      (set { real.dry world with names := names }) real world := fun _ => ⟨world, rfl, renamed⟩
  refine mirrors_bind taken (fun _ after later _ mirrored => ?_)
  split
  · exact mirrors_throw mirrored _
  · exact mirrors_pure mirrored _
  · exact mirrors_bind (mirrors_warn mirrored _) (fun _ _ _ _ mirrored => mirrors_pure mirrored _)

end

theorem agrees_attempt (first : Agrees setting step other real world)
    (caught : ∀ fault after later, setting.Mirrored after later →
      Agrees setting (onFault fault) (onFault fault) after later) :
    Agrees setting (attempt step onFault) (attempt other onFault) real world := by
  intro _
  obtain ⟨middle, same, mirrored⟩ := first trivial
  unfold attempt
  rw [exec_tryCatch, exec_tryCatch, exec_bind, exec_bind, same]
  rcases run : exec step real with ⟨outcome, after⟩
  rw [run] at mirrored
  cases outcome with
  | ok value => exact ⟨middle, rfl, mirrored⟩
  | error fault =>
    have handed : Agrees setting (do onFault fault; pure (none : Option α)) (do onFault fault; pure none)
        after middle :=
      mirrors_bind (caught fault after middle mirrored) (fun _ _ _ _ mirrored => mirrors_pure mirrored _)
    exact handed trivial

theorem keeps_of_perform {start : Disk} {source : Path} {call : Call} {before after : World}
    (creates : call.creates = true) (run : call.perform before = (.ok (), after))
    (keeps : Keeps start source before.disk) (spared : ¬ start.ProjectFile source (start.placeOf call.path))
    (inside : ∀ original path name, call = .copy original path →
      ¬ start.ProjectFile source (start.placeOf path ++ [name])) :
    Keeps start source after.disk := by
  obtain ⟨disk, acted, rfl⟩ := Call.perform_ok run
  cases call with
  | makeDirectory | backUp => cases creates
  | write path content =>
    rcases DiskAction.writeFile_cases acted with ⟨fault, failed, _⟩ | ⟨_, _, puts⟩
    · cases failed
    · exact keeps.changes puts.changes (fun place there => by
        rw [there, keeps.placeOf]
        exact spared)
  | copy original path =>
    rcases DiskAction.copyFile_cases acted with ⟨fault, failed, _⟩ | ⟨_, _, content, puts | ⟨_, puts⟩⟩
    · cases failed
    · exact keeps.changes puts.changes (fun place there => by
        rw [there, keeps.placeOf]
        exact spared)
    · exact keeps.changes puts.changes (fun place there => by
        rw [there, keeps.placeOf]
        exact inside original path original.name rfl)

theorem mirrors_deliver (mirrored : setting.Mirrored real world) (call : Call) {target : Path} {more : Stage α}
    (creates : call.creates = true) (path : call.path = target)
    (inside : ∀ original path name, call = .copy original path →
      ¬ setting.start.disk.ProjectFile setting.source (setting.start.disk.placeOf path ++ [name]))
    (caught : ∀ fault after, Traces migrates (onFault fault) after) (rest : ∀ after, Traces migrates more after)
    (without : ∀ after, Traces migrates other after)
    (further : ∀ after later, setting.Mirrored after later → Follows setting more after later) :
    Follows setting (do if ← attemptFiles (store call) onFault then do migrated target; more else other)
      real world := by
  subst path
  have pretended : exec (store call) (real.dry world) = (.ok (), real.dry world) := by
    rcases store_cases call (real.dry world) with ⟨_, run⟩ | ⟨wet, _⟩ | ⟨wet, _⟩ | ⟨wet, _⟩
    · exact run
    · cases wet
    · cases wet
    · cases wet
  -- The entry that a call leaves in the history is not taken out again.
  have fineCall (succeeded : Bool) (disk : Disk) {history : List Performed}
      (grown : real.world.history ++ [⟨call.operation, call.path, succeeded, disk⟩] <+: history)
      (ends : setting.Fine history) :
      Performed.Harmless setting.start.disk setting.source setting.output
        ⟨call.operation, call.path, succeeded, disk⟩ := (ends.before grown).last mirrored.grown
  intro ends
  rw [exec_bind] at ends ⊢
  rw [exec_bind]
  rcases store_cases call real with ⟨dry, _⟩ | ⟨_, fault, after, failed, run⟩ | ⟨_, fault, after, other, failed, run⟩ |
      ⟨_, after, done, run⟩
  · exact absurd (mirrored.wet.symm.trans dry) (by simp)
  · exfalso
    have failure : Trace migrates { real with world := after }
        (exec (onFault (.file fault)) { real with world := after }).2 := caught _ _
    obtain ⟨disk, _, rfl⟩ := Call.perform_error failed
    rw [exec_attemptFiles_file onFault run, exec_bind] at ends
    rcases handled : exec (onFault (.file fault))
        { real with world := real.world.record call.operation call.path false disk } with ⟨outcome, later⟩
    rw [handled] at ends failure
    have held : setting.Fine later.world.history := by
      cases outcome with
      | error => exact ends
      | ok => exact ends.before (without later).history
    cases (fineCall false disk failure.history held).succeeded
  · exfalso
    obtain ⟨disk, _, rfl⟩ := Call.perform_error failed
    rw [exec_attemptFiles_other other onFault run] at ends
    cases (fineCall false disk List.prefix_rfl ends).succeeded
  · have tail (s : Session) : exec (do migrated call.path; more) s = exec more (s.migrated call.path) := by
      rfl
    rw [exec_attemptFiles_ok onFault run] at ends ⊢
    obtain ⟨disk, _, rfl⟩ := Call.perform_ok done
    let made : Session :=
      (real.created call.path (real.world.record call.operation call.path true disk)).migrated call.path
    have harmless := fineCall true disk (rest made).history ends
    have spared : ¬ setting.start.disk.ProjectFile setting.source (setting.start.disk.placeOf call.path) := by
      refine harmless.spares _ ?_
      cases call with
      | makeDirectory | backUp => cases creates
      | write | copy => rfl
    have delivered : setting.Mirrored made world :=
      { mirrored with
        grown := Nat.le_trans mirrored.grown (by
          simp [made, Session.created, Session.migrated, Session.change, World.record])
        keeps := ⟨keeps_of_perform creates done mirrored.keeps.1 spared inside, mirrored.keeps.2⟩ }
    exact further _ world delivered ends

end Stage
end Refit
