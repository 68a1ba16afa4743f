import Refit.Proofs.Run.DryStages

/-!
Dry runs. A dry run touches no file, and it tells what a real run would do: as long as the operations
of the real run succeed and leave the project alone, both come to the same.
-/

open List

namespace Refit

namespace Session

variable {s t : Session} {event : Event}

theorem Step.untouched (step : Step event s t) (dry : s.options.dryRun = true) :
    t.world.calls = s.world.calls := by
  cases step with
  | failed _ _ real | made _ _ real | backedUp _ _ real | delivered _ _ real | added _ _ real =>
    exact absurd (real.symm.trans dry) (by simp)
  | _ => rfl

theorem Trace.untouched {allowed : Event → Prop} (trace : Trace allowed s t) (dry : s.options.dryRun = true) :
    t.world.calls = s.world.calls := by
  induction trace with
  | refl => rfl
  | tail before last ih =>
    obtain ⟨_, _, step⟩ := last
    have still : Trace allowed s _ := before
    exact (step.untouched (by rw [still.sameRun.options, dry])).trans ih

theorem Step.adapter (step : Step event s t) (migrates : event.migrates) :
    t.adapter = s.adapter := by
  cases step with
  | chosen => cases migrates
  | _ => rfl

theorem Trace.adapter (trace : Trace Event.migrates s t) : t.adapter = s.adapter := by
  induction trace with
  | refl => rfl
  | tail _ last ih =>
    obtain ⟨_, migrates, step⟩ := last
    exact (step.adapter migrates).trans ih

end Session

/-- A session that the finalization can go on from. -/
def Session.Ready (s : Session) : Prop :=
  (∃ chosen, s.adapter = some chosen) ∧ ∃ found, s.outcome.analysis = some found

namespace Stage

open Session Setting Event

variable {setting : Setting} {real : Session} {world : World}

theorem adapter_of_migrate {s t : Session} (run : exec migrate s = (.ok (), t)) :
    ∃ chosen, t.adapter = some chosen := by
  have trace : Trace migrates s (exec migrate s).2 := migrate_traces
  rw [run] at trace
  obtain ⟨_, middle, components, _⟩ := exec_bind_ok run
  obtain ⟨chosen, _, adapted, _⟩ := exec_bind_ok components
  rw [exec_adapter] at adapted
  cases known : s.adapter with
  | none =>
    rw [known] at adapted
    cases adapted
  | some chosen => exact ⟨chosen, trace.adapter.trans known⟩

theorem migrate_leads {found : Analysis} (analyzed : setting.analysis = some found)
    (mirrored : setting.Mirrored real world) (vacant : setting.Vacant) :
    Leads setting.Fine (fun real _ => Ready real) migrate real world := by
  intro ends
  obtain ⟨after, same, mirrored⟩ := migrate_mirrors vacant mirrored ends
  refine ⟨after, same, fun succeeded => ⟨?_, found, mirrored.analysis.trans analyzed⟩⟩
  exact adapter_of_migrate (Prod.ext succeeded rfl)

end Stage

namespace Migration

open Session Stage Event

variable {setting : Setting} {real : Session} {world : World} {observer : Option Observer} {total number : Nat}
  {reached : Session → World → Prop} {session : Session} {stage : NamedStage}

def announced (observer : Option Observer) (total number : Nat) (stage : NamedStage) : Stage Unit :=
  match (tell observer ⟨stage.name, number, total, stage.message⟩ []).1 with
  | .error fault => throw fault
  | .ok () => do
      note .debug part ("Stage " ++ toString number ++ "/" ++ toString total ++ ": " ++ stage.name)
      stage.run

/-- Stages one after the other, as one step. -/
def inTurn (observer : Option Observer) (total : Nat) : Nat → List NamedStage → Stage Unit
  | _, [] => pure ()
  | number, stage :: rest => do
      announced observer total number stage
      inTurn observer total (number + 1) rest

theorem tell_fst (observer : Option Observer) (progress : Progress) (told : List Progress) :
    (tell observer progress told).1 = (tell observer progress []).1 := by
  cases observer <;> rfl

theorem runStages_inTurn (observer : Option Observer) (total number : Nat) (list : List NamedStage)
    (s : Session) (told : List Progress) :
    (runStages observer total number list s told).1 = (exec (inTurn observer total number list) s).1 ∧
      (runStages observer total number list s told).2.1 = (exec (inTurn observer total number list) s).2 := by
  induction list generalizing number s told with
  | nil => exact ⟨rfl, rfl⟩
  | cons stage rest ih =>
    have same := tell_fst observer ⟨stage.name, number, total, stage.message⟩ told
    rw [inTurn, exec_bind, announced, ← same]
    simp only [runStages]
    rcases tell observer ⟨stage.name, number, total, stage.message⟩ told with ⟨answer, told⟩
    cases answer with
    | error fault => exact ⟨rfl, rfl⟩
    | ok =>
      let step : Stage Unit := do
        note .debug part ("Stage " ++ toString number ++ "/" ++ toString total ++ ": " ++ stage.name)
        stage.run
      have unfolded : exec step s = step.run.run s := rfl
      rw [← unfolded]
      rcases exec step s with ⟨outcome, after⟩
      cases outcome with
      | error fault => exact ⟨rfl, rfl⟩
      | ok => exact ih (number + 1) after told

theorem stages_traces : ∀ stage ∈ stages, ∀ s, Traces (fun _ => True) stage.run s := by
  intro stage member s
  simp only [stages, mem_cons, not_mem_nil, or_false] at member
  rcases member with rfl | rfl | rfl | rfl | rfl | rfl
  · exact Trace.mono validate_traces (fun _ _ => trivial)
  · exact Trace.mono analyze_traces (fun _ _ => trivial)
  · have backed : Traces (fun _ => True) backup s :=
      Trace.mono (backup_traces (.refl s)) (fun _ _ => trivial)
    exact traces_bind backed (fun _ _ _ => traces_pure _)
  · exact Trace.mono setup_traces (fun _ _ => trivial)
  · exact Trace.mono migrate_traces (fun _ _ => trivial)
  · exact Trace.mono finalize_traces (fun _ _ => trivial)

theorem inTurn_history {list : List NamedStage} (known : ∀ stage ∈ list, stage ∈ stages) (s : Session) :
    s.world.history <+: (exec (inTurn observer total number list) s).2.world.history := by
  rw [← (runStages_inTurn observer total number list s []).2]
  exact (runStages_trace trivial observer total number []
    (fun stage member after _ => stages_traces stage (known stage member) after)).history

theorem announced_leads {next : Session → World → Prop} (known : stage ∈ stages)
    (noted : ∀ record, reached { real with world := real.world.note record } (world.note record))
    (leads : ∀ after later, reached after later → Leads setting.Fine next stage.run after later) :
    Leads setting.Fine next (announced observer total number stage) real world := by
  unfold announced
  split
  · exact fun _ => ⟨world, rfl, fun impossible => nomatch impossible⟩
  · refine leads_seq (fun _ => ⟨_, rfl, fun _ => noted _⟩) (fun after => ?_) leads
    exact (stages_traces stage known after).history

theorem leads_stage {first second : Session → World → Prop} {rest : List NamedStage}
    (known : ∀ other ∈ stage :: rest, other ∈ stages)
    (noted : ∀ record, reached { real with world := real.world.note record } (world.note record))
    (leads : ∀ after later, reached after later → Leads setting.Fine first stage.run after later)
    (further : ∀ after later, first after later →
      Leads setting.Fine second (inTurn observer total (number + 1) rest) after later) :
    Leads setting.Fine second (inTurn observer total number (stage :: rest)) real world := by
  refine leads_seq (announced_leads (known stage (by simp)) noted leads) (fun after => ?_) further
  exact inTurn_history (fun other member => known other (by simp [member])) after

section

variable {found : Analysis} (analyzed : setting.analysis = some found)
include analyzed

theorem migration_leads (mirrored : setting.Mirrored real world) (vacant : setting.Vacant) :
    Leads setting.Fine (fun real _ => Ready real) (inTurn observer total number (preparation.drop 4))
      real world :=
  leads_stage (by simp [stages]) (fun record => mirrored.noteAll [record])
    (fun _ _ (mirrored : setting.Mirrored _ _) => migrate_leads analyzed mirrored vacant)
    (fun _ later ready _ => ⟨later, rfl, fun _ => ready⟩)

theorem setup_on_leads (backed : Backed setting real world) :
    Leads setting.Fine (fun real _ => Ready real) (inTurn observer total number (preparation.drop 3))
      real world :=
  leads_stage (by simp [stages]) (fun record => backed.note record)
    (fun _ _ (backed : Backed setting _ _) => setup_leads backed)
    (fun _ _ reached => migration_leads analyzed reached.1 reached.2)

theorem backup_on_leads (fresh : Fresh setting real world) (something : ∃ name, setting.start.disk.at? [name] ≠ none) :
    Leads setting.Fine (fun real _ => Ready real) (inTurn observer total number (preparation.drop 2))
      real world :=
  leads_stage (by simp [stages]) (fun record => fresh.noteAll [record])
    (fun _ _ (fresh : Fresh setting _ _) => backup_leads fresh something)
    (fun _ _ backed => setup_on_leads analyzed backed)

end

theorem analysis_on_leads (fresh : Fresh setting real world)
    (something : ∃ name, setting.start.disk.at? [name] ≠ none) :
    Leads setting.Fine (fun real _ => Ready real) (inTurn observer total number (preparation.drop 1))
      real world :=
  leads_stage (by simp [stages]) (fun record => fresh.noteAll [record])
    (fun _ _ (fresh : Fresh setting _ _) => analyze_leads fresh)
    (fun _ _ ⟨found, grounded, fresh⟩ =>
      @backup_on_leads (setting.analyzed found grounded) _ _ _ _ _ found rfl fresh something)

theorem preparation_leads (fresh : Fresh setting real world) :
    Leads setting.Fine (fun real _ => Ready real) (inTurn observer total number preparation) real world :=
  leads_stage (by simp [stages]) (fun record => fresh.noteAll [record])
    (fun _ _ (fresh : Fresh setting _ _) => validate_leads fresh)
    (fun _ _ reached => analysis_on_leads reached.1 reached.2)

theorem prepared_dry (fresh : Fresh setting (begun session) world)
    (begins : begun (session.dry session.world) = (begun session).dry world)
    (ends : setting.Fine (prepared observer session).2.1.world.history) :
    (prepared observer (session.dry session.world)).1 = (prepared observer session).1 ∧
      (∃ after, (prepared observer (session.dry session.world)).2.1 = (prepared observer session).2.1.dry after) ∧
      ((prepared observer session).1 = .ok () → Ready (prepared observer session).2.1) := by
  obtain ⟨realEnd, realSession⟩ := runStages_inTurn observer stages.length 1 preparation (begun session) []
  obtain ⟨dryEnd, drySession⟩ :=
    runStages_inTurn observer stages.length 1 preparation (begun (session.dry session.world)) []
  unfold prepared at ends ⊢
  rw [realSession] at ends
  obtain ⟨after, same, ready⟩ := preparation_leads fresh ends
  rw [begins] at dryEnd drySession
  rw [begins, realEnd, realSession, dryEnd, drySession, same]
  exact ⟨rfl, ⟨after, rfl⟩, ready⟩

/-- The observer lets the finalization begin. -/
def Admits (observer : Option Observer) : Prop :=
  ∀ observe ∈ observer, ∀ progress, progress.stage = "finalization" → observe progress = .ok ()

theorem tell_of_admits (admits : Admits observer) {progress : Progress}
    (last : progress.stage = "finalization") (told : List Progress) :
    (tell observer progress told).1 = .ok () := by
  cases observer with
  | none => rfl
  | some observe => exact admits observe rfl progress last

theorem finished_dry {held : Session} (ready : Ready held) (after : World) (told other : List Progress)
    (steady : ¬ Stumbled held (runStages observer stages.length 6 (stages.drop 5) held told).2.1) :
    (runStages observer stages.length 6 (stages.drop 5) (held.dry after) other).1 =
        (runStages observer stages.length 6 (stages.drop 5) held told).1 ∧
      (runStages observer stages.length 6 (stages.drop 5) (held.dry after) other).2.1.outcome = held.outcome ∧
      (Admits observer → (runStages observer stages.length 6 (stages.drop 5) held told).1 = .ok ()) := by
  have alone : inTurn observer stages.length 6 (stages.drop 5) =
      announced observer stages.length 6
        ⟨"finalization", "Writing project files and documentation", finalize⟩ := bind_pure_unit
  obtain ⟨realEnd, realSession⟩ := runStages_inTurn observer stages.length 6 (stages.drop 5) held told
  obtain ⟨dryEnd, drySession⟩ := runStages_inTurn observer stages.length 6 (stages.drop 5) (held.dry after) other
  rw [realSession, alone] at steady
  rw [realEnd, dryEnd, drySession, alone]
  unfold announced at steady ⊢
  cases answer : (tell observer ⟨"finalization", 6, stages.length, "Writing project files and documentation"⟩
      []).1 with
  | error fault =>
    refine ⟨rfl, rfl, fun admits => ?_⟩
    exact nomatch answer.symm.trans (tell_of_admits admits rfl [])
  | ok =>
    rw [answer] at steady
    rw [exec_bind, exec_bind, exec_note, exec_note]
    obtain ⟨⟨chosen, known⟩, found, analyzed⟩ := ready
    have run := (@finalize_ok { held with world := held.world.note _ } chosen found known analyzed).resolve_right
      steady
    rw [run]
    exact ⟨rfl, rfl, fun _ => rfl⟩

theorem completed_dry (sameEnd : (prepared observer (session.dry session.world)).1 = (prepared observer session).1)
    (sameSession : ∃ after, (prepared observer (session.dry session.world)).2.1 =
      (prepared observer session).2.1.dry after)
    (ready : (prepared observer session).1 = .ok () → Ready (prepared observer session).2.1)
    (steady : ¬ Stumbled (prepared observer session).2.1 (completed observer session).2.1) :
    (completed observer (session.dry session.world)).1 = (completed observer session).1 ∧
      (completed observer (session.dry session.world)).2.1.outcome = (prepared observer session).2.1.outcome ∧
      (Admits observer → (completed observer session).1 = (prepared observer session).1) := by
  unfold completed at steady ⊢
  rcases onReal : prepared observer session with ⟨outcome, rest⟩
  rcases onDry : prepared observer (session.dry session.world) with ⟨other, dryRest⟩
  rw [onReal, onDry] at sameEnd sameSession
  rw [onReal] at ready steady
  obtain ⟨held, told⟩ := rest
  obtain ⟨dryHeld, dryTold⟩ := dryRest
  obtain ⟨after, rfl⟩ := sameSession
  cases sameEnd
  cases outcome with
  | error fault => exact ⟨rfl, rfl, fun _ => rfl⟩
  | ok => exact finished_dry (ready rfl) after told dryTold steady

theorem settled_outcome {s t : Session} (ended : Except Fault Unit) (same : t.outcome = s.outcome) :
    (settled ended t).outcome = (settled ended s).outcome := by
  cases ended with
  | ok => exact same
  | error fault => simp only [settled, abort, same]

theorem sameFindings_settled {s t : Session} (ended : Except Fault Unit)
    (same : s.outcome.SameFindings t.outcome) :
    (settled ended s).outcome.SameFindings (settled ended t).outcome := by
  cases ended with
  | ok => exact same
  | error fault => exact { same with aborted := rfl }

theorem sameFindings_concluded (started : Moment) (s : Session) :
    s.outcome.SameFindings (closed (conclude started s)).outcome := ⟨rfl, rfl, rfl, rfl, rfl, rfl⟩

theorem settled_warnings (ended : Except Fault Unit) (s : Session) :
    (settled ended s).outcome.warnings = s.outcome.warnings := by
  cases ended <;> rfl

theorem prepared_history (observer : Option Observer) (started : Moment) (session : Session) :
    (prepared observer session).2.1.world.history <+: (runSession observer started session).1.world.history := by
  rw [runSession_eq]
  have grown := (completed_trace observer session).history
  cases (completed observer session).1 <;> exact grown

theorem runSession_dry {session : Session} (fresh : Fresh setting (begun session) world)
    (begins : begun (session.dry session.world) = (begun session).dry world) (started : Moment)
    (ends : setting.Fine (runSession observer started session).1.world.history) :
    (runSession observer started session).1.outcome.SameFindings
        (runSession observer started (session.dry session.world)).1.outcome ∧
      (runSession observer started (session.dry session.world)).1.outcome.warnings =
        (beforeFinalization observer session).outcome.warnings ∧
      (Admits observer → (runSession observer started (session.dry session.world)).1.outcome.errors =
        (beforeFinalization observer session).outcome.errors) := by
  have fine := ends.before (prepared_history observer started session)
  have steady : ¬ Stumbled (prepared observer session).2.1 (completed observer session).2.1 := by
    rintro ⟨call, member, failed⟩
    have finished : (runSession observer started session).1.world.history =
        (completed observer session).2.1.world.history := by
      rw [runSession_eq]
      cases (completed observer session).1 <;> rfl
    have grown : setting.start.history.length ≤ (prepared observer session).2.1.world.history.length :=
      Nat.le_trans fresh.mirrored.grown (prepared_trace observer session).history.length_le
    rw [finished] at ends
    cases failed.symm.trans (ends call (drop_subset_drop_left _ grown member)).succeeded
  obtain ⟨sameEnd, sameSession, ready⟩ := prepared_dry fresh begins fine
  obtain ⟨dryEnd, dryOutcome, admitted⟩ := completed_dry sameEnd sameSession ready steady
  -- Both runs end with what the real one held before its finalization.
  let held : Session := settled (completed observer session).1 (prepared observer session).2.1
  have onDry : (settled (completed observer session).1
      (completed observer (session.dry session.world)).2.1).outcome = held.outcome := settled_outcome _ dryOutcome
  have onReal : held.outcome.SameFindings (settled (completed observer session).1
      (completed observer session).2.1).outcome :=
    sameFindings_settled _ (completed_trace observer session).sameFindings
  rw [runSession_eq, runSession_eq, dryEnd]
  refine ⟨?_, ?_, fun admits => ?_⟩
  · have concluded := sameFindings_concluded started
      (settled (completed observer session).1 (completed observer (session.dry session.world)).2.1)
    rw [onDry] at concluded
    exact (onReal.trans (sameFindings_concluded started _)).symm.trans concluded
  · calc (settled (completed observer session).1 (completed observer (session.dry session.world)).2.1).outcome.warnings
        = held.outcome.warnings := by rw [onDry]
      _ = (prepared observer session).2.1.outcome.warnings := settled_warnings _ _
      _ = (beforeFinalization observer session).outcome.warnings := (settled_warnings _ _).symm
  · calc (settled (completed observer session).1 (completed observer (session.dry session.world)).2.1).outcome.errors
        = held.outcome.errors := by rw [onDry]
      _ = (beforeFinalization observer session).outcome.errors := by
          rw [beforeFinalization, ← admitted admits]

theorem runSession_untouched (observer : Option Observer) (started : Moment)
    (dry : session.options.dryRun = true) :
    (runSession observer started session).1.world.calls = session.world.calls := by
  have early := prepared_trace observer session
  have late := completed_trace observer session
  have still : (prepared observer session).2.1.options.dryRun = true := by rw [early.sameRun.options, dry]
  have whole : (completed observer session).2.1.world.calls = session.world.calls :=
    (late.untouched still).trans (early.untouched dry)
  rw [runSession_eq, ← whole]
  cases (completed observer session).1 <;> rfl

theorem migrate_untouched (migration : Migration) (dry : migration.options.dryRun = true) (source : String)
    (observer : Option Observer) (texts : List ExtractedText) (world : World) :
    (migration.migrate source observer texts world).2.calls = world.calls := by
  unfold Migration.migrate
  dsimp only
  split
  · rfl
  · next begins =>
      obtain ⟨_, _, _, _, rfl⟩ := session_eq_ok begins
      exact runSession_untouched observer _ dry

/-- A migration with the adapters that come with the program. -/
def builtin (registry fallback : Registry) (chosen : Option Dialect) : Migration :=
  { options := registry.options
    adapter := chosen.map registry.ofDialect
    candidates := fallback.builtinAdapters }

end Migration

def Registry.dry (registry : Registry) : Registry :=
  { registry with options := { registry.options with dryRun := true } }

namespace Migration

open Session Stage Event

variable {setting : Setting} {observer : Option Observer} {registry fallback : Registry} {chosen : Option Dialect}

theorem fresh_begun (wet : registry.options.dryRun = false)
    (known : ∀ dialect ∈ chosen, dialect ∈ Registry.builtin) (unsurveyed : setting.analysis = none)
    (texts : List ExtractedText) (record : Log.Record) :
    Fresh setting
      (begun ((builtin registry fallback chosen).fresh setting.source setting.output texts setting.start))
      (setting.start.note record) := by
  have handlers (record : Log.Record) : (setting.start.note record).log.handlers = setting.start.log.handlers :=
    World.handlers_note setting.start record
  have keeps (record : Log.Record) :
      Disk.Keeps setting.start.disk setting.source (setting.start.note record).disk :=
    World.keeps_note setting.apart rfl (.refl setting.regular.tidy setting.source) record
  have noted (record : Log.Record) : World.Relogged setting.start (setting.start.note record) :=
    (World.Relogged.refl setting.start).note record
  refine
    { mirrored :=
        { wet := wet, source := rfl, output := rfl, analysis := unsurveyed.symm
          builtin := fun adapter is => ?_
          grown := Nat.le_refl _, handlers := ⟨handlers _, handlers _⟩, blind := rfl, keeps := ⟨keeps _, keeps _⟩ }
      offered := fun adapter member => ?_
      relogged := ⟨noted _, noted _⟩ }
  · obtain ⟨dialect, picked, rfl⟩ := Option.map_eq_some_iff.1 is
    exact ⟨registry, dialect, known dialect picked, rfl⟩
  · obtain ⟨dialect, listed, rfl⟩ := mem_map.1 member
    exact ⟨fallback, dialect, listed, rfl⟩

/-- A dry run touches nothing, whatever fails. And if no log is kept among the files of the project, and the
    operations of a real run succeed, leave these files alone and put its backup elsewhere than into the output,
    then a dry run comes to the same, with the errors and warnings that the real run has before its finalization. -/
theorem dryRun_simulates (registry fallback : Registry) (chosen : Option Dialect)
    (known : ∀ dialect ∈ chosen, dialect ∈ Registry.builtin) (source : String) (observer : Option Observer)
    (texts : List ExtractedText) (world : World) :
    ((builtin registry.dry fallback.dry chosen).migrate source observer texts world).2.calls = world.calls ∧
      ∀ (started : Moment) (session final : Session) (told : List Progress) (calls : List Performed),
        registry.options.dryRun = false →
        (builtin registry fallback chosen).session source texts world = .ok session →
        world.disk.Regular → world.LogsApart session.source →
        runSession observer started session = (final, told) →
        final.world.history = world.history ++ calls →
        (∀ call ∈ calls, call.Harmless world.disk session.source session.output) →
        ∃ dry, (builtin registry.dry fallback.dry chosen).session source texts world = .ok dry ∧
          final.outcome.SameFindings (runSession observer started dry).1.outcome ∧
          (runSession observer started dry).1.outcome.warnings =
            (beforeFinalization observer session).outcome.warnings ∧
          (Admits observer → (runSession observer started dry).1.outcome.errors =
            (beforeFinalization observer session).outcome.errors) := by
  refine ⟨migrate_untouched _ rfl source observer texts world, ?_⟩
  intro started session final told calls wet begins regular apart ends history harmless
  obtain ⟨sourcePath, outputPath, sourceFound, outputFound, rfl⟩ := session_eq_ok begins
  let setting : Setting :=
    { start := world, source := sourcePath, output := outputPath, analysis := none, regular := regular
      sourceResolved := Disk.resolved_of_resolveUser regular.start (Path.ofString_valid source) sourceFound
      outputResolved := Disk.resolved_of_resolveUser regular.start (Path.ofString_valid _) outputFound
      apart := apart
      grounded := fun _ impossible => nomatch impossible }
  let real : Session := (builtin registry fallback chosen).fresh sourcePath outputPath texts world
  have fine : setting.Fine (runSession observer started real).1.world.history := by
    have since : (world.history ++ calls).drop setting.start.history.length = calls := drop_left
    rw [ends, history]
    intro call member
    rw [since] at member
    exact harmless call member
  have dryBegins : (builtin registry.dry fallback.dry chosen).session source texts world = .ok (real.dry world) := by
    have samePath : (builtin registry.dry fallback.dry chosen).options.outputPath =
        (builtin registry fallback chosen).options.outputPath := rfl
    rw [Migration.session, sourceFound, samePath, outputFound]
    rfl
  have same := @runSession_dry setting _ observer real (fresh_begun wet known rfl texts _) rfl started fine
  rw [ends] at same
  exact ⟨real.dry world, dryBegins, same⟩

theorem harmless_of_elsewhere {disk : Disk} {source output : Path} {call : Performed}
    (elsewhere : call.succeeded = true ∧
      (call.operation = .copyTree → disk.placeOf call.path ≠ disk.placeOf output) ∧
      ¬ disk.placeOf call.path <+: disk.placeOf source ∧ ¬ disk.placeOf source <+: disk.placeOf call.path) :
    call.Harmless disk source output := by
  obtain ⟨succeeded, apart, above, below⟩ := elsewhere
  refine ⟨succeeded, apart, fun place reaches inside => ?_⟩
  have reached : disk.placeOf call.path <+: place := by
    unfold Performed.Reaches at reaches
    split at reaches
    · exact reaches ▸ prefix_rfl
    · exact reaches ▸ prefix_rfl
    · obtain ⟨tree, _, lands⟩ := reaches
      exact prefix_of_lands lands
    · exact reaches.elim
    · exact reaches.elim
  rcases prefix_or_prefix_of_prefix reached inside.1 with upper | under
  · exact above upper
  · exact below under

/-- What makes adapters that render the name of a template. -/
def plainRegistry : Registry :=
  { options := { OptionsOf.plain false "/out" with createBackup := true }
    rules := []
    render := fun name _ => .ok name
    plugins := [] }

/-- A world with a project of one component. -/
def buttonWorld : World :=
  { disk :=
      { root := .directory
          [("project", .directory
            [("lovable.json", .file []),
             ("src", .directory [("components", .directory
               [("A.tsx", .file (Text.Utf8.encode "<LovableButton/>"))])])])]
        workingDirectory := []
        homes := [] }
    clock := ⟨⟨0, 0⟩, 0⟩
    refuses := fun _ _ => false
    calls := []
    log := Log.Router.initial
    stamp := "" }

def buttonSession : Session :=
  (builtin plainRegistry plainRegistry none).fresh ⟨.slash, ["project"]⟩ ⟨.slash, ["out"]⟩ [] buttonWorld

theorem button_harmless : ∀ call ∈ (runSession none buttonWorld.clock.now buttonSession).1.world.history,
    call.Harmless buttonWorld.disk buttonSession.source buttonSession.output := by
  have elsewhere : ∀ call ∈ (runSession none buttonWorld.clock.now buttonSession).1.world.history,
      call.succeeded = true ∧
      (call.operation = .copyTree →
        buttonWorld.disk.placeOf call.path ≠ buttonWorld.disk.placeOf buttonSession.output) ∧
      ¬ buttonWorld.disk.placeOf call.path <+: buttonWorld.disk.placeOf buttonSession.source ∧
      ¬ buttonWorld.disk.placeOf buttonSession.source <+: buttonWorld.disk.placeOf call.path := by
    decide +kernel
  exact fun call member => harmless_of_elsewhere (elsewhere call member)

theorem dryRun_simulates_button :
    ∃ final told calls, plainRegistry.options.dryRun = false ∧
      (builtin plainRegistry plainRegistry none).session "/project" [] buttonWorld = .ok buttonSession ∧
      runSession none buttonWorld.clock.now buttonSession = (final, told) ∧
      final.world.history = buttonWorld.history ++ calls ∧
      (∀ call ∈ calls, call.Harmless buttonWorld.disk buttonSession.source buttonSession.output) ∧
      final.outcome.migratedFiles = ["/out/src/components/A.jsx", "/out/src/styles/globals.css",
        "/out/src/styles/tokens.css", "/out/tailwind.config.js", "/out/vite.config.ts"] ∧
      ∃ dry, (builtin plainRegistry.dry plainRegistry.dry none).session "/project" [] buttonWorld = .ok dry ∧
        final.outcome.SameFindings (runSession none buttonWorld.clock.now dry).1.outcome ∧
        (runSession none buttonWorld.clock.now dry).1.outcome.warnings =
          (beforeFinalization none buttonSession).outcome.warnings ∧
        (Admits none → (runSession none buttonWorld.clock.now dry).1.outcome.errors =
          (beforeFinalization none buttonSession).outcome.errors) := by
  have begins : (builtin plainRegistry plainRegistry none).session "/project" [] buttonWorld = .ok buttonSession := rfl
  have regular : buttonWorld.disk.Regular := ⟨by decide +kernel, by decide +kernel, by decide⟩
  have apart : buttonWorld.LogsApart buttonSession.source := by
    rintro place ⟨path, member, _⟩
    simp [buttonWorld, Log.Router.initial] at member
  have migrated : (runSession none buttonWorld.clock.now buttonSession).1.outcome.migratedFiles =
      ["/out/src/components/A.jsx", "/out/src/styles/globals.css", "/out/src/styles/tokens.css",
        "/out/tailwind.config.js", "/out/vite.config.ts"] := by
    decide +kernel
  have harmless := button_harmless
  have simulated := (dryRun_simulates plainRegistry plainRegistry none (by simp) "/project" none [] buttonWorld).2
    buttonWorld.clock.now buttonSession
  generalize runSession none buttonWorld.clock.now buttonSession = run at migrated harmless simulated
  exact ⟨run.1, run.2, run.1.world.history, rfl, begins, rfl, rfl, harmless, migrated,
    simulated run.1 run.2 run.1.world.history rfl begins regular apart rfl rfl harmless⟩

/-- A world with a project that keeps the log of its migrations among its assets. -/
def diaryWorld : World :=
  { buttonWorld with
    disk :=
      { root := .directory
          [("project", .directory [("lovable.json", .file []), ("public", .directory [("run.log", .file [])])])]
        workingDirectory := []
        homes := [] }
    log := Log.Router.initial.withFile ⟨.slash, ["project", "public", "run.log"]⟩ }

def diarySession : Session :=
  (builtin plainRegistry plainRegistry none).fresh ⟨.slash, ["project"]⟩ ⟨.slash, ["out"]⟩ [] diaryWorld

/-- The first record says whether a run is dry, and it counts for the size of the log that the analysis finds. -/
theorem dryRun_finds_own_log :
    (builtin plainRegistry plainRegistry none).session "/project" [] diaryWorld = .ok diarySession ∧
      diaryWorld.disk.Regular ∧
      (∀ call ∈ (runSession none diaryWorld.clock.now diarySession).1.world.history,
        call.Harmless diaryWorld.disk diarySession.source diarySession.output) ∧
      ∃ dry, (builtin plainRegistry.dry plainRegistry.dry none).session "/project" [] diaryWorld = .ok dry ∧
        ¬ (runSession none diaryWorld.clock.now diarySession).1.outcome.SameFindings
          (runSession none diaryWorld.clock.now dry).1.outcome := by
  refine ⟨rfl, ⟨by decide, by decide, by decide⟩, fun call member => harmless_of_elsewhere ?_, _, rfl, fun same => ?_⟩
  · revert call
    decide +kernel
  · have sizes := congrArg (Option.map (fun analysis : Analysis => analysis.assets.map (·.size))) same.analysis
    revert sizes
    decide +kernel

end Migration
end Refit
