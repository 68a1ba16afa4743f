import Refit.Proofs.Run.Stages

/-!
The finalization of a run. It writes to known places below the output, one after the other. It does not
fail as long as its operations succeed, and it leaves alone what was found out about the project before.
-/

open List

namespace Refit

variable {allowed : Event → Prop} {event : Event}

/-- Nothing is written in such a step, and no problem is recorded. -/
def Event.quiet : Event → Prop
  | logged | timed | counted => True
  | _ => False

namespace Session

variable {s t u : Session} {places others : List (List String)}

/-- An operation failed between two sessions. -/
def Stumbled (s t : Session) : Prop :=
  ∃ call ∈ t.world.history.drop s.world.history.length, call.succeeded = false

theorem stumbled_of_failed {call : Performed} (failed : call.succeeded = false)
    (grown : s.world.history ++ [call] <+: t.world.history) : Stumbled s t := by
  obtain ⟨more, same⟩ := grown
  refine ⟨call, ?_, failed⟩
  rw [← same]
  simp

theorem Stumbled.since (stumbled : Stumbled t u) (grown : s.world.history <+: t.world.history) : Stumbled s u := by
  obtain ⟨call, member, failed⟩ := stumbled
  exact ⟨call, drop_subset_drop_left _ grown.length_le member, failed⟩

def blame (session : Session) (problem : Problem) : Session :=
  session.change (fun outcome => { outcome with errors := outcome.errors ++ [problem] })

/-- What is done for places below the output, one after the other: a file is written, or cannot be
    made or stored. A write that fails for another reason than the files ends it all. -/
inductive Finish (s : Session) : List (List String) → Session → Prop
  | refl : Finish s [] s
  | step {places : List (List String)} {t u : Session} {event : Event} (before : Finish s places t)
      (step : Step event t u) (quiet : event.quiet) : Finish s places u
  | passed {places : List (List String)} {t : Session} (names : List String) (before : Finish s places t) :
      Finish s (places ++ [names]) t
  | unmade {places : List (List String)} {t : Session} (names : List String) {kind : String} (fault : Fault)
      (before : Finish s places t) (other : kind ≠ "write") :
      Finish s (places ++ [names]) (t.blame ⟨Path.ofNames names, kind, fault⟩)
  | unstored {places : List (List String)} {t : Session} (names : List String) (content : String) {fault : Fault}
      {world : World} (record : Log.Record) (before : Finish s places t) (real : t.options.dryRun = false)
      (run : (Call.write (t.output.below names) content).perform t.world = (.error fault, world)) :
      Finish s (places ++ [names])
        ({ t with world := world.note record }.blame ⟨Path.ofNames names, "write", fault⟩)
  | broken {places : List (List String)} {t : Session} (names : List String) (content : String) {fault : Fault}
      {world : World} (before : Finish s places t) (real : t.options.dryRun = false)
      (other : fault.isFileFault = false)
      (run : (Call.write (t.output.below names) content).perform t.world = (.error fault, world)) :
      Finish s (places ++ [names]) { t with world := world }
  | stored {places : List (List String)} {t : Session} (names : List String) (content : String) {world : World}
      (before : Finish s places t) (real : t.options.dryRun = false)
      (run : (Call.write (t.output.below names) content).perform t.world = (.ok (), world)) :
      Finish s (places ++ [names]) (t.created (t.output.below names) world)

namespace Finish

theorem of_trace (trace : Trace Event.quiet s t) : Finish s [] t := by
  induction trace with
  | refl => exact .refl
  | tail _ last ih =>
    obtain ⟨_, quiet, step⟩ := last
    exact ih.step step quiet

theorem trans (first : Finish s places t) (second : Finish t others u) : Finish s (places ++ others) u := by
  induction second with
  | refl => rwa [append_nil]
  | step _ step quiet ih => exact ih.step step quiet
  | passed names _ ih => exact append_assoc .. ▸ ih.passed names
  | unmade names fault _ other ih => exact append_assoc .. ▸ ih.unmade names fault other
  | unstored names content record _ real run ih =>
    exact append_assoc .. ▸ ih.unstored names content record real run
  | broken names content _ real other run ih => exact append_assoc .. ▸ ih.broken names content real other run
  | stored names content _ real run ih => exact append_assoc .. ▸ ih.stored names content real run

theorem pass (finish : Finish s places t) (others : List (List String)) : Finish s (places ++ others) t := by
  induction others generalizing places with
  | nil => rwa [append_nil]
  | cons names rest ih => exact append_cons .. ▸ ih (finish.passed names)

theorem trace (finish : Finish s places t) (quiet : ∀ event : Event, event.quiet → allowed event)
    (problem : allowed .problem) (calls : ∀ names ∈ places, ∀ content,
      allowed (.added (.write (s.output.below names) content)) ∧
        allowed (.failed (.write (s.output.below names) content))) : Trace allowed s t := by
  have logs : allowed .logged := quiet .logged trivial
  induction finish with
  | refl => exact .refl
  | step _ step is ih => exact (ih calls).tail ⟨_, quiet _ is, step⟩
  | passed _ _ ih => exact ih (fun names member => calls names (mem_append_left _ member))
  | unmade _ _ _ _ ih =>
    exact (ih (fun names member => calls names (mem_append_left _ member))).tail ⟨_, problem, .problem _ _⟩
  | unstored names content record _ real run ih =>
    have before := ih (fun names member => calls names (mem_append_left _ member))
    have fails := (calls names (by simp) content).2
    rw [← before.sameRun.output] at fails
    exact ((before.tail ⟨_, fails, .failed _ _ real run⟩).tail ⟨_, logs, .logged _ record⟩).tail
      ⟨_, problem, .problem _ _⟩
  | broken names content _ real _ run ih =>
    have before := ih (fun names member => calls names (mem_append_left _ member))
    have fails := (calls names (by simp) content).2
    rw [← before.sameRun.output] at fails
    exact before.tail ⟨_, fails, .failed _ _ real run⟩
  | stored names content _ real run ih =>
    have before := ih (fun names member => calls names (mem_append_left _ member))
    have adds := (calls names (by simp) content).1
    rw [← before.sameRun.output] at adds
    exact before.tail ⟨_, adds, .added _ _ real rfl run⟩

theorem finalizes (finish : Finish s Event.artifactPlaces t) : Trace (Event.finalizes s.output) s t := by
  refine finish.trace (fun event is => ?_) trivial (fun names member content => ?_)
  · cases event with
    | logged | timed | counted => trivial
    | _ => cases is
  · exact ⟨⟨names, member, content, rfl⟩, names, member, content, rfl⟩

theorem history (finish : Finish s places t) : s.world.history <+: t.world.history := by
  induction finish with
  | refl => exact prefix_rfl
  | step _ step is ih =>
    cases step with
    | logged | timed | counted => exact ih
    | _ => cases is
  | passed _ _ ih | unmade _ _ _ _ ih => exact ih
  | unstored _ _ _ _ _ run ih | broken _ _ _ _ _ run ih =>
    obtain ⟨_, _, rfl⟩ := Call.perform_error run
    exact ih.trans (prefix_append _ _)
  | stored _ _ _ _ run ih =>
    obtain ⟨_, _, rfl⟩ := Call.perform_ok run
    exact ih.trans (prefix_append _ _)

/-- The problems are those of the places. -/
theorem errors (finish : Finish s places t) : ∃ problems, t.outcome.errors = s.outcome.errors ++ problems ∧
    ∀ problem ∈ problems, ∃ names ∈ places, problem.file = Path.ofNames names := by
  induction finish with
  | refl => exact ⟨[], by simp⟩
  | step _ step is ih =>
    cases step with
    | logged | timed | counted => exact ih
    | _ => cases is
  | passed names _ ih | broken names _ _ _ _ _ ih | stored names _ _ _ _ ih =>
    obtain ⟨problems, errors, files⟩ := ih
    refine ⟨problems, errors, fun problem member => ?_⟩
    obtain ⟨own, known, file⟩ := files problem member
    exact ⟨own, mem_append_left _ known, file⟩
  | unmade names _ _ _ ih | unstored names _ _ _ _ _ ih =>
    obtain ⟨problems, errors, files⟩ := ih
    refine ⟨problems ++ [_], by rw [← append_assoc, ← errors]; rfl, fun problem member => ?_⟩
    rcases mem_append.1 member with earlier | last
    · obtain ⟨own, known, file⟩ := files problem earlier
      exact ⟨own, mem_append_left _ known, file⟩
    · obtain rfl := mem_singleton.1 last
      exact ⟨names, by simp, rfl⟩

end Finish
end Session

namespace Stage

open Session

variable {α β : Type} {s : Session} {places others : List (List String)}

/-- A step does what is to be done for some places, and succeeds unless an operation of it fails. -/
def Finishes (places : List (List String)) (step : Stage α) (s : Session) : Prop :=
  Finish s places (exec step s).2 ∧ ((∃ value, (exec step s).1 = .ok value) ∨ Stumbled s (exec step s).2)

theorem finishes_pure (value : α) (places : List (List String)) : Finishes places (pure value) s :=
  ⟨Finish.refl.pass places, .inl ⟨value, rfl⟩⟩

theorem finishes_bind {step : Stage α} {next : α → Stage β} (first : Finishes places step s)
    (second : ∀ value after, Finishes others (next value) after) : Finishes (places ++ others) (step >>= next) s := by
  obtain ⟨finish, ended⟩ := first
  unfold Finishes
  rw [exec_bind]
  rcases run : exec step s with ⟨outcome, middle⟩
  rw [run] at finish ended
  cases outcome with
  | error fault => exact ⟨finish.pass others, .inr (ended.resolve_left (by simp))⟩
  | ok value =>
    obtain ⟨further, closes⟩ := second value middle
    exact ⟨finish.trans further, closes.imp_right (·.since finish.history)⟩

theorem finishes_quiet_bind {after : Session} {value : α} {step : Stage α} {next : α → Stage β}
    (run : exec step s = (.ok value, after)) (single : Step event s after) (quiet : event.quiet)
    (second : Finishes places (next value) after) : Finishes places (step >>= next) s := by
  have first : Finish s [] after := Finish.refl.step single quiet
  unfold Finishes
  rw [exec_bind, run]
  exact ⟨first.trans second.1, second.2.imp_right (·.since first.history)⟩

theorem finishes_forM {items : List α} {f : α → Stage Unit} {place : α → List String}
    (each : ∀ item after, Finishes [place item] (f item) after) (s : Session) :
    Finishes (items.map place) (items.forM f) s := by
  induction items generalizing s with
  | nil => exact finishes_pure () []
  | cons item rest ih => exact finishes_bind (each item s) (fun _ after => ih after)

theorem writeArtifact_finishes (names : List String) (content : String) (s : Session) :
    Finishes [names] (writeArtifact names content) s := by
  have start : Finish s [] s := .refl
  unfold Finishes writeArtifact
  rw [exec_get_bind]
  dsimp only
  rw [write_eq_store, exec_bind]
  rcases store_cases (.write (s.output.below names) content) s with ⟨_, run⟩ | ⟨real, fault, world, failed, run⟩ |
      ⟨real, fault, world, other, failed, run⟩ | ⟨real, world, done, run⟩
  · rw [exec_attemptFiles_ok _ run]
    exact ⟨start.passed names, .inl ⟨(), rfl⟩⟩
  · rw [exec_attemptFiles_file _ run]
    exact ⟨start.unstored names content _ real failed, .inl ⟨(), rfl⟩⟩
  · rw [exec_attemptFiles_other other _ run]
    have ended := start.broken names content real other failed
    obtain ⟨disk, _, rfl⟩ := Call.perform_error failed
    exact ⟨ended, .inr (stumbled_of_failed rfl prefix_rfl)⟩
  · rw [exec_attemptFiles_ok _ run]
    exact ⟨start.stored names content real done, .inl ⟨(), rfl⟩⟩

theorem artifact_finishes (names : List String) {kind : String} (other : kind ≠ "write") {make : Stage String}
    (quiet : Traces Event.quiet make s) : Finishes [names] (artifact names kind make) s := by
  have made := Finish.of_trace quiet
  unfold Finishes artifact
  rw [exec_bind]
  rcases run : exec make s with ⟨outcome, after⟩
  rw [run] at made
  cases outcome with
  | error fault =>
    rw [exec_attempt_error _ run]
    exact ⟨(made.step (.logged after _) trivial).unmade names fault other, .inl ⟨(), rfl⟩⟩
  | ok content =>
    obtain ⟨further, closes⟩ := writeArtifact_finishes names content after
    rw [exec_attempt_ok _ run]
    exact ⟨made.trans further, closes.imp_right (·.since made.history)⟩

theorem traces_rendered (outcome : Except Fault String) :
    Traces allowed (rendered outcome) s := by
  cases outcome with
  | ok text => exact traces_pure text
  | error fault => exact traces_throw fault

theorem writeLocales_finishes (options : Options) (texts : List ExtractedText) (generatedAt : String) (s : Session) :
    Finishes (Output.locales.map (fun locale => ["src", "locales", locale ++ ".json"]))
      (writeLocales options texts generatedAt) s := by
  unfold writeLocales
  split
  · have written := @finishes_forM _ (Output.localeFiles texts generatedAt) _ (fun file => ["src", "locales", file.1])
      (fun file after => writeArtifact_finishes ["src", "locales", file.1] file.2 after) s
    exact written
  · exact finishes_pure () _

theorem writeCompliance_finishes (options : Options) (render : Output.Renderer) (generatedAt : String) (s : Session) :
    Finishes [["docs", "COMPLIANCE.md"]] (writeCompliance options render generatedAt) s := by
  unfold writeCompliance
  split
  · exact artifact_finishes _ (by decide) (traces_rendered _)
  · exact finishes_pure () _

theorem writeReadme_finishes (options : Options) (render : Output.Renderer) (generatedAt : String) (s : Session) :
    Finishes [["README.md"]] (writeReadme options render generatedAt) s := by
  refine finishes_quiet_bind rfl (.counted s) trivial ?_
  unfold Finishes
  exact artifact_finishes _ (by decide) (traces_rendered _)

/-- A run that knows no adapter, or nothing of the project, has nothing to finalize. -/
theorem finalize_finishes (s : Session) :
    (exec finalize s).2 = s ∧ (s.adapter = none ∨ s.outcome.analysis = none) ∨
      Finishes Event.artifactPlaces finalize s := by
  have start : exec finalize s = exec (if s.options.dryRun then pure () else do
      let chosen ← adapter
      let found ← analysis
      let session ← get
      let generatedAt := (← now).isoText
      artifact ["package.json"] "dependency" (do pure (Json.document (← report (chosen.manifest found))))
      writeLocales session.options (if session.texts.isEmpty then found.texts else session.texts) generatedAt
      writeCompliance session.options chosen.render generatedAt
      writeReadme session.options chosen.render generatedAt) s := by
    rw [finalize, exec_bind, exec_options]
  have split : Event.artifactPlaces = [["package.json"]] ++
      (Output.locales.map (fun locale => ["src", "locales", locale ++ ".json"]) ++
        ([["docs", "COMPLIANCE.md"]] ++ [["README.md"]])) := rfl
  unfold Finishes
  rw [start, split]
  split
  · exact .inr (finishes_pure () _)
  rw [exec_bind, adapter, exec_get_bind]
  cases s.adapter with
  | none => exact .inl ⟨rfl, .inl rfl⟩
  | some chosen =>
    dsimp only [exec_pure]
    rw [exec_bind, analysis, exec_get_bind]
    cases s.outcome.analysis with
    | none => exact .inl ⟨rfl, .inr rfl⟩
    | some found =>
      dsimp only [exec_pure]
      rw [exec_get_bind]
      refine .inr (finishes_quiet_bind rfl (.timed s) trivial ?_)
      have listed (s : Session) :
          Traces Event.quiet (do pure (Json.document (← report (chosen.manifest found)))) s :=
        traces_bind (traces_report trivial _) (fun _ _ _ => traces_pure _)
      refine finishes_bind (artifact_finishes ["package.json"] (by decide) (listed _)) (fun _ after => ?_)
      refine finishes_bind (writeLocales_finishes _ _ _ after) (fun _ after => ?_)
      exact finishes_bind (writeCompliance_finishes _ _ _ after) (fun _ after => writeReadme_finishes _ _ _ after)

theorem finalize_finish (s : Session) : Finish s Event.artifactPlaces (exec finalize s).2 := by
  rcases finalize_finishes s with ⟨same, _⟩ | ⟨finish, _⟩
  · rw [same]
    exact Finish.refl.pass _
  · exact finish

theorem finalize_traces : Traces (Event.finalizes s.output) finalize s := (finalize_finish s).finalizes

theorem finalize_ok {chosen : Adapter} {found : Analysis} (known : s.adapter = some chosen)
    (analyzed : s.outcome.analysis = some found) :
    (exec finalize s).1 = .ok () ∨ Stumbled s (exec finalize s).2 := by
  rcases finalize_finishes s with ⟨_, missing⟩ | ⟨_, ended⟩
  · simp [known, analyzed] at missing
  · exact ended.imp_left (fun ⟨_, ok⟩ => ok)

end Stage

/-- Two outcomes that tell the same of a project. -/
structure Outcome.SameFindings (a b : Outcome) : Prop where
  analysis : b.analysis = a.analysis
  migratedFiles : b.migratedFiles = a.migratedFiles
  skippedFiles : b.skippedFiles = a.skippedFiles
  changes : b.summary.changes = a.summary.changes
  unitFailures : b.unitFailures = a.unitFailures
  aborted : b.aborted = a.aborted

namespace Outcome.SameFindings

variable {a b c : Outcome}

theorem refl (a : Outcome) : SameFindings a a := ⟨rfl, rfl, rfl, rfl, rfl, rfl⟩

theorem symm (same : SameFindings a b) : SameFindings b a :=
  ⟨same.analysis.symm, same.migratedFiles.symm, same.skippedFiles.symm, same.changes.symm,
    same.unitFailures.symm, same.aborted.symm⟩

theorem trans (first : SameFindings a b) (second : SameFindings b c) : SameFindings a c :=
  ⟨second.analysis.trans first.analysis, second.migratedFiles.trans first.migratedFiles,
    second.skippedFiles.trans first.skippedFiles, second.changes.trans first.changes,
    second.unitFailures.trans first.unitFailures, second.aborted.trans first.aborted⟩

end Outcome.SameFindings

namespace Session

variable {output : Path}

theorem Step.sameFindings {s t : Session} (step : Step event s t)
    (finalizes : event.finalizes output) : s.outcome.SameFindings t.outcome := by
  cases step with
  | logged | timed | problem | counted | failed | added => exact ⟨rfl, rfl, rfl, rfl, rfl, rfl⟩
  | _ => cases finalizes

theorem Trace.sameFindings {s t : Session} (trace : Trace (Event.finalizes output) s t) :
    s.outcome.SameFindings t.outcome := by
  induction trace with
  | refl => exact .refl _
  | tail _ last ih =>
    obtain ⟨_, finalizes, step⟩ := last
    exact ih.trans (step.sameFindings finalizes)

end Session

def Event.prepares (start : Session) (event : Event) : Prop :=
  event.validates ∨ event.analyzes ∨ event.backsUp start ∨ event.setsUp ∨ event.migrates

namespace Migration

open Session Stage Event

variable {texts : List ExtractedText} {migration : Migration} {source : String} {world : World}

/-- The stages before the finalization. -/
def preparation : List NamedStage := stages.take 5

theorem runStages_append (observer : Option Observer) (total number : Nat) (first second : List NamedStage)
    (s : Session) (told : List Progress) :
    runStages observer total number (first ++ second) s told =
      match runStages observer total number first s told with
      | (.ok (), after, told) => runStages observer total (number + first.length) second after told
      | (.error fault, after, told) => (.error fault, after, told) := by
  induction first generalizing number s told with
  | nil => rfl
  | cons stage rest ih =>
    simp only [List.cons_append, runStages]
    rcases tell observer ⟨stage.name, number, total, stage.message⟩ told with ⟨answer, told⟩
    cases answer with
    | error fault => rfl
    | ok =>
      dsimp only
      split
      · rfl
      · rw [ih, Nat.add_right_comm, Nat.add_assoc, List.length_cons]

theorem runStages_trace (logs : allowed .logged) (observer : Option Observer)
    (total number : Nat) {list : List NamedStage} {s : Session} (told : List Progress)
    (each : ∀ stage ∈ list, ∀ after, SameRun s after → Traces allowed stage.run after) :
    Trace allowed s (runStages observer total number list s told).2.1 := by
  induction list generalizing number s told with
  | nil => exact .refl
  | cons stage rest ih =>
    simp only [runStages]
    rcases tell observer ⟨stage.name, number, total, stage.message⟩ told with ⟨answer, told⟩
    cases answer with
    | error fault => exact .refl
    | ok =>
      let step : Stage Unit := do
        note .debug part ("Stage " ++ toString number ++ "/" ++ toString total ++ ": " ++ stage.name)
        stage.run
      have first : Trace allowed s (exec step s).2 :=
        traces_bind (traces_note logs _ _ _) (fun _ after same => each stage (by simp) after same)
      have unfolded : exec step s = step.run.run s := rfl
      rw [unfolded] at first
      rcases run : step.run.run s with ⟨outcome, after⟩
      rw [run] at first
      cases outcome with
      | error fault => exact first
      | ok =>
        refine first.trans (ih (number + 1) told (fun other member later same => ?_))
        exact each other (by simp [member]) later (first.sameRun.trans same)

def fresh (migration : Migration) (source output : Path) (texts : List ExtractedText) (world : World) : Session :=
  { source := source
    output := output
    options := migration.options
    adapter := migration.adapter
    candidates := migration.candidates
    texts := texts
    world := world }

theorem session_eq_ok {session : Session} (begins : migration.session source texts world = .ok session) :
    ∃ sourcePath outputPath, world.disk.resolveUser (Path.ofString source) = .ok sourcePath ∧
      world.disk.resolveUser (Path.ofString migration.options.outputPath) = .ok outputPath ∧
      session = migration.fresh sourcePath outputPath texts world := by
  obtain ⟨sourcePath, sourceFound, begins⟩ := bind_ok begins
  obtain ⟨outputPath, outputFound, begins⟩ := bind_ok begins
  cases begins
  exact ⟨sourcePath, outputPath, sourceFound, outputFound, rfl⟩

/-- The session when the first record of a run is written. -/
def begun (session : Session) : Session :=
  { session with world := session.world.note ⟨.info, part, greeting session⟩ }

/-- How the stages before the finalization end. -/
def prepared (observer : Option Observer) (session : Session) : Except Fault Unit × Session × List Progress :=
  runStages observer stages.length 1 preparation (begun session) []

def settled (ended : Except Fault Unit) (session : Session) : Session :=
  match ended with
  | .ok () => session
  | .error fault => abort fault session

/-- What a run holds before its finalization, also when it does not get that far. -/
def beforeFinalization (observer : Option Observer) (session : Session) : Session :=
  settled (prepared observer session).1 (prepared observer session).2.1

def completed (observer : Option Observer) (session : Session) : Except Fault Unit × Session × List Progress :=
  match prepared observer session with
  | (.ok (), held, told) => runStages observer stages.length 6 (stages.drop 5) held told
  | (.error fault, held, told) => (.error fault, held, told)

def closed (session : Session) : Session :=
  { session with world := session.world.note ⟨.info, part, verdict session.outcome⟩ }

theorem runSession_eq (observer : Option Observer) (started : Moment) (session : Session) :
    runSession observer started session =
      (closed (conclude started (settled (completed observer session).1 (completed observer session).2.1)),
        (completed observer session).2.2) := by
  have whole : runStages observer stages.length 1 stages (begun session) [] = completed observer session :=
    runStages_append observer stages.length 1 preparation (stages.drop 5) (begun session) []
  rw [← whole]
  rfl

theorem migrate_eq {session : Session} (begins : migration.session source texts world.readClock.2 = .ok session)
    (observer : Option Observer) :
    migration.migrate source observer texts world =
      (.ok ((runSession observer world.readClock.1 session).1.outcome, (runSession observer world.readClock.1 session).2),
        (runSession observer world.readClock.1 session).1.world) := by
  simp only [migrate, begins]

section

variable (observer : Option Observer) (session : Session)
include observer session

theorem prepared_trace :
    Trace (prepares session) session (prepared observer session).2.1 := by
  have begins : Trace (prepares session) session (begun session) :=
    .of_step (.logged session _) (.inl trivial)
  refine begins.trans (runStages_trace (.inl trivial) observer _ _ [] (fun stage member after same => ?_))
  have start : SameRun session after := begins.sameRun.trans same
  simp only [preparation, stages, List.take, List.mem_cons, List.not_mem_nil, or_false] at member
  rcases member with rfl | rfl | rfl | rfl | rfl
  · exact Trace.mono validate_traces (fun _ is => .inl is)
  · exact Trace.mono analyze_traces (fun _ is => .inr (.inl is))
  · have backed : Traces (prepares session) backup after :=
      Trace.mono (backup_traces start) (fun _ is => .inr (.inr (.inl is)))
    exact traces_bind backed (fun _ _ _ => traces_pure _)
  · exact Trace.mono setup_traces (fun _ is => .inr (.inr (.inr (.inl is))))
  · exact Trace.mono migrate_traces (fun _ is => .inr (.inr (.inr (.inr is))))

theorem completed_finish :
    Finish (prepared observer session).2.1 artifactPlaces (completed observer session).2.1 := by
  unfold completed
  split
  · next held told before =>
      have finished (record : Log.Record) :
          Finish held artifactPlaces (exec finalize { held with world := held.world.note record }).2 :=
        (Finish.refl.step (.logged held record) trivial).trans (finalize_finish _)
      simp only [before, stages, List.drop, runStages]
      split
      · exact Finish.refl.pass _
      · split
        all_goals
          next run =>
            obtain rfl := congrArg Prod.snd run
            exact finished _
  · next before =>
      rw [before]
      exact Finish.refl.pass _

theorem completed_trace :
    Trace (finalizes session.output) (prepared observer session).2.1 (completed observer session).2.1 := by
  rw [← (prepared_trace observer session).sameRun.output]
  exact (completed_finish observer session).finalizes

end

end Migration
end Refit
