import Refit.Proofs.Run.Distinct

open List

namespace Refit

/-- No count is lower than it was. -/
def Changes.Within (early late : Changes) : Prop :=
  early.components ≤ late.components ∧ early.pages ≤ late.pages ∧ early.styles ≤ late.styles ∧
    early.tests ≤ late.tests ∧ early.configurations ≤ late.configurations

namespace Changes.Within

variable {a b c : Changes}

theorem refl (a : Changes) : Within a a := by simp [Within]

theorem trans (first : Within a b) (second : Within b c) : Within a c := by
  unfold Within at *
  omega

theorem plus (a : Changes) (count : Role → Nat) : Within a (a.plus count) := by simp [Within, Changes.plus]

end Changes.Within

namespace Outcome

/-- Everything that an outcome has recorded is in a later one, the counts apart. -/
structure Retains (early late : Outcome) : Prop where
  analysis : ∀ found, early.analysis = some found →
    late.analysis = some found ∧ late.summary.totalFiles = early.summary.totalFiles
  migratedFiles : early.migratedFiles <+: late.migratedFiles
  skippedFiles : early.skippedFiles <+: late.skippedFiles
  errors : early.errors <+: late.errors
  warnings : early.warnings <+: late.warnings
  unitFailures : early.unitFailures ≤ late.unitFailures

structure Keeps (early late : Outcome) : Prop extends Retains early late where
  changes : early.summary.changes.Within late.summary.changes

variable {a b c : Outcome}

theorem Retains.refl (a : Outcome) : Retains a a :=
  ⟨fun _ known => ⟨known, rfl⟩, prefix_rfl, prefix_rfl, prefix_rfl, prefix_rfl, Nat.le_refl _⟩

theorem Retains.trans (first : Retains a b) (second : Retains b c) : Retains a c where
  analysis found known := by
    obtain ⟨still, total⟩ := first.analysis found known
    obtain ⟨last, same⟩ := second.analysis found still
    exact ⟨last, same.trans total⟩
  migratedFiles := first.migratedFiles.trans second.migratedFiles
  skippedFiles := first.skippedFiles.trans second.skippedFiles
  errors := first.errors.trans second.errors
  warnings := first.warnings.trans second.warnings
  unitFailures := Nat.le_trans first.unitFailures second.unitFailures

theorem Keeps.refl (a : Outcome) : Keeps a a := ⟨.refl a, .refl _⟩

theorem Keeps.trans (first : Keeps a b) (second : Keeps b c) : Keeps a c :=
  ⟨first.toRetains.trans second.toRetains, first.changes.trans second.changes⟩

end Outcome

namespace Session

variable {s t : Session} {event : Event} {allowed : Event → Prop}

theorem Step.retains (step : Step event s t) (new : event = .analyzed → s.outcome.analysis = none) :
    s.outcome.Retains t.outcome := by
  have all := Outcome.Retains.refl s.outcome
  cases step with
  | analyzed =>
    refine { all with analysis := fun found known => ?_, warnings := prefix_append _ _ }
    exact absurd (known.symm.trans (new rfl)) (by simp)
  | problem => exact { all with errors := prefix_append _ _ }
  | unitProblem => exact { all with unitFailures := Nat.le_succ _ }
  | warned => exact { all with warnings := prefix_append _ _ }
  | skipped => exact { all with skippedFiles := prefix_append _ _ }
  | delivered | pretended => exact { all with migratedFiles := prefix_append _ _ }
  | _ => exact ⟨all.analysis, all.migratedFiles, all.skippedFiles, all.errors, all.warnings, all.unitFailures⟩

theorem Step.changes_eq (step : Step event s t) (other : event ≠ .changed) :
    t.outcome.summary.changes = s.outcome.summary.changes := by
  cases step with
  | changed => exact absurd rfl other
  | _ => rfl

section

variable (trace : Trace allowed s t)
include trace

theorem Trace.retains (never : ¬ allowed .analyzed) :
    s.outcome.Retains t.outcome := by
  induction trace with
  | refl => exact .refl _
  | tail _ last ih =>
    obtain ⟨event, is, step⟩ := last
    exact ih.trans (step.retains (fun same => absurd (same ▸ is) never))

theorem Trace.changes_eq (never : ¬ allowed .changed) :
    t.outcome.summary.changes = s.outcome.summary.changes := by
  induction trace with
  | refl => rfl
  | tail _ last ih =>
    obtain ⟨event, is, step⟩ := last
    exact (step.changes_eq (fun same => never (same ▸ is))).trans ih

theorem Trace.aborted_eq :
    t.outcome.aborted = s.outcome.aborted := by
  induction trace with
  | refl => rfl
  | tail _ last ih =>
    obtain ⟨_, _, step⟩ := last
    cases step <;> exact ih

theorem Trace.keeps (unanalyzed : ¬ allowed .analyzed) (unchanged : ¬ allowed .changed) : s.outcome.Keeps t.outcome :=
  ⟨trace.retains unanalyzed, by rw [trace.changes_eq unchanged]; exact .refl _⟩

end

end Session

namespace Stage

open Session

theorem analyze_keeps {s : Session} (new : s.outcome.analysis = none) : s.outcome.Keeps (exec analyze s).2.outcome := by
  have trace : Trace Event.analyzes s (exec analyze s).2 := analyze_traces
  have unchanged := trace.changes_eq id
  refine ⟨?_, by rw [unchanged]; exact .refl _⟩
  unfold analyze
  rw [exec_get_bind, exec_bind, exec_adapter]
  cases s.adapter with
  | none => exact .refl _
  | some chosen =>
    simp only [Option.elim_some]
    rw [exec_bind, exec_report]
    cases (exec (chosen.analyze s.world.disk s.source s.texts) []).1 with
    | error fault => exact .refl _
    | ok found => exact (Step.analyzed s found).retains (fun _ => new)

theorem migrate_keeps (s : Session) : s.outcome.Keeps (exec migrate s).2.outcome := by
  have trace : Trace Event.migrates s (exec migrate s).2 := migrate_traces
  refine ⟨trace.retains id, ?_⟩
  -- without an adapter or an analysis the stage ends before it counts anything
  cases worker : s.adapter with
  | none =>
    have ended : exec migrate s = (.error .noAdapter, s) := by
      unfold migrate migrateComponents
      rw [exec_bind, exec_bind, exec_adapter, worker]
      rfl
    rw [ended]
    exact .refl _
  | some chosen =>
    cases known : s.outcome.analysis with
    | none =>
      have ended : exec migrate s = (.error .notAnalyzed, s) := by
        unfold migrate migrateComponents
        rw [exec_bind, exec_bind, exec_adapter, worker]
        simp only [Option.elim_some]
        rw [exec_bind, exec_analysis, known]
        rfl
      rw [ended]
      exact .refl _
    | some found =>
      obtain ⟨items, journal, _⟩ := migrate_journals worker known
      rw [journal.changes_eq]
      exact .plus _ _

end Stage

/-- No file of an analysis is without a name. -/
structure Analysis.Spelled (analysis : Analysis) : Prop where
  components : ∀ component ∈ analysis.components, ∀ file ∈ component.units, file ≠ ""
  pages : ∀ page ∈ analysis.pages, page.path ≠ ""
  styles : ∀ file ∈ analysis.styling.files, file ≠ ""
  assets : ∀ asset ∈ analysis.assets, asset.path ≠ ""

theorem Adapter.Stock.spelled {adapter : Adapter} {disk : Disk} {source : Path} {analysis : Analysis}
    (stock : adapter.Stock) (regular : disk.Regular) (resolved : source.Resolved) {texts : List ExtractedText}
    (yields : (adapter.analyze disk source texts).Yields analysis) : analysis.Spelled := by
  obtain ⟨survey, rfl, rfl, down, records, after, run⟩ := stock.surveys resolved yields
  have covers := (Survey.analyze_covers regular down run).2
  constructor
  · intro component member file unit
    exact (covers.components component member file unit).nonempty regular.named
  · intro page member
    exact (covers.pages page member).nonempty regular.named
  · intro file member
    exact (covers.styles file member).nonempty regular.named
  · intro asset member
    exact (covers.assets asset member).1.nonempty regular.named

theorem Placed.named {output requested : Path} {options : Options} {chosen : Adapter} {found : Analysis} {role : Role}
    {file : String} (placed : Placed output options chosen found role file requested) (stock : chosen.Stock)
    (spelled : found.Spelled) : file ≠ "" := by
  have styles : ∀ name ∈ Adapter.Stock.styleNames, name ≠ "" := by decide
  have configurations : ∀ name ∈ Output.configurationNames, name ≠ "" := by decide
  cases placed with
  | component member => exact spelled.components _ member _ (by simp [Component.units])
  | test member attached | story member attached => exact spelled.components _ member _ (by simp [Component.units, attached])
  | page member => exact spelled.pages _ member
  | style made member => exact styles _ (stock.styles made _ member)
  | carriedStyle _ carriage member => exact spelled.styles _ (stock.carriedStyles carriage _ member).1
  | asset member => exact spelled.assets _ member
  | configuration made member => exact configurations _ (stock.configuration made _ member)

namespace Migration

open Session Stage Event

variable {stage : NamedStage} {count : Nat}

def reached (observer : Option Observer) (session : Session) (count : Nat) : Session :=
  (runStages observer stages.length 1 (stages.take count) (begun session) []).2.1

variable {observer : Option Observer} {session : Session}

theorem reached_all (observer : Option Observer) (session : Session) :
    runStages observer stages.length 1 stages (begun session) [] = completed observer session :=
  runStages_append observer stages.length 1 preparation (stages.drop 5) (begun session) []

theorem reached_succ (is : stages[count]? = some stage) :
    reached observer session (count + 1) = reached observer session count ∨
      ∃ record, reached observer session (count + 1) = (exec stage.run
        { reached observer session count with world := (reached observer session count).world.note record }).2 := by
  have turned (count : Nat) : reached observer session count =
      (exec (inTurn observer stages.length 1 (stages.take count)) (begun session)).2 :=
    (runStages_inTurn observer stages.length 1 (stages.take count) (begun session) []).2
  have last : inTurn observer stages.length 1 (stages.take (count + 1)) = (do
      inTurn observer stages.length 1 (stages.take count)
      announced observer stages.length (1 + (stages.take count).length) stage) := by
    rw [take_add_one, is, inTurn_append]
    exact bind_congr (fun _ => bind_pure_unit)
  rw [turned (count + 1), turned count, last, exec_bind]
  rcases exec (inTurn observer stages.length 1 (stages.take count)) (begun session) with ⟨outcome, held⟩
  cases outcome with
  | error fault => exact .inl rfl
  | ok =>
    dsimp only
    unfold announced
    split
    · exact .inl rfl
    · exact .inr ⟨_, rfl⟩

theorem reached_succ_keeps (is : stages[count]? = some stage)
    (keeps : ∀ s : Session, s.outcome = (reached observer session count).outcome →
      s.outcome.Keeps (exec stage.run s).2.outcome) :
    (reached observer session count).outcome.Keeps (reached observer session (count + 1)).outcome := by
  rcases reached_succ is with same | ⟨record, same⟩
  · rw [same]
    exact .refl _
  · rw [same]
    exact keeps
      { reached observer session count with world := (reached observer session count).world.note record } rfl

section

variable (new : session.outcome.analysis = none)
include new

/-- The validation finds out nothing about the project but which adapter it is for. -/
theorem reached_one_analysis :
    (reached observer session 1).outcome.analysis = none := by
  have first : stages[0]? = some ⟨"validation", "Validating project compatibility", validate⟩ := rfl
  rcases reached_succ first with same | ⟨record, same⟩
  · rw [same]
    exact new
  · rw [same]
    have kept (s t : Session) (trace : Trace validates s t) : t.outcome = s.outcome := by
      induction trace with
      | refl => rfl
      | tail _ last ih =>
        obtain ⟨event, is, step⟩ := last
        cases step with
        | logged | chosen => exact ih
        | _ => cases is
    rw [kept _ _ validate_traces]
    exact new

theorem reached_next_keeps (count : Nat) :
    (reached observer session count).outcome.Keeps (reached observer session (count + 1)).outcome := by
  match count with
  | 0 => exact reached_succ_keeps rfl (fun s _ => (show Trace validates s _ from validate_traces).keeps id id)
  | 1 => exact reached_succ_keeps rfl (fun s same => analyze_keeps (same ▸ reached_one_analysis new))
  | 2 =>
    refine reached_succ_keeps rfl (fun s _ => ?_)
    have trace : Traces (backsUp s) (do let _ ← backup) s :=
      traces_bind (backup_traces (.refl s)) (fun _ _ _ => traces_pure _)
    exact Trace.keeps trace id id
  | 3 => exact reached_succ_keeps rfl (fun s _ => (show Trace setsUp s _ from setup_traces).keeps id id)
  | 4 => exact reached_succ_keeps rfl (fun s _ => migrate_keeps s)
  | 5 =>
    exact reached_succ_keeps rfl
      (fun s _ => (show Trace (finalizes s.output) s _ from finalize_traces).keeps id id)
  | more + 6 =>
    have whole (count : Nat) : stages.take (count + 6) = stages := take_of_length_le (by simp [stages])
    unfold reached
    rw [whole]
    exact .refl _

/-- Whatever the first stages record is there when all stages have ended. -/
theorem reached_keeps (count : Nat) :
    (reached observer session count).outcome.Keeps (completed observer session).2.1.outcome := by
  have grows (more : Nat) :
      (reached observer session count).outcome.Keeps (reached observer session (count + more)).outcome := by
    induction more with
    | zero => exact .refl _
    | succ more ih => exact ih.trans (reached_next_keeps new (count + more))
  have all : stages.take (count + 6) = stages := take_of_length_le (by simp [stages])
  have ended := grows 6
  rw [← reached_all]
  unfold reached at ended ⊢
  rwa [all] at ended

end

def schedule (total : Nat) : Nat → List NamedStage → List Progress
  | _, [] => []
  | number, stage :: rest => ⟨stage.name, number, total, stage.message⟩ :: schedule total (number + 1) rest

theorem runStages_told (observer : Option Observer) (total number : Nat) (list : List NamedStage) (s : Session)
    (told : List Progress) :
    ∃ more, (runStages observer total number list s told).2.2 = told ++ more ∧
      more <+: schedule total number list ∧ (observer = none → more = []) := by
  induction list generalizing number s told with
  | nil => exact ⟨[], by simp [runStages], prefix_rfl, fun _ => rfl⟩
  | cons stage rest ih =>
    cases observer with
    | none =>
      simp only [runStages, tell]
      split
      · exact ⟨[], by simp, nil_prefix, fun _ => rfl⟩
      · obtain ⟨more, same, _, silent⟩ := ih (number + 1) _ told
        rw [silent rfl] at same
        exact ⟨[], same, nil_prefix, fun _ => rfl⟩
    | some observe =>
      have first : [Progress.mk stage.name number total stage.message] <+: schedule total number (stage :: rest) :=
        cons_prefix_cons.2 ⟨rfl, nil_prefix⟩
      simp only [runStages, tell]
      cases observe ⟨stage.name, number, total, stage.message⟩ with
      | error fault => exact ⟨_, rfl, first, by simp⟩
      | ok =>
        dsimp only
        split
        · exact ⟨_, rfl, first, by simp⟩
        · obtain ⟨more, same, within, _⟩ := ih (number + 1) _ _
          refine ⟨_ :: more, ?_, cons_prefix_cons.2 ⟨rfl, within⟩, by simp⟩
          rw [same, append_assoc]
          rfl

theorem laid_errors (observer : Option Observer) (session : Session) :
    (laid observer session).2.outcome.errors = session.outcome.errors := by
  have unmet (s t : Session) (trace : Trace (Event.lays session) s t) : t.outcome.errors = s.outcome.errors := by
    induction trace with
    | refl => rfl
    | tail _ last ih =>
      obtain ⟨event, is, step⟩ := last
      cases step with
      | problem => rcases is with is | is | is | is <;> cases is
      | _ => exact ih
  exact unmet _ _ (laid_trace observer session)

theorem completed_attributed
    (stock : ∀ adapter, session.adapter = some adapter ∨ adapter ∈ session.candidates → adapter.Stock)
    (regular : session.world.disk.Regular) (resolved : session.source.Resolved)
    (clean : session.outcome.errors = []) (observer : Option Observer) :
    ∀ problem ∈ (completed observer session).2.1.outcome.errors, problem.file ≠ "" := by
  have before : ∀ problem ∈ (prepared observer session).2.1.outcome.errors, problem.file ≠ "" := by
    rcases prepared_cases observer session with ⟨_, _, held⟩ | ⟨record, done, migrated⟩
    · rw [held, laid_errors, clean]
      simp
    · obtain ⟨chosen, found, worker, known, offered, world, relogged, yields⟩ := laid_surveyed done
      have own := stock chosen offered
      have spelled := own.spelled (relogged.regular regular) resolved yields
      let held : Session :=
        { (laid observer session).2 with world := (laid observer session).2.world.note record }
      obtain ⟨_, _, _, ⟨problems, errors, named⟩, _⟩ := @migrate_journals held chosen found worker known
      have start : held.outcome.errors = [] := (laid_errors observer session).trans clean
      rw [show (prepared observer session).2.1 = (exec Stage.migrate held).2 from congrArg Prod.snd migrated, errors, start]
      intro problem member
      exact (named problem (by simpa using member)).elim id (fun ⟨_, _, placed⟩ => placed.named own spelled)
  have spelled : ∀ names ∈ Event.artifactPlaces, Path.ofNames names ≠ "" := by decide +kernel
  obtain ⟨problems, errors, files⟩ := (completed_finish observer session).errors
  rw [errors]
  refine forall_mem_append.2 ⟨before, fun problem member => ?_⟩
  obtain ⟨names, known, file⟩ := files problem member
  exact file ▸ spelled names known

/-- What a run hands over tells what happened: it succeeded if nothing is wrong, its counts are right,
    the observer heard of the stages in their order, and a failure that ended the run is the one problem
    without a file, after everything that was recorded until then. -/
structure Coherent (observer : Option Observer) (session : Session) (outcome : Outcome) (told : List Progress) : Prop where
  success : outcome.success = true ↔ outcome.errors = []
  migratedFiles : outcome.summary.migratedFiles = outcome.migratedFiles.length
  skippedFiles : outcome.summary.skippedFiles = outcome.skippedFiles.length
  errors : outcome.summary.errors = outcome.errors.length
  warnings : outcome.summary.warnings = outcome.warnings.length
  told : told <+: schedule stages.length 1 stages
  aborted : outcome.aborted = true ↔ outcome.errors.countP (fun problem => problem.file = "") = 1
  last : outcome.aborted = true → ∃ earlier fault,
    outcome.errors = earlier ++ [⟨"", "parse", fault⟩] ∧ ∀ problem ∈ earlier, problem.file ≠ ""
  kept : ∀ count, (reached observer session count).outcome.Keeps outcome

theorem settled_keeps (started : Moment) (ended : Except Fault Unit) (s : Session) :
    s.outcome.Keeps (closed (conclude started (settled ended s))).outcome := by
  cases ended with
  | ok => exact ⟨⟨fun _ known => ⟨known, rfl⟩, prefix_rfl, prefix_rfl, prefix_rfl, prefix_rfl,
      Nat.le_refl _⟩, .refl _⟩
  | error fault => exact ⟨⟨fun _ known => ⟨known, rfl⟩, prefix_rfl, prefix_rfl, prefix_append _ _,
      prefix_rfl, Nat.le_refl _⟩, .refl _⟩

theorem runSession_coherent
    (stock : ∀ adapter, session.adapter = some adapter ∨ adapter ∈ session.candidates → adapter.Stock)
    (regular : session.world.disk.Regular) (resolved : session.source.Resolved) (new : session.outcome = {})
    (observer : Option Observer) (started : Moment) :
    Coherent observer session (runSession observer started session).1.outcome
      (runSession observer started session).2 := by
  have named := completed_attributed stock regular resolved (by rw [new]) observer
  have running : (completed observer session).2.1.outcome.aborted = false := by
    rw [(completed_trace observer session).aborted_eq, (prepared_trace observer session).aborted_eq, new]
  have unblamed : (completed observer session).2.1.outcome.errors.countP (fun problem => problem.file = "") = 0 := by
    simpa using named
  have heard : (completed observer session).2.2 <+: schedule stages.length 1 stages := by
    obtain ⟨more, same, within, _⟩ := runStages_told observer stages.length 1 stages (begun session) []
    rw [reached_all] at same
    simpa [same] using within
  rw [runSession_eq]
  have kept (count : Nat) := (@reached_keeps observer session (by rw [new]) count).trans
    (settled_keeps started (completed observer session).1 _)
  cases ended : (completed observer session).1 with
  | ok =>
    rw [ended] at kept
    have unaborted : (closed (conclude started (settled (.ok ()) (completed observer session).2.1))).outcome.aborted =
        false := running
    refine ⟨List.isEmpty_iff, rfl, rfl, rfl, rfl, heard, ?_, ?_, kept⟩
    · rw [unaborted]
      change false = true ↔ List.countP _ (completed observer session).2.1.outcome.errors = 1
      rw [unblamed]
      simp
    · intro wrong
      exact absurd (unaborted.symm.trans wrong) (by simp)
  | error fault =>
    rw [ended] at kept
    refine ⟨List.isEmpty_iff, rfl, rfl, rfl, rfl, heard, ?_, fun _ => ⟨_, fault, rfl, named⟩, kept⟩
    change true = true ↔ List.countP _ ((completed observer session).2.1.outcome.errors ++ [⟨"", "parse", fault⟩]) = 1
    rw [countP_append, unblamed]
    simp

/-- A migration between paths that can be resolved comes to a coherent outcome, whatever fails in it: the
    methods of an adapter, its templates, the observer, or any operation on files. -/
theorem migrate_coherent {migration : Migration} (stocked : migration.Stocked) {world : World}
    (regular : world.disk.Regular) {source : String} {texts : List ExtractedText} {session : Session}
    (begins : migration.session source texts world.readClock.2 = .ok session) (observer : Option Observer) :
    ∃ outcome told after, migration.migrate source observer texts world = (.ok (outcome, told), after) ∧
      Coherent observer session outcome told := by
  refine ⟨_, _, _, migrate_eq begins observer, ?_⟩
  obtain ⟨sourcePath, outputPath, found, _, rfl⟩ := session_eq_ok begins
  have resolved : sourcePath.Resolved := Disk.resolved_of_resolveUser regular.start (Path.ofString_valid source) found
  exact @runSession_coherent (migration.fresh sourcePath outputPath texts world.readClock.2) stocked regular resolved rfl
    observer world.readClock.1

/-- A world that stops a run with a failure that is not one of files, after fifteen operations. -/
def interruptedWorld : World :=
  { crowdedWorld with
    falters := fun calls => calls.length = 15
    cause := fun _ => some (.supplied "interrupted") }

def interruptedSession : Session :=
  brokenMigration.fresh ⟨.slash, ["project"]⟩ ⟨.slash, ["out"]⟩ [] interruptedWorld.readClock.2

def interruptedRun : Session × List Progress :=
  runSession (some (fun _ => .ok ())) interruptedWorld.readClock.1 interruptedSession

theorem migrate_coherent_interrupted :
    (interruptedRun.1.outcome.aborted = true ∧
      interruptedRun.1.outcome.errors.map (fun problem => (problem.file, problem.kind)) =
        [("src/components/B.tsx", "transform"), ("tokens.css", "write"), ("", "parse")] ∧
      interruptedRun.1.outcome.migratedFiles =
        ["/out/src/components/A.jsx", "/out/src/components/A-2.jsx", "/out/src/styles/globals.css"] ∧
      interruptedRun.2.length = 5) ∧
    brokenMigration.migrate "/project" (some (fun _ => .ok ())) [] interruptedWorld =
      (.ok (interruptedRun.1.outcome, interruptedRun.2), interruptedRun.1.world) ∧
    Coherent (some (fun _ => .ok ())) interruptedSession interruptedRun.1.outcome interruptedRun.2 := by
  have begins : brokenMigration.session "/project" [] interruptedWorld.readClock.2 = .ok interruptedSession := rfl
  have regular : interruptedWorld.disk.Regular := crowded_regular
  have whole : brokenMigration.migrate "/project" (some (fun _ => .ok ())) [] interruptedWorld =
      (.ok (interruptedRun.1.outcome, interruptedRun.2), interruptedRun.1.world) := migrate_eq begins _
  obtain ⟨outcome, told, after, run, coherent⟩ := migrate_coherent broken_stocked regular begins (some (fun _ => .ok ()))
  cases run.symm.trans whole
  exact ⟨by decide +kernel, whole, coherent⟩

end Migration
end Refit
