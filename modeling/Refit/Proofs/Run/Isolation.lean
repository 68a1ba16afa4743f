import Refit.Proofs.Run.Distinct
import Refit.Proofs.Run.TrialMigration

/-!
Faults stay where they are. A run in which components or pages cannot be made, or destinations refuse
to store files, comes to what the run without faults comes to, less the files that are hit and those
that follow them.
-/

open List

namespace Refit

namespace Call

theorem falters_perform (call : Call) (world : World) : (call.perform world).2.falters = world.falters := by
  rcases call.perform_cases world with ⟨_, run⟩ | ⟨_, _, _, run⟩ | ⟨_, _, run⟩ <;> rw [run] <;> rfl

theorem perform_file_fault {call : Call} {world after : World} (steady : world.falters world.calls = false)
    {fault : Fault} (run : call.perform world = (.error fault, after)) : ∃ cause, fault = .file cause := by
  rcases call.perform_cases world with ⟨stopped, _⟩ | ⟨cause, _, _, failed⟩ | ⟨_, _, done⟩
  · rw [steady, Bool.or_false] at stopped
    cases (perform_refused stopped).symm.trans run
    exact ⟨_, rfl⟩
  · cases failed.symm.trans run
    exact ⟨cause, rfl⟩
  · cases done.symm.trans run

end Call

namespace Session

variable {s t : Session}

/-- From one session to another, each write that failed is the cause of one problem, and of no other
    problem of that kind. -/
structure Blamed (s t : Session) : Prop where
  output : t.output = s.output
  problems : ∃ problems calls, t.outcome.errors = s.outcome.errors ++ problems ∧
    t.world.history = s.world.history ++ calls ∧
    List.Forall₂ (fun problem call => ∃ names, problem.file = Path.ofNames names ∧ call.path = s.output.below names)
      (problems.filter (fun problem => problem.kind = "write")) (calls.filter (fun call => !call.succeeded))

theorem Blamed.of_same (output : t.output = s.output) (errors : t.outcome.errors = s.outcome.errors)
    (history : t.world.history = s.world.history) : Blamed s t :=
  ⟨output, [], [], by simp [errors], by simp [history], by simp⟩

theorem Blamed.trans {u : Session} (first : Blamed s t) (second : Blamed t u) : Blamed s u := by
  obtain ⟨problems, calls, errors, history, pairs⟩ := first.problems
  obtain ⟨others, more, further, later, rest⟩ := second.problems
  refine ⟨second.output.trans first.output, problems ++ others, calls ++ more, ?_, ?_, ?_⟩
  · rw [further, errors, append_assoc]
  · rw [later, history, append_assoc]
  · rw [filter_append, filter_append]
    rw [first.output] at rest
    exact rel_append pairs rest

/-- Nothing fails for what came before it. -/
def Steady (s : Session) : Prop := ∀ calls, s.world.falters calls = false

theorem Trace.falters {allowed : Event → Prop} (trace : Trace allowed s t) :
    t.world.falters = s.world.falters := by
  induction trace with
  | refl => rfl
  | tail _ last ih =>
    obtain ⟨_, _, step⟩ := last
    refine Eq.trans ?_ ih
    cases step with
    | failed _ _ _ run | made _ _ _ run | backedUp _ _ _ run | delivered _ _ _ _ run | added _ _ _ _ run =>
      exact (congrArg (fun done => done.2.falters) run).symm.trans (Call.falters_perform _ _)
    | _ => rfl

theorem Finish.blamed {places : List (List String)} (finish : Finish s places t) (steady : s.Steady) : Blamed s t := by
  have falters {places : List (List String)} {t : Session} (finish : Finish s places t) :
      t.world.falters = s.world.falters :=
    (finish.trace (fun _ _ => trivial) trivial (fun _ _ _ => ⟨trivial, trivial⟩) : Trace (fun _ => True) s t).falters
  induction finish with
  | refl => exact .of_same rfl rfl rfl
  | step _ step quiet ih =>
    cases step with
    | logged | timed | counted => exact ih.trans (.of_same rfl rfl rfl)
    | _ => cases quiet
  | passed _ _ ih => exact ih
  | unmade names fault _ other ih =>
    exact ih.trans ⟨rfl, [⟨Path.ofNames names, _, fault⟩], [], rfl, (append_nil _).symm, by simp [other]⟩
  | unstored names content _ _ _ run ih =>
    obtain ⟨disk, _, rfl⟩ := Call.perform_error run
    exact ih.trans ⟨rfl, [⟨Path.ofNames names, "write", _⟩], [⟨.writeText, _, false, disk⟩], rfl, rfl,
      .cons ⟨names, rfl, rfl⟩ .nil⟩
  | broken names content before _ other run =>
    obtain ⟨_, rfl⟩ := Call.perform_file_fault (by rw [falters before]; exact steady _) run
    cases other
  | stored names content _ _ run ih =>
    obtain ⟨disk, _, rfl⟩ := Call.perform_ok run
    exact ih.trans ⟨rfl, [], [⟨.writeText, _, true, disk⟩], (append_nil _).symm, rfl, .nil⟩

end Session

namespace Migration

open Session Stage

theorem runSession_blamed (observer : Option Observer) (started : Moment) {session : Session}
    (steady : (beforeFinalization observer session).Steady) :
    Blamed (beforeFinalization observer session) (runSession observer started session).1 := by
  have ending (s : Session) : Blamed s (closed (conclude started s)) := .of_same rfl rfl rfl
  have aborting (fault : Fault) (s : Session) : Blamed s (abort fault s) :=
    ⟨rfl, [⟨"", "parse", fault⟩], [], rfl, (append_nil _).symm, .nil⟩
  have finish := completed_finish observer session
  rw [runSession_eq]
  refine .trans ?_ (ending _)
  unfold beforeFinalization at steady ⊢
  cases ended : (prepared observer session).1 with
  | error fault =>
    have same : completed observer session = prepared observer session := by
      unfold completed
      split
      · next before => rw [before] at ended; cases ended
      · next before => exact before.symm
    rw [same, ended]
    exact .of_same rfl rfl rfl
  | ok =>
    rw [ended] at steady
    have blamed := finish.blamed steady
    cases (completed observer session).1 with
    | ok => exact blamed
    | error fault => exact blamed.trans (aborting fault _)

/-- The files that a run is to make in its migration stage, if it comes so far. -/
def attempts (observer : Option Observer) (session : Session) : List Attempt :=
  match (prepared observer session).1, (entered observer session).adapter,
      (entered observer session).outcome.analysis with
  | .ok (), some adapter, some analysis =>
    Job.attempts ⟨adapter, analysis, (entered observer session).world.disk, (entered observer session).output,
      (entered observer session).options⟩
  | _, _, _ => []

/-- In the migration stage of a run no path is renamed, and each file is made at its own path, over no
    file of the project. -/
structure Undisturbed (observer : Option Observer) (started : Moment) (session : Session) : Prop where
  unnumbered : (runSession observer started session).1.names.counts = []
  settled : ∀ call ∈ (beforeFinalization observer session).world.history.drop session.world.history.length,
    call.operation.stores = true → call.Settled (entered observer session).world.disk session.source

/-- Faults stay where they are. The run delivers its attempts, and the run with faults delivers them
    without those that are lost, in the same order and with the same contents. Each attempt that is
    made and hit adds one problem to those of the run, and so does each write of the finalization that
    fails. -/
structure Isolated (observer : Option Observer) (started : Moment) (session : Session) (faults : Faults) : Prop where
  files : (runSession observer started session).1.outcome.migratedFiles =
    ((attempts observer session).filterMap Attempt.path?).map Path.toString
  remaining : (runSession observer started (session.failing faults)).1.outcome.migratedFiles =
    (((attempts observer session).filter (fun attempt => !attempt.isLost faults)).filterMap Attempt.path?).map
      Path.toString
  contents : ∀ attempt ∈ attempts observer session, attempt.isLost faults = false → ∀ path ∈ attempt.path?,
    ∃ content, Received ((runSession observer started session).1.world.history.drop session.world.history.length)
        path content ∧
      Received ((runSession observer started (session.failing faults)).1.world.history.drop
        session.world.history.length) path content
  errors : ∃ common, (beforeFinalization observer session).outcome.errors =
      common ++ (attempts observer session).filterMap (Attempt.problem? .none) ∧
    (beforeFinalization observer (session.failing faults)).outcome.errors =
      common ++ (attempts observer session).filterMap (Attempt.problem? faults)
  once : ∀ attempt ∈ attempts observer session, attempt.isReached faults = true → attempt.draft.isHit faults = true →
    ∃ problem, attempt.problem? faults = some problem ∧ problem.file = attempt.draft.file ∧
      problem.kind = if (faults.raised attempt.draft.subject).isSome then "transform" else "write"
  closing : Blamed (beforeFinalization observer (session.failing faults))
    (runSession observer started (session.failing faults)).1

variable {observer : Option Observer} {started : Moment} {session : Session}

theorem entered_lasting (observer : Option Observer) (tidy : session.world.disk.root.tidy = true) :
    Lasting session (entered observer session) ∧ Untouched session (entered observer session) := by
  have trace := laid_trace observer session
  have noted : Trace (Event.lays session) (laid observer session).2 (entered observer session) :=
    .of_step (.logged _ _) (.inl trivial)
  have whole : Trace (Event.lays session) session (entered observer session) := trace.trans noted
  exact ⟨whole.lasting tidy, whole.untouches⟩

theorem settled_world (ended : Except Fault Unit) (s : Session) :
    (settled ended s).world.history = s.world.history := by
  cases ended <;> rfl

section

variable
  (builtin : ∀ adapter, session.adapter = some adapter ∨ adapter ∈ session.candidates → adapter.Builtin)
  (regular : session.world.disk.Regular) (source : session.source.Resolved) (output : session.output.Resolved)
  (apart : ∀ place, session.world.LogPlace place → ¬ session.source.names <+: place)
  (steady : ∀ calls, session.world.falters calls = false) (wet : session.options.dryRun = false)
  (unclaimed : session.names = .empty)

include builtin regular source output apart steady wet unclaimed

theorem exists_trial (undisturbed : Undisturbed observer started session) (proceeds : Proceeds observer session)
    (ended : (prepared observer session).2.1 = (exec Stage.migrate (entered observer session)).2) :
    ∃ trial : Trial, trial.held = entered observer session ∧ trial.last = (prepared observer session).2.1 := by
  obtain ⟨chosen, found, worker, known, offered, world, relogged, yields⟩ := laid_surveyed proceeds.1
  obtain ⟨lasting, untouched⟩ := entered_lasting observer regular.tidy
  have stock := builtin chosen offered
  obtain ⟨grounded, named⟩ := stock.stock.analyze (relogged.regular regular) source yields
  have placed : (entered observer session).world.disk.placeOf session.source = session.source.names :=
    Disk.placeOf_resolved _ source
  obtain ⟨early, grown, kinds⟩ := lasting.history
  have final : (runSession observer started session).1.names = (prepared observer session).2.1.names := by
    obtain ⟨_, _, _, _, _, same, _⟩ := runSession_writes observer started session
    exact same
  refine ⟨
    { held := entered observer session
      last := (prepared observer session).2.1
      adapter := chosen
      analysis := found
      worker := worker
      known := known
      builtin := stock
      grounded := ?_
      named := named
      apart := ?_
      tidy := lasting.tidy
      absolute := ?_
      wet := by rw [untouched.options, wet]
      steady := by rw [lasting.falters]; exact steady
      unclaimed := untouched.names.trans unclaimed
      unnumbered := by rw [← final]; exact undisturbed.unnumbered
      settled := ?_ }, rfl, rfl⟩
  · rw [untouched.source]
    exact (grounded.fits relogged.fits).fits lasting.fits
  · rintro place ⟨path, member, rfl⟩ ⟨below, _⟩
    rw [untouched.source, placed, lasting.fits.placeOf path] at below
    exact apart _ ⟨path, lasting.handlers ▸ member, rfl⟩ below
  · rw [untouched.output, Path.isAbsolute, output.root]
    rfl
  · intro call member
    rw [untouched.source]
    refine undisturbed.settled call ?_
    have further : (entered observer session).world.history <+: (prepared observer session).2.1.world.history := by
      have grows : Trace Event.migrates (entered observer session) (exec Stage.migrate (entered observer session)).2 :=
        migrate_traces
      rw [ended]
      exact grows.history
    obtain ⟨later, more⟩ := further
    rw [beforeFinalization, settled_world, ← more, grown, append_assoc, drop_left]
    rw [← more, drop_left] at member
    exact mem_append_right _ member

theorem runSession_isolated (unmigrated : session.outcome.migratedFiles = [])
    (undisturbed : Undisturbed observer started session) (faults : Faults) :
    Isolated observer started session faults := by
  have files := runSession_migratedFiles observer started session
  have remaining := runSession_migratedFiles observer started (session.failing faults)
  have lasting : (beforeFinalization observer (session.failing faults)).Steady := by
    have same := (prepared_trace observer (session.failing faults)).falters
    have held (ended : Except Fault Unit) (s : Session) : (settled ended s).world.falters = s.world.falters := by
      cases ended <;> rfl
    rw [Steady, beforeFinalization, held, same]
    exact steady
  have closing := runSession_blamed observer started lasting
  rcases prepared_failing faults observer session with
    ⟨fault, _, faultyEnd, soundEnd, faultyHeld, soundHeld⟩ | ⟨proceeds, faulty, sound⟩
  · have none : attempts observer session = [] := by
      unfold attempts
      rw [soundEnd]
    have unmade : (laid observer session).2.outcome.migratedFiles = [] :=
      (laid_trace observer session).untouches.files.trans unmigrated
    refine ⟨?_, ?_, by simp [none], ⟨(beforeFinalization observer session).outcome.errors, by simp [none], ?_⟩, by simp [none], closing⟩
    · rw [files, soundHeld, unmade, none]
      rfl
    · rw [remaining, faultyHeld, none]
      exact unmade
    · rw [beforeFinalization, beforeFinalization, faultyEnd, faultyHeld, soundEnd, soundHeld, none]
      exact (append_nil _).symm
  · obtain ⟨trial, held, last⟩ := exists_trial builtin regular source output apart steady wet unclaimed undisturbed
      proceeds (congrArg Prod.snd sound)
    rw [← held] at sound faulty
    rw [← last] at sound
    obtain ⟨run, stands, after, failed, stood⟩ := trial.performed (congrArg Prod.snd sound) faults
    rw [run] at sound
    rw [failed] at faulty
    have ended : (prepared observer session).1 = .ok () := congrArg Prod.fst sound
    have known : attempts observer session = trial.job.attempts := by
      unfold attempts
      rw [ended, ← held, trial.worker, trial.known]
      rfl
    have unmade : trial.held.outcome.migratedFiles = [] := by
      rw [held]
      exact (entered_lasting observer regular.tidy).2.files.trans unmigrated
    have reached : (prepared observer (session.failing faults)).2.1 = after := congrArg Prod.snd faulty
    have delivered : (fun attempt => Attempt.delivered? .none attempt) = Attempt.path? := funext Attempt.delivered?_none
    refine ⟨?_, ?_, ?_, ⟨trial.held.outcome.errors, ?_, ?_⟩, fun _ _ => Attempt.problem?_of_hit, closing⟩
    · rw [files, ← last, stands.files, unmade, known, delivered, nil_append]
    · rw [remaining, reached, stood.files, unmade, known, filterMap_filter]
      refine congrArg (List.map Path.toString) (filterMap_congr (fun attempt _ => ?_))
      rw [Attempt.delivered?_eq]
      cases attempt.isLost faults <;> rfl
    · intro attempt member spared path there
      rw [known] at member
      obtain ⟨content, made⟩ := Attempt.made_of_path there
      have kept : attempt.delivered? faults = some path := by
        rw [Attempt.delivered?_eq, spared]
        exact there
      have early : session.world.history.length ≤ trial.held.world.history.length := by
        obtain ⟨calls, grown, _⟩ := (entered_lasting observer regular.tidy).1.history
        rw [held, grown, length_append]
        exact Nat.le_add_right _ _
      have grown := prepared_history observer started session
      have grownFaulty := prepared_history observer started (session.failing faults)
      rw [← last] at grown
      rw [reached] at grownFaulty
      exact ⟨content,
        (stands.received attempt member path content ((Attempt.delivered?_none attempt).trans there) made).later grown early,
        (stood.received attempt member path content kept made).later grownFaulty early⟩
    · rw [beforeFinalization, ended, ← last, known]
      exact stands.errors
    · have done : (prepared observer (session.failing faults)).1 = .ok () := congrArg Prod.fst faulty
      rw [beforeFinalization, done, reached, known]
      exact stood.errors

end

/-- Faults stay where they are, in every run with the adapters that come with the program whose
    migration stage is undisturbed without them. -/
theorem runSession_isolates_faults (registry fallback : Registry) (chosen : Option Dialect)
    (known : ∀ dialect ∈ chosen, dialect ∈ Registry.builtin) (source : String) (texts : List ExtractedText)
    (world : World) (wet : registry.options.dryRun = false)
    (begins : (builtin registry fallback chosen).session source texts world = .ok session)
    (regular : world.disk.Regular) (apart : ∀ place, world.LogPlace place → ¬ session.source.names <+: place)
    (steady : ∀ calls, world.falters calls = false) (undisturbed : Undisturbed observer started session)
    (faults : Faults) :
    ((builtin registry fallback chosen).failing faults).session source texts (world.failing faults) =
        .ok (session.failing faults) ∧
      Isolated observer started session faults := by
  refine ⟨session_failing faults begins, ?_⟩
  obtain ⟨sourcePath, outputPath, sourceFound, outputFound, rfl⟩ := session_eq_ok begins
  refine runSession_isolated ?_ regular
    (Disk.resolved_of_resolveUser regular.start (Path.ofString_valid source) sourceFound)
    (Disk.resolved_of_resolveUser regular.start (Path.ofString_valid _) outputFound) apart steady wet rfl rfl
    undisturbed faults
  rintro adapter (picked | offered)
  · obtain ⟨dialect, is, rfl⟩ := Option.map_eq_some_iff.1 picked
    exact ⟨registry, dialect, known dialect is, rfl⟩
  · obtain ⟨dialect, listed, rfl⟩ := mem_map.1 offered
    exact ⟨fallback, dialect, listed, rfl⟩

theorem settled_of_elsewhere {disk : Disk} {source : Path} {call : Performed}
    (elsewhere : call.succeeded = true ∧ call.disk.isFile call.path = true ∧
      ¬ disk.placeOf source <+: disk.placeOf call.path) : call.Settled disk source := by
  obtain ⟨succeeded, is, apart⟩ := elsewhere
  obtain ⟨place, content, located, stands⟩ := Disk.isFile_iff.1 is
  refine ⟨succeeded, ⟨content, ?_⟩, fun inside => apart inside.1⟩
  rw [← Disk.eq_placeOf located]
  exact stands

/-- What makes adapters for runs that migrate tests. -/
def testingRegistry : Registry :=
  { plainRegistry with options := { plainRegistry.options with migrateTests := true } }

/-- A world with a project of two components, one of them with a test, and an asset. -/
def testedWorld : World :=
  { buttonWorld with
    disk :=
      { root := .directory
          [("project", .directory
            [("lovable.json", .file []),
             ("src", .directory
               [("assets", .directory [("logo.svg", .file [60, 62])]),
                ("components", .directory
                 [("A.test.tsx", .file []),
                  ("A.tsx", .file (Text.Utf8.encode "<LovableButton/>")),
                  ("B.tsx", .file [])])])])]
        workingDirectory := []
        homes := [] } }

def testedSession : Session :=
  (builtin testingRegistry testingRegistry none).fresh ⟨.slash, ["project"]⟩ ⟨.slash, ["out"]⟩ [] testedWorld

/-- A component that cannot be made, and two destinations that store nothing. -/
def mishaps : Faults :=
  { component := fun component => if component.name = "A" then some (.supplied "broken") else none
    page := fun _ => none
    refuses := fun path => path.name = "logo.svg" || path.name = "README.md" }

theorem tested_runs :
    ((runSession none buttonWorld.clock.now testedSession).1.names.counts = [] ∧
      ∀ call ∈ (beforeFinalization none testedSession).world.history.drop testedSession.world.history.length,
        call.operation.stores = true → call.succeeded = true ∧ call.disk.isFile call.path = true ∧
          ¬ (entered none testedSession).world.disk.placeOf testedSession.source <+:
            (entered none testedSession).world.disk.placeOf call.path) ∧
    (runSession none buttonWorld.clock.now testedSession).1.outcome.migratedFiles =
      ["/out/src/components/A.jsx", "/out/src/components/A.test.tsx", "/out/src/components/B.jsx",
        "/out/src/styles/globals.css", "/out/src/styles/tokens.css", "/out/src/assets/logo.svg",
        "/out/tailwind.config.js", "/out/vite.config.ts"] ∧
    (runSession none buttonWorld.clock.now (testedSession.failing mishaps)).1.outcome.migratedFiles =
      ["/out/src/components/B.jsx", "/out/src/styles/globals.css", "/out/src/styles/tokens.css",
        "/out/tailwind.config.js", "/out/vite.config.ts"] ∧
    (runSession none buttonWorld.clock.now (testedSession.failing mishaps)).1.outcome.errors.map
        (fun problem => (problem.file, problem.kind)) =
      [("src/components/A.tsx", "transform"), ("src/assets/logo.svg", "write"), ("README.md", "write")] := by
  decide +kernel

theorem tested_undisturbed : Undisturbed none buttonWorld.clock.now testedSession :=
  ⟨tested_runs.1.1, fun call member stores => settled_of_elsewhere (tested_runs.1.2 call member stores)⟩

theorem runSession_isolates_faults_tested :
    testingRegistry.options.dryRun = false ∧
      (builtin testingRegistry testingRegistry none).session "/project" [] testedWorld = .ok testedSession ∧
      testedWorld.disk.Regular ∧
      (∀ place, testedWorld.LogPlace place → ¬ testedSession.source.names <+: place) ∧
      (∀ calls, testedWorld.falters calls = false) ∧ Undisturbed none buttonWorld.clock.now testedSession ∧
      (runSession none buttonWorld.clock.now testedSession).1.outcome.migratedFiles =
        ["/out/src/components/A.jsx", "/out/src/components/A.test.tsx", "/out/src/components/B.jsx",
          "/out/src/styles/globals.css", "/out/src/styles/tokens.css", "/out/src/assets/logo.svg",
          "/out/tailwind.config.js", "/out/vite.config.ts"] ∧
      (runSession none buttonWorld.clock.now (testedSession.failing mishaps)).1.outcome.migratedFiles =
        ["/out/src/components/B.jsx", "/out/src/styles/globals.css", "/out/src/styles/tokens.css",
          "/out/tailwind.config.js", "/out/vite.config.ts"] ∧
      (runSession none buttonWorld.clock.now (testedSession.failing mishaps)).1.outcome.errors.map
          (fun problem => (problem.file, problem.kind)) =
        [("src/components/A.tsx", "transform"), ("src/assets/logo.svg", "write"), ("README.md", "write")] ∧
      ((builtin testingRegistry testingRegistry none).failing mishaps).session "/project" []
          (testedWorld.failing mishaps) = .ok (testedSession.failing mishaps) ∧
      Isolated none buttonWorld.clock.now testedSession mishaps := by
  have begins : (builtin testingRegistry testingRegistry none).session "/project" [] testedWorld = .ok testedSession := rfl
  have regular : testedWorld.disk.Regular := ⟨by decide +kernel, by decide +kernel, by decide⟩
  have apart : ∀ place, testedWorld.LogPlace place → ¬ testedSession.source.names <+: place := by
    rintro place ⟨path, member, _⟩
    simp [testedWorld, buttonWorld, Log.Router.initial] at member
  have steady : ∀ calls, testedWorld.falters calls = false := fun _ => rfl
  exact ⟨rfl, begins, regular, apart, steady, tested_undisturbed, tested_runs.2.1, tested_runs.2.2.1, tested_runs.2.2.2,
    runSession_isolates_faults testingRegistry testingRegistry none (by simp) "/project" [] testedWorld rfl begins regular
      apart steady tested_undisturbed mishaps⟩

/-- A world with a directory in the project that has the name of a file in the output. -/
def nestedWorld : World :=
  { buttonWorld with
    disk :=
      { root := .directory
          [("project", .directory
            [("lovable.json", .file []),
             ("src", .directory
               [("components", .directory
                 [("A.jsx", .file (Text.Utf8.encode "<LovableButton/>")),
                  ("A.tsx", .directory [("B.tsx", .file (Text.Utf8.encode "<LovableButton/>"))])])]),
             ("tsconfig.json", .file [])])]
        workingDirectory := []
        homes := [] } }

/-- What makes adapters for runs that keep the directories of the project. -/
def structuredRegistry : Registry :=
  { plainRegistry with options := { plainRegistry.options with preserveStructure := true } }

def nestedSession : Session :=
  (builtin structuredRegistry structuredRegistry none).fresh ⟨.slash, ["project"]⟩ ⟨.slash, ["out"]⟩ [] nestedWorld

/-- A file that is missing makes room for another one, which has no place in the run without faults. -/
theorem runSession_reveals_nested :
    (builtin structuredRegistry structuredRegistry none).session "/project" [] nestedWorld = .ok nestedSession ∧
      (runSession none buttonWorld.clock.now nestedSession).1.names.counts = [] ∧
      (runSession none buttonWorld.clock.now nestedSession).1.outcome.migratedFiles =
        ["/out/src/components/A.tsx", "/out/src/styles/globals.css", "/out/src/styles/tokens.css",
          "/out/tsconfig.json", "/out/tailwind.config.js", "/out/vite.config.ts"] ∧
      (runSession none buttonWorld.clock.now (nestedSession.failing
          { Faults.none with refuses := fun path => path.name = "A.tsx" })).1.outcome.migratedFiles =
        ["/out/src/components/A.tsx/B.tsx", "/out/src/styles/globals.css", "/out/src/styles/tokens.css",
          "/out/tsconfig.json", "/out/tailwind.config.js", "/out/vite.config.ts"] :=
  ⟨rfl, by decide +kernel⟩

end Migration
end Refit
