import Refit.Proofs.CommandLine.Call
import Refit.Proofs.Run.Coherence

/-!
Calls that find no adapter for a project. The rules that exclude files hold for the adapters that a call
looks through, but the run looks again, through adapters without rules; only if none of those recognises
the project is it rejected.
-/

open List

namespace Refit

open Path Log.Router

variable {adapter : Adapter} {project : Path}

/-- Whether an adapter recognises a project. -/
def Adapter.knows (adapter : Adapter) (disk : Disk) (project : Path) : Bool :=
  match (exec (adapter.recognises disk project) []).1 with
  | .ok answer => answer
  | .error _ => false

theorem Dialect.tryChecks_answers (dialect : Dialect) (root : Path) (outcomes : List (String × Except Fault Bool)) :
    ∃ answer noted, ∀ records, exec (dialect.tryChecks root outcomes) records = (.ok answer, records ++ noted) := by
  induction outcomes with
  | nil => exact ⟨false, [], fun records => by simp [tryChecks]⟩
  | cons check rest ih =>
    obtain ⟨name, outcome⟩ := check
    cases outcome with
    | error fault => exact ⟨false, [_], fun _ => rfl⟩
    | ok found =>
      cases found with
      | true => exact ⟨true, [_], fun _ => rfl⟩
      | false => exact ih

theorem Adapter.Builtin.recognises_answers (builtin : adapter.Builtin) (disk : Disk)
    (project : Path) :
    ∃ noted, ∀ records,
      exec (adapter.recognises disk project) records = (.ok (adapter.knows disk project), records ++ noted) := by
  have answers : ∃ answer noted, ∀ records,
      exec (adapter.recognises disk project) records = (.ok answer, records ++ noted) := by
    obtain ⟨registry, dialect, _, rfl⟩ := builtin
    change ∃ answer noted, ∀ records, exec (dialect.recognises registry.rules disk project) records = _
    unfold Dialect.recognises
    split
    · exact dialect.tryChecks_answers project _
    · exact ⟨false, [], fun records => by simp⟩
  obtain ⟨answer, noted, same⟩ := answers
  have known : adapter.knows disk project = answer := by
    unfold knows
    rw [same []]
  exact ⟨noted, fun records => by rw [same, known]⟩

namespace Stage

theorem select_first {adapters : List Adapter} (builtin : ∀ adapter ∈ adapters, adapter.Builtin) (disk : Disk)
    (project : Path) :
    ∃ noted, ∀ records, exec (select disk project adapters) records =
      (.ok (adapters.find? (·.knows disk project)), records ++ noted) := by
  induction adapters with
  | nil => exact ⟨[_], fun _ => rfl⟩
  | cons adapter rest ih =>
    obtain ⟨asked, answers⟩ := (builtin adapter (by simp)).recognises_answers disk project
    obtain ⟨others, chosen⟩ := ih (fun other member => builtin other (by simp [member]))
    cases known : adapter.knows disk project with
    | true =>
      refine ⟨asked ++ [⟨.info, "adapters",
        "Detected " ++ adapter.description ++ " project at " ++ project.toString⟩], fun records => ?_⟩
      rw [select, exec_bind, answers, List.find?_cons, known, ← append_assoc]
      rfl
    | false =>
      refine ⟨asked ++ others, fun records => ?_⟩
      rw [select, exec_bind, answers, List.find?_cons, known, ← append_assoc]
      exact chosen _

theorem exec_validate_unnamed {s : Session} (unnamed : s.adapter = none)
    (builtin : ∀ adapter ∈ s.candidates, adapter.Builtin) :
    ∃ records, exec validate s =
      match s.candidates.find? (·.knows s.world.disk s.source) with
      | some adapter => (.ok (), { s with adapter := some adapter, world := s.world.noteAll records })
      | none => (.error (.unrecognised s.source.toString), { s with world := s.world.noteAll records }) := by
  obtain ⟨noted, selected⟩ := select_first builtin s.world.disk s.source
  have looked : s.world.report (select s.world.disk s.source s.candidates) =
      (.ok (s.candidates.find? (·.knows s.world.disk s.source)), s.world.noteAll noted) := by
    have first := selected []
    unfold World.report
    rw [show (select s.world.disk s.source s.candidates).run.run [] = _ from first]
    rfl
  refine ⟨noted, ?_⟩
  rw [validate, exec_get_bind]
  split
  · rw [exec_bind, report, exec_lift, looked]
    cases s.candidates.find? (·.knows s.world.disk s.source) <;> rfl
  · next adapter named => cases named.symm.trans unnamed

end Stage

namespace World

/-- Nothing but talk has come since a world. -/
structure Noted (start world : World) : Prop where
  relogged : Relogged start world
  calls : world.calls = start.calls
  heard : start.log.streams ≠ [] → world.log.streams ≠ []

variable {start world : World}

theorem length_streams_emit (router : Log.Router) (record : Log.Record) :
    (router.emit record).streams.length = router.streams.length := by
  have delivers (handlers : List Log.Handler) (streams : List String) :
      (handlers.foldl (deliver record) streams).length = streams.length := by
    induction handlers generalizing streams with
    | nil => rfl
    | cons handler rest ih =>
      rw [foldl_cons, ih]
      cases handler with
      | silent | file => rfl
      | console stream verbose =>
        simp only [deliver, Log.Router.append]
        split <;> simp
  unfold emit
  split
  · exact delivers _ _
  · rfl

theorem Noted.refl (world : World) : Noted world world := ⟨.refl world, rfl, id⟩

section

variable (noted : Noted start world)
include noted

theorem Noted.note (record : Log.Record) : Noted start (world.note record) where
  relogged := noted.relogged.note record
  calls := noted.calls
  heard some := by
    have before := length_pos_iff.2 (noted.heard some)
    rw [← length_pos_iff]
    exact (length_streams_emit world.log record).symm ▸ before

theorem Noted.noteAll (records : List Log.Record) : Noted start (world.noteAll records) := by
  induction records generalizing world with
  | nil => exact noted
  | cons record rest ih => exact ih (noted.note record)

theorem Noted.readClock : Noted start world.readClock.2 :=
  ⟨⟨noted.relogged.handlers, noted.relogged.touched⟩, noted.calls, noted.heard⟩

theorem Noted.print (text : String) :
    Noted start { world with log := world.log.print text } where
  relogged := ⟨noted.relogged.handlers, noted.relogged.touched⟩
  calls := noted.calls
  heard some := by
    have before := length_pos_iff.2 (noted.heard some)
    rw [← length_pos_iff]
    simpa [Log.Router.print, Log.Router.append] using before

end

end World

theorem Log.Router.join_print {router : Log.Router} (some : router.streams ≠ []) (text : String) :
    String.join (router.print text).streams = String.join router.streams ++ text := by
  have last (front : List String) (stream : String) :
      (front ++ [stream]).modify front.length (· ++ text) = front ++ [stream ++ text] := by
    induction front with
    | nil => rfl
    | cons first rest ih => simpa using ih
  obtain ⟨front, stream, is⟩ := (eq_nil_or_concat' router.streams).resolve_left some
  have printed : (router.print text).streams = (front ++ [stream]).modify front.length (· ++ text) := by
    simp [print, append, is]
  rw [printed, last, is]
  simp [String.append_assoc]

namespace Migration

open Stage Session

variable {session : Session} {start : World}

theorem knows_relogged {world : World} (builtin : adapter.Builtin)
    (tidy : start.disk.root.tidy = true) (apart : start.LogsApart project) (relogged : World.Relogged start world) :
    adapter.knows world.disk project = adapter.knows start.disk project := by
  unfold Adapter.knows
  rw [builtin.recognises_eq tidy (relogged.sameBelow apart)]

theorem exec_announced (total number : Nat) (stage : NamedStage) (s : Session) :
    ∃ record, exec (announced (some (fun _ => .ok ())) total number stage) s =
      exec stage.run { s with world := s.world.note record } := ⟨_, rfl⟩

theorem announced_validate (unnamed : session.adapter = none) (builtin : ∀ adapter ∈ session.candidates, adapter.Builtin)
    (tidy : start.disk.root.tidy = true) (apart : start.LogsApart session.source)
    (noted : World.Noted start session.world) :
    ∃ records, exec (announced (some (fun _ => .ok ())) stages.length 1
        ⟨"validation", "Validating project compatibility", validate⟩) (begun session) =
      match session.candidates.find? (·.knows start.disk session.source) with
      | some adapter => (.ok (), { session with adapter := some adapter, world := session.world.noteAll records })
      | none => (.error (.unrecognised session.source.toString), { session with world := session.world.noteAll records }) := by
  obtain ⟨greets, hello⟩ : ∃ record, begun session = { session with world := session.world.note record } := ⟨_, rfl⟩
  obtain ⟨tells, heard⟩ := exec_announced stages.length 1
    ⟨"validation", "Validating project compatibility", validate⟩ (begun session)
  obtain ⟨records, run⟩ := @exec_validate_unnamed
    { session with world := (session.world.note greets).note tells } unnamed builtin
  have same : session.candidates.find? (·.knows ((session.world.note greets).note tells).disk session.source) =
      session.candidates.find? (·.knows start.disk session.source) :=
    find?_congr_mem (fun adapter member =>
      knows_relogged (builtin adapter member) tidy apart ((noted.note greets).note tells).relogged)
  rw [same] at run
  refine ⟨greets :: tells :: records, ?_⟩
  rw [heard, hello, run]
  rfl

theorem runSession_unrecognised (unnamed : session.adapter = none) (fresh : session.rollback = {})
    (builtin : ∀ adapter ∈ session.candidates, adapter.Builtin) {start : World} (tidy : start.disk.root.tidy = true)
    (apart : start.LogsApart session.source) (noted : World.Noted start session.world)
    (none : session.candidates.find? (·.knows start.disk session.source) = none) (started : Moment) :
    ∃ final told, runSession (some (fun _ => .ok ())) started session = (final, told) ∧
      World.Noted start final.world ∧ final.outcome.success = false ∧
      final.outcome.rollbackData = session.outcome.rollbackData ∧
      final.outcome.errors = session.outcome.errors ++ [⟨"", "parse", .unrecognised session.source.toString⟩] := by
  obtain ⟨records, run⟩ := announced_validate unnamed builtin tidy apart noted
  rw [none] at run
  have failed : laid (some (fun _ => .ok ())) session = (.error (.unrecognised session.source.toString),
      { session with world := session.world.noteAll records }) := by
    have first : stages.take 4 =
        ⟨"validation", "Validating project compatibility", validate⟩ :: (stages.take 4).drop 1 := rfl
    rw [laid, first, inTurn, exec_bind, run]
  have ended := runSession_of_laid (congrArg Prod.fst failed) started
  rw [failed] at ended
  refine ⟨_, _, Prod.ext ended rfl, ?_, ?_, ?_, rfl⟩
  · exact (((noted.noteAll records).note _).readClock).note _
  · simp [conclude, abort, Outcome.counted]
  · simp [conclude, abort, Outcome.counted, fresh]

theorem runStages_heard (total number : Nat) (stage : NamedStage) (rest : List NamedStage) (s : Session)
    (told : List Progress) :
    runStages (some (fun _ => .ok ())) total number (stage :: rest) s told =
      match exec (announced (some (fun _ => .ok ())) total number stage) s with
      | (.error fault, t) => (.error fault, t, told ++ [⟨stage.name, number, total, stage.message⟩])
      | (.ok (), t) =>
        runStages (some (fun _ => .ok ())) total (number + 1) rest t
          (told ++ [⟨stage.name, number, total, stage.message⟩]) := by
  rfl

theorem told_of_announced {first second : NamedStage} {rest : List NamedStage} {s t : Session} {total number : Nat}
    (passed : exec (announced (some (fun _ => .ok ())) total number first) s = (.ok (), t)) :
    ∃ more, (runStages (some (fun _ => .ok ())) total number (first :: second :: rest) s []).2.2 =
      ⟨first.name, number, total, first.message⟩ :: ⟨second.name, number + 1, total, second.message⟩ :: more := by
  rw [runStages_heard, passed]
  dsimp only
  rw [runStages_heard]
  rcases exec (announced (some (fun _ => .ok ())) total (number + 1) second) t with ⟨outcome, u⟩
  cases outcome with
  | error fault => exact ⟨[], rfl⟩
  | ok =>
    obtain ⟨more, same, _⟩ := runStages_told (some (fun _ => .ok ())) total (number + 1 + 1) rest u
      [⟨first.name, number, total, first.message⟩, ⟨second.name, number + 1, total, second.message⟩]
    exact ⟨more, same⟩

theorem runSession_recognised (unnamed : session.adapter = none)
    (builtin : ∀ adapter ∈ session.candidates, adapter.Builtin) {start : World} (tidy : start.disk.root.tidy = true)
    (apart : start.LogsApart session.source) (noted : World.Noted start session.world) {adapter : Adapter}
    (known : session.candidates.find? (·.knows start.disk session.source) = some adapter) (started : Moment) :
    ∃ more, (runSession (some (fun _ => .ok ())) started session).2 =
      ⟨"validation", 1, stages.length, "Validating project compatibility"⟩ ::
        ⟨"analysis", 2, stages.length, "Analyzing project structure"⟩ :: more := by
  obtain ⟨records, run⟩ := announced_validate unnamed builtin tidy apart noted
  rw [known] at run
  exact told_of_announced run

end Migration

namespace CommandLine

variable {asked : MigrateRequest} {migration : Migration} {world after last : World} {outcome : Outcome}
  {told : List Progress} {ending : Ending}

theorem conclusion_out {out : String}
    (ends : exec (conclusion asked migration outcome out) world = (.ok ending, last)) :
    ∃ rest, ending.out = out ++ rest := by
  unfold conclusion at ends
  split at ends
  · cases ends
    exact ⟨"", by simp⟩
  have same {complaint : String} {before : World} (ended : exec (fail out complaint) before = (.ok ending, last)) :
      ∃ rest, ending.out = out ++ rest := by
    cases ended
    exact ⟨"", by simp⟩
  split at ends
  · split at ends
    · rw [exec_tryCatch, exec_bind] at ends
      rcases rolled : exec (migration.rollBack outcome) world with ⟨result, middle⟩
      rw [rolled] at ends
      cases result with
      | ok =>
        cases ends
        exact ⟨_, rfl⟩
      | error fault =>
        dsimp only at ends
        split at ends
        · exact same ends
        · exact same ends
        · cases ends
    · exact same ends
  · exact same ends

theorem runMigration_out
    (ran : migration.migrate (ofString asked.path).toString (some (fun _ => .ok ())) [] world =
      (.ok (outcome, told), after))
    (ends : exec (runMigration asked migration) world = (.ok ending, last)) :
    ∃ rest, ending.out = String.join (told.map progressLine) ++ rest := by
  rw [exec_runMigration ran] at ends
  obtain ⟨rest, same⟩ := conclusion_out ends
  exact ⟨_, by rw [same, String.append_assoc, String.append_assoc]⟩

theorem runMigration_fails
    (ran : migration.migrate (ofString asked.path).toString (some (fun _ => .ok ())) [] world =
      (.ok (outcome, told), after))
    (failed : outcome.success = false) (unattached : outcome.rollbackData = none) :
    ∃ out, exec (runMigration asked migration) world =
      exec (fail out "Migration finished with errors. Run with --verbose for more details.\n")
        { after with log := after.log.print (errorLines outcome) } := by
  rw [exec_runMigration ran, conclusion, failed, unattached]
  exact ⟨_, rfl⟩

variable {config : Config} {options : Options} {plugins : List PluginEntry} {ruled candidates : List Adapter}

theorem registry_builtin (rules : List IgnoreRule) :
    ∀ adapter ∈ (registry plugins options rules).builtinAdapters, adapter.Builtin := by
  intro adapter member
  obtain ⟨dialect, listed, rfl⟩ := mem_map.1 member
  exact ⟨_, dialect, listed, rfl⟩

theorem adapters_unplugged (options : Options) (rules : List IgnoreRule) :
    (registry [] options rules).adapters = .ok (registry [] options rules).builtinAdapters :=
  congrArg Except.ok (append_nil _)

theorem exec_migrate_unknown (set : settings asked world.disk = .ok (config, options))
    (found : (registry plugins options (IgnoreRule.ofPatterns config.excludePaths)).adapters = .ok ruled)
    (free : (registry plugins options []).adapters = .ok candidates) (unnamed : adapterName asked config = none)
    (builtin : ∀ adapter ∈ ruled, adapter.Builtin)
    (unknown : ∀ adapter ∈ ruled, adapter.knows world.disk (ofString asked.path) = false) :
    ∃ records, exec (migrate plugins asked) world =
      exec (runMigration asked ⟨options, none, candidates⟩) (world.noteAll records) := by
  obtain ⟨noted, selected⟩ := Stage.select_first builtin world.disk (ofString asked.path)
  have none : ruled.find? (·.knows world.disk (ofString asked.path)) = none :=
    List.find?_eq_none.2 (fun adapter member => by simp [unknown adapter member])
  refine ⟨noted, ?_⟩
  rw [exec_migrate_offered set found free, migrateAmong, unnamed]
  dsimp only
  rw [exec_get_bind, exec_bind, exec_report]
  unfold World.report
  rw [show (Stage.select world.disk (ofString asked.path) ruled).run.run [] = _ from selected [], none]
  rfl

section

variable {start : World} {source output : Path}

theorem session_of_resolved (leads : world.disk.resolveUser (ofString asked.path) = .ok source)
    (into : world.disk.resolveUser (ofString migration.options.outputPath) = .ok output) :
    migration.session (ofString asked.path).toString [] world.readClock.2 =
      .ok (migration.fresh source output [] world.readClock.2) := by
  have clocked : world.readClock.2.disk = world.disk := rfl
  rw [Migration.session, ofString_toString (ofString_valid _), clocked, leads, into]
  rfl

section

variable (tidy : start.disk.root.tidy = true) (apart : start.LogsApart source) (noted : World.Noted start world)
include tidy apart noted

theorem runMigration_unrecognised (heard : start.log.streams ≠ [])
    (leads : world.disk.resolveUser (ofString asked.path) = .ok source)
    (into : world.disk.resolveUser (ofString migration.options.outputPath) = .ok output)
    (builtin : ∀ adapter ∈ migration.candidates, adapter.Builtin) (unnamed : migration.adapter = none)
    (unknown : ∀ adapter ∈ migration.candidates, adapter.knows start.disk source = false) :
    ∃ out after before, exec (runMigration asked migration) world = (.ok { code := 1, out := out }, after) ∧
      World.Noted start after ∧
      String.join after.log.streams =
        before ++ itemLine "error" "parse" "" (Fault.unrecognised source.toString).message ++
          "Migration finished with errors. Run with --verbose for more details.\n" := by
  have none : migration.candidates.find? (·.knows start.disk source) = none :=
    List.find?_eq_none.2 (fun adapter member => by simp [unknown adapter member])
  obtain ⟨final, told, run, kept, failed, unattached, errors⟩ := @Migration.runSession_unrecognised
    (migration.fresh source output [] world.readClock.2) unnamed rfl builtin start tidy apart noted.readClock none
    world.readClock.1
  have ran := Migration.migrate_eq (session_of_resolved leads into) (some (fun _ => .ok ()))
  rw [run] at ran
  obtain ⟨out, ends⟩ := runMigration_fails ran failed unattached
  have lines : errorLines final.outcome =
      itemLine "error" "parse" "" (Fault.unrecognised source.toString).message := by
    rw [errorLines, errors]
    simp [Migration.fresh, Problem.message]
  have printed := kept.print (errorLines final.outcome)
  refine ⟨out, _, String.join final.world.log.streams, ends, printed.print _, ?_⟩
  rw [← lines, Log.Router.join_print (printed.heard heard), Log.Router.join_print (kept.heard heard)]

theorem runMigration_recognised (leads : world.disk.resolveUser (ofString asked.path) = .ok source)
    (into : world.disk.resolveUser (ofString migration.options.outputPath) = .ok output)
    (builtin : ∀ adapter ∈ migration.candidates, adapter.Builtin) (unnamed : migration.adapter = none)
    (known : ∃ adapter ∈ migration.candidates, adapter.knows start.disk source = true) {ending : Ending} {last : World}
    (ends : exec (runMigration asked migration) world = (.ok ending, last)) :
    ∃ rest, ending.out = "[1/6] validation: Validating project compatibility\n" ++
      "[2/6] analysis: Analyzing project structure\n" ++ rest := by
  obtain ⟨adapter, found⟩ := Option.isSome_iff_exists.1 (List.find?_isSome.2 known)
  obtain ⟨more, told⟩ := @Migration.runSession_recognised (migration.fresh source output [] world.readClock.2) unnamed
    builtin start tidy apart noted.readClock adapter found world.readClock.1
  obtain ⟨rest, out⟩ := runMigration_out (Migration.migrate_eq (session_of_resolved leads into) (some (fun _ => .ok ()))) ends
  have first : progressLine ⟨"validation", 1, Migration.stages.length, "Validating project compatibility"⟩ =
      "[1/6] validation: Validating project compatibility\n" := by decide
  have second : progressLine ⟨"analysis", 2, Migration.stages.length, "Analyzing project structure"⟩ =
      "[2/6] analysis: Analyzing project structure\n" := by decide
  rw [told, map_cons, map_cons, String.join_cons, String.join_cons, first, second] at out
  exact ⟨String.join (more.map progressLine) ++ rest, by rw [out]; simp only [String.append_assoc]⟩

end

end

/-- A call that names no adapter and finds none under its rules is decided by the adapters without rules. If
    none of them recognises the project, the call reports that and fails; it makes no operation, and the disk
    stays as it is but for the log. If one of them does, the run goes on to its analysis. The adapters are those
    that come with the program; plugins may offer them once more. -/
theorem call_decided_unruled (plugins : List PluginEntry) {texts : List String} {request : Request}
    (reads : Request.read texts = .ok request) (asks : request.task = .migrate asked) {logged : World}
    (tidy : world.disk.root.tidy = true)
    (logs : exec (WorldAction.configureLog request.verbose (request.logFile.map ofString)) world = (.ok (), logged))
    (set : settings asked logged.disk = .ok (config, options)) (unnamed : adapterName asked config = none)
    (found : (registry plugins options (IgnoreRule.ofPatterns config.excludePaths)).adapters = .ok ruled)
    (free : (registry plugins options []).adapters = .ok candidates)
    (builtin : ∀ adapter ∈ ruled ++ candidates, adapter.Builtin)
    (unknown : ∀ adapter ∈ ruled, adapter.knows logged.disk (ofString asked.path) = false)
    {source output : Path} (leads : logged.disk.resolveUser (ofString asked.path) = .ok source)
    (into : logged.disk.resolveUser (ofString options.outputPath) = .ok output) (apart : logged.LogsApart source) :
    ((∀ adapter ∈ candidates, adapter.knows logged.disk source = false) →
      ∃ ending after before, exec (call plugins texts) world = (.ok ending, after) ∧ ending.code = 1 ∧
        ending.err = before ++ itemLine "error" "parse" "" (Fault.unrecognised source.toString).message ++
          "Migration finished with errors. Run with --verbose for more details.\n" ∧
        after.calls = world.calls ∧
        ∀ place, (∀ file ∈ request.logFile, place ∉ stops world.disk (ofString file)) →
          after.disk.at? place = world.disk.at? place) ∧
    ((∃ adapter ∈ candidates, adapter.knows logged.disk source = true) →
      ∀ ending after, exec (call plugins texts) world = (.ok ending, after) →
        ∃ rest, ending.out = "[1/6] validation: Validating project compatibility\n" ++
          "[2/6] analysis: Analyzing project structure\n" ++ rest) := by
  have equipped := WorldAction.configureLog_equips request.verbose (request.logFile.map ofString) world
  rw [logs] at equipped
  have still : logged.disk.root.tidy = true := equipped.touched.changes.tidy tidy
  obtain ⟨ruledBuiltin, freeBuiltin⟩ := forall_mem_append.1 builtin
  obtain ⟨records, goes⟩ := exec_migrate_unknown set found free unnamed ruledBuiltin unknown
  have noted : World.Noted logged (logged.noteAll records) := (World.Noted.refl logged).noteAll records
  have changes := noted.relogged.touched.changes
  rw [← Disk.resolveUser_congr changes.workingDirectory changes.homes] at leads into
  have called : exec (call plugins texts) world = _ := exec_call reads world
  rw [exec_run_migrate asks, exec_bind, logs] at called
  dsimp only at called
  rw [goes] at called
  constructor
  · intro none
    obtain ⟨out, after, before, ends, kept, said⟩ := @runMigration_unrecognised asked
      ⟨options, .none, candidates⟩ _ _ _ _ still apart noted equipped.heard leads into freeBuiltin rfl none
    rw [ends] at called
    refine ⟨_, after, before, called, rfl, said, kept.calls.trans equipped.calls, fun place off => ?_⟩
    have unlogged : ¬ logged.LogPlace place := fun there => unstopped off (equipped.logs place there)
    rw [kept.relogged.touched.at? id (fun there => unlogged there.1), equipped.touched.at? (unstopped off) (unstopped off)]
  · intro known ending after ends
    rcases ran : exec (runMigration asked ⟨options, none, candidates⟩) (logged.noteAll records) with ⟨result, last⟩
    rw [ran, ends] at called
    cases result with
    | error fault => cases called
    | ok told =>
      cases called
      exact @runMigration_recognised asked ⟨options, none, candidates⟩ _ _ _ _ still apart noted leads into freeBuiltin
        rfl known told _ ran

def excludingTexts : List String := ["migrate", "project", "-o", "out"]

def excludingAsked : MigrateRequest :=
  { path := "project"
    adapter := none
    overrides :=
      [("output_path", .string "out"), ("target_platform", .null), ("target_styling", .null),
       ("preserve_structure", .null), ("create_backup", .null), ("migrate_tests", .null), ("migrate_stories", .null),
       ("convert_to_typescript", .null), ("add_localization", .null), ("add_compliance", .null), ("dry_run", .null)]
    rollbackOnFailure := false }

def excludingRequest : Request := { verbose := false, logFile := none, task := .migrate excludingAsked }

/-- A world with a project of one source file, which its settings exclude. -/
def excludingWorld (text : String) : World :=
  { Migration.buttonWorld with
    disk :=
      { root := .directory
          [("project", .directory
            [(".uimigrate.yml", .file (Text.Utf8.encode "exclude_paths:\n  - src\n")),
             ("src", .directory [("components", .directory [("A.tsx", .file (Text.Utf8.encode text))])])])]
        workingDirectory := []
        homes := [] } }

/-- What the settings of the project come to. -/
def excludes (found : Except Fault (Config × Options)) : Bool :=
  match found with
  | .ok (config, options) =>
    config.adapter = none && config.excludePaths = ["src"] && options.outputPath = "/out"
  | .error _ => false

/-- Whether no adapter recognises a project under some rules. -/
def unknownUnder (rules : List IgnoreRule) (disk : Disk) (project : Path) : Bool :=
  Registry.builtin.all (fun dialect =>
    !((registry [] (OptionsOf.plain false "") rules).ofDialect dialect).knows disk project)

theorem not_knows_of_unknownUnder {rules : List IgnoreRule} {disk : Disk}
    (unknown : unknownUnder rules disk project = true) (options : Options) :
    ∀ adapter ∈ (registry [] options rules).builtinAdapters, adapter.knows disk project = false := by
  intro adapter member
  obtain ⟨dialect, listed, rfl⟩ := mem_map.1 member
  have same : ((registry [] options rules).ofDialect dialect).recognises =
      ((registry [] (OptionsOf.plain false "") rules).ofDialect dialect).recognises := rfl
  have missed := all_eq_true.1 unknown dialect listed
  rw [Bool.not_eq_true', Adapter.knows] at missed
  exact missed

theorem call_decided_unruled_plain :
    Request.read excludingTexts = .ok excludingRequest ∧
      ∃ ending after before, exec (call [] excludingTexts) (excludingWorld "x") = (.ok ending, after) ∧ ending.code = 1 ∧
        ending.err = before ++ "error [parse] No adapter can migrate the project at /project\n" ++
          "Migration finished with errors. Run with --verbose for more details.\n" ∧ after.calls = [] := by
  have reads : Request.read excludingTexts = .ok excludingRequest := rfl
  have found : excludes (settings excludingAsked (excludingWorld "x").disk) = true := by decide +kernel
  have ruled : unknownUnder (IgnoreRule.ofPatterns ["src"]) (excludingWorld "x").disk (ofString "project") = true := by
    decide +kernel
  have unruled : unknownUnder [] (excludingWorld "x").disk ⟨.slash, ["project"]⟩ = true := by decide +kernel
  cases set : settings excludingAsked (excludingWorld "x").disk with
  | error fault => simp [set, excludes] at found
  | ok pair =>
    obtain ⟨config, options⟩ := pair
    simp only [set, excludes, Bool.and_eq_true, decide_eq_true_eq] at found
    obtain ⟨⟨unnamed, excluded⟩, into⟩ := found
    rw [← excluded] at ruled
    have apart : World.LogsApart { excludingWorld "x" with log := (excludingWorld "x").log.withConsole false false }
        ⟨.slash, ["project"]⟩ := by
      rintro place ⟨path, member, _⟩
      simp [withConsole] at member
    obtain ⟨ending, after, before, run, code, err, calls, _⟩ := (call_decided_unruled [] reads rfl (by decide) rfl set
      (by simp [adapterName, excludingAsked, unnamed]) (adapters_unplugged options _) (adapters_unplugged options [])
      (forall_mem_append.2 ⟨registry_builtin _, registry_builtin []⟩) (not_knows_of_unknownUnder ruled options) rfl
      (by rw [into]; rfl) apart).1 (not_knows_of_unknownUnder unruled options)
    exact ⟨reads, ending, after, before, run, code, err, calls⟩

theorem call_ignores_exclusion :
    Request.read excludingTexts = .ok excludingRequest ∧
      excludes (settings excludingAsked (excludingWorld "<LovableButton/>").disk) = true ∧
      unknownUnder (IgnoreRule.ofPatterns ["src"]) (excludingWorld "<LovableButton/>").disk (ofString "project") =
        true ∧
      (exec (call [] excludingTexts) (excludingWorld "<LovableButton/>")).2.calls ≠ [] :=
  ⟨rfl, by decide +kernel, by decide +kernel, by decide +kernel⟩

end CommandLine
end Refit
