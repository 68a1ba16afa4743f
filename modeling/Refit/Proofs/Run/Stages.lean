import Refit.Proofs.Run.Steps

/-!
The kinds of steps that each stage of a run can take. Every file is made in the same way: its content is
made, a path is claimed for it, and it is stored there and counted.
-/

namespace Refit

open Output

/-- What a file of the output is made from. -/
inductive Role where
  | component
  | test
  | story
  | page
  | style
  | asset
  | configuration
  deriving DecidableEq

namespace Role

/-- How a file is counted. Stories and assets are not. -/
def tally : Role → Changes → Changes
  | component, changes => { changes with components := changes.components + 1 }
  | test, changes => { changes with tests := changes.tests + 1 }
  | page, changes => { changes with pages := changes.pages + 1 }
  | style, changes => { changes with styles := changes.styles + 1 }
  | configuration, changes => { changes with configurations := changes.configurations + 1 }
  | story, changes | asset, changes => changes

def isUnit : Role → Bool
  | component | page => true
  | _ => false

def isListed : Role → Bool
  | component | page | asset => true
  | _ => false

def operation : Role → FileOperation
  | asset => .copyFile
  | _ => .writeText

end Role

namespace Stage

def complain (role : Role) (file kind : String) (fault : Fault) : Stage Unit :=
  if role.isUnit then unitProblem file kind fault else problem file kind fault

theorem complain_eq_problem {role : Role} (plain : role.isUnit = false) (file kind : String) :
    complain role file kind = problem file kind := by
  funext fault
  simp [complain, plain]

def deliver (role : Role) (file : String) (requested : Path) (call : Path → Call) : Stage (Option Path) := do
  let target ← claim requested file
  if ← attemptFiles (store (call target)) (complain role file "write") then
    migrated target
    change (·.countChange role.tally)
    pure (some target)
  else pure none

def convey (role : Role) (file : String) (requested : Path) (make : Stage String) : Stage (Option Path) := do
  match ← attempt make (complain role file "transform") with
  | none => pure none
  | some content => deliver role file requested (fun target => .write target content)

end Stage

/-- A file to be made, one to be written or copied, or one that is passed over. -/
inductive Chore where
  | make (role : Role) (file : String) (requested : Path) (work : Disk → Report String)
  | write (warning : Option Notice) (role : Role) (file : String) (requested : Path) (content : String)
  | copy (file : String) (requested source : Path)
  | skip (file : String)

/-- A part of the migration stage: a file and what follows it once it is delivered, or files that are found
    together. -/
inductive Work where
  | single (chore : Chore) (followers : Path → List Chore)
  | batch (role : Role) (place : String) (first : Report (List (String × String)))
      (second : Disk → List (String × String) → Report (List CarriedStyle))
      (chores : List (String × String) → List CarriedStyle → List Chore)

open Stage

def Chore.run : Chore → Stage (Option Path)
  | make role file requested work => convey role file requested (do report (work (← disk)))
  | write none role file requested content => deliver role file requested (.write · content)
  | write (some notice) role file requested content => do
    warn notice
    deliver role file requested (.write · content)
  | copy file requested source => deliver .asset file requested (.copy source)
  | skip file => do
    change (fun outcome => { outcome with skippedFiles := outcome.skippedFiles ++ [file] })
    pure none

def Chore.runAll (chores : List Chore) : Stage Unit := chores.forM (fun chore => do let _ ← chore.run)

/-- Two reports, the second one about the disk that the first one has left. -/
def Stage.reports {α β : Type} (first : Report α) (second : Disk → α → Report β) : Stage (α × β) := do
  let value ← report first
  let other ← report (second (← disk) value)
  pure (value, other)

namespace Work

def run : Work → Stage Unit
  | single chore followers => do
    match ← chore.run with
    | none => pure ()
    | some target => Chore.runAll (followers target)
  | batch role place first second chores => do
    match ← attempt (reports first second) (complain role place "transform") with
    | none => pure ()
    | some (files, carried) => Chore.runAll (chores files carried)

variable (adapter : Adapter) (analysis : Analysis) (options : Options) (output : Path)

def wants (component : Component) (file : String) : Bool :=
  if component.story = some file then options.migrateStories else options.migrateTests

def companions (component : Component) (owner : Path) : List Chore :=
  (component.tests ++ component.story.toList.filter (· ≠ "")).map (fun file =>
    if wants options component file then
      .make (if component.story = some file then .story else .test) file (companionPath owner file)
        (adapter.companion · file analysis)
    else .skip file)

def component (component : Component) : Work :=
  .single (.make .component component.path (componentPath output component analysis options)
    (adapter.component · component analysis)) (companions adapter analysis options component)

def page (page : Page) : Work :=
  .single (.make .page page.path (pagePath output page analysis options) (adapter.page · page analysis)) (fun _ => [])

def style (warning : Option Notice) (name content file : String) : Chore :=
  .write warning .style file (under output ["src", "styles", name]) content

def carried (style : CarriedStyle) : Chore :=
  let own := (Path.ofString style.source).name
  Work.style output
    (if style.name ≠ own then
      some
        { file := style.source
          kind := "compatibility"
          message := "Style file " ++ own ++ " clashes with a generated file; writing " ++ style.name ++ " instead" }
    else none) style.name style.content style.source

def styles : Work :=
  .batch .style (stylesPlace analysis) (adapter.styles analysis.styling analysis)
    (adapter.carriedStyles · analysis.styling analysis)
    (fun files others => files.map (fun file => style output none file.1 file.2 file.1) ++ others.map (carried output))

def asset (asset : Asset) : Work :=
  .single (.copy asset.path (assetPath output asset analysis.layout.publicDir)
    ((Path.ofString analysis.root).join (Path.ofString asset.path))) (fun _ => [])

def configuration : Work :=
  .batch .configuration "configuration" (adapter.configuration analysis) (fun _ _ => pure [])
    (fun files _ => files.map (fun file => .write none .configuration file.1 (under output [file.1]) file.2))

/-- The works of a migration stage, in their order. -/
def all : List Work :=
  analysis.components.map (component adapter analysis options output)
    ++ (analysis.pages.map (page adapter analysis options output)
      ++ (styles adapter analysis output :: (analysis.assets.map (asset analysis output)
        ++ [configuration adapter analysis output])))

end Work

namespace Event

def validates : Event → Prop
  | logged | chosen => True
  | _ => False

def analyzes : Event → Prop
  | logged | analyzed => True
  | _ => False

def backsUp (start : Session) : Event → Prop
  | logged | timed => True
  | backedUp path | failed (.backUp _ path) => ∃ moment, path = Stage.backupPath start moment
  | _ => False

def setsUp : Event → Prop
  | made _ | failed (.makeDirectory _) => True
  | _ => False

def migrates : Event → Prop
  | logged | claimed | problem | unitProblem | warned | skipped | changed | delivered _ | pretended _ => True
  | failed call => call.creates = true
  | _ => False

def artifactPlaces : List (List String) :=
  ["package.json"] :: Output.locales.map (fun locale => ["src", "locales", locale ++ ".json"])
    ++ [["docs", "COMPLIANCE.md"], ["README.md"]]

/-- The call writes a file that belongs to the output as a whole. -/
def IsArtifact (output : Path) (call : Call) : Prop :=
  ∃ names ∈ artifactPlaces, ∃ content, call = .write (output.below names) content

def finalizes (output : Path) : Event → Prop
  | logged | timed | problem | counted => True
  | added call | failed call => IsArtifact output call
  | _ => False

end Event

namespace Session

variable {s t : Session} {event : Event}

/-- The parts of a session that no step of the migration stage changes. -/
structure SameTask (s t : Session) : Prop extends SameRun s t where
  adapter : t.adapter = s.adapter
  analysis : t.outcome.analysis = s.outcome.analysis

theorem SameTask.refl (s : Session) : SameTask s s := ⟨.refl s, rfl, rfl⟩

theorem SameTask.trans {u : Session} (first : SameTask s t) (second : SameTask t u) : SameTask s u :=
  ⟨first.toSameRun.trans second.toSameRun, second.adapter.trans first.adapter,
    second.analysis.trans first.analysis⟩

theorem Trace.sameTask (trace : Trace Event.migrates s t) : SameTask s t := by
  induction trace with
  | refl => exact .refl s
  | tail _ last ih =>
    obtain ⟨_, migrates, step⟩ := last
    refine ih.trans ⟨step.sameRun, ?_, ?_⟩ <;> cases step <;> first | rfl | cases migrates

end Session

namespace Stage

open Session Event

variable {α β : Type} {s : Session} {allowed : Event → Prop} {start : Session} {requested : Path} {file : String} {role : Role}
  {step other : Stage α}

theorem validate_traces : Traces validates validate s := by
  refine traces_get_bind ?_
  split
  · refine traces_bind (traces_report trivial _) (fun found after _ => ?_)
    split
    · exact .of_step (.chosen after _) trivial
    · exact traces_throw _
  · refine traces_bind (traces_report trivial _) (fun found after _ => ?_)
    split
    · exact traces_pure _
    · exact traces_throw _

theorem analyze_traces : Traces analyzes analyze s := by
  refine traces_get_bind ?_
  refine traces_bind traces_adapter (fun adapter after _ => ?_)
  refine traces_bind (traces_report trivial _) (fun analysis after _ => ?_)
  exact .of_step (.analyzed after analysis) trivial

theorem exec_makeDirectory (path : Path) (s : Session) :
    exec (makeDirectory path) s =
      (((Call.makeDirectory path).perform s.world).1, { s with world := ((Call.makeDirectory path).perform s.world).2 }) :=
  exec_perform (.makeDirectory path) s

theorem traces_makeDirectory (real : s.options.dryRun = false) (makes : ∀ path, allowed (.made path))
    (fails : ∀ path, allowed (.failed (.makeDirectory path))) (path : Path) :
    Traces allowed (makeDirectory path) s := by
  unfold Traces
  rw [exec_makeDirectory]
  rcases run : (Call.makeDirectory path).perform s.world with ⟨outcome, world⟩
  cases outcome with
  | ok => exact .of_step (.made s path real run) (makes path)
  | error fault => exact .of_step (.failed s _ real run) (fails path)

theorem exec_looksPopulated (path : Path) (s : Session) :
    exec (looksPopulated path) s = (s.world.blind.elim (.ok (isPopulated s.world.disk path)) .error, s) := by
  rw [looksPopulated, exec_get_bind]
  cases s.world.blind <;> rfl

theorem setup_traces : Traces setsUp setup s := by
  refine traces_get_bind ?_
  have looked : Traces setsUp (looksPopulated s.output) s := by
    unfold Traces
    rw [exec_looksPopulated]
    exact .refl
  refine traces_bind looked (fun populated after same => ?_)
  refine traces_ite (traces_throw _) ?_
  split
  · exact traces_pure _
  · next wet =>
      have real : s.options.dryRun = false := by simpa using wet
      refine traces_forM (fun path _ later next => ?_)
      exact traces_makeDirectory (by rw [next.options, same.options, real]) (fun _ => trivial) (fun _ => trivial) path

theorem backsUp_of_sameRun (same : SameRun start s) {event : Event} (is : event.backsUp s) :
    event.backsUp start := by
  unfold backsUp backupPath at is ⊢
  rwa [same.source, same.output] at is

theorem traces_backUp (same : SameRun start s) (real : s.options.dryRun = false) (moment : Moment) :
    Traces (backsUp start) (do
      perform .copyTree (backupPath start moment) (DiskAction.copyTree start.source (backupPath start moment))
      modify (fun session =>
        { session with
          rollback := { session.rollback with backupPath := (backupPath start moment).toString } })
      note .info part
        ("Backed up " ++ start.source.toString ++ " to " ++ (backupPath start moment).toString)
      pure (some (backupPath start moment))) s := by
  rw [← same.source]
  have performed := exec_perform (.backUp s.source (backupPath start moment)) s
  simp only [Call.operation, Call.path, Call.action] at performed
  unfold Traces
  rw [exec_bind, performed]
  rcases run : (Call.backUp s.source (backupPath start moment)).perform s.world with ⟨outcome, world⟩
  cases outcome with
  | ok =>
    exact (Trace.of_step (.backedUp s _ real run) ⟨moment, rfl⟩).trans
      (Trace.of_step (.logged _ _) trivial)
  | error fault => exact .of_step (.failed s _ real run) ⟨moment, rfl⟩

theorem backup_traces (same : SameRun start s) : Traces (backsUp start) backup s := by
  refine Trace.mono ?_ (fun _ => backsUp_of_sameRun same)
  refine traces_get_bind ?_
  split
  · exact traces_pure _
  · next wanted =>
      have real : s.options.dryRun = false := by
        cases mode : s.options.dryRun with
        | false => rfl
        | true => simp [mode] at wanted
      refine traces_bind (traces_now trivial) (fun moment after same => ?_)
      exact traces_backUp same (by rw [same.options, real]) moment

theorem complain_traces (role : Role) (file kind : String) (fault : Fault) :
    Traces migrates (complain role file kind fault) s :=
  traces_ite (traces_unitProblem trivial trivial trivial _ _ _) (traces_problem trivial trivial _ _ _)

theorem deliver_traces {call : Path → Call}
    (makes : ∀ target, (call target).creates = true ∧ (call target).path = target) :
    Traces migrates (deliver role file requested call) s := by
  refine traces_bind (traces_claim trivial trivial trivial _ _) (fun target after _ => ?_)
  obtain ⟨creates, path⟩ := makes target
  exact traces_deliver (call target) creates path trivial creates trivial (fun _ _ => complain_traces _ _ _ _)
    (fun after => traces_bind (.of_step (.changed after _) trivial) (fun _ _ _ => traces_pure _))
    (fun _ => traces_pure _)

theorem convey_traces {make : Stage String}
    (makes : Traces migrates make s) : Traces migrates (convey role file requested make) s := by
  refine traces_bind (traces_attempt makes (fun _ _ => complain_traces _ _ _ _)) (fun found _ _ => ?_)
  split
  · exact traces_pure _
  · exact deliver_traces (fun _ => ⟨rfl, rfl⟩)

theorem chore_traces (chore : Chore) : Traces migrates chore.run s := by
  cases chore with
  | make => exact convey_traces (traces_get_bind (traces_report trivial _))
  | write warning =>
    cases warning with
    | none => exact deliver_traces (fun _ => ⟨rfl, rfl⟩)
    | some notice =>
      exact traces_bind (traces_warn trivial trivial notice) (fun _ _ _ => deliver_traces (fun _ => ⟨rfl, rfl⟩))
  | copy => exact deliver_traces (fun _ => ⟨rfl, rfl⟩)
  | skip file => exact traces_bind (.of_step (.skipped s file) trivial) (fun _ _ _ => traces_pure _)

theorem chore_keeps (chore : Chore) (s : Session) : Traces migrates (do let _ ← chore.run) s :=
  traces_bind (chore_traces chore) (fun _ _ _ => traces_pure _)

theorem runAll_traces (chores : List Chore) : Traces migrates (Chore.runAll chores) s :=
  traces_forM (fun chore _ after _ => chore_keeps chore after)

theorem reports_traces (first : Report α) (second : Disk → α → Report β) : Traces migrates (reports first second) s :=
  traces_bind (traces_report trivial _) (fun _ _ _ => traces_get_bind
    (traces_bind (traces_report trivial _) (fun _ _ _ => traces_pure _)))

theorem work_traces (work : Work) : Traces migrates work.run s := by
  cases work with
  | single chore followers =>
    refine traces_bind (chore_traces chore) (fun result _ _ => ?_)
    cases result with
    | none => exact traces_pure _
    | some target => exact runAll_traces _
  | batch role place first second chores =>
    refine traces_bind (traces_attempt (reports_traces first second) (fun _ _ => complain_traces _ _ _ _)) (fun result _ _ => ?_)
    cases result with
    | none => exact traces_pure _
    | some both => exact runAll_traces _

theorem exec_report (work : Report α) (s : Session) :
    exec (report work) s = ((exec work []).1, { s with world := s.world.noteAll (exec work []).2 }) :=
  exec_lift _ s

theorem exec_adapter (s : Session) : exec adapter s = (s.adapter.elim (.error .noAdapter) .ok, s) := by
  rw [adapter, exec_get_bind]
  cases s.adapter <;> rfl

theorem exec_analysis (s : Session) :
    exec analysis s = (s.outcome.analysis.elim (.error .notAnalyzed) .ok, s) := by
  rw [analysis, exec_get_bind]
  cases s.outcome.analysis <;> rfl

/-- Two steps come to the same as long as the task is the same. -/
def Same (start : Session) (step other : Stage α) : Prop := ∀ s, SameTask start s → exec step s = exec other s

theorem same_bind {next further : α → Stage β} (first : Same start step other)
    (keeps : ∀ s, Traces migrates other s) (second : ∀ value, Same start (next value) (further value)) :
    Same start (step >>= next) (other >>= further) := by
  intro s task
  have kept : Trace migrates s (exec other s).2 := keeps s
  rw [exec_bind, exec_bind, first s task]
  rcases run : exec other s with ⟨outcome, after⟩
  rw [run] at kept
  cases outcome with
  | ok value => exact second value after (task.trans kept.sameTask)
  | error fault => rfl

section

variable {run : α → Stage Unit} (keeps : ∀ item s, Traces migrates (run item) s)
include keeps

theorem same_forM {items : List β} {f : β → Stage Unit} {g : β → α}
    (each : ∀ item ∈ items, Same start (f item) (run (g item))) : Same start (items.forM f) ((items.map g).forM run) := by
  induction items with
  | nil => exact fun _ _ => rfl
  | cons item rest ih =>
    exact same_bind (each item (by simp)) (keeps _) (fun _ => ih (fun other member => each other (by simp [member])))

theorem same_append {first second : Stage Unit} {items others : List α} (one : Same start first (items.forM run))
    (two : Same start second (others.forM run)) : Same start (do first; second) ((items ++ others).forM run) := by
  have parts : (items ++ others).forM run = (do items.forM run; others.forM run) := List.forM_append
  rw [parts]
  exact same_bind one (fun _ => traces_forM (fun item _ after _ => keeps item after)) (fun _ => two)

end

theorem deliver_bind {call : Path → Call} {next : Option Path → Stage β} {rest : Path → Bool → Stage β}
    (stored : ∀ target, rest target true = (do
      migrated target
      change (·.countChange role.tally)
      next (some target))) (failed : ∀ target, rest target false = next none) :
    deliver role file requested call >>= next = (do
      let target ← claim requested file
      rest target (← attemptFiles (store (call target)) (complain role file "write"))) := by
  unfold deliver
  simp only [bind_assoc]
  refine bind_congr (fun target => bind_congr (fun done => ?_))
  cases done with
  | true => simp only [stored, if_true, bind_assoc, pure_bind]
  | false => simp only [failed, Bool.false_eq_true, if_false, pure_bind]

theorem exec_convey_bind {make other : Stage String} {next : Option Path → Stage β} {rest : Option String → Stage β}
    (same : exec make s = exec other s) (none : next none = rest none)
    (some : ∀ content, deliver role file requested (.write · content) >>= next = rest (some content)) :
    exec (convey role file requested make >>= next) s =
      exec (attempt other (complain role file "transform") >>= rest) s := by
  have attempted : exec (attempt make (complain role file "transform")) s =
      exec (attempt other (complain role file "transform")) s := by
    rw [attempt, attempt, exec_tryCatch, exec_tryCatch, exec_bind, exec_bind, same]
  rw [convey, bind_assoc, exec_bind, exec_bind, attempted]
  rcases exec (attempt other (complain role file "transform")) s with ⟨(fault | (_ | content)), after⟩
  · rfl
  · exact congrArg (exec · after) none
  · exact congrArg (exec · after) (some content)

theorem writeStyle_same (name content file : String) :
    Same start (writeStyle name content file) (do let _ ← (Work.style start.output none name content file).run) := by
  intro s task
  rw [writeStyle, exec_get_bind, task.output]
  refine Eq.symm (congrArg (exec · s) ?_)
  exact deliver_bind (fun _ => rfl) (fun _ => rfl)

theorem carryStyle_same (style : CarriedStyle) :
    Same start (carryStyle style) (do let _ ← (Work.carried start.output style).run) := by
  unfold carryStyle Work.carried
  dsimp only
  split
  · exact same_bind (fun _ _ => rfl) (fun _ => traces_warn trivial trivial _) (fun _ => writeStyle_same _ _ _)
  · exact writeStyle_same _ _ _

theorem writeConfiguration_same (name content : String) :
    Same start (writeConfiguration name content) (do
      let _ ← (Chore.write none .configuration name (under start.output [name]) content).run) := by
  intro s task
  rw [writeConfiguration, exec_get_bind, task.output]
  refine Eq.symm (congrArg (exec · s) ?_)
  exact deliver_bind (fun _ => rfl) (fun _ => rfl)

theorem migrateAsset_same {found : Analysis} (known : start.outcome.analysis = some found) (asset : Asset) :
    Same start (migrateAsset asset) (Work.asset found start.output asset).run := by
  intro s task
  rw [migrateAsset, exec_bind, exec_analysis, task.analysis, known]
  change exec (get >>= _) s = _
  rw [exec_get_bind, task.output]
  refine Eq.symm (congrArg (exec · s) ?_)
  exact deliver_bind (fun _ => rfl) (fun _ => rfl)

section

variable {chosen : Adapter} {found : Analysis} (worker : start.adapter = some chosen)
  (known : start.outcome.analysis = some found)
include worker known

theorem same_known {next : Adapter → Analysis → Stage β} {other : Stage β} (rest : Same start (next chosen found) other) :
    Same start (do next (← adapter) (← analysis)) other := by
  intro s task
  rw [exec_bind, exec_adapter, task.adapter, worker]
  change exec (analysis >>= _) s = _
  rw [exec_bind, exec_analysis, task.analysis, known]
  exact rest s task

theorem migrateCompanion_same (companion : String) (owner : Path) (isTest : Bool) :
    Same start (migrateCompanion companion owner isTest) (do
      let _ ← (Chore.make (if isTest then .test else .story) companion (companionPath owner companion)
        (chosen.companion · companion found)).run) := by
  intro s task
  have knownHere : s.outcome.analysis = some found := task.analysis.trans known
  have made : exec (do report (chosen.companion (← disk) companion found)) s =
      exec (do report (chosen.companion (← disk) companion (← analysis))) s := by
    change exec (report (chosen.companion s.world.disk companion found)) s =
      exec (analysis >>= fun found => report (chosen.companion s.world.disk companion found)) s
    rw [exec_bind analysis, exec_analysis, knownHere]
    rfl
  rw [migrateCompanion, exec_bind, exec_adapter, task.adapter, worker]
  refine Eq.symm ?_
  -- a failed companion costs no unit, whether it is a test or a story
  cases isTest
  all_goals
    refine exec_convey_bind made ?_ (fun content => ?_)
    · rfl
    · exact deliver_bind (fun _ => rfl) (fun _ => rfl)

theorem migrateCompanions_same (component : Component) (owner : Path) :
    Same start (migrateCompanions component owner)
      (Chore.runAll (Work.companions chosen found start.options component owner)) := by
  intro s task
  rw [migrateCompanions, exec_bind, exec_options, task.options]
  refine same_forM chore_keeps (fun companion _ => ?_) s task
  by_cases story : component.story = some companion
  all_goals
    simp only [Work.wants, story, if_true, if_false, decide_true, decide_false, Bool.false_eq_true]
    split
    · exact migrateCompanion_same worker known companion owner _
    · exact fun _ _ => rfl

theorem migrateComponent_same (component : Component) :
    Same start (migrateComponent component) (Work.component chosen found start.options start.output component).run := by
  have followed : Same start (do
      match ← (Chore.make .component component.path (componentPath start.output component found start.options)
          (chosen.component · component found)).run with
      | none => pure ()
      | some target => migrateCompanions component target)
      (Work.component chosen found start.options start.output component).run := by
    refine same_bind (fun _ _ => rfl) (fun _ => chore_traces _) (fun result => ?_)
    cases result with
    | none => exact fun _ _ => rfl
    | some target => exact migrateCompanions_same worker known component target
  refine same_known worker known (fun s task => Eq.trans (Eq.symm ?_) (followed s task))
  rw [exec_get_bind, task.options, task.output]
  refine exec_convey_bind ?_ ?_ (fun content => ?_)
  · rfl
  · rfl
  · exact deliver_bind (fun _ => rfl) (fun _ => rfl)

theorem migratePage_same (page : Page) :
    Same start (migratePage page) (Work.page chosen found start.options start.output page).run := by
  refine same_known worker known (fun s task => Eq.symm ?_)
  rw [← task.options, ← task.output, exec_get_bind]
  refine exec_convey_bind ?_ ?_ (fun content => ?_)
  · rfl
  · rfl
  · exact deliver_bind (fun _ => rfl) (fun _ => rfl)

theorem migrateStyles_same : Same start migrateStyles (Work.styles chosen found start.output).run := by
  refine same_known worker known (same_bind (fun _ _ => rfl) (fun _ => ?_) (fun result => ?_))
  · exact traces_attempt (reports_traces _ _) (fun _ _ => complain_traces _ _ _ _)
  · cases result with
    | none => exact fun _ _ => rfl
    | some both =>
      exact same_append chore_keeps (same_forM chore_keeps (fun file _ => writeStyle_same file.1 file.2 file.1))
        (same_forM chore_keeps (fun style _ => carryStyle_same style))

theorem migrateConfiguration_same :
    Same start migrateConfiguration (Work.configuration chosen found start.output).run := by
  intro s task
  rcases made : exec (chosen.configuration found) [] with ⟨outcome, records⟩
  have plain : exec (do report (chosen.configuration (← analysis))) s =
      (outcome, { s with world := s.world.noteAll records }) := by
    rw [exec_bind, exec_analysis, task.analysis, known]
    exact (exec_report _ s).trans (by rw [made])
  have paired : exec (reports (chosen.configuration found) (fun _ _ => pure ([] : List CarriedStyle))) s =
      (outcome.map (·, []), { s with world := s.world.noteAll records }) := by
    rw [reports, exec_bind, exec_report, made]
    cases outcome <;> rfl
  rw [migrateConfiguration, exec_bind, exec_adapter, task.adapter, worker]
  change exec (attempt _ _ >>= _) s = exec (attempt _ _ >>= _) s
  rw [exec_bind, exec_bind]
  cases outcome with
  | error fault =>
    rw [exec_attempt_error _ plain, exec_attempt_error _ paired]
    rfl
  | ok files =>
    rw [exec_attempt_ok _ plain, exec_attempt_ok _ paired]
    exact same_forM chore_keeps (fun file _ => writeConfiguration_same file.1 file.2) _
      (task.trans ⟨⟨rfl, rfl, rfl, rfl, rfl⟩, rfl, rfl⟩)

theorem migrate_same : Same start migrate ((Work.all chosen found start.options start.output).forM Work.run) := by
  have keeps (work : Work) (s : Session) : Traces migrates work.run s := work_traces work
  have components : Same start migrateComponents
      ((found.components.map (Work.component chosen found start.options start.output)).forM Work.run) :=
    same_known worker known (same_forM keeps (fun component _ => migrateComponent_same worker known component))
  have pages : Same start migratePages
      ((found.pages.map (Work.page chosen found start.options start.output)).forM Work.run) :=
    same_known worker known (same_forM keeps (fun page _ => migratePage_same worker known page))
  have assets : Same start migrateAssets ((found.assets.map (Work.asset found start.output)).forM Work.run) := by
    intro s task
    rw [migrateAssets, exec_bind, exec_analysis, task.analysis, known]
    exact same_forM keeps (fun asset _ => migrateAsset_same known asset) s task
  have last : Same start migrateConfiguration ([Work.configuration chosen found start.output].forM Work.run) := by
    change Same start _ (_ >>= fun _ => pure ())
    rw [bind_pure_unit]
    exact migrateConfiguration_same worker known
  exact same_append keeps components (same_append keeps pages (same_bind (migrateStyles_same worker known)
    (fun _ => work_traces _) (fun _ => same_append keeps assets last)))

end

/-- The migration stage does its works one after the other, if it knows them. -/
theorem exec_migrate (s : Session) :
    exec migrate s = match s.adapter, s.outcome.analysis with
      | some worker, some found => exec ((Work.all worker found s.options s.output).forM Work.run) s
      | some _, none => (.error .notAnalyzed, s)
      | none, _ => (.error .noAdapter, s) := by
  cases worker : s.adapter with
  | none => simp [migrate, migrateComponents, exec_bind, exec_adapter, worker]
  | some chosen =>
    cases known : s.outcome.analysis with
    | none => simp [migrate, migrateComponents, exec_bind, exec_adapter, exec_analysis, worker, known]
    | some found => exact migrate_same worker known s (.refl s)

theorem migrate_traces : Traces migrates migrate s := by
  unfold Traces
  rw [exec_migrate]
  split
  · exact traces_forM (fun work _ _ _ => work_traces work)
  · exact .refl
  · exact .refl

end Stage
end Refit
