import Refit.Proofs.Output.Placement

/-!
Runs with faults: components and pages that cannot be made, and destinations that nothing can be
stored to. The files that a migration stage is to make are known before the stage begins, and so is what
faults make of them.
-/

namespace Refit

variable {path : Path} {content : List UInt8}

/-- What can go wrong in a run: with a component or a page, and at a destination. -/
structure Faults where
  component : Component → Option Fault
  page : Page → Option Fault
  refuses : Path → Bool

def Faults.none : Faults := ⟨fun _ => .none, fun _ => .none, fun _ => false⟩

def FileOperation.stores : FileOperation → Bool
  | writeText | copyFile => true
  | ensureDirectory | copyTree | removeFile => false

def Adapter.failing (faults : Faults) (adapter : Adapter) : Adapter :=
  { adapter with
    component := fun disk component analysis =>
      match faults.component component with
      | some fault => throw fault
      | .none => adapter.component disk component analysis
    page := fun disk page analysis =>
      match faults.page page with
      | some fault => throw fault
      | .none => adapter.page disk page analysis }

def World.failing (faults : Faults) (world : World) : World :=
  { world with
    refuses := fun operation path => world.refuses operation path || operation.stores && faults.refuses path }

/-- The session of a run with faults that has come as far as one without them. -/
def Session.failing (faults : Faults) (session : Session) : Session :=
  { session with
    adapter := session.adapter.map (Adapter.failing faults)
    candidates := session.candidates.map (Adapter.failing faults)
    world := session.world.failing faults }

def Migration.failing (faults : Faults) (migration : Migration) : Migration :=
  { migration with
    adapter := migration.adapter.map (Adapter.failing faults)
    candidates := migration.candidates.map (Adapter.failing faults) }

theorem Adapter.failing_none (adapter : Adapter) : adapter.failing .none = adapter := rfl

theorem Session.failing_none (session : Session) : session.failing .none = session := by
  have world : session.world.failing .none = session.world := by simp [World.failing, Faults.none]
  have same : (Adapter.failing .none : Adapter → Adapter) = id := funext Adapter.failing_none
  simp [Session.failing, world, same]

theorem Migration.session_failing {migration : Migration} {source : String} {texts : List ExtractedText} {world : World}
    {session : Session} (faults : Faults) (begins : migration.session source texts world = .ok session) :
    (migration.failing faults).session source texts (world.failing faults) = .ok (session.failing faults) := by
  obtain ⟨sourcePath, outputPath, sourceFound, outputFound, rfl⟩ := session_eq_ok begins
  have there : (world.failing faults).disk = world.disk := rfl
  have options : (migration.failing faults).options = migration.options := rfl
  rw [Migration.session, there, options, sourceFound, outputFound]
  rfl

namespace Stage

open Session

variable {α β : Type} {faults : Faults} {s : Session}

/-- A step comes to the same whether or not there are faults. -/
def Immune (faults : Faults) (step other : Stage α) (s : Session) : Prop :=
  exec other (s.failing faults) = ((exec step s).1, (exec step s).2.failing faults)

theorem immune_pure (value : α) : Immune faults (pure value) (pure value) s := rfl

theorem immune_throw (fault : Fault) : Immune faults (throw fault : Stage α) (throw fault) s := rfl

theorem immune_bind {step other : Stage α} {next further : α → Stage β} (first : Immune faults step other s)
    (second : ∀ value after, Immune faults (next value) (further value) after) :
    Immune faults (step >>= next) (other >>= further) s := by
  unfold Immune at first ⊢
  rw [exec_bind, exec_bind, first]
  rcases exec step s with ⟨outcome, after⟩
  cases outcome with
  | ok value => exact second value after
  | error fault => rfl

theorem immune_get_bind {next other : Session → Stage β} (second : Immune faults (next s) (other (s.failing faults)) s) :
    Immune faults (get >>= next) (get >>= other) s := by
  unfold Immune at second ⊢
  rwa [exec_get_bind]

theorem immune_forM {items : List α} {f : α → Stage Unit} (each : ∀ item after, Immune faults (f item) (f item) after) :
    Immune faults (items.forM f) (items.forM f) s := by
  induction items generalizing s with
  | nil => exact immune_pure ()
  | cons item rest ih => exact immune_bind (each item s) (fun _ _ => ih)

theorem failing_noteAll (world : World) (records : List Log.Record) :
    (world.failing faults).noteAll records = (world.noteAll records).failing faults := by
  induction records generalizing world with
  | nil => rfl
  | cons record rest ih => exact ih (world.note record)

theorem immune_note (level : Log.Level) (part message : String) :
    Immune faults (note level part message) (note level part message) s := rfl

theorem immune_report (work : Report α) : Immune faults (report work) (report work) s := by
  have there : (s.failing faults).world = s.world.failing faults := rfl
  unfold Immune
  rw [exec_report, exec_report, there, failing_noteAll]
  rfl

theorem immune_perform {operation : FileOperation} (other : operation.stores = false) (path : Path)
    (action : DiskAction Unit) :
    Immune faults (perform operation path action) (perform operation path action) s := by
  have same : World.perform operation path action (s.world.failing faults) =
      ((World.perform operation path action s.world).1, (World.perform operation path action s.world).2.failing faults) := by
    unfold World.perform World.failure
    simp only [World.failing, other, Bool.false_and, Bool.or_false]
    split
    · rfl
    · split <;> rfl
  have there : (s.failing faults).world = s.world.failing faults := rfl
  unfold Immune perform
  rw [exec_lift, exec_lift, there, same]
  rfl

theorem select_failing (disk : Disk) (project : Path) (candidates : List Adapter) (records : List Log.Record) :
    exec (select disk project (candidates.map (Adapter.failing faults))) records =
      ((exec (select disk project candidates) records).1.map (Option.map (Adapter.failing faults)),
        (exec (select disk project candidates) records).2) := by
  induction candidates generalizing records with
  | nil => rfl
  | cons adapter rest ih =>
    have recognised : (adapter.failing faults).recognises = adapter.recognises := rfl
    have described : (adapter.failing faults).description = adapter.description := rfl
    rw [List.map_cons, select, select, recognised, exec_bind, exec_bind]
    rcases exec (adapter.recognises disk project) records with ⟨outcome, later⟩
    cases outcome with
    | error fault => rfl
    | ok is =>
      cases is with
      | true => rfl
      | false => exact ih later

theorem validate_immune : Immune faults validate validate s := by
  refine immune_get_bind ?_
  cases known : s.adapter with
  | some adapter =>
    have failing : (s.failing faults).adapter = some (adapter.failing faults) := by simp [Session.failing, known]
    rw [failing]
    refine immune_bind (immune_report (adapter.recognises s.world.disk s.source)) (fun is after => ?_)
    cases is with
    | true => exact immune_pure ()
    | false => exact immune_throw _
  | none =>
    have failing : (s.failing faults).adapter = .none := by simp [Session.failing, known]
    rw [failing]
    have selected : exec (select (s.failing faults).world.disk (s.failing faults).source (s.failing faults).candidates)
        [] = _ := select_failing s.world.disk s.source s.candidates []
    have there : (s.failing faults).world = s.world.failing faults := rfl
    unfold Immune
    rw [exec_bind, exec_bind, exec_report, exec_report, selected, there]
    rcases exec (select s.world.disk s.source s.candidates) [] with ⟨outcome, records⟩
    rw [failing_noteAll]
    cases outcome with
    | error fault => rfl
    | ok found => cases found <;> rfl

theorem analyze_immune : Immune faults analyze analyze s := by
  refine immune_get_bind ?_
  unfold Immune
  rw [exec_bind, exec_bind, exec_adapter, exec_adapter]
  cases known : s.adapter with
  | none =>
    have failing : (s.failing faults).adapter = .none := by simp [Session.failing, known]
    rw [failing]
    rfl
  | some adapter =>
    have failing : (s.failing faults).adapter = some (adapter.failing faults) := by simp [Session.failing, known]
    rw [failing]
    have surveyed : Immune faults (report (adapter.analyze s.world.disk s.source s.texts))
        (report (adapter.analyze s.world.disk s.source s.texts)) s := immune_report _
    exact immune_bind surveyed (fun _ _ => rfl)

theorem backup_immune : Immune faults backup backup s := by
  refine immune_get_bind ?_
  have options : (s.failing faults).options = s.options := rfl
  rw [options]
  split
  · exact immune_pure _
  · refine @immune_bind _ _ faults s now now _ _ rfl (fun moment after => ?_)
    exact immune_bind (immune_perform rfl _ _) (fun _ _ => immune_bind rfl (fun _ _ => immune_bind rfl (fun _ _ => rfl)))

theorem setup_immune : Immune faults setup setup s := by
  refine immune_get_bind ?_
  have same : (s.failing faults).output = s.output ∧ (s.failing faults).options = s.options := ⟨rfl, rfl⟩
  rw [same.2]
  have looked : Immune faults (looksPopulated s.output) (looksPopulated s.output) s := by
    unfold Immune
    rw [exec_looksPopulated, exec_looksPopulated]
    rfl
  refine immune_bind looked (fun populated after => ?_)
  split
  · exact immune_throw _
  · split
    · exact immune_pure _
    · exact immune_forM (fun _ _ => immune_perform rfl _ _)

end Stage

namespace Migration

open Session Stage

variable {faults : Faults} {observer : Option Observer} {s : Session}

theorem announced_immune {total number : Nat} {stage : NamedStage}
    (immune : ∀ after, Immune faults stage.run stage.run after) :
    Immune faults (announced observer total number stage) (announced observer total number stage) s := by
  unfold announced
  split
  · exact immune_throw _
  · exact immune_bind (immune_note _ _ _) (fun _ after => immune after)

theorem inTurn_immune {total number : Nat} {list : List NamedStage}
    (immune : ∀ stage ∈ list, ∀ after, Immune faults stage.run stage.run after) :
    Immune faults (inTurn observer total number list) (inTurn observer total number list) s := by
  induction list generalizing number s with
  | nil => exact immune_pure ()
  | cons stage rest ih =>
    exact immune_bind (announced_immune (immune stage (by simp)))
      (fun _ _ => ih (fun other member => immune other (by simp [member])))

theorem laid_failing (faults : Faults) (observer : Option Observer) (session : Session) :
    laid observer (session.failing faults) =
      ((laid observer session).1, (laid observer session).2.failing faults) := by
  have begins : begun (session.failing faults) = (begun session).failing faults := rfl
  have immune : Immune faults (inTurn observer stages.length 1 (stages.take 4))
      (inTurn observer stages.length 1 (stages.take 4)) (begun session) := by
    refine inTurn_immune (fun stage member after => ?_)
    simp only [stages, List.take, List.mem_cons, List.not_mem_nil, or_false] at member
    rcases member with rfl | rfl | rfl | rfl
    · exact validate_immune
    · exact analyze_immune
    · exact immune_bind backup_immune (fun _ _ => immune_pure ())
    · exact setup_immune
  unfold laid
  exact immune

end Migration

open Output

/-- What a file is made from. -/
inductive Subject where
  | component (component : Component)
  | page (page : Page)
  | other (role : Role)

def Subject.role : Subject → Role
  | component _ => .component
  | page _ => .page
  | other role => role

def Faults.raised (faults : Faults) : Subject → Option Fault
  | .component component => faults.component component
  | .page page => faults.page page
  | .other _ => Option.none

/-- A file to be made, with the path and the content that it is to have, unless it cannot be made. -/
structure Draft where
  subject : Subject
  file : String
  made : Except Fault (Path × List UInt8)

namespace Draft

variable {faults : Faults} {draft : Draft}

/-- Where a file goes if there are no faults. -/
def path? (draft : Draft) : Option Path := draft.made.toOption.map Prod.fst

/-- A fault hits a file: what it is made from, or its destination. -/
def isHit (faults : Faults) (draft : Draft) : Bool :=
  (faults.raised draft.subject).isSome || draft.path?.any faults.refuses

/-- What a file comes to before it is stored. -/
def making (faults : Faults) (draft : Draft) : Except Fault (Path × List UInt8) :=
  match faults.raised draft.subject with
  | some fault => .error fault
  | none => draft.made

def claimed? (faults : Faults) (draft : Draft) : Option Path := (draft.making faults).toOption.map Prod.fst

def delivered? (faults : Faults) (draft : Draft) : Option Path := (draft.claimed? faults).filter (!faults.refuses ·)

/-- What is recorded when a file fails. -/
def problem? (faults : Faults) (draft : Draft) : Option Problem :=
  match draft.making faults with
  | .error fault => some ⟨draft.file, "transform", fault⟩
  | .ok (path, _) =>
    if faults.refuses path then some ⟨draft.file, "write", .file (.diskFull path.name)⟩ else none

theorem making_ok (made : draft.making faults = .ok (path, content)) :
    faults.raised draft.subject = none ∧ draft.made = .ok (path, content) := by
  unfold making at made
  split at made
  · cases made
  · next calm => exact ⟨calm, made⟩

theorem making_none (draft : Draft) : draft.making .none = draft.made := by
  unfold making
  cases draft.subject <;> rfl

theorem path?_of_claimed (claimed : draft.claimed? faults = some path) : draft.path? = some path := by
  obtain ⟨⟨given, content⟩, made, rfl⟩ := Option.map_eq_some_iff.1 claimed
  cases known : draft.making faults with
  | error fault => simp [known, Except.toOption] at made
  | ok pair =>
    obtain rfl : pair = (given, content) := by simpa [known, Except.toOption] using made
    rw [path?, (making_ok known).2]
    rfl

theorem delivered?_eq (faults : Faults) (draft : Draft) :
    draft.delivered? faults = if draft.isHit faults then none else draft.path? := by
  unfold delivered? claimed? isHit making path?
  cases faults.raised draft.subject with
  | some fault => simp [Except.toOption]
  | none =>
    cases draft.made with
    | error fault => simp [Except.toOption]
    | ok pair => cases refused : faults.refuses pair.1 <;> simp [Except.toOption, refused]

theorem isHit_none (draft : Draft) : draft.isHit .none = false := by
  unfold isHit
  cases draft.subject <;> cases draft.path? <;> rfl

theorem problem?_of_hit (hit : draft.isHit faults = true) :
    ∃ problem, draft.problem? faults = some problem ∧ problem.file = draft.file ∧
      problem.kind = if (faults.raised draft.subject).isSome then "transform" else "write" := by
  unfold problem? making
  unfold isHit path? at hit
  cases raised : faults.raised draft.subject with
  | some fault => exact ⟨⟨draft.file, "transform", fault⟩, rfl, rfl, rfl⟩
  | none =>
    cases made : draft.made with
    | error fault => simp [raised, made, Except.toOption] at hit
    | ok pair =>
      have refused : faults.refuses pair.1 = true := by simpa [raised, made, Except.toOption] using hit
      exact ⟨⟨draft.file, "write", .file (.diskFull pair.1.name)⟩, by simp [refused], rfl, rfl⟩

end Draft

/-- A file to be made, and the file that has to be delivered before it is attempted. -/
structure Attempt where
  draft : Draft
  owner : Option Draft := none

namespace Attempt

variable {faults : Faults} {attempt : Attempt}

/-- Where a file goes if there are no faults. -/
def path? (attempt : Attempt) : Option Path :=
  if attempt.owner.all (·.path?.isSome) then attempt.draft.path? else none

def isLost (faults : Faults) (attempt : Attempt) : Bool :=
  attempt.owner.any (·.isHit faults) || attempt.draft.isHit faults

def isReached (faults : Faults) (attempt : Attempt) : Bool :=
  attempt.owner.all (fun owner => (owner.delivered? faults).isSome)

def claimed? (faults : Faults) (attempt : Attempt) : Option Path :=
  if attempt.isReached faults then attempt.draft.claimed? faults else none

def delivered? (faults : Faults) (attempt : Attempt) : Option Path :=
  if attempt.isReached faults then attempt.draft.delivered? faults else none

def problem? (faults : Faults) (attempt : Attempt) : Option Problem :=
  if attempt.isReached faults then attempt.draft.problem? faults else none

theorem isReached_eq (faults : Faults) (attempt : Attempt) :
    attempt.isReached faults = (attempt.owner.all (·.path?.isSome) && !attempt.owner.any (·.isHit faults)) := by
  unfold isReached
  cases attempt.owner with
  | none => rfl
  | some owner =>
    simp only [Option.all_some, Option.any_some, Draft.delivered?_eq]
    cases owner.isHit faults <;> simp

theorem delivered?_eq (faults : Faults) (attempt : Attempt) :
    attempt.delivered? faults = if attempt.isLost faults then none else attempt.path? := by
  unfold delivered? isLost path?
  rw [isReached_eq, Draft.delivered?_eq]
  cases attempt.owner.any (·.isHit faults) <;> cases attempt.draft.isHit faults <;> simp

theorem path?_of_claimed (claimed : attempt.claimed? faults = some path) :
    attempt.path? = some path := by
  unfold claimed? at claimed
  split at claimed
  · next reached =>
      rw [isReached_eq, Bool.and_eq_true] at reached
      rw [path?, if_pos reached.1]
      exact Draft.path?_of_claimed claimed
  · cases claimed

theorem isReached_none (attempt : Attempt) :
    attempt.isReached .none = attempt.owner.all (·.path?.isSome) := by
  rw [isReached_eq]
  cases attempt.owner <;> simp [Draft.isHit_none]

theorem delivered?_none (attempt : Attempt) : attempt.delivered? .none = attempt.path? := by
  rw [delivered?_eq, isLost]
  cases attempt.owner <;> simp [Draft.isHit_none]

theorem claimed?_none (attempt : Attempt) : attempt.claimed? .none = attempt.path? := by
  unfold claimed? path? Draft.claimed? Draft.path?
  rw [isReached_none, Draft.making_none]
  rfl

theorem made_of_path (there : attempt.path? = some path) :
    ∃ content, attempt.draft.made = .ok (path, content) := by
  unfold path? at there
  split at there
  · obtain ⟨⟨given, content⟩, made, rfl⟩ := Option.map_eq_some_iff.1 there
    refine ⟨content, ?_⟩
    cases known : attempt.draft.made with
    | error fault => simp [known, Except.toOption] at made
    | ok pair => simpa [known, Except.toOption] using made
  · cases there

theorem of_making_error {fault : Fault} (reached : attempt.isReached faults = true)
    (making : attempt.draft.making faults = .error fault) :
    attempt.claimed? faults = none ∧ attempt.delivered? faults = none ∧
      attempt.problem? faults = some ⟨attempt.draft.file, "transform", fault⟩ := by
  simp [claimed?, delivered?, problem?, Draft.claimed?, Draft.delivered?, Draft.problem?, reached, making,
    Except.toOption]

theorem of_making_ok (reached : attempt.isReached faults = true)
    (making : attempt.draft.making faults = .ok (path, content)) :
    attempt.claimed? faults = some path ∧
      attempt.delivered? faults = (if faults.refuses path then none else some path) ∧
      attempt.problem? faults =
        if faults.refuses path then some ⟨attempt.draft.file, "write", .file (.diskFull path.name)⟩ else none := by
  cases refused : faults.refuses path <;>
    simp [claimed?, delivered?, problem?, Draft.claimed?, Draft.delivered?, Draft.problem?, reached, making,
      Except.toOption, refused]

theorem problem?_of_hit (reached : attempt.isReached faults = true) (hit : attempt.draft.isHit faults = true) :
    ∃ problem, attempt.problem? faults = some problem ∧ problem.file = attempt.draft.file ∧
      problem.kind = if (faults.raised attempt.draft.subject).isSome then "transform" else "write" := by
  unfold problem?
  rw [if_pos reached]
  exact Draft.problem?_of_hit hit

end Attempt

/-- What a migration stage works with. -/
structure Job where
  adapter : Adapter
  analysis : Analysis
  disk : Disk
  output : Path
  options : Options

namespace Job

def text (work : Report String) (path : Path) : Except Fault (Path × List UInt8) :=
  (exec work []).1.map (fun content => (path, Text.Utf8.encode content))

def written (role : Role) (file : String) (path : Path) (content : String) : Attempt :=
  ⟨⟨.other role, file, .ok (path, Text.Utf8.encode content)⟩, none⟩

def failed (role : Role) (file : String) (fault : Fault) : Attempt := ⟨⟨.other role, file, .error fault⟩, none⟩

theorem path_of_text {work : Report String} {target : Path} {subject : Subject} {file : String}
    (there : (⟨subject, file, text work path⟩ : Draft).path? = some target) : target = path := by
  unfold Draft.path? text at there
  cases made : (exec work []).1 with
  | error fault => simp [made, Except.map, Except.toOption] at there
  | ok content => simpa [made, Except.map, Except.toOption] using there.symm

variable (job : Job)

def componentPath (component : Component) : Path :=
  Output.componentPath job.output component job.analysis job.options

def component (component : Component) : Draft :=
  ⟨.component component, component.path,
    text (job.adapter.component job.disk component job.analysis) (job.componentPath component)⟩

def companion (component : Component) (file : String) : Attempt :=
  ⟨⟨.other (if component.story = some file then .story else .test), file,
      text (job.adapter.companion job.disk file job.analysis)
        (companionPath (job.componentPath component) file)⟩,
    some (job.component component)⟩

def wants (component : Component) (file : String) : Bool :=
  if component.story = some file then job.options.migrateStories else job.options.migrateTests

/-- The tests and the story of a component follow it, as far as they are wanted. -/
def companions (component : Component) : List Attempt :=
  (component.tests ++ component.story.toList.filter (· ≠ "")).flatMap
    (fun file => if job.wants component file then [job.companion component file] else [])

def page (page : Page) : Attempt :=
  ⟨⟨.page page, page.path,
    text (job.adapter.page job.disk page job.analysis)
      (pagePath job.output page job.analysis job.options)⟩, none⟩

def style (name content file : String) : Attempt :=
  written .style file (under job.output ["src", "styles", name]) content

def styles : List Attempt :=
  match (exec (job.adapter.styles job.analysis.styling job.analysis) []).1 with
  | .error fault => [failed .style (Stage.stylesPlace job.analysis) fault]
  | .ok files =>
    match (exec (job.adapter.carriedStyles job.disk job.analysis.styling job.analysis files) []).1 with
    | .error fault => [failed .style (Stage.stylesPlace job.analysis) fault]
    | .ok carried =>
      files.map (fun file => job.style file.1 file.2 file.1)
        ++ carried.map (fun style => job.style style.name style.content style.source)

def assetSource (asset : Asset) : Path := (Path.ofString job.analysis.root).join (Path.ofString asset.path)

def asset (asset : Asset) : Attempt :=
  ⟨⟨.other .asset, asset.path,
    .ok (assetPath job.output asset job.analysis.layout.publicDir,
      ((job.disk.readBytes (job.assetSource asset)).toOption).getD [])⟩, none⟩

def configuration : List Attempt :=
  match (exec (job.adapter.configuration job.analysis) []).1 with
  | .error fault => [failed .configuration "configuration" fault]
  | .ok files => files.map (fun file => written .configuration file.1 (under job.output [file.1]) file.2)

/-- The files that a migration stage is to make, in their order. -/
def attempts : List Attempt :=
  job.analysis.components.flatMap (fun component => ⟨job.component component, none⟩ :: job.companions component)
    ++ (job.analysis.pages.map job.page
      ++ (job.styles ++ (job.analysis.assets.map job.asset ++ job.configuration)))

end Job
end Refit
