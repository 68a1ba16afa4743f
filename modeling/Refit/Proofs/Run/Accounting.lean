import Refit.Proofs.Run.Journal

/-!
The journal of the migration stage and what a run counts. Every component and every page is either
counted as migrated or as a failure, and every migrated file is counted by what it was made from,
stories and assets apart.
-/

open List

namespace Refit

open Output

/-- Where the files of an output are to be made, by what they are made from. -/
inductive Placed (output : Path) (options : Options) (adapter : Adapter) (analysis : Analysis) :
    Role → String → Path → Prop
  | component {component : Component} (member : component ∈ analysis.components) :
      Placed output options adapter analysis .component component.path
        (Output.componentPath output component analysis options)
  /-- A test stands beside its component, wherever that went. -/
  | test {component : Component} {owner : Path} {file : String} (member : component ∈ analysis.components)
      (attached : file ∈ component.tests)
      (given : Output.Names.Offers (Output.componentPath output component analysis options) owner) :
      Placed output options adapter analysis .test file (Output.companionPath owner file)
  | story {component : Component} {owner : Path} {file : String} (member : component ∈ analysis.components)
      (attached : component.story = some file)
      (given : Output.Names.Offers (Output.componentPath output component analysis options) owner) :
      Placed output options adapter analysis .story file (Output.companionPath owner file)
  | page {page : Page} (member : page ∈ analysis.pages) :
      Placed output options adapter analysis .page page.path (Output.pagePath output page analysis options)
  | style {files : List (String × String)} {name content : String}
      (made : (adapter.styles analysis.styling analysis).Yields files) (member : (name, content) ∈ files) :
      Placed output options adapter analysis .style name (Output.under output ["src", "styles", name])
  | carriedStyle {disk : Disk} {files : List (String × String)} {carried : List CarriedStyle}
      {style : CarriedStyle} (made : (adapter.styles analysis.styling analysis).Yields files)
      (found : (adapter.carriedStyles disk analysis.styling analysis files).Yields carried)
      (member : style ∈ carried) :
      Placed output options adapter analysis .style style.source
        (Output.under output ["src", "styles", style.name])
  | asset {asset : Asset} (member : asset ∈ analysis.assets) :
      Placed output options adapter analysis .asset asset.path
        (Output.assetPath output asset analysis.layout.publicDir)
  | configuration {files : List (String × String)} {name content : String}
      (made : (adapter.configuration analysis).Yields files) (member : (name, content) ∈ files) :
      Placed output options adapter analysis .configuration name (Output.under output [name])

def Analysis.listed (analysis : Analysis) : List (Role × String) :=
  analysis.components.map (fun component => (.component, component.path))
    ++ analysis.pages.map (fun page => (.page, page.path))
    ++ analysis.assets.map (fun asset => (.asset, asset.path))

namespace Stage

open Session

variable {s : Session} {placed : Role → String → Path → Prop} {chore : Chore} {work : Work} {α β : Type}

/-- A file of a chore has its place, and is made in the way of its role. -/
def Suited (placed : Role → String → Path → Prop) : Chore → Prop
  | .make role file requested _ | .write _ role file requested _ =>
    role.operation = .writeText ∧ placed role file requested
  | .copy file requested _ => placed .asset file requested
  | .skip _ => True

/-- What a chore gives out is what its file asked for, or a number of it. -/
def Offered : Chore → Option Path → Prop
  | .make _ _ requested _, result | .write _ _ _ requested _, result | .copy _ requested _, result =>
    ∀ target ∈ result, Output.Names.Offers requested target
  | .skip _, _ => True

def listedBy : Chore → List (Role × String)
  | .make role file _ _ | .write _ role file _ _ => listing role file
  | .copy file _ _ => listing .asset file
  | .skip _ => []

theorem chore_journals (suited : Suited placed chore) :
    Journals placed (listedBy chore) (Offered chore) chore.run s := by
  cases chore with
  | make => exact convey_journals suited.1 suited.2 (silent_report _ s)
  | write warning role file requested content =>
    have written (after : Session) : Journals placed (listing role file) (Offered (.write warning role file requested content))
        (deliver role file requested (.write · content)) after :=
      deliver_journals (fun _ => ⟨rfl, suited.1.symm⟩) suited.2
    cases warning with
    | none => exact written s
    | some notice =>
      exact journals_bind (journals_of_silent ⟨aside_warn notice s, rfl⟩) (fun _ after _ => written after)
  | copy => exact deliver_journals (fun _ => ⟨rfl, rfl⟩) suited
  | skip =>
    exact journals_bind (journals_of_silent ⟨aside_change _ s rfl rfl rfl rfl, rfl⟩) (fun _ _ _ => journals_pure trivial)

theorem runAll_journals {chores : List Chore} (plain : ∀ chore ∈ chores, Suited placed chore ∧ listedBy chore = []) :
    Journals placed [] (fun _ => True) (Chore.runAll chores) s := by
  have none : chores.flatMap (fun _ => ([] : List (Role × String))) = [] := by simp
  rw [← none]
  refine journals_forM (fun chore member after => ?_)
  obtain ⟨suited, unlisted⟩ := plain chore member
  have first := @chore_journals after placed chore suited
  rw [unlisted] at first
  exact journals_bind first (fun _ _ _ => journals_pure trivial)

/-- The files of a work are suited, and only its first one is listed. -/
def SuitedAll (placed : Role → String → Path → Prop) : Work → Prop
  | .single chore followers => Suited placed chore ∧ ∀ owner, Offered chore (some owner) →
      ∀ other ∈ followers owner, Suited placed other ∧ listedBy other = []
  | .batch role place first second chores => role.isUnit = false ∧ place ≠ "" ∧
      ∀ files carried disk, first.Yields files → (second disk files).Yields carried →
        ∀ chore ∈ chores files carried, Suited placed chore ∧ listedBy chore = []

def listedFirst : Work → List (Role × String)
  | .single chore _ => listedBy chore
  | .batch .. => []

theorem yields_of_report {report : Report α} {value : α} {after : Session}
    (run : exec (Stage.report report) s = (.ok value, after)) : report.Yields value := by
  rw [exec_report] at run
  exact congrArg Prod.fst run

theorem yields_of_reports {first : Report α} {second : Disk → α → Report β} {value : α} {other : β}
    (made : (exec (reports first second) s).1 = .ok (value, other)) :
    first.Yields value ∧ ∃ disk, (second disk value).Yields other := by
  obtain ⟨found, _, run, made⟩ := exec_bind_ok (Prod.ext made rfl)
  obtain ⟨disk, _, _, made⟩ := exec_bind_ok made
  obtain ⟨more, _, ran, made⟩ := exec_bind_ok made
  cases made
  exact ⟨yields_of_report run, disk, yields_of_report ran⟩

theorem work_journals (suited : SuitedAll placed work) :
    Journals placed (listedFirst work) (fun _ => True) work.run s := by
  cases work with
  | single chore followers =>
    rw [← append_nil (listedFirst _)]
    refine journals_bind (chore_journals suited.1) (fun result after offered => ?_)
    cases result with
    | none => exact journals_pure trivial
    | some target => exact runAll_journals (suited.2 target offered)
  | batch role place first second chores =>
    obtain ⟨plain, named, suited⟩ := suited
    have silent : Silent s (exec (reports first second) s).2 :=
      silent_bind (silent_report _ s) (fun _ after => silent_bind (.refl after)
        (fun _ later => silent_bind (silent_report _ later) (fun _ last => .refl last)))
    rw [Work.run, complain_eq_problem plain]
    refine journals_bind (attempt_journals silent named _) (fun result after made => ?_)
    cases result with
    | none => exact journals_pure trivial
    | some both =>
      obtain ⟨styled, disk, carriage⟩ := yields_of_reports (made both rfl)
      exact runAll_journals (suited _ _ disk styled carriage)

theorem stylesPlace_ne_empty (analysis : Analysis) : stylesPlace analysis ≠ "" := by
  unfold stylesPlace
  cases named : analysis.layout.stylesDir.filter (· ≠ "") with
  | none => decide
  | some name =>
    have kept := (Option.filter_eq_some_iff.1 named).2
    simpa using kept

variable {adapter : Adapter} {analysis : Analysis}

theorem all_suited (adapter : Adapter) (analysis : Analysis) (options : Options) (output : Path) :
    ∀ work ∈ Work.all adapter analysis options output, SuitedAll (Placed output options adapter analysis) work := by
  simp only [Work.all, forall_mem_append, forall_mem_cons, forall_mem_map, not_mem_nil, false_implies, implies_true,
    and_true]
  refine ⟨fun component member => ⟨⟨rfl, .component member⟩, fun owner offered => forall_mem_map.2 ?_⟩,
    fun page member => ⟨⟨rfl, .page member⟩, by simp⟩,
    ⟨rfl, stylesPlace_ne_empty analysis, fun files carried disk styled carriage => forall_mem_append.2
      ⟨forall_mem_map.2 (fun file member => ⟨⟨rfl, .style styled member⟩, rfl⟩),
        forall_mem_map.2 (fun style member => ⟨⟨rfl, .carriedStyle styled carriage member⟩, rfl⟩)⟩⟩,
    fun asset member => ⟨.asset member, by simp⟩, rfl, by decide, fun files _ _ made _ =>
      forall_mem_map.2 (fun file member => ⟨⟨rfl, .configuration made member⟩, rfl⟩)⟩
  intro companion attached
  split
  · by_cases story : component.story = some companion
    · simpa [story, Suited, listedBy, listing, Role.isListed, Role.operation] using Placed.story member story (offered owner rfl)
    · have test : companion ∈ component.tests := by
        refine (mem_append.1 attached).resolve_right (fun other => story ?_)
        exact Option.mem_toList.1 (mem_filter.1 other).1
      simpa [story, Suited, listedBy, listing, Role.isListed, Role.operation] using Placed.test member test (offered owner rfl)
  · exact ⟨trivial, rfl⟩

/-- The migration stage keeps a journal. If it is not ended by a failure, every component, page and
    asset is in it once. -/
theorem migrate_journals (worker : s.adapter = some adapter) (known : s.outcome.analysis = some analysis) :
    Journals (Placed s.output s.options adapter analysis) analysis.listed (fun _ => True) migrate s := by
  have listed : (Work.all adapter analysis s.options s.output).flatMap listedFirst = analysis.listed := by
    have last : listedFirst (Work.configuration adapter analysis s.output) = [] := rfl
    simp only [Work.all, Analysis.listed, flatMap_append, flatMap_cons, flatMap_nil, flatMap_map, append_assoc, last,
      append_nil]
    simp only [map_eq_flatMap]
    rfl
  rw [← listed]
  unfold Journals
  rw [exec_migrate, worker, known]
  exact journals_forM (fun work member _ => work_journals (all_suited _ _ _ _ work member))

end Stage

namespace Migration

open Session Stage Event

/-- A run makes no file before its migration stage, and then keeps a journal. If it gets through this
    stage, every component, page and asset is in the journal once. -/
theorem prepared_journal (observer : Option Observer) (session : Session) :
    ∃ items held, Untouched session held ∧ Journal items held (prepared observer session).2.1 ∧
      (∀ item ∈ items, ∃ chosen found, held.outcome.analysis = some found ∧ Surveyed session chosen found ∧
        item.Fits (Placed session.output session.options chosen found)) ∧
      ((prepared observer session).1 = .ok () → Intact items ∧
        ∃ chosen found, held.outcome.analysis = some found ∧ Surveyed session chosen found ∧
        (∀ item ∈ items, item.Fits (Placed session.output session.options chosen found)) ∧
        listedIn items = found.listed) := by
  have untouched := (laid_trace observer session).untouches
  rcases prepared_cases observer session with ⟨fault, failed, held⟩ | ⟨record, laid, migrated⟩
  · refine ⟨[], _, untouched, ?_, by simp, fun done => nomatch failed.symm.trans done⟩
    rw [held]
    exact .nil _
  · obtain ⟨chosen, found, worker, known, surveyed⟩ := laid_surveyed laid
    let held : Session :=
      { (Migration.laid observer session).2 with world := (Migration.laid observer session).2.world.note record }
    have noted : Untouched session held :=
      untouched.trans (Step.untouches (.logged _ record) (.inl trivial : Event.lays session .logged))
    obtain ⟨items, journal, fits, _, ends⟩ := @migrate_journals held chosen found worker known
    rw [noted.output, noted.options] at fits
    have ended : (prepared observer session).1 = (exec Stage.migrate held).1 := congrArg Prod.fst migrated
    have reached : (prepared observer session).2.1 = (exec Stage.migrate held).2 := congrArg Prod.snd migrated
    rw [ended, reached]
    exact ⟨items, held, noted, journal, fun item member => ⟨chosen, found, known, surveyed, fits item member⟩,
      fun done => ⟨(ends () done).1, chosen, found, known, surveyed, fits, (ends () done).2.1⟩⟩

end Migration

/-- How many files of a role were delivered. -/
def delivered (role : Role) (items : List Item) : Nat :=
  items.countP (fun item => decide (item.role = role) && item.isDelivered)

theorem delivered_cons (role : Role) (item : Item) (items : List Item) :
    delivered role (item :: items) =
      delivered role items + if item.role = role ∧ item.isDelivered = true then 1 else 0 := by
  simp [delivered, countP_cons]

def attempted (role : Role) (items : List Item) : Nat := items.countP (fun item => decide (item.role = role))

theorem attempted_cons (role : Role) (item : Item) (items : List Item) :
    attempted role (item :: items) = attempted role items + if item.role = role then 1 else 0 := by
  simp [attempted, countP_cons]

theorem delivered_le_attempted (role : Role) (items : List Item) : delivered role items ≤ attempted role items := by
  refine countP_mono_left (fun item _ both => ?_)
  exact (Bool.and_eq_true _ _ ▸ both).1

def Changes.plus (changes : Changes) (count : Role → Nat) : Changes where
  components := changes.components + count .component
  pages := changes.pages + count .page
  styles := changes.styles + count .style
  tests := changes.tests + count .test
  configurations := changes.configurations + count .configuration

namespace Session.Journal

variable {items : List Item} {s t : Session}

theorem migratedFiles_eq (journal : Journal items s t) :
    t.outcome.migratedFiles =
      s.outcome.migratedFiles ++ items.filterMap (fun item => item.fate.delivered?.map (·.toString)) := by
  induction journal with
  | nil => simp
  | aside step _ ih => rw [ih, step.files]
  | @item item items _ _ _ step _ ih =>
    rw [ih, step.files]
    cases target : item.fate.delivered? <;> simp [target]

theorem changes_eq (journal : Journal items s t) :
    t.outcome.summary.changes = s.outcome.summary.changes.plus (fun role => delivered role items) := by
  induction journal with
  | nil => rfl
  | aside step _ ih => rw [ih, step.changes]
  | @item item items _ _ _ step _ ih =>
    rw [ih, step.changes]
    simp only [Changes.plus, delivered_cons]
    cases item.isDelivered with
    | false => simp
    | true => cases item.role <;> simp [Role.tally, Nat.add_assoc, Nat.add_comm 1]

theorem unitFailures_eq (journal : Journal items s t) (intact : Stage.Intact items) :
    t.outcome.unitFailures + delivered .component items + delivered .page items =
      s.outcome.unitFailures + attempted .component items + attempted .page items := by
  induction journal with
  | nil => rfl
  | aside step _ ih => rw [ih intact, step.unitFailures]
  | @item item items _ _ _ step _ ih =>
    obtain ⟨whole, others⟩ := forall_mem_cons.1 intact
    have cost := step.unitFailures
    replace ih := ih others
    simp only [delivered_cons, attempted_cons]
    unfold Item.cost at cost
    rw [whole] at cost
    cases done : item.isDelivered <;> cases role : item.role <;> simp [done, role, Role.isUnit] at cost ⊢ <;>
      omega

end Session.Journal

theorem length_delivered (items : List Item) :
    (items.filterMap (fun item => item.fate.delivered?.map (·.toString))).length =
      delivered .component items + delivered .page items + delivered .style items + delivered .test items
        + delivered .configuration items + delivered .asset items + delivered .story items := by
  induction items with
  | nil => rfl
  | cons item rest ih =>
    simp only [delivered_cons, filterMap_cons]
    unfold Item.isDelivered
    cases item.fate.delivered? with
    | none => simpa using ih
    | some target => cases item.role <;> simp <;> omega

theorem attempted_eq {role : Role} (listed : role.isListed = true) (items : List Item) :
    attempted role items = (listedIn items).countP (fun file => file.1 = role) := by
  unfold listedIn attempted
  rw [countP_map, countP_filter]
  refine countP_congr (fun item _ => ?_)
  by_cases same : item.role = role <;> simp [same, listed]

theorem attempted_of_listed {items : List Item} {analysis : Analysis} (complete : listedIn items = analysis.listed) :
    attempted .component items = analysis.components.length ∧ attempted .page items = analysis.pages.length := by
  rw [attempted_eq rfl, attempted_eq rfl, complete]
  simp [Analysis.listed, Function.comp_def]

namespace Migration

open Session

/-- A run surveyed its project with an adapter and came to the listed files in its migration stage: each
    has its place in the output, and every component, page and asset of the project is there once. -/
def Journaled (observer : Option Observer) (session : Session) (analysis : Analysis) (items : List Item) : Prop :=
  ∃ adapter held, Surveyed session adapter analysis ∧ Untouched session held ∧
    Journal items held (prepared observer session).2.1 ∧
    (∀ item ∈ items, item.Fits (Placed session.output session.options adapter analysis)) ∧
    listedIn items = analysis.listed

theorem ended_of_runSession {observer : Option Observer} {started : Moment} {session final : Session}
    {told : List Progress} (ends : runSession observer started session = (final, told))
    (finished : final.outcome.aborted = false) :
    (prepared observer session).1 = .ok () ∧
      (prepared observer session).2.1.outcome.SameFindings final.outcome := by
  have late := (completed_trace observer session).sameFindings
  have known : closed (conclude started (settled (completed observer session).1 (completed observer session).2.1)) =
      final := congrArg Prod.fst ((runSession_eq observer started session).symm.trans ends)
  have concluded := sameFindings_concluded started
    (settled (completed observer session).1 (completed observer session).2.1)
  rw [known] at concluded
  cases ended : (completed observer session).1 with
  | error fault =>
    rw [ended] at concluded
    exact absurd (concluded.aborted.symm.trans finished) (by simp [settled, abort])
  | ok =>
    rw [ended] at concluded
    refine ⟨?_, late.trans concluded⟩
    unfold completed at ended
    split at ended
    · next before => rw [before]
    · cases ended

/-- Every component and every page of a run that is not aborted is counted once, as migrated or as a
    failure; every migrated file is counted by what it was made from, unless it is an asset or a story. -/
theorem run_accounted {migration : Migration} {source : String} {observer : Option Observer}
    {texts : List ExtractedText} {world : World} {started : Moment} {session final : Session}
    {told : List Progress} (begins : migration.session source texts world = .ok session)
    (ends : runSession observer started session = (final, told)) (finished : final.outcome.aborted = false) :
    ∃ analysis items, final.outcome.analysis = some analysis ∧ Journaled observer session analysis items ∧
      (final.outcome.unitFailures : Int) = analysis.components.length + analysis.pages.length
        - final.outcome.summary.changes.components - final.outcome.summary.changes.pages ∧
      (final.outcome.coreSuccess = true ↔
        final.outcome.summary.changes.components = analysis.components.length ∧
          final.outcome.summary.changes.pages = analysis.pages.length) ∧
      final.outcome.migratedFiles = items.filterMap (fun item => item.fate.delivered?.map (·.toString)) ∧
      final.outcome.migratedFiles.length =
        final.outcome.summary.changes.components + final.outcome.summary.changes.pages
          + final.outcome.summary.changes.styles + final.outcome.summary.changes.tests
          + final.outcome.summary.changes.configurations + delivered .asset items + delivered .story items := by
  obtain ⟨_, _, _, _, rfl⟩ := session_eq_ok begins
  obtain ⟨ended, findings⟩ := ended_of_runSession ends finished
  obtain ⟨items, held, untouched, journal, _, complete⟩ := prepared_journal observer _
  obtain ⟨intact, adapter, analysis, known, survey, fits, listed⟩ := complete ended
  obtain ⟨components, pages⟩ := attempted_of_listed listed
  have fewComponents := delivered_le_attempted .component items
  have fewPages := delivered_le_attempted .page items
  have counted := journal.changes_eq
  have failures := journal.unitFailures_eq intact
  have files := journal.migratedFiles_eq
  rw [untouched.changes] at counted
  rw [untouched.unitFailures] at failures
  rw [untouched.files] at files
  rw [← findings.changes] at counted
  rw [← findings.unitFailures] at failures
  rw [← findings.migratedFiles] at files
  have surveyed : final.outcome.analysis = some analysis := by
    rw [findings.analysis, journal.sameTask.analysis, known]
  have zero (n : Nat) : 0 + n = n := Nat.zero_add n
  have ofComponents : final.outcome.summary.changes.components = delivered .component items :=
    (congrArg Changes.components counted).trans (zero _)
  have ofPages : final.outcome.summary.changes.pages = delivered .page items :=
    (congrArg Changes.pages counted).trans (zero _)
  have ofStyles : final.outcome.summary.changes.styles = delivered .style items :=
    (congrArg Changes.styles counted).trans (zero _)
  have ofTests : final.outcome.summary.changes.tests = delivered .test items :=
    (congrArg Changes.tests counted).trans (zero _)
  have ofConfigurations : final.outcome.summary.changes.configurations = delivered .configuration items :=
    (congrArg Changes.configurations counted).trans (zero _)
  have failed : final.outcome.unitFailures + delivered .component items + delivered .page items =
      analysis.components.length + analysis.pages.length := by
    rw [← components, ← pages]
    exact failures.trans (congrArg (· + attempted .page items) (zero _))
  refine ⟨analysis, items, surveyed, ⟨adapter, held, survey, untouched, journal, fits, listed⟩, ?_, ?_, files, ?_⟩
  · rw [ofPages]
    omega
  · rw [ofPages]
    simp only [Outcome.coreSuccess, finished, surveyed, Option.isSome_some, Bool.not_false, Bool.and_true,
      Bool.true_and, decide_eq_true_eq]
    omega
  · rw [ofComponents, ofPages, ofStyles, ofTests, ofConfigurations]
    exact (congrArg List.length files).trans (length_delivered items)

/-- The same world, which has no space for the component. -/
def fullWorld : World :=
  { buttonWorld with refuses := fun operation path => operation = .writeText && path.name = "A.jsx" }

def fullSession : Session :=
  (builtin plainRegistry plainRegistry none).fresh ⟨.slash, ["project"]⟩ ⟨.slash, ["out"]⟩ [] fullWorld

theorem run_accounted_full :
    ∃ final told, (builtin plainRegistry plainRegistry none).session "/project" [] fullWorld = .ok fullSession ∧
      runSession none fullWorld.clock.now fullSession = (final, told) ∧ final.outcome.aborted = false ∧
      final.outcome.unitFailures = 1 ∧ final.outcome.migratedFiles.length = 4 ∧
      ∃ analysis items, final.outcome.analysis = some analysis ∧ Journaled none fullSession analysis items ∧
        (final.outcome.unitFailures : Int) = analysis.components.length + analysis.pages.length
          - final.outcome.summary.changes.components - final.outcome.summary.changes.pages ∧
        (final.outcome.coreSuccess = true ↔
          final.outcome.summary.changes.components = analysis.components.length ∧
            final.outcome.summary.changes.pages = analysis.pages.length) ∧
        final.outcome.migratedFiles = items.filterMap (fun item => item.fate.delivered?.map (·.toString)) ∧
        final.outcome.migratedFiles.length =
          final.outcome.summary.changes.components + final.outcome.summary.changes.pages
            + final.outcome.summary.changes.styles + final.outcome.summary.changes.tests
            + final.outcome.summary.changes.configurations + delivered .asset items + delivered .story items := by
  have begins : (builtin plainRegistry plainRegistry none).session "/project" [] fullWorld = .ok fullSession := rfl
  have counts : (runSession none fullWorld.clock.now fullSession).1.outcome.aborted = false ∧
      (runSession none fullWorld.clock.now fullSession).1.outcome.unitFailures = 1 ∧
      (runSession none fullWorld.clock.now fullSession).1.outcome.migratedFiles.length = 4 := by
    decide +kernel
  exact ⟨_, _, begins, rfl, counts.1, counts.2.1, counts.2.2, run_accounted begins rfl counts.1⟩

end Migration
end Refit
