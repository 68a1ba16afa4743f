import Refit.Proofs.Output.Placement

/-!
No file of an output is written twice. The paths that the migration stage writes to are given out, and
none is given out twice; the finalization writes each of its files at most once, outside the regions of
the files of the project.
-/

open List

namespace Refit

open Path

variable {output : Path} {names : List String}

def targetsOf (items : List Item) : List Path := items.filterMap (·.fate.target?)

namespace Session

variable {items : List Item} {s t : Session}

theorem Enters.taken {item : Item} (enters : Enters item s t) :
    t.names.taken = (item.fate.target?.toList.map toString) ++ s.names.taken ∧
      ∀ target ∈ item.fate.target?, target.toString ∉ s.names.taken ∧
        ∃ requested ∈ item.fate.requested?, Output.Names.Offers requested target := by
  have names := enters.names
  obtain ⟨role, file, fate⟩ := item
  cases fate with
  | unmade => exact ⟨congrArg Output.Names.taken names, by simp [Fate.target?]⟩
  | unstored requested target | broken requested target | delivered requested target =>
    obtain ⟨renamed, given⟩ := names
    obtain ⟨fresh, taken⟩ := Output.Names.claim_fresh given
    refine ⟨taken, fun path is => ?_⟩
    obtain rfl : target = path := Option.some.inj is
    exact ⟨fresh, requested, rfl, Output.Names.offers_of_claim given⟩

namespace Journal

section

variable (journal : Journal items s t)
include journal

theorem taken :
    t.names.taken = ((targetsOf items).map toString).reverse ++ s.names.taken := by
  induction journal with
  | nil => rfl
  | aside step _ ih => rw [ih, step.names]
  | @item item items s t u step _ ih =>
    rw [ih, step.taken.1]
    cases target : item.fate.target? <;> simp [targetsOf, target]

theorem nodup (distinct : s.names.taken.Nodup) : t.names.taken.Nodup := by
  induction journal with
  | nil => exact distinct
  | aside step _ ih => exact ih (step.names ▸ distinct)
  | @item item items s t u step _ ih =>
    obtain ⟨taken, fresh⟩ := step.taken
    refine ih ?_
    rw [taken]
    cases known : item.fate.target? with
    | none => exact distinct
    | some target => exact nodup_cons.2 ⟨(fresh target known).1, distinct⟩

theorem offers :
    ∀ item ∈ items, ∀ target ∈ item.fate.target?, ∃ requested ∈ item.fate.requested?,
      Output.Names.Offers requested target := by
  induction journal with
  | nil => simp
  | aside _ _ ih => exact ih
  | item step _ ih => exact forall_mem_cons.2 ⟨fun target is => (step.taken.2 target is).2, ih⟩

theorem calls :
    t.world.calls = s.world.calls ++ if s.options.dryRun then [] else items.flatMap Item.calls := by
  induction journal with
  | nil => simp
  | aside step _ ih => rw [ih, step.calls, step.options]
  | item step _ ih =>
    rw [ih, step.calls, step.options]
    split <;> simp

end

end Journal

/-- From one session to another, files were written at some of the given places below the output, in
    their order. -/
structure Wrote (places : List (List String)) (s t : Session) : Prop where
  output : t.output = s.output
  analysis : t.outcome.analysis = s.outcome.analysis
  names : t.names = s.names
  calls : ∃ made : List (List String), made.Sublist places ∧
    t.world.calls = s.world.calls ++ made.map (fun names => (.writeText, s.output.below names))

theorem Finish.wrote {places : List (List String)} (finish : Finish s places t) : Wrote places s t := by
  induction finish with
  | refl => exact ⟨rfl, rfl, rfl, [], .slnil, (append_nil _).symm⟩
  | step _ step quiet ih =>
    cases step with
    | logged | timed | counted => exact ⟨ih.output, ih.analysis, ih.names, ih.calls⟩
    | _ => cases quiet
  | passed | unmade =>
    next ih =>
    obtain ⟨made, some, calls⟩ := ih.calls
    exact ⟨ih.output, ih.analysis, ih.names, made, some.trans (sublist_append_left _ _), calls⟩
  | unstored names content _ _ _ run | broken names content _ _ _ run | stored names content _ _ run =>
    next ih =>
    obtain ⟨made, some, calls⟩ := ih.calls
    have performed := congrArg (fun done => done.2.calls) run
    rw [Call.calls_perform, calls, ih.output] at performed
    refine ⟨ih.output, ih.analysis, ih.names, made ++ [names], some.append (.refl _), ?_⟩
    rw [map_append, ← append_assoc]
    exact performed.symm

end Session

namespace Migration

open Session Stage

theorem concluded_keeps (started : Moment) (ended : Except Fault Unit) (session : Session) :
    (closed (conclude started (settled ended session))).names = session.names ∧
      (closed (conclude started (settled ended session))).world.calls = session.world.calls ∧
      (closed (conclude started (settled ended session))).outcome.analysis = session.outcome.analysis := by
  cases ended with
  | ok => exact ⟨rfl, rfl, rfl⟩
  | error fault => exact ⟨rfl, rfl, rfl⟩

theorem runSession_migratedFiles (observer : Option Observer) (started : Moment) (session : Session) :
    (runSession observer started session).1.outcome.migratedFiles =
      (prepared observer session).2.1.outcome.migratedFiles := by
  rw [← (completed_trace observer session).sameFindings.migratedFiles, runSession_eq]
  cases (completed observer session).1 <;> rfl

/-- What a run writes to: the paths of a journal of its migration stage, and some of the places for files
    that belong to the output as a whole. -/
theorem runSession_writes (observer : Option Observer) (started : Moment) (session : Session) :
    ∃ items held, Untouched session held ∧ Journal items held (prepared observer session).2.1 ∧
      (∀ item ∈ items, ∃ chosen found, (runSession observer started session).1.outcome.analysis = some found ∧
        Surveyed session chosen found ∧ item.Fits (Placed session.output session.options chosen found)) ∧
      (runSession observer started session).1.names = (prepared observer session).2.1.names ∧
      ∃ made : List (List String), made.Sublist Event.artifactPlaces ∧
        (runSession observer started session).1.world.calls = held.world.calls
          ++ (if session.options.dryRun then [] else items.flatMap Item.calls)
          ++ made.map (fun names => (.writeText, session.output.below names)) := by
  obtain ⟨items, held, untouched, journal, fits, _⟩ := prepared_journal observer session
  have wrote := (completed_finish observer session).wrote
  obtain ⟨made, some, calls⟩ := wrote.calls
  obtain ⟨names, last, analysis⟩ :=
    concluded_keeps started (completed observer session).1 (completed observer session).2.1
  rw [runSession_eq]
  refine ⟨items, held, untouched, journal, fun item member => ?_, names.trans wrote.names, made, some, ?_⟩
  · obtain ⟨chosen, found, known, rest⟩ := fits item member
    exact ⟨chosen, found, analysis.trans (wrote.analysis.trans (journal.sameTask.analysis.trans known)), rest⟩
  · have same : (prepared observer session).2.1.output = session.output :=
      journal.sameTask.output.trans untouched.output
    rw [last, calls, same, journal.calls, untouched.options]

/-- All adapters that a migration may work with come with the program, with faults or without. -/
def Stocked (migration : Migration) : Prop :=
  ∀ adapter, migration.adapter = some adapter ∨ adapter ∈ migration.candidates → adapter.Stock

variable {session : Session} {observer : Option Observer}

/-- Where a file of a run went: to the place that was asked for, or beside it under a number. -/
theorem target_cases (stock : ∀ adapter, session.adapter = some adapter ∨ adapter ∈ session.candidates → adapter.Stock)
    (regular : session.world.disk.Regular) (resolved : session.source.Resolved) {chosen : Adapter} {found : Analysis}
    (surveyed : Surveyed session chosen found) {item : Item}
    (fits : item.Fits (Placed session.output session.options chosen found)) {requested target : Path}
    (asked : requested ∈ item.fate.requested?) (offers : Output.Names.Offers requested target) :
    ∃ names, Output.Spot (found.Clear session.options) names ∧ (target = session.output.below names ∨
      ∃ name, target = session.output.below (names.dropLast ++ [name]) ∧ Path.ValidName name ∧ '-' ∈ name.toList) := by
  obtain ⟨known, world, relogged, yields⟩ := surveyed
  obtain ⟨grounded, named⟩ := (stock chosen known).analyze (relogged.regular regular) resolved yields
  obtain ⟨names, rfl, spot⟩ := (fits requested asked).spot (stock chosen known) grounded named
  exact ⟨names, spot, offers.cases_below spot.region.nonempty spot.valid⟩

theorem below_inj (valid : output.Valid) {others : List String}
    (fine : ∀ name ∈ names, Path.ValidName name) (right : ∀ name ∈ others, Path.ValidName name)
    (same : (output.below names).toString = (output.below others).toString) : names = others := by
  have read {names : List String} (fine : ∀ name ∈ names, Path.ValidName name) :
      ofString (output.below names).toString = output.below names :=
    ofString_toString (forall_mem_append.2 ⟨valid, fine⟩)
  have paths := congrArg ofString same
  rw [read fine, read right] at paths
  simpa [below] using paths

/-- Whether an operation stores a file. -/
def stores (call : FileOperation × Path) : Bool := call.1 = .writeText || call.1 = .copyFile

theorem filter_stores_calls (items : List Item) : (items.flatMap Item.calls).filter stores = items.flatMap Item.calls := by
  refine filter_eq_self.2 (fun call member => ?_)
  obtain ⟨item, _, inCalls⟩ := mem_flatMap.1 member
  obtain ⟨target, _, rfl⟩ := mem_map.1 inCalls
  cases role : item.role <;> rfl

theorem map_calls (items : List Item) :
    (items.flatMap Item.calls).map (fun call => call.2.toString) = (targetsOf items).map toString := by
  induction items with
  | nil => rfl
  | cons item rest ih =>
    rw [flatMap_cons, map_append, ih]
    cases target : item.fate.target? <;> simp [Item.calls, targetsOf, target]

theorem artifactPlaces_fine : Event.artifactPlaces.Nodup ∧ ∀ place ∈ Event.artifactPlaces, ∀ name ∈ place, Path.ValidName name := by
  decide +kernel

theorem target_not_artifact {target : Path} (valid : output.Valid) {clear : Prop} {place : List String}
    (spot : Output.Spot clear names) (went : target = output.below names ∨
      ∃ name, target = output.below (names.dropLast ++ [name]) ∧ Path.ValidName name ∧ '-' ∈ name.toList)
    (artifact : place ∈ Event.artifactPlaces) : target.toString ≠ (output.below place).toString := by
  have fine := artifactPlaces_fine.2 place artifact
  obtain ⟨plain, numbered⟩ := spot.region.not_artifact
  rintro same
  rcases went with rfl | ⟨name, rfl, right, dash⟩
  · exact plain (below_inj valid spot.valid fine same ▸ artifact)
  · have all : ∀ other ∈ names.dropLast ++ [name], Path.ValidName other :=
      forall_mem_append.2 ⟨fun other member => spot.valid other (dropLast_subset _ member), by simpa using right⟩
    exact numbered name dash (below_inj valid all fine same ▸ artifact)

theorem runSession_stores_distinct
    (stock : ∀ adapter, session.adapter = some adapter ∨ adapter ∈ session.candidates → adapter.Stock)
    (regular : session.world.disk.Regular) (source : session.source.Resolved) (output : session.output.Resolved)
    (unused : session.names.taken = []) (observer : Option Observer) (started : Moment) :
    ∃ calls, (runSession observer started session).1.world.calls = session.world.calls ++ calls ∧
      ((calls.filter stores).map (fun call => call.2.toString)).Nodup := by
  obtain ⟨items, held, untouched, journal, fits, _, made, some, calls⟩ := runSession_writes observer started session
  obtain ⟨more, grown, kinds⟩ := untouched.calls
  have taken := journal.taken
  have distinct := journal.nodup (by rw [untouched.names, unused]; exact nodup_nil)
  rw [taken, untouched.names, unused, append_nil, nodup_reverse] at distinct
  have given : (((if session.options.dryRun then [] else items.flatMap Item.calls).filter stores).map
      (fun call => call.2.toString)).Sublist ((targetsOf items).map toString) := by
    split
    · exact nil_sublist _
    · rw [filter_stores_calls, map_calls]
  have quiet : more.filter stores = [] := by
    refine filter_eq_nil_iff.2 (fun call member => ?_)
    rcases kinds call member with kind | kind <;> simp [stores, kind]
  have written : (made.map (fun names => (FileOperation.writeText, session.output.below names))).filter stores =
      made.map (fun names => (FileOperation.writeText, session.output.below names)) := by
    refine filter_eq_self.2 (fun call member => ?_)
    obtain ⟨names, _, rfl⟩ := mem_map.1 member
    rfl
  refine ⟨more ++ ((if session.options.dryRun then [] else items.flatMap Item.calls)
    ++ made.map (fun names => (.writeText, session.output.below names))), by rw [calls, grown]; simp, ?_⟩
  rw [filter_append, filter_append, quiet, written, nil_append, map_append, map_map]
  refine nodup_append.2 ⟨distinct.sublist given, ?_, fun text inGiven other inMade same => ?_⟩
  · refine List.Nodup.map_on (fun first inFirst second inSecond same => ?_) (artifactPlaces_fine.1.sublist some)
    exact below_inj output.valid (artifactPlaces_fine.2 first (some.subset inFirst))
      (artifactPlaces_fine.2 second (some.subset inSecond)) same
  · obtain ⟨target, inTargets, rfl⟩ := mem_map.1 (given.subset inGiven)
    obtain ⟨place, inPlaces, rfl⟩ := mem_map.1 inMade
    obtain ⟨item, member, is⟩ := mem_filterMap.1 inTargets
    obtain ⟨requested, asked, offers⟩ := journal.offers item member target is
    obtain ⟨chosen, found, _, surveyed, suits⟩ := fits item member
    obtain ⟨names, spot, went⟩ := target_cases stock regular source surveyed suits asked offers
    exact target_not_artifact output.valid spot went (some.subset inPlaces) same

/-- In one run no path is stored to twice, whichever files fail to be made or stored: neither those of the
    project's own files nor those of the files that belong to the output as a whole. -/
theorem migrate_stores_distinct {migration : Migration} (stocked : migration.Stocked) {world : World}
    (regular : world.disk.Regular) (source : String) (observer : Option Observer) (texts : List ExtractedText) :
    ∃ calls, (migration.migrate source observer texts world).2.calls = world.calls ++ calls ∧
      ((calls.filter stores).map (fun call => call.2.toString)).Nodup := by
  cases begins : migration.session source texts world.readClock.2 with
  | error fault =>
    refine ⟨[], ?_, nodup_nil⟩
    simp only [migrate, begins, append_nil]
    rfl
  | ok session =>
    obtain ⟨sourcePath, outputPath, sourceFound, outputFound, rfl⟩ := session_eq_ok begins
    have same : (migration.migrate source observer texts world).2 =
        (runSession observer world.readClock.1 (migration.fresh sourcePath outputPath texts world.readClock.2)).1.world := by
      simp only [migrate, begins]
    rw [same]
    exact @runSession_stores_distinct (migration.fresh sourcePath outputPath texts world.readClock.2) stocked regular
      (Disk.resolved_of_resolveUser regular.start (ofString_valid source) sourceFound)
      (Disk.resolved_of_resolveUser regular.start (ofString_valid _) outputFound) rfl observer _

def brokenAdapter : Adapter :=
  { plainRegistry.ofDialect Dialect.lovable with
    component := fun disk component analysis =>
      if component.name = "B" then throw (.supplied "broken") else
        (plainRegistry.ofDialect Dialect.lovable).component disk component analysis }

theorem broken_stock : brokenAdapter.Stock := by
  refine ⟨plainRegistry.ofDialect Dialect.lovable, ⟨plainRegistry, Dialect.lovable, by simp [Registry.builtin], rfl⟩, ?_⟩
  refine { Adapter.Faulty.refl (plainRegistry.ofDialect Dialect.lovable) with component := ?_ }
  intro disk component analysis value yields
  unfold brokenAdapter at yields
  dsimp only at yields
  split at yields
  · cases yields
  · exact yields

def brokenMigration : Migration := { builtin plainRegistry plainRegistry none with adapter := some brokenAdapter }

theorem broken_stocked : brokenMigration.Stocked := by
  rintro adapter (chosen | offered)
  · cases chosen
    exact broken_stock
  · obtain ⟨dialect, member, rfl⟩ := mem_map.1 offered
    exact Adapter.Builtin.stock ⟨plainRegistry, dialect, member, rfl⟩

/-- A world with components of one name in two directories, and without space for some of the styles. -/
def crowdedWorld : World :=
  { buttonWorld with
    disk :=
      { root := .directory
          [("project", .directory
            [("lovable.json", .file []),
             ("src", .directory [("components", .directory
               [("A.tsx", .file (Text.Utf8.encode "<LovableButton/>")),
                ("B.tsx", .file (Text.Utf8.encode "<LovableButton/>")),
                ("inner", .directory [("A.tsx", .file (Text.Utf8.encode "<LovableButton/>"))])])])])]
        workingDirectory := []
        homes := [] }
    refuses := fun operation path => operation = .writeText && path.name = "tokens.css" }

theorem crowded_regular : crowdedWorld.disk.Regular := ⟨by decide +kernel, by decide +kernel, by decide⟩

theorem migrate_stores_distinct_crowded :
    brokenMigration.Stocked ∧ crowdedWorld.disk.Regular ∧
      ((brokenMigration.migrate "/project" none [] crowdedWorld).2.calls.filter stores).map (fun call => call.2.toString) =
        ["/out/src/components/A.jsx", "/out/src/components/A-2.jsx", "/out/src/styles/globals.css",
          "/out/src/styles/tokens.css", "/out/tailwind.config.js", "/out/vite.config.ts", "/out/package.json",
          "/out/README.md"] ∧
      ∃ calls, (brokenMigration.migrate "/project" none [] crowdedWorld).2.calls = crowdedWorld.calls ++ calls ∧
        ((calls.filter stores).map (fun call => call.2.toString)).Nodup := by
  exact ⟨broken_stocked, crowded_regular, by decide +kernel,
    migrate_stores_distinct broken_stocked crowded_regular "/project" none []⟩

end Migration

namespace Path

variable {path base : Path}

theorem Valid.below (valid : base.Valid) (fine : ∀ name ∈ names, ValidName name) :
    (base.below names).Valid :=
  forall_mem_append.2 ⟨valid, fine⟩

theorem Valid.parent (valid : path.Valid) : path.parent.Valid :=
  fun name member => valid name (dropLast_subset _ member)

theorem Valid.join (valid : base.Valid) (fine : path.Valid) : (base.join path).Valid := by
  unfold Path.join
  split
  · exact fine
  · exact valid.below fine

end Path

namespace Output

variable {root path target : Path}

theorem under_valid (valid : root.Valid) (texts : List String) : (under root texts).Valid := by
  induction texts generalizing root with
  | nil => exact valid
  | cons text rest ih => exact ih (valid.join (Path.ofString_valid text))

theorem Names.Offers.valid (valid : path.Valid) (offers : Offers path target) : target.Valid := by
  rcases offers with rfl | ⟨n, rfl⟩
  · exact valid
  · refine valid.parent.below ?_
    simpa using (valid_numbered (Path.clear_name valid) n).1

theorem nesting_valid (component : Component) (analysis : Analysis) :
    ∀ name ∈ nesting component analysis, Path.ValidName name := by
  intro name member
  unfold nesting Path.relativeTo? at member
  split at member
  · exact (Path.ofString_valid component.path).parent name (mem_of_mem_drop member)
  · cases member

theorem componentPath_valid (valid : root.Valid) (component : Component) (analysis : Analysis) (options : Options) :
    (componentPath root component analysis options).Valid := by
  unfold componentPath
  split
  · exact under_valid valid _
  · refine under_valid ?_ _
    split
    · exact (under_valid valid _).below (nesting_valid component analysis)
    · exact under_valid valid _

theorem pagePath_valid (valid : root.Valid) (page : Page) (analysis : Analysis) (options : Options) :
    (pagePath root page analysis options).Valid := by
  unfold pagePath
  split <;> exact under_valid valid _

theorem assetPath_valid (valid : root.Valid) (asset : Asset) (publicDir : Option String) :
    (assetPath root asset publicDir).Valid := by
  refine Path.Valid.join ?_ (Path.ofString_valid asset.name)
  split <;> exact under_valid valid _

end Output

theorem Placed.valid {path : Path} {options : Options} {adapter : Adapter} {analysis : Analysis} {role : Role}
    {file : String} (valid : output.Valid) (placed : Placed output options adapter analysis role file path) :
    path.Valid := by
  have beside {owner : Path} {component : Component} (companion : String)
      (given : Output.Names.Offers (Output.componentPath output component analysis options) owner) :
      (Output.companionPath owner companion).Valid :=
    Output.under_valid (given.valid (Output.componentPath_valid valid component analysis options)).parent _
  cases placed with
  | component => exact Output.componentPath_valid valid _ _ _
  | test _ _ given => exact beside _ given
  | story _ _ given => exact beside _ given
  | page => exact Output.pagePath_valid valid _ _ _
  | asset => exact Output.assetPath_valid valid _ _
  | style | carriedStyle | configuration => exact Output.under_valid valid _

namespace Session

/-- Calls are listed together with what they came to. -/
structure Recorded (s t : Session) (calls : List Performed) : Prop where
  history : t.world.history = s.world.history ++ calls
  calls : t.world.calls = s.world.calls ++ calls.map (fun call => (call.operation, call.path))

theorem Step.recorded {event : Event} {s t : Session} (step : Step event s t) : ∃ calls, Recorded s t calls := by
  have quiet {t : Session} (history : t.world.history = s.world.history) (calls : t.world.calls = s.world.calls) :
      ∃ calls, Recorded s t calls := ⟨[], by simp [history], by simp [calls]⟩
  have performed (call : Call) {outcome : Except Fault Unit} {world : World}
      (run : call.perform s.world = (outcome, world)) {t : Session} (there : t.world = world) :
      ∃ calls, Recorded s t calls := by
    rcases call.perform_cases s.world with ⟨_, ran⟩ | ⟨_, disk, _, ran⟩ | ⟨disk, _, ran⟩
    · cases run.symm.trans ran
      exact ⟨[⟨call.operation, call.path, false, s.world.disk⟩], by rw [there]; rfl, by rw [there]; rfl⟩
    · cases run.symm.trans ran
      exact ⟨[⟨call.operation, call.path, false, disk⟩], by rw [there]; rfl, by rw [there]; rfl⟩
    · cases run.symm.trans ran
      exact ⟨[⟨call.operation, call.path, true, disk⟩], by rw [there]; rfl, by rw [there]; rfl⟩
  cases step with
  | failed _ call _ run => exact performed call run rfl
  | made _ path _ run => exact performed _ run rfl
  | backedUp _ path _ run => exact performed _ run rfl
  | delivered _ call _ _ run => exact performed call run rfl
  | added _ call _ _ run => exact performed call run rfl
  | _ => exact quiet rfl rfl

theorem Trace.recorded {allowed : Event → Prop} {s t : Session} (trace : Trace allowed s t) :
    ∃ calls, Recorded s t calls := by
  induction trace with
  | refl => exact ⟨[], by simp, by simp⟩
  | tail _ last ih =>
    obtain ⟨calls, first⟩ := ih
    obtain ⟨_, _, step⟩ := last
    obtain ⟨more, second⟩ := step.recorded
    refine ⟨calls ++ more, ?_, ?_⟩
    · rw [second.history, first.history, append_assoc]
    · rw [second.calls, first.calls, map_append, append_assoc]

end Session

namespace Migration

open Session

theorem runSession_recorded (observer : Option Observer) (started : Moment) (session : Session) :
    ∃ calls, Recorded session (runSession observer started session).1 calls := by
  obtain ⟨calls, first⟩ := (prepared_trace observer session).recorded
  obtain ⟨more, second⟩ := (completed_trace observer session).recorded
  have last : (runSession observer started session).1.world.history = (completed observer session).2.1.world.history ∧
      (runSession observer started session).1.world.calls = (completed observer session).2.1.world.calls := by
    rw [runSession_eq]
    cases (completed observer session).1 <;> exact ⟨rfl, rfl⟩
  refine ⟨calls ++ more, ?_, ?_⟩
  · rw [last.1, second.history, first.history, append_assoc]
  · rw [last.2, second.calls, first.calls, map_append, append_assoc]

theorem creates_valid {observer : Option Observer} {started : Moment} {session : Session}
    (valid : session.output.Valid) {calls : List Performed}
    (recorded : Recorded session (runSession observer started session).1 calls) {call : Performed}
    (member : call ∈ calls) (creates : call.creates = true) : call.path.Valid := by
  obtain ⟨items, held, untouched, journal, fits, _, made, some, wrote⟩ := runSession_writes observer started session
  obtain ⟨more, grown, kinds⟩ := untouched.calls
  have listed : (call.operation, call.path) ∈ more ++ (if session.options.dryRun then [] else items.flatMap Item.calls)
      ++ made.map (fun names => (.writeText, session.output.below names)) := by
    have same := recorded.calls
    rw [wrote, grown, append_assoc, append_assoc] at same
    rw [append_assoc, append_cancel_left same]
    exact mem_map_of_mem member
  have kind : call.operation = .writeText ∨ call.operation = .copyFile := by
    have both : call.succeeded = true ∧ (call.operation = .writeText ∨ call.operation = .copyFile) := by
      simpa [Performed.creates] using creates
    exact both.2
  rcases mem_append.1 listed with listed | inMade
  · rcases mem_append.1 listed with inMore | inItems
    · rcases kinds _ inMore with is | is <;> rcases kind with other | other <;> cases is.symm.trans other
    · split at inItems
      · cases inItems
      · obtain ⟨item, inJournal, inCalls⟩ := mem_flatMap.1 inItems
        obtain ⟨target, went, same⟩ := mem_map.1 inCalls
        obtain ⟨requested, asked, offers⟩ := journal.offers item inJournal target (by simpa using went)
        obtain ⟨chosen, found, _, _, suits⟩ := fits item inJournal
        rw [← (Prod.mk.inj same).2]
        exact offers.valid ((suits requested asked).valid valid)
  · obtain ⟨names, inNames, same⟩ := mem_map.1 inMade
    rw [← (Prod.mk.inj same).2]
    exact valid.below (artifactPlaces_fine.2 names (some.subset inNames))

end Migration
end Refit
