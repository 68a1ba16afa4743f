import Refit.Proofs.Run.Backup
import Refit.Proofs.Run.DryMigration

namespace Refit

open Disk DiskAction

namespace Adapter.Builtin

variable {adapter : Adapter} {start disk : Disk} {source : Path}

theorem looksDown {dialect : Dialect} (member : dialect ∈ Registry.builtin) :
    dialect.looksDown = true ∧ dialect.layout.looksDown = true := by
  simp only [Registry.builtin, List.mem_cons, List.not_mem_nil, or_false] at member
  rcases member with rfl | rfl <;> decide

section

variable (builtin : adapter.Builtin)
include builtin

theorem recognises_eq (tidy : start.root.tidy = true)
    (same : SameBelow source start disk) : adapter.recognises disk source = adapter.recognises start source := by
  obtain ⟨registry, dialect, member, rfl⟩ := builtin
  exact Dialect.recognises_local tidy same (looksDown member).1

theorem analyze_eq (tidy : start.root.tidy = true) (resolved : source.Resolved)
    (same : SameBelow source start disk) (texts : List ExtractedText) :
    adapter.analyze disk source texts = adapter.analyze start source texts := by
  obtain ⟨registry, dialect, member, rfl⟩ := builtin
  have unfolded (disk : Disk) : (registry.ofDialect dialect).analyze disk source texts =
      Report.ofExcept (disk.resolveUser source) >>= fun root =>
        Survey.analyze ⟨disk, root, dialect.layout, registry.rules⟩ texts := rfl
  have below : Survey.analyze ⟨disk, source, dialect.layout, registry.rules⟩ texts =
      Survey.analyze ⟨start, source, dialect.layout, registry.rules⟩ texts :=
    @Survey.analyze_local ⟨start, source, dialect.layout, registry.rules⟩ disk same tidy (looksDown member).2 texts
  rw [unfolded, unfolded, resolveUser_resolved _ resolved, resolveUser_resolved _ resolved]
  by_cases null : source.names.any (·.toList.contains '\x00') = true
  · rw [if_pos null]
    simp only [Report.ofExcept, throw_bind]
  · rw [if_neg null]
    simp only [Report.ofExcept, pure_bind, below]

theorem analyze_grounded (regular : start.Regular) (resolved : source.Resolved)
    {texts : List ExtractedText} {analysis : Analysis} {records after : List Log.Record}
    (run : exec (adapter.analyze start source texts) records = (.ok analysis, after)) :
    analysis.Grounded start source := by
  obtain ⟨registry, dialect, member, rfl⟩ := builtin
  obtain ⟨root, middle, found, run⟩ := exec_bind_ok run
  have known := Report.exec_ofExcept_ok found
  rw [resolveUser_resolved _ resolved] at known
  split at known
  · cases known
  · cases known
    exact @Survey.analyze_grounded ⟨start, source, dialect.layout, registry.rules⟩ _ _ _ _ regular resolved.valid
      (looksDown member).2 run

theorem populated_of_recognises {records after : List Log.Record}
    (run : exec (adapter.recognises start source) records = (.ok true, after)) :
    ∃ name, start.at? [name] ≠ none := by
  obtain ⟨registry, dialect, member, rfl⟩ := builtin
  refine Classical.byContradiction (fun nothing => ?_)
  have bare : start.Bare source := by
    intro names nonempty plain
    cases found : start.entry? (source.below names) with
    | none => rfl
    | some entry =>
      obtain ⟨place, located, holds⟩ := entry?_some.1 found
      have reached := eq_placeOf located
      rw [placeOf_below start source plain] at reached
      cases place with
      | nil => simp [nonempty] at reached
      | cons name rest =>
        refine (nothing ⟨name, fun absent => ?_⟩).elim
        have stands : start.at? ([name] ++ rest) ≠ none := by simp [Disk.at?, Entry.at?, holds]
        cases rest with
        | nil => exact stands absent
        | cons other rest =>
          have notDirectory : start.at? [name] ≠ some .directory := by simp [absent]
          exact stands (at?_below_none (List.cons_ne_nil other rest) notDirectory)
  have missed : (registry.ofDialect dialect).recognises start source = pure false :=
    Dialect.recognises_bare bare (looksDown member).1
  rw [missed] at run
  cases run

end

end Adapter.Builtin

namespace Stage

open Session Setting Event

variable {setting : Setting} {real : Session} {world : World} {disk : Disk} {fine : List Performed → Prop}
  {adapters : List Adapter} {project : Path}

theorem select_congr {other : Disk}
    (same : ∀ adapter ∈ adapters, adapter.recognises other project = adapter.recognises disk project) :
    select other project adapters = select disk project adapters := by
  induction adapters with
  | nil => rfl
  | cons adapter rest ih =>
    simp only [select, same adapter (by simp), ih (fun other member => same other (by simp [member]))]

theorem recognises_of_select {chosen : Adapter} {records after : List Log.Record}
    (run : exec (select disk project adapters) records = (.ok (some chosen), after)) :
    chosen ∈ adapters ∧ ∃ before later, exec (chosen.recognises disk project) before = (.ok true, later) := by
  induction adapters generalizing records with
  | nil =>
    obtain ⟨_, _, _, last⟩ := exec_bind_ok run
    cases last
  | cons adapter rest ih =>
    obtain ⟨answer, middle, recognised, run⟩ := exec_bind_ok run
    cases answer with
    | true =>
      obtain ⟨_, _, _, last⟩ := exec_bind_ok run
      cases last
      exact ⟨by simp, records, middle, recognised⟩
    | false =>
      obtain ⟨member, found⟩ := ih run
      exact ⟨by simp [member], found⟩

/-- A run that has not done more than log. -/
structure Fresh (setting : Setting) (real : Session) (world : World) : Prop where
  mirrored : setting.Mirrored real world
  offered : ∀ adapter ∈ real.candidates, adapter.Builtin
  relogged : World.Relogged setting.start real.world ∧ World.Relogged setting.start world

theorem Fresh.noteAll (fresh : Fresh setting real world) (records : List Log.Record) :
    Fresh setting { real with world := real.world.noteAll records } (world.noteAll records) :=
  ⟨fresh.mirrored.noteAll records, fresh.offered, fresh.relogged.1.noteAll records,
    fresh.relogged.2.noteAll records⟩

theorem Fresh.recognises_eq (fresh : Fresh setting real world) {adapter : Adapter} (builtin : adapter.Builtin) :
    adapter.recognises real.world.disk real.source = adapter.recognises setting.start.disk real.source ∧
      adapter.recognises world.disk real.source = adapter.recognises setting.start.disk real.source := by
  rw [fresh.mirrored.source]
  exact ⟨builtin.recognises_eq setting.regular.tidy (fresh.relogged.1.sameBelow setting.apart),
    builtin.recognises_eq setting.regular.tidy (fresh.relogged.2.sameBelow setting.apart)⟩

/-- As long as all is fine, a dry run does in a step what a real run does, and both go on from related
    sessions if the step succeeds. -/
def Leads (fine : List Performed → Prop) (reached : Session → World → Prop) (step : Stage Unit)
    (real : Session) (world : World) : Prop :=
  fine (exec step real).2.world.history →
    ∃ after, exec step (real.dry world) = ((exec step real).1, (exec step real).2.dry after) ∧
      ((exec step real).1 = .ok () → reached (exec step real).2 after)

theorem leads_seq {first second : Session → World → Prop} {step next : Stage Unit}
    (leads : Leads setting.Fine first step real world)
    (grows : ∀ after, after.world.history <+: (exec next after).2.world.history)
    (further : ∀ after later, first after later → Leads setting.Fine second next after later) :
    Leads setting.Fine second (do step; next) real world := by
  intro ends
  rw [exec_bind] at ends ⊢
  rw [exec_bind]
  rcases run : exec step real with ⟨outcome, after⟩
  unfold Leads at leads
  rw [run] at ends leads
  cases outcome with
  | error fault =>
    obtain ⟨later, same, _⟩ := leads ends
    rw [same]
    exact ⟨later, rfl, fun impossible => nomatch impossible⟩
  | ok =>
    obtain ⟨later, same, reached⟩ := leads (ends.before (grows after))
    rw [same]
    exact further after later (reached rfl) ends

theorem validate_leads (fresh : Fresh setting real world) :
    Leads fine (fun real world => Fresh setting real world ∧ ∃ name, setting.start.disk.at? [name] ≠ none)
      validate real world := by
  intro _
  have sameAdapter : (real.dry world).adapter = real.adapter := rfl
  unfold validate
  rw [exec_get_bind, exec_get_bind, sameAdapter]
  cases known : real.adapter with
  | none =>
    have onReal : select real.world.disk real.source real.candidates =
        select setting.start.disk real.source real.candidates :=
      select_congr (fun adapter member => (fresh.recognises_eq (fresh.offered adapter member)).1)
    have onDry : select (real.dry world).world.disk (real.dry world).source (real.dry world).candidates =
        select setting.start.disk real.source real.candidates :=
      select_congr (fun adapter member => (fresh.recognises_eq (fresh.offered adapter member)).2)
    rw [exec_bind, exec_bind, onReal, onDry, exec_report, exec_report]
    rcases chose : exec (select setting.start.disk real.source real.candidates) [] with ⟨outcome, records⟩
    have noted := fresh.noteAll records
    cases outcome with
    | error fault => exact ⟨world.noteAll records, rfl, fun impossible => nomatch impossible⟩
    | ok answer =>
      cases answer with
      | none => exact ⟨world.noteAll records, rfl, fun impossible => nomatch impossible⟩
      | some adapter =>
        obtain ⟨member, _, _, recognised⟩ := recognises_of_select chose
        have builtin := fresh.offered adapter member
        refine ⟨world.noteAll records, rfl, fun _ => ⟨?_, builtin.populated_of_recognises recognised⟩⟩
        exact
          { noted with
            mirrored := { noted.mirrored with
              builtin := fun other is => by
                cases is
                exact builtin } }
  | some adapter =>
    have builtin := fresh.mirrored.builtin adapter known
    have onReal := (fresh.recognises_eq builtin).1
    have onDry : adapter.recognises (real.dry world).world.disk (real.dry world).source =
        adapter.recognises setting.start.disk real.source := (fresh.recognises_eq builtin).2
    rw [exec_bind, exec_bind, onReal, onDry, exec_report, exec_report]
    rcases asked : exec (adapter.recognises setting.start.disk real.source) [] with ⟨outcome, records⟩
    have noted := fresh.noteAll records
    cases outcome with
    | error fault => exact ⟨world.noteAll records, rfl, fun impossible => nomatch impossible⟩
    | ok answer =>
      cases answer with
      | false => exact ⟨world.noteAll records, rfl, fun impossible => nomatch impossible⟩
      | true => exact ⟨world.noteAll records, rfl, fun _ => ⟨noted, builtin.populated_of_recognises asked⟩⟩

theorem analyze_leads (fresh : Fresh setting real world) :
    Leads fine (fun real world => ∃ analysis grounded, Fresh (setting.analyzed analysis grounded) real world)
      analyze real world := by
  intro _
  have sameAdapter : (real.dry world).adapter = real.adapter := rfl
  unfold analyze
  rw [exec_get_bind, exec_get_bind, exec_bind, exec_bind, exec_adapter, exec_adapter, sameAdapter]
  cases known : real.adapter with
  | none => exact ⟨world, rfl, fun impossible => nomatch impossible⟩
  | some adapter =>
    have builtin := fresh.mirrored.builtin adapter known
    have onReal : adapter.analyze real.world.disk real.source real.texts =
        adapter.analyze setting.start.disk setting.source real.texts := by
      rw [fresh.mirrored.source]
      exact builtin.analyze_eq setting.regular.tidy setting.sourceResolved
        (fresh.relogged.1.sameBelow setting.apart) real.texts
    have onDry : adapter.analyze (real.dry world).world.disk (real.dry world).source (real.dry world).texts =
        adapter.analyze setting.start.disk setting.source real.texts := by
      have same : (real.dry world).source = setting.source := fresh.mirrored.source
      rw [same]
      exact builtin.analyze_eq setting.regular.tidy setting.sourceResolved
        (fresh.relogged.2.sameBelow setting.apart) real.texts
    dsimp only [Option.elim]
    rw [exec_bind, exec_bind, onReal, onDry, exec_report, exec_report]
    rcases surveyed : exec (adapter.analyze setting.start.disk setting.source real.texts) [] with ⟨outcome, records⟩
    cases outcome with
    | error fault => exact ⟨world.noteAll records, rfl, fun impossible => nomatch impossible⟩
    | ok analysis =>
      have noted := fresh.noteAll records
      have grounded := builtin.analyze_grounded setting.regular setting.sourceResolved surveyed
      refine ⟨world.noteAll records, rfl, fun _ => ⟨analysis, grounded, ?_⟩⟩
      exact
        { noted with
          mirrored := { noted.mirrored with analysis := rfl } }

theorem isPopulated_relogged {start : World} (relogged : World.Relogged start world) (path : Path) :
    isPopulated world.disk path = isPopulated start.disk path :=
  isPopulated_congr relogged.touched.changes.workingDirectory
    (relogged.touched.isDirectory (fun _ there => there.2)) path

theorem isPopulated_root {path : Path} (resolved : path.Resolved) (root : path.names = [])
    (something : ∃ name, disk.at? [name] ≠ none) : isPopulated disk path = true := by
  obtain ⟨name, inner⟩ := something
  have located : disk.locate path = .ok [] := by
    rw [locate, absoluteNames_resolved disk resolved, root]
    rfl
  have stands : disk.at? [] = some .directory := by
    refine Entry.at?_above (List.cons_ne_nil name []) ?_
    exact inner
  exact isPopulated_iff.2 ⟨[], located, stands, name, inner⟩

theorem entry_of_copyTree {after : Disk} {source path : Path}
    (run : exec (copyTree source path) disk = (.ok (), after)) :
    ∃ tree, disk.entry source = .ok tree := by
  rw [copyTree, exec_get_bind] at run
  cases found : disk.entry source with
  | error refusal =>
    rw [found] at run
    cases run
  | ok tree => exact ⟨tree, rfl⟩

theorem harmless_backup (fresh : Fresh setting real world)
    (something : ∃ name, setting.start.disk.at? [name] ≠ none) {moment : Moment} {recorded : Disk}
    (run : exec (copyTree real.source (backupPath real moment)) real.world.disk = (.ok (), disk))
    (harmless : Performed.Harmless setting.start.disk setting.source setting.output
      ⟨.copyTree, backupPath real moment, true, recorded⟩) :
    Keeps setting.start.disk setting.source disk ∧
      isPopulated disk setting.output = isPopulated setting.start.disk setting.output := by
  obtain ⟨tree, found⟩ := entry_of_copyTree run
  have keeps := fresh.mirrored.keeps.1
  have tidy : tree.tidy = true := by
    obtain ⟨place, _, holds⟩ := entry_ok.1 found
    exact Entry.tidy_get? keeps.tidy holds
  have touched : Touched (DiskAction.Around real.world.disk (backupPath real moment))
      (tree.Lands (real.world.disk.placeOf (backupPath real moment))) real.world.disk disk := by
    have alters : DiskAction.Alters (DiskAction.Around real.world.disk (backupPath real moment))
        (tree.Lands (real.world.disk.placeOf (backupPath real moment)))
        (copyTree real.source (backupPath real moment)) real.world.disk :=
      copyTree_alters found tidy
    rwa [DiskAction.Alters, run] at alters
  -- The tree that is copied is the project as it was at the start.
  have sameTree : setting.start.disk.root.get? (setting.start.disk.placeOf setting.source) = some tree := by
    have whole : real.source.Within setting.source := ⟨[], by simp, by simp [Path.below, fresh.mirrored.source]⟩
    have same := fresh.relogged.1.sameBelow setting.apart real.source whole
    rw [found] at same
    obtain ⟨place, located, holds⟩ := entry_ok.1 same.symm
    rw [← fresh.mirrored.source, ← eq_placeOf located]
    exact holds
  constructor
  · refine keeps.changes touched.changes (fun place lands => harmless.spares place ⟨tree, sameTree, ?_⟩)
    rwa [keeps.placeOf] at lands
  · have before := isPopulated_relogged fresh.relogged.1 setting.output
    rw [← before]
    by_cases root : setting.output.names = []
    · have populated : isPopulated real.world.disk setting.output = true := by
        rw [before]
        exact isPopulated_root setting.outputResolved root something
      rw [populated]
      exact isPopulated_of_changes touched.changes populated
    · have source : real.source.Resolved := fresh.mirrored.source ▸ setting.sourceResolved
      have output : real.output.Resolved := fresh.mirrored.output ▸ setting.outputResolved
      have resolved := backupPath_resolved source output moment
      have different : backupPath real moment ≠ setting.output := by
        intro same
        exact harmless.apart rfl (by rw [same])
      have named := backupPath_eq source.valid moment
      rw [fresh.mirrored.output] at named
      rw [named] at resolved different
      have unchanged := isPopulated_copyTree found tidy setting.outputResolved root resolved different
      rwa [← named, run] at unchanged

/-- A run that may have taken a backup, but whose output is as empty as it was. -/
structure Backed (setting : Setting) (real : Session) (world : World) : Prop where
  mirrored : setting.Mirrored real world
  relogged : World.Relogged setting.start world
  populated : isPopulated real.world.disk setting.output = isPopulated setting.start.disk setting.output

theorem isPopulated_note (world : World) (record : Log.Record) (path : Path) :
    isPopulated (world.note record).disk path = isPopulated world.disk path := by
  have touched := World.note_touched world record
  exact isPopulated_congr touched.changes.workingDirectory (touched.isDirectory (fun _ there => there.2)) path

theorem Backed.note (backed : Backed setting real world) (record : Log.Record) :
    Backed setting { real with world := real.world.note record } (world.note record) :=
  ⟨backed.mirrored.noteAll [record], backed.relogged.note record,
    (isPopulated_note real.world record setting.output).trans backed.populated⟩

theorem Fresh.backed (fresh : Fresh setting real world) : Backed setting real world :=
  ⟨fresh.mirrored, fresh.relogged.2, isPopulated_relogged fresh.relogged.1 setting.output⟩

theorem backup_leads (fresh : Fresh setting real world) (something : ∃ name, setting.start.disk.at? [name] ≠ none) :
    Leads setting.Fine (Backed setting) (do let _ ← backup) real world := by
  have pretended : exec backup (real.dry world) = (.ok none, real.dry world) :=
    exec_backup_unwanted (by simp [Session.dry])
  intro ends
  rw [exec_bind] at ends ⊢
  rw [exec_bind, pretended]
  cases wanted : !real.options.createBackup || real.options.dryRun with
  | true =>
    rw [exec_backup_unwanted wanted]
    exact ⟨world, rfl, fun _ => fresh.backed⟩
  | false =>
    obtain ⟨path, is, ⟨fault, after, failed, run⟩ | ⟨after, done, run⟩⟩ := exec_backup_wanted wanted
    · exfalso
      rw [run] at ends
      obtain ⟨disk, _, rfl⟩ := Call.perform_error failed
      cases (Setting.Fine.last ends fresh.mirrored.grown).succeeded
    · rw [run] at ends ⊢
      obtain ⟨disk, acted, rfl⟩ := Call.perform_ok done
      have harmless := Setting.Fine.last ends fresh.mirrored.grown
      subst is
      obtain ⟨keeps, populated⟩ := harmless_backup fresh something acted harmless
      refine ⟨world, rfl, fun _ => ⟨?_, fresh.relogged.2, (isPopulated_note _ _ _).trans populated⟩⟩
      let taken : World := (timed real).world.record .copyTree (backupPath real real.world.readClock.1) true disk
      have handlers : taken.log.handlers = setting.start.log.handlers := fresh.mirrored.handlers.1
      have kept : Keeps setting.start.disk setting.source taken.disk := keeps
      exact
        { fresh.mirrored with
          grown := Nat.le_trans fresh.mirrored.grown (by simp [backedUp, World.note, World.record, timed, World.readClock])
          handlers := ⟨(World.handlers_note taken _).trans handlers, fresh.mirrored.handlers.2⟩
          keeps := ⟨World.keeps_note setting.apart handlers kept _, fresh.mirrored.keeps.2⟩ }

theorem vacant_of_unpopulated (empty : isPopulated setting.start.disk setting.output = false) :
    setting.Vacant := by
  intro name rest
  cases found : setting.start.disk.at? (setting.start.disk.placeOf setting.output ++ name :: rest) with
  | none => rfl
  | some standing =>
    rw [placeOf_resolved _ setting.outputResolved] at found
    have populated := isPopulated_of_below setting.outputResolved found
    exact nomatch empty.symm.trans populated

theorem forM_makeDirectory_mirrored {paths : List Path} (mirrored : setting.Mirrored real world)
    (ends : setting.Fine (exec (paths.forM makeDirectory) real).2.world.history) :
    ∃ after, exec (paths.forM makeDirectory) real = (.ok (), { real with world := after }) ∧
      setting.Mirrored { real with world := after } world := by
  induction paths generalizing real with
  | nil => exact ⟨real.world, rfl, mirrored⟩
  | cons path rest ih =>
    have unfolded (s : Session) : exec ((path :: rest).forM makeDirectory) s =
        exec (do makeDirectory path; rest.forM makeDirectory) s := rfl
    rw [unfolded, exec_bind, exec_makeDirectory] at ends ⊢
    rcases run : (Call.makeDirectory path).perform real.world with ⟨outcome, after⟩
    rw [run] at ends
    cases outcome with
    | error fault =>
      obtain ⟨disk, _, rfl⟩ := Call.perform_error run
      cases (Setting.Fine.last ends mirrored.grown).succeeded
    | ok =>
      obtain ⟨disk, acted, rfl⟩ := Call.perform_ok run
      have touched : Touched (fun _ => True) (fun _ => False) real.world.disk disk := by
        have alters : DiskAction.Alters (fun _ => True) (fun _ => False) (makeDirectories path)
          real.world.disk := makeDirectories_alters path real.world.disk
        have ran : exec (makeDirectories path) real.world.disk = (.ok (), disk) := acted
        rwa [DiskAction.Alters, ran] at alters
      have made : setting.Mirrored
          { real with world := real.world.record .ensureDirectory path true disk } world :=
        { mirrored with
          grown := Nat.le_trans mirrored.grown (by simp [World.record])
          keeps := ⟨mirrored.keeps.1.changes touched.changes (fun _ impossible => impossible.elim),
            mirrored.keeps.2⟩ }
      exact ih made ends

theorem exec_setup (s : Session) :
    exec setup s =
      match s.world.blind with
      | some fault => (.error fault, s)
      | none =>
        if isPopulated s.world.disk s.output then (.error (.outputNotEmpty s.output.toString), s)
        else if s.options.dryRun then (.ok (), s)
        else exec ((skeleton s.output s.options.platform).forM makeDirectory) s := by
  rw [setup, exec_get_bind, exec_bind, exec_looksPopulated]
  cases s.world.blind with
  | some fault => rfl
  | none =>
    dsimp only [Option.elim]
    split
    · rfl
    · split <;> rfl

theorem setup_leads (backed : Backed setting real world) :
    Leads setting.Fine (fun real world => setting.Mirrored real world ∧ setting.Vacant) setup real world := by
  have onReal : isPopulated real.world.disk real.output = isPopulated setting.start.disk setting.output := by
    rw [backed.mirrored.output, backed.populated]
  have onDry : isPopulated (real.dry world).world.disk (real.dry world).output =
      isPopulated setting.start.disk setting.output := by
    rw [← isPopulated_relogged backed.relogged, ← backed.mirrored.output]
    rfl
  have wetRun := exec_setup real
  have dryRun := exec_setup (real.dry world)
  have dry : (real.dry world).options.dryRun = true := rfl
  have blind : (real.dry world).world.blind = real.world.blind := backed.mirrored.blind
  rw [onReal, backed.mirrored.wet] at wetRun
  rw [onDry, dry, blind] at dryRun
  intro ends
  cases looked : real.world.blind with
  | some fault =>
    rw [looked] at wetRun dryRun
    rw [wetRun, dryRun]
    exact ⟨world, rfl, fun impossible => nomatch impossible⟩
  | none =>
    rw [looked] at wetRun dryRun
    cases populated : isPopulated setting.start.disk setting.output with
    | true =>
      rw [populated] at wetRun dryRun
      rw [wetRun, dryRun]
      exact ⟨world, rfl, fun impossible => nomatch impossible⟩
    | false =>
      rw [populated] at wetRun
      rw [populated] at dryRun
      rw [wetRun] at ends ⊢
      obtain ⟨after, run, made⟩ := forM_makeDirectory_mirrored backed.mirrored ends
      rw [dryRun, run]
      exact ⟨world, rfl, fun _ => ⟨made, vacant_of_unpopulated populated⟩⟩

end Stage
end Refit
