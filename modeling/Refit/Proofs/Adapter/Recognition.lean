import Refit.Proofs.Project.Locality

/-!
Recognition of a project by its signals. The first signal that does not say no decides, and one that
fails decides against the project; so the order of the signals matters as soon as one of them fails
and another one finds its sign. Signals fail when the manifest of a project cannot be read.
-/

open List

namespace Refit

open Path Disk

namespace Dialect

open Disk

variable {dialect : Dialect} {rules : List IgnoreRule} {disk : Disk} {root : Path}

/-- What signals come to. -/
def decision : List (String × Except Fault Bool) → Bool
  | [] => false
  | (_, .ok true) :: _ => true
  | (_, .ok false) :: rest => decision rest
  | (_, .error _) :: _ => false

/-- Signals speak for a project, whatever was logged before. -/
def Accepts (dialect : Dialect) (root : Path) (outcomes : List (String × Except Fault Bool)) : Prop :=
  ∀ records, ∃ after, exec (dialect.tryChecks root outcomes) records = (.ok true, after)

theorem exec_tryChecks (dialect : Dialect) (root : Path) (outcomes : List (String × Except Fault Bool))
    (records : List Log.Record) :
    ∃ after, exec (dialect.tryChecks root outcomes) records = (.ok (decision outcomes), after) := by
  induction outcomes with
  | nil => exact ⟨records, rfl⟩
  | cons outcome rest ih =>
    obtain ⟨name, answer⟩ := outcome
    match answer with
    | .ok true => exact ⟨_, rfl⟩
    | .ok false => exact ih
    | .error fault => exact ⟨_, rfl⟩

section

variable {outcomes : List (String × Except Fault Bool)}

theorem accepts_iff_decision :
    dialect.Accepts root outcomes ↔ decision outcomes = true := by
  constructor
  · intro accepts
    obtain ⟨after, run⟩ := accepts []
    obtain ⟨_, decided⟩ := exec_tryChecks dialect root outcomes []
    rw [run] at decided
    exact (Except.ok.inj (Prod.ext_iff.1 decided).1).symm
  · intro decided records
    rw [← decided]
    exact exec_tryChecks dialect root outcomes records

theorem decision_iff :
    decision outcomes = true ↔ ∃ before name rest, outcomes = before ++ (name, .ok true) :: rest ∧
      ∀ earlier ∈ before, earlier.2 = .ok false := by
  induction outcomes with
  | nil => simp [decision]
  | cons outcome others ih =>
    obtain ⟨name, answer⟩ := outcome
    match answer with
    | .ok true => exact ⟨fun _ => ⟨[], name, others, rfl, by simp⟩, fun _ => rfl⟩
    | .ok false =>
      rw [decision, ih]
      constructor
      · rintro ⟨before, found, rest, rfl, silent⟩
        exact ⟨(name, .ok false) :: before, found, rest, rfl, forall_mem_cons.2 ⟨rfl, silent⟩⟩
      · rintro ⟨before, found, rest, split, silent⟩
        cases before with
        | nil => cases split
        | cons first before =>
          cases split
          exact ⟨before, found, rest, rfl, (forall_mem_cons.1 silent).2⟩
    | .error fault =>
      refine ⟨fun impossible => (Bool.false_ne_true impossible).elim, ?_⟩
      rintro ⟨before, found, rest, split, silent⟩
      cases before with
      | nil => cases split
      | cons first before =>
        cases split
        cases (forall_mem_cons.1 silent).1

theorem exists_of_decision (decided : decision outcomes = true) :
    ∃ outcome ∈ outcomes, outcome.2 = .ok true := by
  obtain ⟨before, name, rest, rfl, _⟩ := decision_iff.1 decided
  exact ⟨(name, .ok true), by simp, rfl⟩

theorem decision_of_answers (answers : ∀ outcome ∈ outcomes, ∃ found, outcome.2 = .ok found)
    (finds : ∃ outcome ∈ outcomes, outcome.2 = .ok true) : decision outcomes = true := by
  induction outcomes with
  | nil => simp at finds
  | cons outcome rest ih =>
    obtain ⟨name, answer⟩ := outcome
    obtain ⟨⟨found, rfl⟩, later⟩ := forall_mem_cons.1 answers
    cases found with
    | true => rfl
    | false => exact ih later (by simpa using finds)

end

/-- Signals can be asked in any order exactly if none of them fails or none of them finds its sign. -/
theorem order_free_iff (dialect : Dialect) (root : Path) (outcomes : List (String × Except Fault Bool)) :
    (∀ order, order.Perm outcomes →
        (dialect.Accepts root order ↔ ∃ outcome ∈ outcomes, outcome.2 = .ok true)) ↔
      (∀ outcome ∈ outcomes, ∃ found, outcome.2 = .ok found) ∨ ∀ outcome ∈ outcomes, outcome.2 ≠ .ok true := by
  constructor
  · intro free
    by_contra mixed
    simp only [not_or, not_forall] at mixed
    obtain ⟨⟨failing, inside, fails⟩, finding, present, finds⟩ := mixed
    -- with the failing signal in front, the one that finds its sign is not asked
    obtain ⟨before, after, rfl⟩ := append_of_mem inside
    obtain ⟨name, answer⟩ := failing
    have front := (free ((name, answer) :: (before ++ after)) perm_middle.symm).2
      ⟨finding, present, not_not.1 finds⟩
    rw [accepts_iff_decision] at front
    cases answer with
    | ok found => exact fails ⟨found, rfl⟩
    | error fault => cases front
  · intro clear order same
    rw [accepts_iff_decision]
    constructor
    · intro decided
      obtain ⟨outcome, member, finds⟩ := exists_of_decision decided
      exact ⟨outcome, same.mem_iff.1 member, finds⟩
    · rintro ⟨outcome, member, finds⟩
      rcases clear with answers | silent
      · exact decision_of_answers (fun other inOrder => answers other (same.mem_iff.1 inOrder))
          ⟨outcome, same.mem_iff.2 member, finds⟩
      · exact absurd finds (silent outcome member)

theorem someM_answers {α : Type} {property : α → Except Fault Bool} {items : List α}
    (answers : ∀ item ∈ items, ∃ found, property item = .ok found) : ∃ found, someM property items = .ok found := by
  induction items with
  | nil => exact ⟨false, rfl⟩
  | cons item rest ih =>
    obtain ⟨⟨found, answered⟩, later⟩ := forall_mem_cons.1 answers
    obtain ⟨others, done⟩ := ih later
    cases found with
    | true => exact ⟨true, by rw [someM, answered]; rfl⟩
    | false => exact ⟨others, by rw [someM, answered]; exact done⟩

theorem files_answer (walk : Walk) (disk : Disk) (base : Path) (names : List String) :
    ∃ paths, walk.files disk (base.below names) base = .ok paths := by
  unfold Walk.files
  split
  · rw [relativeTo?_below]
    exact ⟨_, rfl⟩
  · exact ⟨[], rfl⟩

theorem usedIn_answers (tidy : disk.root.tidy = true) {name : String} (down : leadsDown name = true) :
    ∃ found, dialect.usedIn rules disk root name = .ok found := by
  have within : (placeOf root name).Within root := within_join down root
  have below : placeOf root name = root.below (ofString name).names := (join_eq_below down root).1
  unfold usedIn
  dsimp only
  split
  · exact ⟨false, rfl⟩
  · obtain ⟨paths, walked⟩ := files_answer ⟨FileKind.sourceExtensions, rules⟩ disk root (ofString name).names
    rw [← below] at walked
    rw [walked]
    refine someM_answers (fun path member => ?_)
    obtain ⟨_, content, found⟩ := Walk_files_below tidy within walked path member
    simp [usesToken, readLossy, readFile, readBytes, found, Except.mapError, bind, Except.bind, pure, Except.pure]

theorem hasRouteModule_answers (name : String) : ∃ found, hasRouteModule rules disk root name = .ok found := by
  unfold hasRouteModule
  dsimp only
  split
  · exact ⟨false, rfl⟩
  · obtain ⟨paths, walked⟩ := files_answer ⟨[".ts", ".tsx"], rules⟩ disk (placeOf root name) []
    have here : (placeOf root name).below [] = placeOf root name := by simp [Path.below]
    rw [here] at walked
    rw [walked]
    exact ⟨_, rfl⟩

/-- The signals that look at the manifest. -/
def readsManifest : Signal → Bool
  | .dependency | .remixStack => true
  | .markerFile | .layoutDirectory | .usage | .routeModules => false

theorem check_fails_iff (tidy : disk.root.tidy = true) (down : dialect.looksDown = true) (signal : Signal) :
    (∃ fault, dialect.check rules disk root signal = .error fault) ↔
      readsManifest signal = true ∧ ∃ fault, Manifest.load disk root = .error fault := by
  have scans : ∀ name ∈ dialect.profile.scanDirs, leadsDown name = true :=
    fun name member => all_eq_true.1 down name (by simp [member])
  have answered {outcome : Except Fault Bool} (answers : ∃ found, outcome = .ok found) :
      ¬ ∃ fault, outcome = .error fault := by
    obtain ⟨found, rfl⟩ := answers
    rintro ⟨fault, impossible⟩
    cases impossible
  cases signal with
  | markerFile => simp [check, readsManifest]
  | layoutDirectory => simp [check, readsManifest]
  | dependency | remixStack =>
    cases loaded : Manifest.load disk root <;>
      simp [check, readsManifest, loaded, bind, Except.bind, pure, Except.pure]
  | usage =>
    have answers : ∃ found, dialect.check rules disk root .usage = .ok found := by
      rw [check]
      split
      · exact ⟨false, rfl⟩
      · exact someM_answers (fun name member => usedIn_answers tidy (scans name member))
    simp [answered answers, readsManifest]
  | routeModules =>
    have answers : ∃ found, dialect.check rules disk root .routeModules = .ok found :=
      someM_answers (fun name _ => hasRouteModule_answers name)
    simp [answered answers, readsManifest]

end Dialect

theorem Manifest.load_fails_iff (disk : Disk) (root : Path) :
    (∃ fault, Manifest.load disk root = .error fault) ↔
      disk.isDirectory (root.child "package.json") = true ∨
        (∃ bytes fault, disk.readBytes (root.child "package.json") = .ok bytes ∧
          Text.Utf8.decode bytes = .error fault) ∨
        ∃ text digits position, disk.readText (root.child "package.json") = .ok text ∧
          Json.read text = .error ⟨.longInteger digits, position⟩ := by
  unfold Manifest.load
  cases found : disk.entry (root.child "package.json") with
  | error refusal =>
    simp [exists?, entry?, isDirectory, readText, Disk.readFile, Disk.readBytes, found, Except.toOption, Except.mapError,
      bind, Except.bind, pure, Except.pure]
  | ok entry =>
    have present : disk.exists? (root.child "package.json") = true := by
      simp [exists?, entry?, found, Except.toOption]
    simp only [present, Bool.not_true, Bool.false_eq_true, if_false]
    cases entry with
    | directory entries =>
      simp [isDirectory, entry?, readText, Disk.readFile, Disk.readBytes, found, Except.toOption,
        Entry.isDirectory, Except.mapError, bind, Except.bind]
    | file content =>
      have notDirectory : disk.isDirectory (root.child "package.json") = false := by
        simp [isDirectory, entry?, found, Except.toOption, Entry.isDirectory]
      have read : disk.readBytes (root.child "package.json") = .ok content := by simp [Disk.readBytes, found]
      simp only [notDirectory, read, readText, Disk.readFile]
      cases decoded : Text.Utf8.decode content with
      | error fault => simp [decoded, Except.mapError, bind, Except.bind]
      | ok text =>
        simp only [Except.mapError, decoded, bind, Except.bind, pure, Except.pure]
        split
        · next parsed => simp [decoded, parsed]
        · next digits position parsed =>
            exact ⟨fun _ => .inr (.inr ⟨_, digits, position, rfl, parsed⟩), fun _ => ⟨_, rfl⟩⟩
        · next short => simpa [decoded] using short

namespace Dialect

variable {dialect : Dialect} {rules : List IgnoreRule} {disk : Disk} {root : Path}

/-- A directory is taken for a project exactly if, in the order of the signals, some signal finds its sign and all
before it look in vain. That some signal finds its sign is enough, in every order, exactly if no signal fails or none
finds its sign; and those signals fail that look at a manifest which is a directory, is no text or has a number that
is too long. -/
theorem recognises_by_signals (dialect : Dialect) (rules : List IgnoreRule) {disk : Disk} {root : Path}
    (there : disk.isDirectory root = true) :
    (∀ outcomes : List (String × Except Fault Bool),
      (∀ records, ∃ answer after, exec (dialect.tryChecks root outcomes) records = (.ok answer, after)) ∧
      (dialect.Accepts root outcomes ↔ ∃ before name rest, outcomes = before ++ (name, .ok true) :: rest ∧
        ∀ earlier ∈ before, earlier.2 = .ok false) ∧
      ((∀ order, order.Perm outcomes →
          (dialect.Accepts root order ↔ ∃ outcome ∈ outcomes, outcome.2 = .ok true)) ↔
        (∀ outcome ∈ outcomes, ∃ found, outcome.2 = .ok found) ∨ ∀ outcome ∈ outcomes, outcome.2 ≠ .ok true)) ∧
    dialect.recognises rules disk root = dialect.tryChecks root
      (dialect.signals.map (fun signal => (signal.name, dialect.check rules disk root signal))) ∧
    (disk.root.tidy = true → dialect.looksDown = true → ∀ signal,
      (∃ fault, dialect.check rules disk root signal = .error fault) ↔
        readsManifest signal = true ∧ (disk.isDirectory (root.child "package.json") = true ∨
          (∃ bytes fault, disk.readBytes (root.child "package.json") = .ok bytes ∧
            Text.Utf8.decode bytes = .error fault) ∨
          ∃ text digits position, disk.readText (root.child "package.json") = .ok text ∧
            Json.read text = .error ⟨.longInteger digits, position⟩)) := by
  refine ⟨fun outcomes => ⟨fun records => ?_, ?_, order_free_iff dialect root outcomes⟩, ?_, fun tidy down signal => ?_⟩
  · exact ⟨_, exec_tryChecks dialect root outcomes records⟩
  · rw [accepts_iff_decision, decision_iff]
  · rw [recognises, if_pos there]
    rfl
  · rw [check_fails_iff tidy down, Manifest.load_fails_iff]

/-- A project with directories of routes, and a manifest that is no text. -/
def routesDisk : Disk :=
  ⟨.directory
    [("project", .directory
      [("app", .directory [("routes", .directory [("_index.tsx", .file [])])]),
       ("package.json", .file [0xff])])], [], []⟩

def routesProject : Path := ⟨.slash, ["project"]⟩

theorem recognises_by_signals_routes :
    routesDisk.isDirectory routesProject = true ∧ routesDisk.root.tidy = true ∧ bolt.looksDown = true ∧
      (∃ fault, bolt.check [] routesDisk routesProject .dependency = .error fault) ∧
      bolt.check [] routesDisk routesProject .layoutDirectory = .ok true ∧
      ¬ ∀ order, order.Perm (bolt.checks [] routesDisk routesProject) →
        (bolt.Accepts routesProject order ↔
          ∃ outcome ∈ bolt.checks [] routesDisk routesProject, outcome.2 = .ok true) := by
  have there : routesDisk.isDirectory routesProject = true := by decide +kernel
  have tidy : routesDisk.root.tidy = true := by decide +kernel
  have down : bolt.looksDown = true := by decide +kernel
  obtain ⟨any, _, fails⟩ := recognises_by_signals bolt [] there
  have failing : ∃ fault, bolt.check [] routesDisk routesProject .dependency = .error fault :=
    (fails tidy down .dependency).2
      ⟨rfl, .inr (.inl ⟨[0xff], ⟨0xff, 0, 1, .invalidStart⟩, by decide +kernel, by decide +kernel⟩)⟩
  have finding : bolt.check [] routesDisk routesProject .layoutDirectory = .ok true :=
    congrArg Except.ok (by decide +kernel)
  refine ⟨there, tidy, down, failing, finding, fun free => ?_⟩
  obtain ⟨_, _, freely⟩ := any (bolt.checks [] routesDisk routesProject)
  rcases freely.1 free with answers | silent
  · obtain ⟨fault, failed⟩ := failing
    obtain ⟨found, answered⟩ := answers _ (mem_map_of_mem (by decide : Signal.dependency ∈ bolt.signals))
    cases failed.symm.trans answered
  · exact silent _ (mem_map_of_mem (by decide : Signal.layoutDirectory ∈ bolt.signals)) finding

/-- A manifest that is no text hides the directories of routes, unless these are looked for first. -/
theorem recognises_stops_at_fault :
    (bolt.check [] routesDisk routesProject .layoutDirectory).toOption = some true ∧
      (exec (bolt.recognises [] routesDisk routesProject) []).1.toOption = some false ∧
      (exec ({ bolt with signals := bolt.signals.reverse }.recognises [] routesDisk routesProject) []).1.toOption =
        some true := by
  decide +kernel

end Dialect
end Refit
