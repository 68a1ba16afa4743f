import Refit.Proofs.Run.Groundwork

open List

namespace Refit

/-- What came of a file, with the path that was asked for and the one that was given out. -/
inductive Fate where
  /-- Its content could not be made. -/
  | unmade
  | unstored (requested target : Path)
  /-- To store it ended the run. -/
  | broken (requested target : Path)
  | delivered (requested target : Path)

namespace Fate

def requested? : Fate → Option Path
  | unmade => none
  | unstored requested _ | broken requested _ | delivered requested _ => some requested

def target? : Fate → Option Path
  | unmade => none
  | unstored _ target | broken _ target | delivered _ target => some target

def delivered? : Fate → Option Path
  | delivered _ target => some target
  | unmade | unstored _ _ | broken _ _ => none

def isBroken : Fate → Bool
  | broken _ _ => true
  | unmade | unstored _ _ | delivered _ _ => false

end Fate

/-- A file of the source, or a name for what has none, and what came of it. -/
structure Item where
  role : Role
  file : String
  fate : Fate

namespace Item

def calls (item : Item) : List (FileOperation × Path) :=
  item.fate.target?.toList.map (fun target => (item.role.operation, target))

def isDelivered (item : Item) : Bool := item.fate.delivered?.isSome

/-- How many units an item costs. One that ends the run is not counted any more. -/
def cost (item : Item) : Nat :=
  if item.role.isUnit && !item.isDelivered && !item.fate.isBroken then 1 else 0

/-- The path that an item asked for is a place for its file. -/
def Fits (placed : Role → String → Path → Prop) (item : Item) : Prop :=
  ∀ requested ∈ item.fate.requested?, placed item.role item.file requested

end Item

def listedIn (items : List Item) : List (Role × String) :=
  (items.filter (·.role.isListed)).map (fun item => (item.role, item.file))

@[simp] theorem listedIn_append (first second : List Item) :
    listedIn (first ++ second) = listedIn first ++ listedIn second := by
  simp [listedIn]

namespace Session

variable {s : Session}

/-- A step that makes no file and costs none. -/
structure Aside (s t : Session) : Prop extends SameTask s t where
  names : t.names = s.names
  calls : t.world.calls = s.world.calls
  files : t.outcome.migratedFiles = s.outcome.migratedFiles
  changes : t.outcome.summary.changes = s.outcome.summary.changes
  unitFailures : t.outcome.unitFailures = s.outcome.unitFailures

theorem Aside.refl (s : Session) : Aside s s := ⟨.refl s, rfl, rfl, rfl, rfl, rfl⟩

theorem Aside.trans {t u : Session} (first : Aside s t) (second : Aside t u) : Aside s u :=
  ⟨first.toSameTask.trans second.toSameTask, second.names.trans first.names, second.calls.trans first.calls,
    second.files.trans first.files, second.changes.trans first.changes,
    second.unitFailures.trans first.unitFailures⟩

theorem Aside.sameTask {t u : Session} {names : Output.Names} (aside : Aside { s with names := names } t)
    (next : SameTask t u) : SameTask s u :=
  SameTask.trans ⟨⟨aside.source, aside.output, aside.options, aside.candidates, aside.texts⟩, aside.adapter,
    aside.analysis⟩ next

theorem Aside.world {world : World} (calls : world.calls = s.world.calls) :
    Aside s { s with world := world } :=
  ⟨⟨⟨rfl, rfl, rfl, rfl, rfl⟩, rfl, rfl⟩, rfl, calls, rfl, rfl, rfl⟩

/-- A step that moreover has no problem. -/
structure Silent (s t : Session) : Prop extends Aside s t where
  errors : t.outcome.errors = s.outcome.errors

theorem Silent.refl (s : Session) : Silent s s := ⟨.refl s, rfl⟩

theorem Silent.trans {t u : Session} (first : Silent s t) (second : Silent t u) : Silent s u :=
  ⟨first.toAside.trans second.toAside, second.errors.trans first.errors⟩

/-- The problems between two sessions have the names of files, or are those of files that have a place. -/
def Charged (placed : Role → String → Path → Prop) (s t : Session) : Prop :=
  ∃ problems, t.outcome.errors = s.outcome.errors ++ problems ∧
    ∀ problem ∈ problems, problem.file ≠ "" ∨ ∃ role requested, placed role problem.file requested

namespace Charged

variable {placed : Role → String → Path → Prop} {s t u : Session}

theorem of_same (errors : t.outcome.errors = s.outcome.errors) : Charged placed s t := ⟨[], by simp [errors], by simp⟩

theorem of_one {problem : Problem} (errors : t.outcome.errors = s.outcome.errors ++ [problem])
    (named : problem.file ≠ "" ∨ ∃ role requested, placed role problem.file requested) : Charged placed s t :=
  ⟨[problem], errors, by simpa using named⟩

theorem trans (first : Charged placed s t) (second : Charged placed t u) : Charged placed s u := by
  obtain ⟨problems, early, named⟩ := first
  obtain ⟨others, late, namedToo⟩ := second
  exact ⟨problems ++ others, by rw [late, early, append_assoc], forall_mem_append.2 ⟨named, namedToo⟩⟩

end Charged

/-- What a step does that comes to an item. -/
structure Enters (item : Item) (s t : Session) : Prop extends SameTask s t where
  names : match item.fate with
    | .unmade => t.names = s.names
    | .unstored requested target | .broken requested target | .delivered requested target =>
      ∃ renamed, s.names.claim requested = (some (target, renamed), t.names)
  calls : t.world.calls = s.world.calls ++ if s.options.dryRun then [] else item.calls
  files : t.outcome.migratedFiles = s.outcome.migratedFiles ++ item.fate.delivered?.toList.map (·.toString)
  changes : t.outcome.summary.changes =
    if item.isDelivered then item.role.tally s.outcome.summary.changes else s.outcome.summary.changes
  unitFailures : t.outcome.unitFailures = s.outcome.unitFailures + item.cost

/-- Steps lead from one session to another, and come to the listed items. -/
inductive Journal : List Item → Session → Session → Prop
  | nil (s : Session) : Journal [] s s
  | aside {items : List Item} {s t u : Session} (step : Aside s t) (rest : Journal items t u) :
      Journal items s u
  | item {item : Item} {items : List Item} {s t u : Session} (step : Enters item s t)
      (rest : Journal items t u) : Journal (item :: items) s u

namespace Journal

variable {items : List Item} {s t u : Session}

theorem of_aside (step : Aside s t) : Journal [] s t := .aside step (.nil t)

theorem of_item {item : Item} (step : Enters item s t) : Journal [item] s t := .item step (.nil t)

theorem append {more : List Item} (first : Journal items s t) (second : Journal more t u) :
    Journal (items ++ more) s u := by
  induction first with
  | nil => exact second
  | aside step _ ih => exact .aside step (ih second)
  | item step _ ih => exact .item step (ih second)

theorem sameTask (journal : Journal items s t) : SameTask s t := by
  induction journal with
  | nil s => exact .refl s
  | aside step _ ih => exact step.toSameTask.trans ih
  | item step _ ih => exact step.toSameTask.trans ih

end Journal
end Session

namespace World

theorem calls_noteAll (world : World) (records : List Log.Record) :
    (world.noteAll records).calls = world.calls := by
  rw [noteAll_rest]

end World

namespace Stage

open Session

variable {α β : Type} {placed : Role → String → Path → Prop} {s : Session} {step : Stage α} {expected : α → Prop}
  {listed : List (Role × String)} {names : Output.Names} {claimed after : Session} {requested target : Path}
  {renamed : Bool} {world : World} {role : Role} {file : String} {call : Path → Call}

/-- No item ended the run. -/
def Intact (items : List Item) : Prop := ∀ item ∈ items, item.fate.isBroken = false

/-- Whatever a step comes to, a journal tells how, and its problems are those of files. If it comes to a value,
    no item has ended the run, the journal has the given listed files, and the value is as expected. -/
def Journals (placed : Role → String → Path → Prop) (listed : List (Role × String)) (expected : α → Prop)
    (step : Stage α) (s : Session) : Prop :=
  ∃ items, Journal items s (exec step s).2 ∧ (∀ item ∈ items, item.Fits placed) ∧ Charged placed s (exec step s).2 ∧
    ∀ value, (exec step s).1 = .ok value → Intact items ∧ listedIn items = listed ∧ expected value

theorem journals_of_silent (silent : Silent s (exec step s).2) : Journals placed [] (fun _ => True) step s :=
  ⟨[], .of_aside silent.toAside, by simp, .of_same silent.errors, fun _ _ => ⟨by simp [Intact], rfl, trivial⟩⟩

theorem journals_pure {value : α} (is : expected value) : Journals placed [] expected (pure value) s :=
  ⟨[], .nil s, by simp, .of_same rfl, fun _ same => ⟨by simp [Intact], rfl, by cases same; exact is⟩⟩

theorem journals_bind {next : α → Stage β} {more : List (Role × String)} {wanted : β → Prop}
    (first : Journals placed listed expected step s)
    (second : ∀ value after, expected value → Journals placed more wanted (next value) after) :
    Journals placed (listed ++ more) wanted (step >>= next) s := by
  obtain ⟨items, journal, fits, charged, ends⟩ := first
  unfold Journals
  rw [exec_bind]
  rcases run : exec step s with ⟨outcome, after⟩
  rw [run] at journal charged ends
  cases outcome with
  | error fault => exact ⟨items, journal, fits, charged, fun _ same => nomatch same⟩
  | ok value =>
    obtain ⟨intact, same, is⟩ := ends value rfl
    obtain ⟨others, later, suits, more, closes⟩ := second value after is
    refine ⟨items ++ others, journal.append later, ?_, charged.trans more, fun result final => ?_⟩
    · intro item member
      exact (mem_append.1 member).elim (fits item) (suits item)
    · obtain ⟨whole, sames, done⟩ := closes result final
      exact ⟨forall_mem_append.2 ⟨intact, whole⟩, by rw [listedIn_append, same, sames], done⟩

theorem journals_forM {items : List α} {f : α → Stage Unit} {listed : α → List (Role × String)}
    (each : ∀ item ∈ items, ∀ after, Journals placed (listed item) (fun _ => True) (f item) after) :
    Journals placed (items.flatMap listed) (fun _ => True) (items.forM f) s := by
  induction items generalizing s with
  | nil => exact journals_pure trivial
  | cons item rest ih =>
    exact journals_bind (each item (by simp) s) (fun _ _ _ => ih (fun other member => each other (by simp [member])))

theorem aside_change (f : Outcome → Outcome) (s : Session) (analysis : (f s.outcome).analysis = s.outcome.analysis)
    (files : (f s.outcome).migratedFiles = s.outcome.migratedFiles)
    (changes : (f s.outcome).summary.changes = s.outcome.summary.changes)
    (unitFailures : (f s.outcome).unitFailures = s.outcome.unitFailures) : Aside s (exec (change f) s).2 :=
  ⟨⟨⟨rfl, rfl, rfl, rfl, rfl⟩, rfl, analysis⟩, rfl, rfl, files, changes, unitFailures⟩

theorem silent_report (work : Report α) (s : Session) : Silent s (exec (report work) s).2 := by
  rw [exec_report]
  exact ⟨.world (World.calls_noteAll s.world _), rfl⟩

theorem silent_bind {next : α → Stage β} (first : Silent s (exec step s).2)
    (second : ∀ value after, Silent after (exec (next value) after).2) : Silent s (exec (step >>= next) s).2 :=
  exec_bind_related Silent .trans first (fun value after _ _ => second value after)

theorem aside_problem (file kind : String) (fault : Fault) (s : Session) :
    Aside s (exec (problem file kind fault) s).2 :=
  ⟨⟨⟨rfl, rfl, rfl, rfl, rfl⟩, rfl, rfl⟩, rfl, rfl, rfl, rfl, rfl⟩

theorem aside_warn (notice : Notice) (s : Session) : Aside s (exec (warn notice) s).2 :=
  ⟨⟨⟨rfl, rfl, rfl, rfl, rfl⟩, rfl, rfl⟩, rfl, rfl, rfl, rfl, rfl⟩

theorem claim_cases (path : Path) (file : String) (s : Session) :
    (s.names.claim path = (none, s.names) ∧ ∃ fault, exec (claim path file) s = (.error fault, s)) ∨
    ∃ target renamed names after, s.names.claim path = (some (target, renamed), names) ∧
      exec (claim path file) s = (.ok target, after) ∧ Silent { s with names := names } after := by
  unfold claim
  rw [exec_get_bind]
  rcases given : s.names.claim path with ⟨claimed, names⟩
  cases claimed with
  | none =>
    obtain rfl : names = s.names := Output.Names.claim_none given
    exact .inl ⟨rfl, _, rfl⟩
  | some pair =>
    obtain ⟨target, renamed⟩ := pair
    cases renamed with
    | false => exact .inr ⟨target, false, names, _, rfl, rfl, .refl _⟩
    | true => exact .inr ⟨target, true, names, _, rfl, rfl, aside_warn _ _, rfl⟩

theorem complain_enters (role : Role) (file kind : String) (fault : Fault) (s : Session) :
    ∃ after, exec (complain role file kind fault) s = (.ok (), after) ∧ Enters ⟨role, file, .unmade⟩ s after ∧
      after.outcome.errors = s.outcome.errors ++ [⟨file, kind, fault⟩] := by
  have quiet : s.world.calls = s.world.calls ++ if s.options.dryRun then [] else [] := by simp
  unfold complain
  cases unit : role.isUnit with
  | false =>
    refine ⟨_, rfl, ⟨⟨⟨rfl, rfl, rfl, rfl, rfl⟩, rfl, rfl⟩, rfl, quiet, (append_nil _).symm, rfl, ?_⟩, rfl⟩
    simp [Item.cost, unit]
  | true =>
    refine ⟨_, rfl, ⟨⟨⟨rfl, rfl, rfl, rfl, rfl⟩, rfl, rfl⟩, rfl, quiet, (append_nil _).symm, rfl, ?_⟩, rfl⟩
    simp [Item.cost, Item.isDelivered, Fate.delivered?, Fate.isBroken, unit]

section

variable (given : s.names.claim requested = (some (target, renamed), names))
  (aside : Aside { s with names := names } claimed)
include given aside

theorem enters_delivered (file : String) (rollback : RollbackData)
    (calls : world.calls = claimed.world.calls ++ if s.options.dryRun then [] else [(role.operation, target)]) :
    Enters ⟨role, file, .delivered requested target⟩ s
      (({ claimed with world := world, rollback := rollback }.migrated target).change
        (·.countChange role.tally)) where
  toSameTask := aside.sameTask ⟨⟨rfl, rfl, rfl, rfl, rfl⟩, rfl, rfl⟩
  names := ⟨renamed, given.trans (congrArg (some (target, renamed), ·) aside.names.symm)⟩
  calls := calls.trans (by rw [aside.calls]; rfl)
  files := congrArg (· ++ [target.toString]) aside.files
  changes := congrArg role.tally aside.changes
  unitFailures := by simp [Session.change, Session.migrated, Outcome.countChange, aside.unitFailures, Item.cost,
    Item.isDelivered, Fate.delivered?]

theorem enters_unstored (real : s.options.dryRun = false)
    (calls : world.calls = claimed.world.calls ++ [(role.operation, target)])
    (complained : Enters ⟨role, file, .unmade⟩ { claimed with world := world } after) :
    Enters ⟨role, file, .unstored requested target⟩ s after where
  toSameTask :=
    have stored : SameTask claimed { claimed with world := world } := ⟨⟨rfl, rfl, rfl, rfl, rfl⟩, rfl, rfl⟩
    aside.sameTask (stored.trans complained.toSameTask)
  names :=
    have kept : after.names = names := Eq.trans complained.names aside.names
    ⟨renamed, given.trans (congrArg (some (target, renamed), ·) kept.symm)⟩
  calls := by
    rw [complained.calls, real]
    simp [calls, aside.calls, Item.calls, Fate.target?]
  files := complained.files.trans (congrArg (· ++ []) aside.files)
  changes := complained.changes.trans aside.changes
  unitFailures := complained.unitFailures.trans (congrArg (· + _) aside.unitFailures)

theorem enters_broken (real : s.options.dryRun = false) (file : String)
    (calls : world.calls = claimed.world.calls ++ [(role.operation, target)]) :
    Enters ⟨role, file, .broken requested target⟩ s { claimed with world := world } where
  toSameTask := aside.sameTask ⟨⟨rfl, rfl, rfl, rfl, rfl⟩, rfl, rfl⟩
  names := ⟨renamed, given.trans (congrArg (some (target, renamed), ·) aside.names.symm)⟩
  calls := by simp [calls, aside.calls, real, Item.calls, Fate.target?]
  files := aside.files.trans (append_nil _).symm
  changes := aside.changes
  unitFailures := by simp [aside.unitFailures, Item.cost, Fate.isBroken]

end

theorem deliver_cases
    (fits : ∀ target, (call target).path = target ∧ (call target).operation = role.operation) (file : String)
    (requested : Path) (s : Session) :
    (s.names.claim requested = (none, s.names) ∧
      ∃ fault, exec (deliver role file requested call) s = (.error fault, s)) ∨
    (∃ target after, exec (deliver role file requested call) s = (.ok none, after) ∧
      Enters ⟨role, file, .unstored requested target⟩ s after ∧
      ∃ fault, after.outcome.errors = s.outcome.errors ++ [⟨file, "write", fault⟩]) ∨
    (∃ fault target after, exec (deliver role file requested call) s = (.error fault, after) ∧
      Enters ⟨role, file, .broken requested target⟩ s after ∧ after.outcome.errors = s.outcome.errors) ∨
    ∃ target after, exec (deliver role file requested call) s = (.ok (some target), after) ∧
      Enters ⟨role, file, .delivered requested target⟩ s after ∧ after.outcome.errors = s.outcome.errors := by
  unfold deliver
  rw [exec_bind]
  rcases claim_cases requested file s with
    ⟨refused, fault, run⟩ | ⟨target, renamed, names, claimed, given, run, aside, errors⟩
  · exact .inl ⟨refused, fault, by rw [run]⟩
  · have mode : claimed.options.dryRun = s.options.dryRun := by rw [aside.options]
    have performed := Call.calls_perform (call target) claimed.world
    rw [(fits target).1, (fits target).2] at performed
    rw [run]
    dsimp only
    rw [exec_bind]
    rcases store_cases (call target) claimed with ⟨dry, stored⟩ | ⟨real, fault, world, failed, stored⟩ |
        ⟨real, fault, world, other, failed, stored⟩ | ⟨real, world, done, stored⟩
    · rw [exec_attemptFiles_ok _ stored]
      refine .inr (.inr (.inr ⟨target, _, rfl, enters_delivered given aside file claimed.rollback ?_, errors⟩))
      rw [← mode, dry]
      simp
    · obtain ⟨after, complained, enters, blamed⟩ :=
        complain_enters role file "write" (.file fault) { claimed with world := world }
      rw [failed] at performed
      rw [exec_attemptFiles_file _ stored, exec_bind, complained]
      exact .inr (.inl ⟨target, after, rfl, enters_unstored given aside (mode ▸ real) performed enters, _,
        blamed.trans (congrArg (· ++ _) errors)⟩)
    · rw [failed] at performed
      rw [exec_attemptFiles_other other _ stored]
      exact .inr (.inr (.inl ⟨fault, target, _, rfl, enters_broken given aside (mode ▸ real) file performed, errors⟩))
    · rw [done] at performed
      rw [exec_attemptFiles_ok _ stored]
      refine .inr (.inr (.inr ⟨target, _, rfl, enters_delivered given aside file _ ?_, errors⟩))
      rw [← mode, real]
      exact performed

def listing (role : Role) (file : String) : List (Role × String) := if role.isListed then [(role, file)] else []

theorem listedIn_singleton (item : Item) : listedIn [item] = listing item.role item.file := by
  unfold listedIn listing
  cases known : item.role.isListed <;> simp [known]

theorem deliver_journals (fits : ∀ target, (call target).path = target ∧ (call target).operation = role.operation)
    (is : placed role file requested) :
    Journals placed (listing role file) (fun result => ∀ target ∈ result, Output.Names.Offers requested target)
      (deliver role file requested call) s := by
  unfold Journals
  rcases deliver_cases fits file requested s with ⟨_, fault, run⟩ | ⟨target, after, run, enters, fault, blamed⟩ |
      ⟨fault, target, after, run, enters, errors⟩ | ⟨target, after, run, enters, errors⟩
  · rw [run]
    exact ⟨[], .nil s, by simp, .of_same rfl, fun _ same => nomatch same⟩
  · rw [run]
    refine ⟨_, .of_item enters, by simpa [Item.Fits, Fate.requested?] using is, .of_one blamed (.inr ⟨_, _, is⟩),
      fun _ same => ?_⟩
    cases same
    exact ⟨by simp [Intact, Fate.isBroken], listedIn_singleton _, by simp⟩
  · rw [run]
    exact ⟨_, .of_item enters, by simpa [Item.Fits, Fate.requested?] using is, .of_same errors,
      fun _ same => nomatch same⟩
  · rw [run]
    refine ⟨_, .of_item enters, by simpa [Item.Fits, Fate.requested?] using is, .of_same errors, fun _ same => ?_⟩
    cases same
    obtain ⟨renamed, given⟩ := enters.names
    exact ⟨by simp [Intact, Fate.isBroken], listedIn_singleton _, by simpa using Output.Names.offers_of_claim given⟩

theorem attempt_journals (silent : Silent s (exec step s).2) (named : file ≠ "") (kind : String) :
    Journals placed [] (fun result => ∀ value ∈ result, (exec step s).1 = .ok value)
      (attempt step (problem file kind)) s := by
  unfold Journals
  rcases run : exec step s with ⟨outcome, made⟩
  rw [run] at silent
  cases outcome with
  | ok value =>
    rw [exec_attempt_ok _ run]
    refine ⟨[], .of_aside silent.toAside, by simp, .of_same silent.errors, fun _ same => ?_⟩
    cases same
    exact ⟨by simp [Intact], rfl, by simp⟩
  | error fault =>
    have caught : Charged placed made (exec (problem file kind fault) made).2 := .of_one rfl (.inl named)
    rw [exec_attempt_error _ run]
    refine ⟨[], .of_aside (silent.toAside.trans (aside_problem file kind fault made)), by simp,
      (Charged.of_same silent.errors).trans caught, fun _ same => ?_⟩
    cases same
    exact ⟨by simp [Intact], rfl, by simp⟩

theorem convey_journals (writes : role.operation = .writeText) (is : placed role file requested)
    {make : Stage String} (silent : Silent s (exec make s).2) :
    Journals placed (listing role file) (fun result => ∀ target ∈ result, Output.Names.Offers requested target)
      (convey role file requested make) s := by
  unfold convey
  rcases run : exec make s with ⟨outcome, made⟩
  rw [run] at silent
  have quiet : Charged placed s made := .of_same silent.errors
  cases outcome with
  | ok content =>
    have stored : ∀ target, (Call.write target content).path = target ∧
        (Call.write target content).operation = role.operation := fun _ => ⟨rfl, writes.symm⟩
    have delivered : Journals placed (listing role file)
        (fun result => ∀ target ∈ result, Output.Names.Offers requested target)
        (deliver role file requested (fun target => .write target content)) made :=
      deliver_journals stored is
    obtain ⟨items, journal, fits, charged, ends⟩ := delivered
    unfold Journals
    rw [exec_bind, exec_attempt_ok _ run]
    exact ⟨items, .aside silent.toAside journal, fits, quiet.trans charged, ends⟩
  | error fault =>
    obtain ⟨after, complained, enters, blamed⟩ := complain_enters role file "transform" fault made
    unfold Journals
    rw [exec_bind, exec_attempt_error _ run, exec_bind, complained]
    refine ⟨_, .aside silent.toAside (.of_item enters), by simp [Item.Fits, Fate.requested?],
      quiet.trans (.of_one blamed (.inr ⟨_, _, is⟩)), fun _ same => ?_⟩
    cases same
    exact ⟨by simp [Intact, Fate.isBroken], listedIn_singleton _, by simp⟩

end Stage

end Refit
