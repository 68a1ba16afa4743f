import Refit.Proofs.Run.Trial

open List

namespace Refit

open Disk Output Attempt Output.Names

variable {world : World}

namespace Trial

variable {trial : Trial} {faults : Faults} {done : List Attempt} {s : Session} {text : String}

/-- Attempts do not get into each other's way, or they belong to the run without faults. -/
def Eased (trial : Trial) (faults : Faults) (attempts : List Attempt) (ended : Session) : Prop :=
  trial.Smooth attempts ∨ faults = .none ∧ Session.Grows ended trial.last

/-- A call makes a file with some content where there is room for it. -/
def Carries (trial : Trial) (call : Call) (content : List UInt8) : Prop :=
  ∀ disk, Keeps trial.held.world.disk trial.held.source disk → disk.Fits trial.last.world.disk →
    trial.Roomy call.operation call.path → call.path.isAbsolute = true → call.path.names ≠ [] →
    ∃ after, exec call.action disk = (.ok (), after) ∧ after.Fits trial.last.world.disk ∧
      DiskAction.Puts (trial.held.world.disk.placeOf call.path) content disk after

theorem write_carries (trial : Trial) (path : Path) (text : String) :
    trial.Carries (.write path text) (Text.Utf8.encode text) := by
  intro disk keeps fits roomy absolute named
  obtain ⟨old, stands⟩ := roomy.stands
  exact DiskAction.writeFile_fits fits absolute named roomy.located stands _

theorem copy_carries {source : Path} (file : trial.held.world.disk.FileBelow trial.held.source source) (path : Path) :
    trial.Carries (.copy source path) ((trial.held.world.disk.readBytes source).toOption.getD []) := by
  intro disk keeps fits roomy absolute named
  obtain ⟨old, stands⟩ := roomy.stands
  have same := keeps.entry file
  obtain ⟨within, content, found⟩ := file
  have read : (trial.held.world.disk.readBytes source).toOption.getD [] = content := by
    rw [readBytes, found]
    rfl
  rw [read]
  refine DiskAction.copyFile_fits fits absolute named roomy.located stands (same.trans found) (fun there => ?_)
  obtain ⟨place, located, holds⟩ := entry_ok.1 found
  refine roomy.spares ⟨?_, content, ?_⟩
  · rw [← there, keeps.placeOf]
    exact placeOf_within within
  · have landed : trial.held.world.disk.placeOf (Call.copy source path).path = place := by
      rw [eq_placeOf located, ← keeps.placeOf source, there]
    rw [landed]
    exact Entry.at?_file.2 holds

theorem Kept.newest (kept : trial.Kept faults world) (call : Performed) :
    call ∈ (world.history ++ [call]).drop trial.held.world.history.length := by
  rw [drop_append_of_le_length kept.grown.length_le]
  simp

section

variable (stands : trial.Stands faults done s)
include stands

theorem Stands.output : s.output = trial.held.output := stands.task.output

theorem Stands.options : s.options = trial.held.options := stands.task.options

theorem Stands.known : s.outcome.analysis = some trial.analysis :=
  stands.task.analysis.trans trial.known

theorem Stands.wet : s.options.dryRun = false := by
  rw [stands.options]
  exact trial.wet

theorem mem_taken (member : text ∈ s.names.taken) :
    text ∈ (done.filterMap path?).map Path.toString := by
  rw [stands.names, mem_reverse] at member
  obtain ⟨path, inClaimed, rfl⟩ := mem_map.1 member
  obtain ⟨attempt, inDone, claimed⟩ := mem_filterMap.1 inClaimed
  exact mem_map_of_mem (mem_filterMap.2 ⟨attempt, inDone, Attempt.path?_of_claimed claimed⟩)

end

theorem taken_none (stands : trial.Stands .none done s)
    (member : text ∈ (done.filterMap path?).map Path.toString) : text ∈ s.names.taken := by
  rw [stands.names, mem_reverse]
  obtain ⟨path, inPaths, rfl⟩ := mem_map.1 member
  obtain ⟨attempt, inDone, is⟩ := mem_filterMap.1 inPaths
  exact mem_map_of_mem (mem_filterMap.2 ⟨attempt, inDone, (Attempt.claimed?_none attempt).trans is⟩)

end Trial

theorem Call.stores_of_creates {call : Call} (creates : call.creates = true) : call.operation.stores = true := by
  cases call with
  | makeDirectory | backUp => cases creates
  | write | copy => rfl

namespace Stage

open Session Event Trial

variable {α β : Type} {trial : Trial} {faults : Faults} {part more done : List Attempt} {s : Session}
  {file name : String} {requested : Path} {names : Output.Names} {role : Role} {call : Path → Call} {value : α}
  {step : Stage α} {result : β} {component : Component} {content : List UInt8} {page : Page}

theorem exec_claim (given : s.names.claim requested = (some (requested, false), names)) :
    exec (claim requested file) s = (.ok requested, { s with names := names }) := by
  rw [claim, exec_get_bind, given]
  rfl

theorem exec_deliver_ok (given : s.names.claim requested = (some (requested, false), names))
    (wet : s.options.dryRun = false) (run : (call requested).perform s.world = (.ok (), world)) :
    exec (deliver role file requested call) s = (.ok (some requested),
      ((({ s with names := names } : Session).created (call requested).path world).migrated requested).change
        (·.countChange role.tally)) := by
  rw [deliver, exec_bind, exec_claim given]
  dsimp only
  rw [exec_bind]
  rcases store_cases (call requested) { s with names := names } with ⟨dry, _⟩ | ⟨_, _, _, failed, _⟩ |
      ⟨_, _, _, _, failed, _⟩ | ⟨_, other, done, stored⟩
  · exact absurd (wet.symm.trans dry) (by simp)
  · cases failed.symm.trans run
  · cases failed.symm.trans run
  · cases done.symm.trans run
    rw [exec_attemptFiles_ok _ stored]
    rfl

theorem exec_deliver_error {fault : FileFault}
    (given : s.names.claim requested = (some (requested, false), names)) (wet : s.options.dryRun = false)
    (run : (call requested).perform s.world = (.error (.file fault), world)) :
    exec (deliver role file requested call) s =
      exec (do complain role file "write" (.file fault); pure none) { s with names := names, world := world } := by
  rw [deliver, exec_bind, exec_claim given]
  dsimp only
  rw [exec_bind]
  rcases store_cases (call requested) { s with names := names } with ⟨dry, _⟩ | ⟨_, _, _, failed, stored⟩ |
      ⟨_, _, _, other, failed, _⟩ | ⟨_, _, done, _⟩
  · exact absurd (wet.symm.trans dry) (by simp)
  · cases failed.symm.trans run
    rw [exec_attemptFiles_file _ stored, exec_bind, exec_bind]
    rcases exec (complain role file "write" (.file fault)) { s with names := names, world := world } with ⟨_ | _, _⟩ <;> rfl
  · cases failed.symm.trans run
    cases other
  · cases done.symm.trans run

theorem exec_complain (role : Role) (file kind : String) (fault : Fault) (s : Session) :
    ∃ record failures, exec (complain role file kind fault) s = (.ok (),
      { s with
        world := s.world.note record
        outcome :=
          { s.outcome with
            errors := s.outcome.errors ++ [⟨file, kind, fault⟩]
            unitFailures := failures } }) := by
  unfold complain
  split
  · exact ⟨_, _, rfl⟩
  · exact ⟨_, _, rfl⟩

theorem names_deliver (fits : ∀ target, (call target).path = target ∧ (call target).operation = role.operation)
    (file : String) (requested : Path) (s : Session) :
    (exec (deliver role file requested call) s).2.names = (s.names.claim requested).2 := by
  rcases deliver_cases fits file requested s with ⟨refused, fault, run⟩ | ⟨target, after, run, enters, _⟩ |
      ⟨fault, target, after, run, enters, _⟩ | ⟨target, after, run, enters, _⟩
  · rw [run, refused]
  all_goals
    obtain ⟨renamed, given⟩ := enters.names
    rw [run, given]

theorem suited_of_grows (stands : trial.Stands .none done s)
    (fits : ∀ target, (call target).path = target ∧ (call target).operation = role.operation)
    (creates : ∀ target, (call target).creates = true) (named : requested.names ≠ [])
    (grown : Grows (exec (deliver role file requested call) s).2 trial.last) :
    requested.toString ∉ s.names.taken ∧ trial.Roomy role.operation requested := by
  have stores := Call.stores_of_creates (creates requested)
  have free : requested.toString ∉ s.names.taken := by
    intro own
    have none := grown.counts trial.unnumbered
    rw [names_deliver fits] at none
    exact counts_of_taken named own none
  have given := claim_free free
  refine ⟨free, ?_⟩
  have entry (succeeded : Bool) (disk : Disk)
      (ended : (exec (deliver role file requested call) s).2.world.history =
        s.world.history ++ [⟨(call requested).operation, (call requested).path, succeeded, disk⟩]) :
      Performed.Settled trial.held.world.disk trial.held.source
        ⟨(call requested).operation, (call requested).path, succeeded, disk⟩ := by
    refine trial.settled _ (mem_drop_of_grown grown.history _ ?_) stores
    rw [ended]
    exact stands.world.newest _
  have failing (fault : FileFault) (disk : Disk) (run : (call requested).perform s.world = (.error (.file fault),
      s.world.record (call requested).operation (call requested).path false disk)) : False := by
    have ended : exec (deliver role file requested call) s = _ := exec_deliver_error given stands.wet run
    obtain ⟨record, failures, complained⟩ := exec_complain role file "write" (.file fault)
      { s with
        names := { s.names with taken := requested.toString :: s.names.taken }
        world := s.world.record (call requested).operation (call requested).path false disk }
    rw [exec_bind, complained] at ended
    cases (entry false disk (by rw [ended]; rfl)).succeeded
  rcases (call requested).perform_cases s.world with ⟨stopped, _⟩ | ⟨fault, disk, _, run⟩ | ⟨disk, acted, run⟩
  · rw [stands.world.steady, Bool.or_false] at stopped
    exact (failing _ _ (Call.perform_refused stopped)).elim
  · exact (failing _ _ run).elim
  · have ended : exec (deliver role file requested call) s = _ := exec_deliver_ok given stands.wet run
    have settled := entry true disk (by rw [ended]; rfl)
    have willing := Call.willing_of_perform run
    have located := (Call.changes_of_creates (creates requested) acted).2 rfl
    have further : disk.Fits trial.last.world.disk := by
      have fitting := grown.fits
      rw [ended] at fitting
      exact fitting
    rw [(fits requested).1, stands.world.keeps.placeOf] at located
    obtain ⟨content, there⟩ := settled.stands
    have place : disk.placeOf requested = trial.held.world.disk.placeOf requested :=
      (eq_placeOf located).symm
    have spares := settled.spares
    rw [(fits requested).1] at there spares
    rw [place] at there
    obtain ⟨later, still⟩ := further.files _ content there
    rw [(fits requested).1, (fits requested).2, stands.world.refuses] at willing
    exact
      { located := locate_mono further.workingDirectory further.directories located
        stands := ⟨later, still⟩
        spares := spares
        willing := (Bool.or_eq_false_iff.1 willing).1 }

/-- A step comes to what its attempts come to. -/
def Performs (trial : Trial) (faults : Faults) (part : List Attempt) (value : α) (step : Stage α) (s : Session) : Prop :=
  ∀ done, trial.Stands faults done s → trial.Eased faults (done ++ part) (exec step s).2 →
    ∃ after, exec step s = (.ok value, after) ∧ trial.Stands faults (done ++ part) after

theorem performs_pure (value : α) : Performs trial faults [] value (pure value) s := by
  intro done stands _
  rw [append_nil]
  exact ⟨s, rfl, stands⟩

theorem performs_bind {next : α → Stage β} (first : Performs trial faults part value step s)
    (grows : ∀ value after, Traces migrates (next value) after)
    (second : ∀ after, Performs trial faults more result (next value) after) :
    Performs trial faults (part ++ more) result (step >>= next) s := by
  intro done stands eased
  rw [← append_assoc] at eased ⊢
  have before : trial.Eased faults (done ++ part) (exec step s).2 := by
    rcases eased with smooth | ⟨sound, grown⟩
    · exact .inl smooth.before
    · refine .inr ⟨sound, ?_⟩
      rw [exec_bind] at grown
      rcases run : exec step s with ⟨outcome, middle⟩
      rw [run] at grown
      cases outcome with
      | ok other => exact (grows other middle).grows.trans grown
      | error fault => exact grown
  obtain ⟨middle, run, stands⟩ := first done stands before
  rw [exec_bind, run] at eased ⊢
  exact second middle (done ++ part) stands eased

theorem performs_only (first : Performs trial faults part value step s) :
    Performs trial faults part () (step >>= fun _ => pure ()) s := by
  rw [← append_nil part]
  exact performs_bind first (fun _ _ => traces_pure _) (fun _ => performs_pure ())

section

variable {run : α → Stage Unit} (grows : ∀ item s, Traces migrates (run item) s)
include grows

theorem performs_forM {items : List β} {g : β → α} {part : β → List Attempt}
    (each : ∀ item ∈ items, ∀ after, Performs trial faults (part item) () (run (g item)) after) :
    Performs trial faults (items.flatMap part) () ((items.map g).forM run) s := by
  induction items generalizing s with
  | nil => exact performs_pure ()
  | cons item rest ih =>
    exact performs_bind (each item (by simp) s) (fun _ _ => traces_forM (fun item _ after _ => grows item after))
      (fun _ => ih (fun other member => each other (by simp [member])))

theorem performs_append {items others : List α} (first : Performs trial faults part () (items.forM run) s)
    (second : ∀ after, Performs trial faults more () (others.forM run) after) :
    Performs trial faults (part ++ more) () ((items ++ others).forM run) s := by
  have parts : (items ++ others).forM run = (do items.forM run; others.forM run) := forM_append
  rw [parts]
  exact performs_bind first (fun _ _ => traces_forM (fun item _ after _ => grows item after)) second

end

theorem performs_skip (file : String) : Performs trial faults [] none (Chore.skip file).run s := by
  intro done stands _
  rw [append_nil]
  exact ⟨_, rfl, stands.aside ⟨⟨⟨rfl, rfl, rfl, rfl, rfl⟩, rfl, rfl⟩, rfl, rfl, rfl, rfl, rfl⟩ stands.world rfl rfl⟩

theorem performs_warn (notice : Notice) : Performs trial faults [] () (warn notice) s := by
  intro done stands _
  rw [append_nil]
  exact ⟨_, rfl, stands.aside (aside_warn notice s) (stands.world.note _) rfl rfl⟩

theorem performs_unreached (unreached : ∀ attempt ∈ part, attempt.isReached faults = false) :
    Performs trial faults part () (pure ()) s := by
  induction part with
  | nil => exact performs_pure ()
  | cons attempt rest ih =>
    intro done stands eased
    have out := unreached attempt (by simp)
    have smooth : trial.Smooth (done ++ [attempt]) := by
      rcases eased with smooth | ⟨rfl, _⟩
      · rw [append_cons] at smooth
        exact smooth.before
      · refine stands.smooth.enter (fun path is => ?_)
        rw [isReached_none] at out
        simp [path?, out] at is
    have entered : trial.Stands faults (done ++ [attempt]) s := by
      refine stands.enter smooth (.refl s) stands.world prefix_rfl ?_ ?_ ?_ ?_
      · rw [claimed?, out]
        simp [stands.names]
      · rw [delivered?, out]
        simp
      · rw [problem?, out]
        simp
      · intro path content is
        simp [delivered?, out] at is
    rw [append_cons] at eased ⊢
    exact ih (fun other member => unreached other (by simp [member])) (done ++ [attempt]) entered eased

theorem deliver_performs {attempt : Attempt} (is : attempt.draft.subject.role = role ∧ attempt.draft.file = file)
    (making : attempt.draft.making faults = .ok (requested, content))
    (reached : attempt.isReached faults = true)
    (fits : ∀ target, (call target).path = target ∧ (call target).operation = role.operation)
    (creates : ∀ target, (call target).creates = true) (carries : trial.Carries (call requested) content)
    (absolute : requested.isAbsolute = true) (named : requested.names ≠ []) :
    Performs trial faults [attempt] (attempt.delivered? faults) (deliver role file requested call) s := by
  intro done stands eased
  obtain ⟨calm, made⟩ := Draft.making_ok making
  obtain ⟨claimed, delivered, problem⟩ := of_making_ok reached making
  have path := Attempt.path?_of_claimed claimed
  have smooth : trial.Smooth (done ++ [attempt]) := by
    rcases eased with smooth | ⟨rfl, grown⟩
    · exact smooth
    · obtain ⟨free, roomy⟩ := suited_of_grows stands fits creates named grown
      refine stands.smooth.enter (fun other same => ?_)
      obtain rfl : requested = other := Option.some.inj (path.symm.trans same)
      rw [is.1]
      exact ⟨fun old => free (taken_none stands old), roomy⟩
  obtain ⟨fresh, roomy⟩ := smooth.last path
  rw [is.1] at roomy
  have given := claim_free (fun own => fresh (mem_taken stands own))
  have stores := Call.stores_of_creates (creates requested)
  have refusal : s.world.refuses (call requested).operation (call requested).path = faults.refuses requested := by
    rw [stands.world.refuses, (fits requested).1]
    simp only [World.failing, stores, Bool.true_and]
    rw [(fits requested).2, roomy.willing, Bool.false_or]
  have names : (⟨requested.toString :: s.names.taken, s.names.counts⟩ : Output.Names) =
      ⟨(attempt.claimed? faults).toList.map Path.toString ++ s.names.taken, []⟩ := by
    rw [claimed, stands.names]
    rfl
  cases refused : faults.refuses requested with
  | true =>
    rw [if_pos refused] at delivered problem
    have run := Call.perform_refused (refusal.trans refused)
    rw [(fits requested).1] at run
    obtain ⟨record, failures, complained⟩ := exec_complain role file "write" (.file (.diskFull requested.name))
      { s with
        names := { s.names with taken := requested.toString :: s.names.taken }
        world := s.world.record (call requested).operation requested false s.world.disk }
    rw [exec_deliver_error given stands.wet run, exec_bind, complained, delivered]
    refine ⟨_, rfl, stands.enter smooth ⟨⟨rfl, rfl, rfl, rfl, rfl⟩, rfl, rfl⟩ ?_ ?_ names ?_ ?_ ?_⟩
    · exact (stands.world.record _ _ _ stands.world.keeps stands.world.fits).note record
    · exact prefix_append _ _
    · rw [delivered]
      simp
    · rw [problem, is.2]
      rfl
    · intro path content is
      cases delivered.symm.trans is
  | false =>
    rw [refused] at delivered problem
    have room : trial.Roomy (call requested).operation (call requested).path := by
      rw [(fits requested).1, (fits requested).2]
      exact roomy
    obtain ⟨after, acted, fitting, puts⟩ := carries s.world.disk stands.world.keeps stands.world.fits room
      (by rwa [(fits requested).1]) (by rwa [(fits requested).1])
    have run := Call.perform_willing (refusal.trans refused) (stands.world.steady _) acted
    rw [(fits requested).1] at run puts
    have keeps := stands.world.keeps.changes puts.changes (fun place there => there ▸ roomy.spares)
    rw [exec_deliver_ok given stands.wet run, delivered]
    refine ⟨_, rfl, stands.enter smooth ⟨⟨rfl, rfl, rfl, rfl, rfl⟩, rfl, rfl⟩ ?_ ?_ names ?_ ?_ ?_⟩
    · exact stands.world.record _ _ _ keeps fitting
    · exact prefix_append _ _
    · rw [delivered]
      rfl
    · rw [problem]
      simp [Session.change, Session.migrated, Session.created, Outcome.countChange]
    · intro path bytes is own
      cases made.symm.trans own
      refine ⟨_, stands.world.newest ⟨(call requested).operation, requested, true, after⟩, stores, rfl, rfl, ?_⟩
      rw [keeps.placeOf]
      exact puts.stands

theorem complain_performs {attempt : Attempt} {fault : Fault} (is : attempt.draft.file = file)
    (reached : attempt.isReached faults = true) (making : attempt.draft.making faults = .error fault) :
    Performs trial faults [attempt] () (complain role file "transform" fault) s := by
  intro done stands eased
  obtain ⟨claimed, delivered, problem⟩ := of_making_error reached making
  have smooth : trial.Smooth (done ++ [attempt]) := by
    rcases eased with smooth | ⟨rfl, _⟩
    · exact smooth
    · refine stands.smooth.enter (fun path there => ?_)
      rw [← Attempt.claimed?_none, claimed] at there
      cases there
  obtain ⟨record, failures, complained⟩ := exec_complain role file "transform" fault s
  rw [complained]
  refine ⟨_, rfl, stands.enter smooth ⟨⟨rfl, rfl, rfl, rfl, rfl⟩, rfl, rfl⟩ (stands.world.note record)
    prefix_rfl ?_ ?_ ?_ ?_⟩
  · have plain : s.names = ⟨s.names.taken, []⟩ := by rw [stands.names]
    rw [claimed]
    exact plain
  · rw [delivered]
    simp
  · rw [problem, is]
    rfl
  · intro path content there
    cases delivered.symm.trans there

/-- What follows work that may fail. -/
theorem performs_attempt_bind {onFault : Fault → Stage Unit} {next : Option α → Stage β}
    (makes : ∀ done, trial.Stands faults done s → ∃ outcome records,
      exec step s = (outcome, { s with world := s.world.noteAll records }) ∧
        match outcome with
        | .ok value => ∀ after, Performs trial faults part result (next (some value)) after
        | .error fault => ∀ after, Performs trial faults part result (do onFault fault; next none) after) :
    Performs trial faults part result (attempt step onFault >>= next) s := by
  intro done stands eased
  obtain ⟨outcome, records, run, goes⟩ := makes done stands
  have noted := stands.noteAll records
  cases outcome with
  | ok value =>
    rw [exec_bind, exec_attempt_ok _ run] at eased ⊢
    exact goes _ done noted eased
  | error fault =>
    have same : exec (attempt step onFault >>= next) s =
        exec (do onFault fault; next none) { s with world := s.world.noteAll records } := by
      rw [exec_bind, exec_attempt_error _ run, exec_bind, exec_bind]
      rcases exec (onFault fault) { s with world := s.world.noteAll records } with ⟨outcome, after⟩
      cases outcome <;> rfl
    rw [same] at eased ⊢
    exact goes _ done noted eased

theorem fine_of_placed {path : Path}
    (placed : Placed trial.held.output trial.held.options trial.adapter trial.analysis role file path) :
    path.isAbsolute = true ∧ path.names ≠ [] := by
  obtain ⟨names, rfl, spot⟩ := placed.spot trial.builtin.stock trial.grounded trial.named
  refine ⟨trial.absolute, ?_⟩
  have nonempty := spot.region.nonempty
  simp [Path.below, nonempty]

theorem make_performs {attempt : Attempt} {work : Disk → Report String}
    (is : attempt.draft.subject.role = role ∧ attempt.draft.file = file) (reached : attempt.isReached faults = true)
    (writes : role.operation = .writeText)
    (placed : Placed trial.held.output trial.held.options trial.adapter trial.analysis role file requested)
    (makes : ∀ disk, Keeps trial.held.world.disk trial.held.source trial.held.world.disk ∧
      Keeps trial.held.world.disk trial.held.source disk →
      (exec (work disk) []).1.map (fun text => (requested, Text.Utf8.encode text)) = attempt.draft.making faults) :
    Performs trial faults [attempt] (attempt.delivered? faults) (Chore.make role file requested work).run s := by
  obtain ⟨absolute, named⟩ := fine_of_placed placed
  refine performs_attempt_bind (fun done stands => ?_)
  have same := makes s.world.disk ⟨.refl trial.tidy _, stands.world.keeps⟩
  refine ⟨_, _, exec_report (work s.world.disk) s, ?_⟩
  cases made : (exec (work s.world.disk) []).1 with
  | ok text =>
    rw [made] at same
    have fits (target : Path) : (Call.write target text).path = target ∧
        (Call.write target text).operation = role.operation := ⟨rfl, writes.symm⟩
    exact fun after => deliver_performs is same.symm reached fits (fun _ => rfl)
      (trial.write_carries requested text) absolute named
  | error fault =>
    rw [made] at same
    have making : attempt.draft.making faults = .error fault := same.symm
    intro after
    rw [(of_making_error reached making).2.1]
    exact performs_bind (complain_performs is.2 reached making) (fun _ _ => traces_pure _)
      (fun _ => performs_pure none)

theorem making_other (faults : Faults) (role : Role) (file : String) (made : Except Fault (Path × List UInt8)) :
    (⟨.other role, file, made⟩ : Draft).making faults = made := rfl

theorem write_performs (writes : role.operation = .writeText)
    (placed : Placed trial.held.output trial.held.options trial.adapter trial.analysis role file requested)
    (warning : Option Notice) (content : String) :
    Performs trial faults [Job.written role file requested content] ()
      (do let _ ← (Chore.write warning role file requested content).run) s := by
  obtain ⟨absolute, named⟩ := fine_of_placed placed
  have delivered (after : Session) : Performs trial faults [Job.written role file requested content] _
      (deliver role file requested (.write · content)) after :=
    deliver_performs ⟨rfl, rfl⟩ (making_other faults _ _ _) rfl (fun _ => ⟨rfl, writes.symm⟩) (fun _ => rfl)
      (trial.write_carries _ content) absolute named
  cases warning with
  | none => exact performs_only (delivered s)
  | some notice =>
    rw [← nil_append [_]]
    exact performs_only (performs_bind (performs_warn notice) (fun _ _ => deliver_traces (fun _ => ⟨rfl, rfl⟩)) delivered)

theorem performs_lone {chore : Chore} {result : Option Path} (first : Performs trial faults part result chore.run s) :
    Performs trial faults part () (Work.single chore (fun _ => [])).run s := by
  rw [← append_nil part]
  refine performs_bind first (fun found _ => ?_) (fun _ => ?_)
  · cases found <;> exact traces_pure _
  · cases result <;> exact performs_pure ()

section

variable (member : component ∈ trial.analysis.components)
include member

theorem companions_performs (delivered : ((trial.job.component component).delivered? faults).isSome = true) :
    Performs trial faults (trial.job.companions component) ()
      (Chore.runAll (Work.companions (trial.adapter.failing faults) trial.analysis trial.held.options component
        (trial.job.componentPath component))) s := by
  refine performs_forM chore_keeps (fun file attached after => ?_)
  have wanted : Work.wants trial.held.options component file = trial.job.wants component file := rfl
  rw [wanted]
  split
  · have placed : Placed trial.held.output trial.held.options trial.adapter trial.analysis
        (if component.story = some file then .story else .test) file
        (companionPath (trial.job.componentPath component) file) := by
      split
      · next story => exact .story member story (.inl rfl)
      · next other =>
          refine .test member ((mem_append.1 attached).resolve_right (fun story => other ?_)) (.inl rfl)
          exact Option.mem_toList.1 (mem_filter.1 story).1
    have unit : trial.held.world.disk.HasUnit trial.held.source file := by
      refine trial.grounded.components component member file ?_
      rcases mem_append.1 attached with test | story
      · simp [Component.units, test]
      · exact mem_append_right _ (mem_filter.1 story).1
    refine performs_only (make_performs ⟨rfl, rfl⟩ ?_ (by split <;> rfl) placed (fun disk keeps => ?_))
    · simpa [isReached, Job.companion] using delivered
    · exact congrArg (fun work => (exec work []).1.map _) (trial.builtin.companion_eq keeps trial.grounded unit)
  · exact performs_only (performs_skip file)

theorem component_performs :
    Performs trial faults (⟨trial.job.component component, none⟩ :: trial.job.companions component) ()
      (Work.component (trial.adapter.failing faults) trial.analysis trial.held.options trial.held.output component).run
      s := by
  refine performs_bind (make_performs ⟨rfl, rfl⟩ rfl rfl (.component member) (fun disk keeps => ?_))
    (fun result after => ?_) (fun after => ?_)
  · unfold Draft.making Adapter.failing
    dsimp only [Job.component, Faults.raised]
    rw [trial.builtin.component_eq keeps trial.grounded member]
    cases faults.component component <;> rfl
  · cases result with
    | none => exact traces_pure _
    | some target => exact runAll_traces _
  · cases delivered : (trial.job.component component).delivered? faults with
    | none =>
      have lost : (⟨trial.job.component component, none⟩ : Attempt).delivered? faults = none := delivered
      rw [lost]
      refine performs_unreached (fun attempt inCompanions => ?_)
      obtain ⟨file, _, inWanted⟩ := mem_flatMap.1 inCompanions
      split at inWanted
      · obtain rfl := mem_singleton.1 inWanted
        simp [isReached, Job.companion, delivered]
      · cases inWanted
    | some target =>
      have there : (⟨trial.job.component component, none⟩ : Attempt).delivered? faults = some target := delivered
      have path : target = trial.job.componentPath component := by
        have natural := delivered
        rw [Draft.delivered?_eq] at natural
        split at natural
        · cases natural
        · exact Job.path_of_text natural
      rw [there, path]
      exact companions_performs member (by simp [delivered])

end

theorem page_performs (member : page ∈ trial.analysis.pages) :
    Performs trial faults [trial.job.page page] ()
      (Work.page (trial.adapter.failing faults) trial.analysis trial.held.options trial.held.output page).run s := by
  refine performs_lone (make_performs ⟨rfl, rfl⟩ rfl rfl (.page member) (fun disk keeps => ?_))
  unfold Draft.making Adapter.failing
  dsimp only [Job.page, Faults.raised]
  rw [trial.builtin.page_eq keeps trial.grounded member]
  cases faults.page page <;> rfl

theorem asset_performs {asset : Asset} (member : asset ∈ trial.analysis.assets) :
    Performs trial faults [trial.job.asset asset] () (Work.asset trial.analysis trial.held.output asset).run s := by
  have file : trial.held.world.disk.FileBelow trial.held.source (trial.job.assetSource asset) := by
    have unit := (trial.grounded.assets asset member).1
    rw [← trial.grounded.there] at unit
    rw [← trial.grounded.there]
    exact unit
  obtain ⟨absolute, named⟩ := fine_of_placed (.asset member)
  exact performs_lone (deliver_performs ⟨rfl, rfl⟩ (making_other faults _ _ _) rfl (fun _ => ⟨rfl, rfl⟩) (fun _ => rfl)
    (copy_carries file _) absolute named)

theorem noteAll_noteAll (world : World) (first second : List Log.Record) :
    (world.noteAll first).noteAll second = world.noteAll (first ++ second) := by
  simp [World.noteAll]

theorem exec_reports (first : Report α) (second : Disk → α → Report β) {known : α → Report β}
    (same : ∀ records value, second (s.world.noteAll records).disk value = known value) :
    ∃ records, exec (reports first second) s =
      (do
        let value ← (exec first []).1
        let other ← (exec (known value) []).1
        pure (value, other), { s with world := s.world.noteAll records }) := by
  unfold reports
  rcases made : exec first [] with ⟨outcome, records⟩
  cases outcome with
  | error fault =>
    refine ⟨records, ?_⟩
    rw [exec_bind, exec_report, made]
    rfl
  | ok value =>
    refine ⟨records ++ (exec (known value) []).2, ?_⟩
    rw [exec_bind, exec_report, made]
    change exec (report (second (s.world.noteAll records).disk value) >>= fun other => pure (value, other)) _ = _
    rw [exec_bind, same, exec_report, ← noteAll_noteAll]
    dsimp only [bind, Except.bind]
    cases (exec (known value) []).1 <;> rfl

/-- What two reports come to. -/
def found (first : Report α) (second : α → Report β) : Except Fault (α × β) := do
  let value ← (exec first []).1
  let other ← (exec (second value) []).1
  pure (value, other)

/-- The attempts that follow what was found. -/
def tried (role : Role) (place : String) (attempts : α → β → List Attempt) : Except Fault (α × β) → List Attempt
  | .error fault => [Job.failed role place fault]
  | .ok (value, other) => attempts value other

theorem batch_performs {place : String} {first : Report (List (String × String))}
    {second : Disk → List (String × String) → Report (List CarriedStyle)}
    {known : List (String × String) → Report (List CarriedStyle)}
    {chores : List (String × String) → List CarriedStyle → List Chore}
    {attempts : List (String × String) → List CarriedStyle → List Attempt}
    (same : ∀ files disk, Keeps trial.held.world.disk trial.held.source trial.held.world.disk ∧
      Keeps trial.held.world.disk trial.held.source disk → second disk files = known files)
    (made : ∀ files carried, first.Yields files → (known files).Yields carried →
      ∀ after, Performs trial faults (attempts files carried) () (Chore.runAll (chores files carried)) after) :
    Performs trial faults (tried role place attempts (found first known)) ()
      (Work.batch role place first second chores).run s := by
  refine performs_attempt_bind (fun done stands => ?_)
  obtain ⟨records, runs⟩ := exec_reports first second
    (fun records files => same files _ ⟨.refl trial.tidy _, (stands.noteAll records).world.keeps⟩)
  refine ⟨found first known, records, runs, ?_⟩
  cases outcome : found first known with
  | error fault =>
    exact fun after => performs_only (complain_performs rfl rfl (making_other faults role place (.error fault)))
  | ok both =>
    obtain ⟨files, yields, rest⟩ := bind_ok outcome
    obtain ⟨carried, carries, last⟩ := bind_ok rest
    cases last
    exact made files carried yields carries

theorem styles_performs :
    Performs trial faults trial.job.styles ()
      (Work.styles (trial.adapter.failing faults) trial.analysis trial.held.output).run s := by
  have parts : trial.job.styles = tried .style (stylesPlace trial.analysis)
      (fun files carried => files.map (fun file => trial.job.style file.1 file.2 file.1)
        ++ carried.map (fun style => trial.job.style style.name style.content style.source))
      (found (trial.adapter.styles trial.analysis.styling trial.analysis)
        (trial.adapter.carriedStyles trial.held.world.disk trial.analysis.styling trial.analysis)) := by
    unfold Job.styles found
    dsimp only [Trial.job, bind, Except.bind]
    cases (exec (trial.adapter.styles trial.analysis.styling trial.analysis) []).1 with
    | error fault => rfl
    | ok files =>
      dsimp only
      cases (exec (trial.adapter.carriedStyles trial.held.world.disk trial.analysis.styling trial.analysis files) []).1 <;>
        rfl
  rw [parts]
  refine batch_performs (fun files disk keeps => trial.builtin.carriedStyles_eq keeps trial.grounded files)
    (fun files carried styled carriage after => ?_)
  rw [map_eq_flatMap, map_eq_flatMap]
  exact performs_append chore_keeps (performs_forM chore_keeps (fun file member _ =>
    write_performs rfl (.style styled member) none file.2)) (fun _ => performs_forM chore_keeps (fun style member _ =>
    write_performs rfl (.carriedStyle styled carriage member) _ style.content))

theorem configuration_performs :
    Performs trial faults trial.job.configuration ()
      (Work.configuration (trial.adapter.failing faults) trial.analysis trial.held.output).run s := by
  have parts : trial.job.configuration = tried .configuration "configuration"
      (fun files _ => files.map (fun file =>
        Job.written .configuration file.1 (under trial.held.output [file.1]) file.2))
      (found (trial.adapter.configuration trial.analysis) (fun _ => pure ([] : List CarriedStyle))) := by
    unfold Job.configuration found
    dsimp only [Trial.job, bind, Except.bind]
    cases (exec (trial.adapter.configuration trial.analysis) []).1 <;> rfl
  rw [parts]
  refine batch_performs (fun files disk keeps => rfl) (fun files carried made _ after => ?_)
  rw [map_eq_flatMap]
  exact performs_forM chore_keeps (fun file member _ => write_performs rfl (.configuration made member) none file.2)

theorem migrate_performs : Performs trial faults trial.job.attempts () migrate s := by
  intro done stands
  have worker : s.adapter = some (trial.adapter.failing faults) := by
    rw [stands.task.adapter, Session.failing, trial.worker]
    rfl
  rw [exec_migrate, worker, stands.known, stands.options, stands.output]
  have keeps (work : Work) (s : Session) : Traces migrates work.run s := work_traces work
  have whole : Performs trial faults trial.job.attempts () ((Work.all (trial.adapter.failing faults) trial.analysis
      trial.held.options trial.held.output).forM Work.run) s := by
    unfold Job.attempts Work.all
    rw [map_eq_flatMap, map_eq_flatMap]
    refine performs_append keeps (performs_forM keeps (fun component member _ => component_performs member)) (fun _ => ?_)
    refine performs_append keeps (performs_forM keeps (fun page member _ => page_performs member)) (fun _ => ?_)
    refine performs_bind styles_performs (fun _ _ => traces_forM (fun work _ _ _ => work_traces work)) (fun _ => ?_)
    refine performs_append keeps (performs_forM keeps (fun asset member _ => asset_performs member)) (fun _ => ?_)
    exact performs_only configuration_performs
  exact whole done stands

end Stage

namespace Trial

open Stage

variable {trial : Trial}

theorem stands_first (faults : Faults) (fits : trial.held.world.disk.Fits trial.last.world.disk) :
    trial.Stands faults [] (trial.held.failing faults) where
  task := .refl _
  world :=
    { refuses := rfl
      steady := trial.steady
      handlers := rfl
      keeps := .refl trial.tidy _
      fits := fits
      grown := prefix_rfl }
  names := trial.unclaimed
  files := (append_nil _).symm
  errors := (append_nil _).symm
  received := by simp
  smooth := ⟨nodup_nil, by simp⟩

theorem performed (ended : trial.last = (exec migrate trial.held).2) (faults : Faults) :
    exec migrate trial.held = (.ok (), trial.last) ∧ trial.Stands .none trial.job.attempts trial.last ∧
      ∃ after, exec migrate (trial.held.failing faults) = (.ok (), after) ∧
        trial.Stands faults trial.job.attempts after := by
  have grows : Session.Trace Event.migrates trial.held (exec migrate trial.held).2 := migrate_traces
  have fits : trial.held.world.disk.Fits trial.last.world.disk := by
    rw [ended]
    exact grows.grows.fits
  have first := trial.stands_first .none fits
  rw [Session.failing_none] at first
  obtain ⟨after, run, stands⟩ := migrate_performs [] first (.inr ⟨rfl, by rw [ended]; exact .refl _⟩)
  obtain rfl : trial.last = after := by rw [ended, run]
  exact ⟨run, stands, migrate_performs [] (trial.stands_first faults fits) (.inl stands.smooth)⟩

end Trial
end Refit
