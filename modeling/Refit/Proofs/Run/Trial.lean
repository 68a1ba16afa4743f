import Refit.Proofs.Files.Room
import Refit.Proofs.Run.Attempts

/-!
The migration stage under faults. A trial is a migration stage that went through without faults: it
renamed nothing, and every file was made at its own path. Run again with faults, the stage comes to
just what its attempts come to, one by one.
-/

open List

namespace Refit

open Disk

variable {disk : Disk} {path : Path} {content : List UInt8} {event : Event}

namespace Call

variable {call : Call} {world : World}

theorem changes_of_creates (creates : call.creates = true) {after : Disk} {outcome : Except FileFault Unit}
    (acted : exec call.action disk = (outcome, after)) :
    disk.Fits after ∧ (outcome = .ok () → after.locate call.path = .ok (disk.placeOf call.path)) := by
  cases call with
  | makeDirectory | backUp => cases creates
  | write path content =>
    rcases DiskAction.writeFile_cases acted with ⟨fault, rfl, changes⟩ | ⟨_, located, puts⟩
    · exact ⟨changes.fits, fun impossible => nomatch impossible⟩
    · exact ⟨puts.changes.fits, fun _ => located⟩
  | copy source path =>
    rcases DiskAction.copyFile_cases acted with ⟨fault, rfl, changes⟩ | ⟨_, located, content, puts | ⟨_, puts⟩⟩
    · exact ⟨changes.fits, fun impossible => nomatch impossible⟩
    all_goals exact ⟨puts.changes.fits, fun _ => located⟩

theorem fits_perform (creates : call.creates = true) (world : World) :
    world.disk.Fits (call.perform world).2.disk := by
  rcases call.perform_cases world with ⟨_, run⟩ | ⟨_, disk, acted, run⟩ | ⟨disk, acted, run⟩
  · rw [run]
    exact .refl world.disk
  all_goals
    rw [run]
    exact (changes_of_creates creates acted).1

theorem history_perform (call : Call) (world : World) :
    world.history <+: (call.perform world).2.history := by
  rcases call.perform_cases world with ⟨_, run⟩ | ⟨_, _, _, run⟩ | ⟨_, _, run⟩ <;>
    rw [run] <;> exact prefix_append _ _

theorem perform_willing (willing : world.refuses call.operation call.path = false)
    (steady : world.falters world.calls = false) (acted : exec call.action world.disk = (.ok (), disk)) :
    call.perform world = (.ok (), world.record call.operation call.path true disk) := by
  rcases call.perform_cases world with ⟨refused, _⟩ | ⟨_, _, failed, _⟩ | ⟨other, done, run⟩
  · simp [willing, steady] at refused
  · cases acted.symm.trans failed
  · cases acted.symm.trans done
    exact run

theorem perform_refused (refused : world.refuses call.operation call.path = true) :
    call.perform world = (.error (.file (.diskFull call.path.name)),
      world.record call.operation call.path false world.disk) := by
  simp [perform, World.perform, World.failure, refused]

theorem willing_of_perform {after : World} (run : call.perform world = (.ok (), after)) :
    world.refuses call.operation call.path = false := by
  cases refused : world.refuses call.operation call.path with
  | false => rfl
  | true => cases (perform_refused refused).symm.trans run

end Call

namespace Session

variable {s t : Session}

/-- What the migration stage leaves as it goes on: calls stay recorded, numbers stay counted, files
    and directories stay. -/
structure Grows (s t : Session) : Prop where
  history : s.world.history <+: t.world.history
  counts : t.names.counts = [] → s.names.counts = []
  fits : s.world.disk.Fits t.world.disk

theorem Grows.refl (s : Session) : Grows s s := ⟨prefix_rfl, id, .refl _⟩

theorem Grows.trans {u : Session} (first : Grows s t) (second : Grows t u) : Grows s u :=
  ⟨first.history.trans second.history, fun none => first.counts (second.counts none), first.fits.trans second.fits⟩

theorem Step.grows (step : Step event s t) (migrates : event.migrates) : Grows s t := by
  cases step with
  | logged _ record =>
    exact ⟨prefix_rfl, id, (World.note_touched s.world record).changes.fits⟩
  | claimed _ path => exact ⟨prefix_rfl, Output.Names.counts_of_claim, .refl _⟩
  | problem | unitProblem | warned | skipped | changed | pretended => exact ⟨prefix_rfl, id, .refl _⟩
  | failed _ call real run =>
    have grown := call.history_perform s.world
    have fits := Call.fits_perform migrates s.world
    rw [run] at grown fits
    exact ⟨grown, id, fits⟩
  | delivered _ call real creates run =>
    have grown := call.history_perform s.world
    have fits := Call.fits_perform creates s.world
    rw [run] at grown fits
    exact ⟨grown, id, fits⟩
  | timed | chosen | analyzed | counted | made | backedUp | added => cases migrates

theorem Trace.grows (trace : Trace Event.migrates s t) : Grows s t := by
  induction trace with
  | refl => exact .refl s
  | tail _ last ih =>
    obtain ⟨_, migrates, step⟩ := last
    exact ih.trans (step.grows migrates)

end Session

namespace Performed

/-- A file that a call was to make is at its path, and it is over no file of the project. -/
structure Settled (disk : Disk) (source : Path) (call : Performed) : Prop where
  succeeded : call.succeeded = true
  stands : ∃ content, call.disk.at? (call.disk.placeOf call.path) = some (.file content)
  spares : ¬ disk.ProjectFile source (disk.placeOf call.path)

end Performed

/-- A file with some content was made at a path. -/
def Received (calls : List Performed) (path : Path) (content : List UInt8) : Prop :=
  ∃ call ∈ calls, call.operation.stores = true ∧ call.path = path ∧ call.succeeded = true ∧
    call.disk.at? (call.disk.placeOf path) = some (.file content)

theorem Received.mono {calls more : List Performed}
    (received : Received calls path content) (grown : ∀ call ∈ calls, call ∈ more) : Received more path content := by
  obtain ⟨call, member, rest⟩ := received
  exact ⟨call, grown call member, rest⟩

theorem mem_drop_of_grown {α : Type} {first second : List α} (grown : first <+: second) (n : Nat) {item : α}
    (member : item ∈ first.drop n) : item ∈ second.drop n := by
  obtain ⟨more, rfl⟩ := grown
  rw [drop_append]
  exact mem_append_left _ member

theorem Received.later {calls more : List Performed} {early late : Nat}
    (received : Received (calls.drop late) path content) (grown : calls <+: more) (before : early ≤ late) :
    Received (more.drop early) path content := by
  refine received.mono (fun call member => mem_drop_of_grown grown early ?_)
  rw [← Nat.add_sub_cancel' before, ← drop_drop] at member
  exact mem_of_mem_drop member

/-- A migration stage without faults, from the session that it begins with to its last one. -/
structure Trial where
  held : Session
  last : Session
  adapter : Adapter
  analysis : Analysis
  worker : held.adapter = some adapter
  known : held.outcome.analysis = some analysis
  builtin : adapter.Builtin
  grounded : analysis.Grounded held.world.disk held.source
  named : analysis.Named
  apart : held.world.LogsApart held.source
  tidy : held.world.disk.root.tidy = true
  absolute : held.output.isAbsolute = true
  wet : held.options.dryRun = false
  steady : ∀ calls, held.world.falters calls = false
  unclaimed : held.names = .empty
  unnumbered : last.names.counts = []
  settled : ∀ call ∈ last.world.history.drop held.world.history.length, call.operation.stores = true →
    call.Settled held.world.disk held.source

namespace Trial

variable {trial : Trial} {faults : Faults} {world : World} {attempt : Attempt} {done : List Attempt}

def job (trial : Trial) : Job :=
  ⟨trial.adapter, trial.analysis, trial.held.world.disk, trial.held.output, trial.held.options⟩

/-- There is room for a file at a path, and nothing stands in its way. -/
structure Roomy (trial : Trial) (operation : FileOperation) (path : Path) : Prop where
  located : trial.last.world.disk.locate path = .ok (trial.held.world.disk.placeOf path)
  stands : ∃ content, trial.last.world.disk.at? (trial.held.world.disk.placeOf path) = some (.file content)
  spares : ¬ trial.held.world.disk.ProjectFile trial.held.source (trial.held.world.disk.placeOf path)
  willing : trial.held.world.refuses operation path = false

/-- Attempts that do not get into each other's way. -/
structure Smooth (trial : Trial) (attempts : List Attempt) : Prop where
  distinct : ((attempts.filterMap Attempt.path?).map Path.toString).Nodup
  roomy : ∀ attempt ∈ attempts, ∀ path ∈ attempt.path?, trial.Roomy attempt.draft.subject.role.operation path

/-- A world that a run with faults can have come to. -/
structure Kept (trial : Trial) (faults : Faults) (world : World) : Prop where
  refuses : world.refuses = (trial.held.world.failing faults).refuses
  steady : ∀ calls, world.falters calls = false
  handlers : world.log.handlers = trial.held.world.log.handlers
  keeps : Keeps trial.held.world.disk trial.held.source world.disk
  fits : world.disk.Fits trial.last.world.disk
  grown : trial.held.world.history <+: world.history

/-- What a run with faults has come to when some of the attempts are done. -/
structure Stands (trial : Trial) (faults : Faults) (done : List Attempt) (s : Session) : Prop where
  task : Session.SameTask (trial.held.failing faults) s
  world : trial.Kept faults s.world
  names : s.names = ⟨((done.filterMap (·.claimed? faults)).map Path.toString).reverse, []⟩
  files : s.outcome.migratedFiles =
    trial.held.outcome.migratedFiles ++ (done.filterMap (·.delivered? faults)).map Path.toString
  errors : s.outcome.errors = trial.held.outcome.errors ++ done.filterMap (·.problem? faults)
  received : ∀ attempt ∈ done, ∀ path content, attempt.delivered? faults = some path →
    attempt.draft.made = .ok (path, content) →
    Received (s.world.history.drop trial.held.world.history.length) path content
  smooth : trial.Smooth done

theorem Smooth.before {more : List Attempt} (smooth : trial.Smooth (done ++ more)) : trial.Smooth done where
  distinct := by
    have distinct := smooth.distinct
    rw [filterMap_append, map_append] at distinct
    exact (nodup_append.1 distinct).1
  roomy attempt member := smooth.roomy attempt (mem_append_left _ member)

theorem Smooth.enter (smooth : trial.Smooth done)
    (fresh : ∀ path ∈ attempt.path?, path.toString ∉ (done.filterMap Attempt.path?).map Path.toString ∧
      trial.Roomy attempt.draft.subject.role.operation path) : trial.Smooth (done ++ [attempt]) where
  distinct := by
    rw [filterMap_append, map_append]
    refine nodup_append.2 ⟨smooth.distinct, ?_, ?_⟩
    · cases found : attempt.path? <;> simp [found]
    · intro text old other new same
      subst same
      obtain ⟨path, inNew, rfl⟩ := mem_map.1 new
      obtain ⟨only, single, is⟩ := mem_filterMap.1 inNew
      obtain rfl := mem_singleton.1 single
      exact (fresh path is).1 old
  roomy other member path is := by
    rcases mem_append.1 member with old | new
    · exact smooth.roomy other old path is
    · obtain rfl := mem_singleton.1 new
      exact (fresh path is).2

theorem Smooth.last (smooth : trial.Smooth (done ++ [attempt]))
    (is : attempt.path? = some path) : path.toString ∉ (done.filterMap Attempt.path?).map Path.toString ∧
      trial.Roomy attempt.draft.subject.role.operation path := by
  refine ⟨fun old => ?_, smooth.roomy attempt (by simp) path is⟩
  have distinct := smooth.distinct
  rw [filterMap_append, map_append] at distinct
  exact (nodup_append.1 distinct).2.2 _ old _ (by simp [is]) rfl

theorem Kept.note (kept : trial.Kept faults world) (record : Log.Record) : trial.Kept faults (world.note record) where
  refuses := kept.refuses
  steady := kept.steady
  handlers := (World.handlers_note world record).trans kept.handlers
  keeps := World.keeps_note trial.apart kept.handlers kept.keeps record
  fits := by
    have touched := World.note_touched world record
    exact kept.fits.congr touched.changes.workingDirectory (touched.isDirectory (fun _ there => there.2))
  grown := kept.grown

theorem Kept.record (kept : trial.Kept faults world) (operation : FileOperation) (path : Path) (succeeded : Bool)
    (keeps : Keeps trial.held.world.disk trial.held.source disk) (fits : disk.Fits trial.last.world.disk) :
    trial.Kept faults (world.record operation path succeeded disk) where
  refuses := kept.refuses
  steady := kept.steady
  handlers := kept.handlers
  keeps := keeps
  fits := fits
  grown := kept.grown.trans (prefix_append _ _)

variable {done : List Attempt} {s t : Session}

section

variable (stands : trial.Stands faults done s)
include stands

/-- A step that makes no file. -/
theorem Stands.aside (aside : Session.Aside s t)
    (world : trial.Kept faults t.world) (history : t.world.history = s.world.history)
    (errors : t.outcome.errors = s.outcome.errors) : trial.Stands faults done t where
  task := stands.task.trans aside.toSameTask
  world := world
  names := aside.names.trans stands.names
  files := aside.files.trans stands.files
  errors := errors.trans stands.errors
  received := by
    rw [history]
    exact stands.received
  smooth := stands.smooth

theorem Stands.noteAll (records : List Log.Record) :
    trial.Stands faults done { s with world := s.world.noteAll records } := by
  induction records generalizing s with
  | nil => exact stands
  | cons record rest ih =>
    have noted : trial.Stands faults done { s with world := s.world.note record } :=
      stands.aside (.world rfl) (stands.world.note record) rfl rfl
    exact ih noted

theorem Stands.enter (smooth : trial.Smooth (done ++ [attempt]))
    (task : Session.SameTask s t) (world : trial.Kept faults t.world)
    (history : s.world.history <+: t.world.history)
    (names : t.names = ⟨(attempt.claimed? faults).toList.map Path.toString ++ s.names.taken, []⟩)
    (files : t.outcome.migratedFiles =
      s.outcome.migratedFiles ++ (attempt.delivered? faults).toList.map Path.toString)
    (errors : t.outcome.errors = s.outcome.errors ++ (attempt.problem? faults).toList)
    (received : ∀ path content, attempt.delivered? faults = some path → attempt.draft.made = .ok (path, content) →
      Received (t.world.history.drop trial.held.world.history.length) path content) :
    trial.Stands faults (done ++ [attempt]) t where
  task := stands.task.trans task
  world := world
  names := by
    rw [names, stands.names]
    cases found : attempt.claimed? faults <;> simp [found]
  files := by
    rw [files, stands.files]
    cases found : attempt.delivered? faults <;> simp [found]
  errors := by
    rw [errors, stands.errors]
    cases found : attempt.problem? faults <;> simp [found]
  received other member path content is made := by
    rcases mem_append.1 member with old | new
    · exact (stands.received other old path content is made).mono (fun _ => mem_drop_of_grown history _)
    · obtain rfl := mem_singleton.1 new
      exact received path content is made
  smooth := smooth

end

end Trial

namespace Disk

variable {disk after : Disk} {root path : Path}

theorem FileBelow.fits (file : disk.FileBelow root path) (fits : disk.Fits after) : after.FileBelow root path := by
  obtain ⟨within, content, found⟩ := file
  obtain ⟨place, located, holds⟩ := entry_ok.1 found
  obtain ⟨later, stands⟩ := fits.files place content (Entry.at?_file.2 holds)
  exact ⟨within, later, entry_ok.2 ⟨place, locate_mono fits.workingDirectory fits.directories located,
    Entry.at?_file.1 stands⟩⟩

end Disk

theorem Analysis.Grounded.fits {analysis : Analysis} {after : Disk} {root : Path}
    (grounded : analysis.Grounded disk root) (fits : disk.Fits after) : analysis.Grounded after root where
  there := grounded.there
  components component member file inUnits := (grounded.components component member file inUnits).fits fits
  pages page member := (grounded.pages page member).fits fits
  styles file member := (grounded.styles file member).fits fits
  assets asset member := ⟨(grounded.assets asset member).1.fits fits, (grounded.assets asset member).2⟩

/-- What was logged has changed no file into a directory. -/
theorem World.Relogged.fits {start world : World} (relogged : World.Relogged start world) :
    world.disk.Fits start.disk :=
  (Fits.refl start.disk).congr relogged.touched.changes.workingDirectory
    (relogged.touched.isDirectory (fun _ there => there.2))

theorem DiskAction.copyTree_fits (tidy : disk.root.tidy = true) (source destination : Path) :
    disk.Fits (exec (copyTree source destination) disk).2 ∧
      (exec (copyTree source destination) disk).2.root.tidy = true := by
  obtain ⟨tree, touched⟩ := copyTree_touches tidy source destination
  exact ⟨touched.changes.fits, touched.changes.tidy tidy⟩

namespace Session

/-- What lasts while a run prepares its migration stage: no file becomes a directory, and none is stored. -/
structure Lasting (s t : Session) : Prop where
  fits : s.world.disk.Fits t.world.disk
  tidy : t.world.disk.root.tidy = true
  handlers : t.world.log.handlers = s.world.log.handlers
  falters : t.world.falters = s.world.falters
  history : ∃ calls, t.world.history = s.world.history ++ calls ∧ ∀ call ∈ calls, call.operation.stores = false

theorem Lasting.of_same {s t : Session} (tidy : s.world.disk.root.tidy = true) (disk : t.world.disk = s.world.disk)
    (log : t.world.log.handlers = s.world.log.handlers) (falters : t.world.falters = s.world.falters)
    (history : t.world.history = s.world.history) : Lasting s t :=
  ⟨by rw [disk]; exact .refl _, by rw [disk]; exact tidy, log, falters, [], by simp [history], by simp⟩

theorem Lasting.trans {s t u : Session} (first : Lasting s t) (second : Lasting t u) : Lasting s u := by
  obtain ⟨calls, grown, kinds⟩ := first.history
  obtain ⟨more, further, sorts⟩ := second.history
  refine ⟨first.fits.trans second.fits, second.tidy, second.handlers.trans first.handlers,
    second.falters.trans first.falters, calls ++ more, ?_, ?_⟩
  · rw [further, grown, List.append_assoc]
  · intro call member
    exact (List.mem_append.1 member).elim (kinds call) (sorts call)

theorem lasting_perform {s : Session} {call : Call} (tidy : s.world.disk.root.tidy = true)
    (plain : call.creates = false) {t : Session} (world : t.world = (call.perform s.world).2) : Lasting s t := by
  have acts : s.world.disk.Fits (exec call.action s.world.disk).2 ∧
      (exec call.action s.world.disk).2.root.tidy = true := by
    cases call with
    | makeDirectory path =>
      have touched : Touched (fun _ => True) (fun _ => False) s.world.disk
          (exec (DiskAction.makeDirectories path) s.world.disk).2 := DiskAction.makeDirectories_alters path _
      exact ⟨touched.changes.fits, touched.changes.tidy tidy⟩
    | backUp source path => exact DiskAction.copyTree_fits tidy source path
    | write | copy => cases plain
  have kind : call.operation.stores = false := by
    cases call with
    | makeDirectory | backUp => rfl
    | write | copy => cases plain
  rcases call.perform_cases s.world with ⟨_, run⟩ | ⟨_, disk, acted, run⟩ | ⟨disk, acted, run⟩
  · rw [run] at world
    exact ⟨by rw [world]; exact .refl _, by rw [world]; exact tidy, by rw [world]; rfl, by rw [world]; rfl,
      _, by rw [world]; rfl, by simpa using kind⟩
  · rw [show exec call.action s.world.disk = (.error _, disk) from acted] at acts
    rw [run] at world
    exact ⟨by rw [world]; exact acts.1, by rw [world]; exact acts.2, by rw [world]; rfl, by rw [world]; rfl,
      _, by rw [world]; rfl, by simpa using kind⟩
  · rw [show exec call.action s.world.disk = (.ok (), disk) from acted] at acts
    rw [run] at world
    exact ⟨by rw [world]; exact acts.1, by rw [world]; exact acts.2, by rw [world]; rfl, by rw [world]; rfl,
      _, by rw [world]; rfl, by simpa using kind⟩

theorem Step.lasting {start s t : Session} (step : Step event s t) (lays : event.lays start)
    (tidy : s.world.disk.root.tidy = true) : Lasting s t := by
  cases step with
  | logged _ record =>
    have changes := (World.note_touched s.world record).changes
    exact ⟨changes.fits, changes.tidy tidy, World.handlers_note s.world record, rfl, [], by simp [World.note], by simp⟩
  | timed | chosen | analyzed => exact .of_same tidy rfl rfl rfl rfl
  | failed _ call real run =>
    refine lasting_perform tidy ?_ (congrArg Prod.snd run).symm
    cases call with
    | makeDirectory | backUp => rfl
    | write | copy => rcases lays with is | is | is | is <;> cases is
  | made _ path real run =>
    exact @lasting_perform s (.makeDirectory path) tidy rfl _ (congrArg Prod.snd run).symm
  | backedUp _ path real run =>
    exact @lasting_perform s (.backUp s.source path) tidy rfl _ (congrArg Prod.snd run).symm
  | _ => rcases lays with is | is | is | is <;> cases is

theorem Trace.lasting {start s t : Session} (trace : Trace (Event.lays start) s t)
    (tidy : s.world.disk.root.tidy = true) : Lasting s t := by
  induction trace with
  | refl => exact .of_same tidy rfl rfl rfl rfl
  | tail _ last ih =>
    obtain ⟨_, lays, step⟩ := last
    exact ih.trans (step.lasting lays ih.tidy)

end Session

namespace Migration

open Session Stage

variable {observer : Option Observer} {session : Session}

/-- What an observer is told before the migration stage. -/
def announcement : Progress := ⟨"migration", 5, stages.length, "Migrating components, pages and styles"⟩

def entered (observer : Option Observer) (session : Session) : Session :=
  { (laid observer session).2 with
    world := (laid observer session).2.world.note
      ⟨.debug, part, "Stage " ++ toString 5 ++ "/" ++ toString stages.length ++ ": " ++ "migration"⟩ }

/-- The run comes to its migration stage. -/
def Proceeds (observer : Option Observer) (session : Session) : Prop :=
  (laid observer session).1 = .ok () ∧ (tell observer announcement []).1 = .ok ()

theorem entered_failing (faults : Faults) (observer : Option Observer) (session : Session) :
    entered observer (session.failing faults) = (entered observer session).failing faults := by
  unfold entered
  rw [laid_failing]
  rfl

theorem prepared_failing (faults : Faults) (observer : Option Observer) (session : Session) :
    (∃ fault, ¬ Proceeds observer session ∧ (prepared observer (session.failing faults)).1 = .error fault ∧
      (prepared observer session).1 = .error fault ∧
      (prepared observer (session.failing faults)).2.1 = (laid observer session).2.failing faults ∧
      (prepared observer session).2.1 = (laid observer session).2) ∨
    Proceeds observer session ∧
      ((prepared observer (session.failing faults)).1, (prepared observer (session.failing faults)).2.1) =
        exec Stage.migrate ((entered observer session).failing faults) ∧
      ((prepared observer session).1, (prepared observer session).2.1) =
        exec Stage.migrate (entered observer session) := by
  have faulty := prepared_eq observer (session.failing faults)
  have sound := prepared_eq observer session
  have further := entered_failing faults observer session
  rw [laid_failing] at faulty
  unfold Proceeds
  unfold entered at further ⊢
  rw [laid_failing] at further
  rcases run : laid observer session with ⟨outcome, held⟩
  rw [run] at faulty sound further
  cases outcome with
  | error fault =>
    exact .inl ⟨fault, by simp, congrArg Prod.fst faulty, congrArg Prod.fst sound, congrArg Prod.snd faulty,
      congrArg Prod.snd sound⟩
  | ok =>
    unfold announced at faulty sound
    cases answer : (tell observer announcement []).1 with
    | error fault =>
      rw [show (tell observer ⟨"migration", 5, stages.length, _⟩ []).1 = _ from answer] at faulty sound
      exact .inl ⟨fault, by simp, congrArg Prod.fst faulty, congrArg Prod.fst sound,
        congrArg Prod.snd faulty, congrArg Prod.snd sound⟩
    | ok =>
      rw [show (tell observer ⟨"migration", 5, stages.length, _⟩ []).1 = _ from answer] at faulty sound
      refine .inr ⟨⟨rfl, rfl⟩, ?_, sound⟩
      exact faulty

end Migration
end Refit
