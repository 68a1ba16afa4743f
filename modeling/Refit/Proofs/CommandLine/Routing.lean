import Refit.Proofs.CommandLine.Call

/-!
The log over any number of configurations. Each console hears what is logged up to the next one, each log
file receives all that is logged while it is in place, and nothing is delivered to what was replaced.
-/

open List

namespace Refit

open Disk DiskAction

namespace Log

inductive Step where
  | configure (verbose : Bool) (file : Option Path)
  | log (record : Record)

/-- A configuration of the log, and what is logged before the next one. -/
structure Period where
  verbose : Bool
  file : Option Path
  records : List Record

def untilNext : List Step → List Record
  | .log record :: rest => record :: untilNext rest
  | _ => []

def periods : List Step → List Period
  | [] => []
  | .log _ :: rest => periods rest
  | .configure verbose file :: rest => ⟨verbose, file, untilNext rest⟩ :: periods rest

/-- What a console hears: one line for each record of its level or above. -/
def heard (verbose : Bool) (records : List Record) : String :=
  String.join ((records.filter (fun record => (Router.consoleLevel verbose).rank ≤ record.level.rank)).map
    (consoleLine verbose))

/-- What a log file receives: one line for each record, whatever its level. -/
def received (stamp : String) (records : List Record) : List UInt8 :=
  records.flatMap (fun record => Text.Utf8.encode (fileLine stamp record))

/-- A router with the handlers of one configuration in place, after earlier ones left their streams. -/
structure Router.Serves (router : Router) (before : List String) (text : String) (verbose : Bool)
    (file : Option Path) : Prop where
  handlers : router.handlers = .console before.length verbose :: file.toList.map .file
  streams : router.streams = before ++ [text]
  loud : ∀ level : Level, (consoleLevel verbose).rank ≤ level.rank → router.admits level = true
  full : file.isSome = true → ∀ level, router.admits level = true

variable {router : Router} {before : List String} {text : String} {verbose : Bool} {file : Option Path}

theorem heard_cons (verbose : Bool) (record : Record) (rest : List Record) :
    heard verbose (record :: rest) = heard verbose [record] ++ heard verbose rest := by
  simp only [heard, ← String.join_append, ← map_append, ← filter_append, singleton_append]

theorem deliver_files (record : Record) (streams : List String) :
    (file.toList.map Handler.file).foldl (Router.deliver record) streams = streams := by
  cases file <;> rfl

theorem Router.Serves.emit (serves : router.Serves before text verbose file) (record : Record) :
    (router.emit record).Serves before (text ++ heard verbose [record]) verbose file := by
  have same : (router.emit record).threshold = router.threshold := by
    unfold Router.emit
    split <;> rfl
  refine ⟨(handlers_emit router record).trans serves.handlers, ?_, ?_, ?_⟩
  · by_cases hears : (consoleLevel verbose).rank ≤ record.level.rank
    · simp [Router.emit, serves.loud _ hears, serves.handlers, serves.streams, deliver_files, deliver, hears, append,
        heard, modify_eq_take_drop]
    · have unchanged : (router.emit record).streams = router.streams := by
        unfold Router.emit
        split <;> simp [serves.handlers, deliver_files, deliver, hears]
      simp [unchanged, serves.streams, heard, hears]
  · simpa only [admits, same] using serves.loud
  · simpa only [admits, same] using serves.full

theorem Router.Serves.filesFor (serves : router.Serves before text verbose file) (record : Record) :
    router.filesFor record = file.toList := by
  unfold Router.filesFor
  cases file with
  | none => simp [serves.handlers]
  | some path => simp [serves.full rfl, serves.handlers]

theorem Router.admits_withConsole {detailed : Bool} {level : Level} (loud : (consoleLevel verbose).rank ≤ level.rank) :
    (router.withConsole verbose detailed).admits level = true := by
  have low : ∀ verbose detailed : Bool,
      (if verbose || detailed then Level.debug else .info).rank ≤ (consoleLevel verbose).rank := by decide
  exact decide_eq_true ((low verbose detailed).trans loud)

end Log

namespace Disk

variable {disk : Disk} {place other : List String}

theorem readBytes_plain (plain : ".." ∉ place) :
    (disk.readBytes ⟨.slash, place⟩).toOption = disk.contentAt place := by
  ext content
  rw [contentAt_some]
  constructor
  · intro read
    unfold readBytes at read
    split at read
    · next found =>
        obtain ⟨other, located, holds⟩ := entry_ok.1 found
        cases (eq_placeOf located).trans (flatten_plain plain)
        cases read
        exact Entry.at?_file.2 holds
    all_goals cases read
  · intro stands
    have found : disk.entry ⟨.slash, place⟩ = .ok (.file content) :=
      entry_ok.2 ⟨place, locate_plain plain stands, Entry.at?_file.1 stands⟩
    rw [readBytes, found]
    rfl

theorem contentAt_appendText (plain : ".." ∉ other) (text : String) :
    (World.appendText disk ⟨.slash, other⟩ text).contentAt place =
      if other = place then (disk.contentAt place).map (· ++ Text.Utf8.encode text) else disk.contentAt place := by
  have read := @readBytes_plain disk other plain
  unfold World.appendText
  cases known : disk.readBytes ⟨.slash, other⟩ with
  | error =>
    rw [known] at read
    dsimp only
    split
    · next same =>
        rw [← same, ← read]
        rfl
    · rfl
  | ok content =>
    rw [known] at read
    dsimp only
    have stands := contentAt_some.1 read.symm
    have wrote (bytes : List UInt8) : exec (writeBytes ⟨.slash, other⟩ bytes) disk = (.ok (), disk.put other (.file bytes)) := by
      rw [writeBytes, exec_get_bind, locate_plain plain stands]
      simp [Entry.at?_file.1 stands, exec_putEntry]
    have puts := (writeBytes_ok (wrote (content ++ Text.Utf8.encode text))).2.2
    rw [show disk.placeOf ⟨.slash, other⟩ = other from flatten_plain plain] at puts
    rw [show ((writeBytes ⟨.slash, other⟩ _).run.run disk).2 = _ from congrArg Prod.snd (wrote _)]
    split
    · next same =>
        rw [← same, contentAt_some.2 puts.stands, ← read]
        rfl
    · next differs => exact puts.changes.contentAt (Ne.symm differs)

end Disk

namespace World

open Log WorldAction

variable {world : World} {before : List String} {text : String} {verbose : Bool} {file : Option Path}

def step (world : World) : Log.Step → World
  | .configure verbose file => (exec (configureLog verbose file) world).2
  | .log record => world.note record

/-- Takes one step after the other, whatever each comes to. -/
def follow (world : World) (steps : List Log.Step) : World := steps.foldl step world

def configured (world : World) (period : Period) : World := (exec (configureLog period.verbose period.file) world).2

def serve (world : World) (period : Period) : World := (world.configured period).noteAll period.records

/-- The log file that a configuration puts in place, where it can be written. -/
def opened (world : World) (period : Period) : Option Path :=
  match exec (configureLog period.verbose period.file) world with
  | (.ok (), _) => period.file.map world.disk.resolve
  | (.error _, _) => none

/-- The log file of each period, with what was logged meanwhile. -/
def shares : World → List Period → List (Option Path × List Record)
  | _, [] => []
  | world, period :: rest => (world.opened period, period.records) :: shares (world.serve period) rest

theorem follow_eq_serve (world : World) (steps : List Log.Step) :
    world.follow steps = (periods steps).foldl serve (world.noteAll (untilNext steps)) := by
  induction steps generalizing world with
  | nil => rfl
  | cons step rest ih => cases step <;> exact ih _

theorem noteAll_serves (serves : world.log.Serves before text verbose file) (records : List Record) :
    (world.noteAll records).log.Serves before (text ++ heard verbose records) verbose file := by
  induction records generalizing world text with
  | nil => simpa [heard, noteAll] using serves
  | cons record rest ih =>
    rw [heard_cons, ← String.append_assoc]
    exact ih (serves.emit record)

theorem stamp_noteAll (world : World) (records : List Record) : (world.noteAll records).stamp = world.stamp := by
  induction records generalizing world with
  | nil => rfl
  | cons record rest ih => exact ih _

theorem contentAt_noteAll (serves : world.log.Serves before text verbose file)
    (plain : ∀ path ∈ file, path.root = .slash ∧ ".." ∉ path.names) (records : List Record) (place : List String) :
    (world.noteAll records).disk.contentAt place =
      if file = some ⟨.slash, place⟩ then (world.disk.contentAt place).map (· ++ received world.stamp records)
      else world.disk.contentAt place := by
  induction records generalizing world text with
  | nil => simp [noteAll, received]
  | cons record rest ih =>
    rw [show world.noteAll (record :: rest) = (world.note record).noteAll rest from rfl, ih (serves.emit record)]
    cases file with
    | none => simp [note, serves.filesFor]
    | some path =>
      obtain ⟨root, names⟩ := path
      obtain ⟨rfl, plain⟩ := plain _ rfl
      simp only [note, serves.filesFor, Option.toList_some, foldl_cons, foldl_nil, contentAt_appendText plain]
      by_cases same : names = place <;> simp [same, received, Function.comp_def]

/-- A configuration leaves its own handlers only, and a log file keeps its content. -/
theorem configured_serves (world : World) (period : Period) :
    (world.configured period).log.Serves world.log.streams "" period.verbose (world.opened period) ∧
    (world.configured period).stamp = world.stamp ∧
    (∀ path ∈ world.opened period, path.root = .slash ∧ ".." ∉ path.names) ∧
    ∀ place, (world.configured period).disk.contentAt place =
      if world.opened period = some ⟨.slash, place⟩ then some ((world.disk.contentAt place).getD [])
      else world.disk.contentAt place := by
  rcases configureLog_cases period.verbose period.file world with
    ⟨outcome, disk, run, alone, touched⟩ | ⟨path, disk, given, run, holds, touched⟩
  · have none : world.opened period = none := by
      rw [opened, run]
      rcases alone with given | ⟨fault, rfl⟩
      · cases outcome <;> simp [given]
      · rfl
    rw [configured, run, none]
    refine ⟨⟨rfl, rfl, fun _ => Router.admits_withConsole, nofun⟩, rfl, nofun, fun place => ?_⟩
    rw [if_neg nofun]
    exact (touched (fun _ => False)).changes.contentAt id
  · rw [configured, opened, run, given]
    refine ⟨⟨rfl, rfl, fun _ => @Router.admits_withConsole world.log _ _ _, fun _ level => ?_⟩, rfl, ?_, fun place => ?_⟩
    · cases level <;> simp [Router.admits, Router.withFile, Router.withConsole, Level.rank]
    · rintro path ⟨⟩
      exact ⟨rfl, no_dots_of_flatten (by simp)⟩
    · dsimp only
      split
      · next same =>
          cases same
          exact holds
      · next differs =>
          refine (touched _ rfl).changes.contentAt (fun same => differs ?_)
          exact congrArg (fun names => some (Path.mk .slash names)) same

theorem serve_serves (world : World) (period : Period) :
    (world.serve period).log.Serves world.log.streams (heard period.verbose period.records) period.verbose
      (world.opened period) := by
  simpa [serve] using noteAll_serves (configured_serves world period).1 period.records

theorem streams_serveAll (world : World) (periods : List Period) :
    (periods.foldl serve world).log.streams =
      world.log.streams ++ periods.map (fun period => heard period.verbose period.records) := by
  induction periods generalizing world with
  | nil => simp
  | cons period rest ih => simp [ih, (serve_serves world period).streams]

theorem contentAt_serve (world : World) (period : Period) (place : List String) :
    (world.serve period).disk.contentAt place =
      if world.opened period = some ⟨.slash, place⟩ then
        some ((world.disk.contentAt place).getD [] ++ received world.stamp period.records)
      else world.disk.contentAt place := by
  obtain ⟨serves, stamp, plain, content⟩ := configured_serves world period
  rw [serve, contentAt_noteAll serves plain, content, stamp]
  split <;> rfl

/-- What is at a place after some periods: a file is written as often as it was the log file. -/
theorem contentAt_serveAll (world : World) (periods : List Period) (place : List String) :
    (periods.foldl serve world).disk.contentAt place =
      match (world.shares periods).filter (·.1 = some ⟨.slash, place⟩) with
      | [] => world.disk.contentAt place
      | mine => some ((world.disk.contentAt place).getD [] ++ received world.stamp (mine.flatMap (·.2))) := by
  induction periods generalizing world with
  | nil => rfl
  | cons period rest ih =>
    have stamp : (world.serve period).stamp = world.stamp :=
      (stamp_noteAll _ _).trans (configured_serves world period).2.1
    rw [foldl_cons, ih, contentAt_serve, stamp, shares]
    by_cases mine : world.opened period = some ⟨.slash, place⟩
    · rw [filter_cons_of_pos (by simpa using mine), if_pos mine]
      split
      · next none => simp [none]
      · simp [received]
    · rw [filter_cons_of_neg (by simpa using mine), if_neg mine]

theorem noteAll_silent (world : World) (records : List Record) :
    { world with log := .initial }.noteAll records = { world with log := .initial } := by
  induction records with
  | nil => rfl
  | cons record rest ih => exact ih

/-- Whatever is configured and logged, each console has heard its own period and nothing else, each file has
    received all of the periods in which it was the log file, and a configuration leaves its own handlers only. -/
theorem records_routed (world : World) (steps : List Log.Step) :
    let start : World := { world with log := .initial }
    let final := start.follow steps
    final.log.streams = (periods steps).map (fun period => heard period.verbose period.records) ∧
    (∀ path, (final.disk.readBytes (world.disk.resolve path)).toOption =
      match (start.shares (periods steps)).filter (·.1 = some (world.disk.resolve path)) with
      | [] => (world.disk.readBytes (world.disk.resolve path)).toOption
      | mine => some ((world.disk.readBytes (world.disk.resolve path)).toOption.getD [] ++
          received world.stamp (mine.flatMap (·.2)))) ∧
    ∀ period, (final.configured period).log.handlers =
      .console (periods steps).length period.verbose :: (final.opened period).toList.map .file := by
  intro start final
  have served : final = (periods steps).foldl serve start := by
    rw [show final = start.follow steps from rfl, follow_eq_serve, noteAll_silent]
  have streams : final.log.streams = (periods steps).map (fun period => heard period.verbose period.records) := by
    rw [served, streams_serveAll]
    rfl
  refine ⟨streams, fun path => ?_, fun period => ?_⟩
  · have plain : ".." ∉ (world.disk.resolve path).names := no_dots_of_flatten (by simp)
    have whole (disk : Disk) := @readBytes_plain disk _ plain
    rw [show world.disk.resolve path = ⟨.slash, (world.disk.resolve path).names⟩ from rfl, whole, whole, served]
    exact contentAt_serveAll start (periods steps) _
  · rw [(configured_serves final period).1.handlers, streams, length_map]

end World
end Refit
