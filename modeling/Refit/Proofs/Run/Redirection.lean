import Refit.Proofs.Run.Finalization
import Refit.Proofs.Run.Rollback

/-!
Where a rollback puts the backup. A run works with the output path that the user means, and a rollback
with the path as it is written; the two are different places if the path begins in a home directory.
-/

namespace Refit

open Path

variable {probe : List String}

/-- The name of a home directory that a path begins with, and the names after it. -/
def Path.home? (path : Path) : Option (String × List String) :=
  match path.root, path.names with
  | .relative, name :: rest => if name.toList.head? = some '~' then some (name, rest) else none
  | _, _ => none

theorem Path.home?_eq_some {path : Path} {name : String} {rest : List String} (led : path.home? = some (name, rest)) :
    path = ⟨.relative, name :: rest⟩ ∧ name.toList.head? = some '~' := by
  unfold home? at led
  split at led
  · next root names first others hroot hnames =>
      split at led
      · next tilde =>
          cases led
          exact ⟨by rw [← hroot, ← hnames], tilde⟩
      · cases led
  · cases led

namespace Disk

variable {disk : Disk} {path resolved : Path}

def homeOf? (disk : Disk) (name : String) : Option Path :=
  (disk.homes.find? (fun home => home.1 = String.ofList name.toList.tail)).map (fun home => ofString home.2)

theorem expandUser_eq (disk : Disk) (path : Path) :
    disk.expandUser path =
      match path.home? with
      | none => some path
      | some (name, rest) => (disk.homeOf? name).map (·.below rest) := by
  obtain ⟨root, names⟩ := path
  cases root with
  | slash => rfl
  | doubleSlash => rfl
  | relative =>
    cases names with
    | nil => rfl
    | cons name rest =>
      unfold expandUser Path.home?
      dsimp only
      split
      · next user letters => simp [homeOf?, letters, Function.comp_def]
      · next other =>
          have plain : name.toList.head? ≠ some '~' := by
            intro tilde
            obtain ⟨user, letters⟩ := List.head?_eq_some_iff.1 tilde
            exact other user letters
          rw [if_neg plain]

/-- How many levels names lead up, and the names that they then lead down. -/
def course : List String → Nat × List String
  | [] => (0, [])
  | name :: rest =>
    let (levels, down) := course rest
    if name = ".." then (levels + 1, down)
    else
      match levels with
      | 0 => (0, name :: down)
      | levels + 1 => (levels, down)

def up (levels : Nat) (place : List String) : List String := place.take (place.length - levels)

theorem up_zero (place : List String) : up 0 place = place := List.take_length

theorem up_dropLast (levels : Nat) (place : List String) : up levels place.dropLast = up (levels + 1) place := by
  rw [up, List.dropLast_eq_take, List.take_take, List.length_take]
  congr 1
  omega

theorem up_concat (levels : Nat) (place : List String) (name : String) :
    up (levels + 1) (place ++ [name]) = up levels place := by
  rw [← up_dropLast, List.dropLast_concat]

theorem flatten_eq_up (place names : List String) :
    flatten place names = up (course names).1 place ++ (course names).2 := by
  induction names generalizing place with
  | nil => simp [flatten, course, up]
  | cons name rest ih =>
    rw [flatten, course]
    rcases found : course rest with ⟨levels, down⟩
    simp only [found] at ih ⊢
    split
    · exact (ih _).trans (by rw [up_dropLast])
    · rw [ih]
      cases levels with
      | zero => simp [up_zero]
      | succ levels => exact congrArg (· ++ down) (up_concat levels place name)

theorem flatten_eq_iff (first second names : List String) :
    flatten first names = flatten second names ↔ up (course names).1 first = up (course names).1 second := by
  rw [flatten_eq_up, flatten_eq_up, List.append_left_inj]

theorem resolveUser_ok (done : disk.resolveUser path = .ok resolved) :
    ∃ expanded, disk.expandUser path = some expanded ∧ resolved.names = disk.placeOf expanded := by
  unfold resolveUser at done
  split at done
  · cases done
  · next expanded found =>
      split at done
      · cases done
      · cases done
        exact ⟨expanded, found, rfl⟩

/-- A path as it is written leads to the place that the user means exactly if it names no home directory, or if the
rest of it leads up to where the home directory and the written name meet. -/
theorem placeOf_eq_resolved_iff (done : disk.resolveUser path = .ok resolved) :
    disk.placeOf path = resolved.names ↔
      ∀ name rest home, path.home? = some (name, rest) → disk.homeOf? name = some home →
        up (course rest).1 (disk.placeOf ⟨.relative, [name]⟩) = up (course rest).1 (disk.placeOf home) := by
  obtain ⟨expanded, found, same⟩ := resolveUser_ok done
  rw [expandUser_eq] at found
  rw [same]
  cases led : path.home? with
  | none =>
    rw [led] at found
    cases found
    simp
  | some pair =>
    obtain ⟨name, rest⟩ := pair
    rw [led] at found
    obtain ⟨home, known, rfl⟩ := Option.map_eq_some_iff.1 found
    obtain ⟨rfl, _⟩ := Path.home?_eq_some led
    have written : disk.placeOf ⟨.relative, name :: rest⟩ = flatten (disk.placeOf ⟨.relative, [name]⟩) rest := by
      rw [placeOf_eq, placeOf_eq, ← flatten_append]
      simp [absoluteNames, isAbsolute]
    rw [written, placeOf_eq _ (home.below rest), absoluteNames_below, flatten_append, flatten_eq_iff]
    constructor
    · intro meets _ _ _ named is
      cases named
      cases known.symm.trans is
      exact meets
    · intro meets
      exact meets name rest home rfl known

end Disk

theorem DiskAction.copyTree_blocked {disk after : Disk} {source path : Path}
    {content : List UInt8} (named : path.names ≠ []) (passes : disk.Passes path probe)
    (stands : disk.at? probe = some (.file content)) : exec (copyTree source path) disk ≠ (.ok (), after) := by
  intro run
  unfold copyTree at run
  rw [exec_get_bind] at run
  split at run
  · cases run
  · cases run
  · obtain ⟨_, made, making, _⟩ := exec_bind_ok run
    have touched := makeForCopy_touches making
    have passed := (Disk.passes_congr touched.changes.workingDirectory path probe).2 passes
    obtain ⟨later, still⟩ := touched.changes.files probe content stands
    cases still.symm.trans (Disk.at?_passed (makeForCopy_ok named making) passed)

namespace Rollback

open Disk

variable {world : World} {data : RollbackData} {path : Path}

theorem perform_ok {after : World} {operation : FileOperation} {action : DiskAction Unit}
    (run : exec (perform operation path action) world = (.ok (), after)) :
    ∃ disk, exec action world.disk = (.ok (), disk) := by
  rcases done : World.perform operation path action world with ⟨fault | _, later⟩
  · rw [perform, exec_get_bind, done] at run
    cases run
  · unfold World.perform at done
    split at done
    · cases done
    · rcases acted : exec action world.disk with ⟨fault | _, disk⟩
      · rw [show action.run.run world.disk = _ from acted] at done
        cases done
      · exact ⟨disk, rfl⟩

/-- A file is on the way of a path and is not among the created ones. -/
structure Blocked (world : World) (data : RollbackData) (path : Path) (probe : List String) : Prop where
  named : path.names ≠ []
  passes : world.disk.Passes path probe
  stands : ∃ content, world.disk.at? probe = some (.file content)
  stays : ¬ CreatedAt world.disk data probe
  unlogged : ¬ world.LogPlace probe

theorem Blocked.fails {outputPath : String}
    (blocked : Blocked world data (ofString outputPath) probe) (willing : world.Willing)
    (tidy : world.disk.root.tidy = true) :
    ∃ fault after, exec (rollBack (some data) outputPath) world = (.error fault, after) := by
  rcases run : exec (rollBack (some data) outputPath) world with ⟨fault | _, after⟩
  · exact ⟨fault, after, rfl⟩
  exfalso
  simp only [rollBack] at run
  split at run
  · cases run
  rw [exec_get_bind] at run
  split at run
  · cases run
  next _ found =>
  obtain ⟨backup, _, held⟩ := isDirectory_iff.1 (by simpa using found)
  have root : world.disk.at? [] = some .directory := by
    cases backup with
    | nil => exact held
    | cons => exact directory_above (by simp) held
  obtain ⟨total, emptied, removing, empty⟩ := exists_emptied willing tidy root data
  obtain ⟨_, _, first, run⟩ := exec_bind_ok run
  cases removing.symm.trans first
  obtain ⟨_, noted, first, run⟩ := exec_bind_ok run
  cases first
  have later := empty.note
    ⟨.info, part, "Removed " ++ toString total ++ " created files under " ++ (ofString outputPath).toString⟩
  obtain ⟨content, stands⟩ := blocked.stands
  rw [← later.kept probe blocked.unlogged blocked.stays] at stands
  have passes := (passes_congr later.goes.workingDirectory _ probe).2 blocked.passes
  obtain ⟨_, _, first, _⟩ := exec_bind_ok run
  obtain ⟨copied, copying⟩ := perform_ok first
  exact DiskAction.copyTree_blocked blocked.named passes stands copying

end Rollback

namespace Migration

/-- A rollback lays the backup over the place that the written output path leads to, and it fails if a file on that
way is left. The place is the output of the run unless the path begins in a home directory. -/
theorem rollBack_onto_output_iff {migration : Migration} {source : String} {texts : List ExtractedText}
    {before later : World} {session : Session} (opened : migration.session source texts before = .ok session)
    (start : later.disk.workingDirectory = before.disk.workingDirectory) :
    (later.disk.placeOf (ofString migration.options.outputPath) = session.output.names ↔
      ∀ name rest home, (ofString migration.options.outputPath).home? = some (name, rest) →
        before.disk.homeOf? name = some home →
        Disk.up (Disk.course rest).1 (before.disk.placeOf ⟨.relative, [name]⟩) =
          Disk.up (Disk.course rest).1 (before.disk.placeOf home)) ∧
    ∀ (outcome : Outcome) (data : RollbackData), outcome.rollbackData = some data → later.Willing →
      (∀ backup, data.backupPath ≠ "" →
        Rollback.Ready later data (ofString migration.options.outputPath) backup →
        ∃ after, exec (migration.rollBack outcome) later = (.ok (), after) ∧
          Rollback.RolledBack later data (ofString migration.options.outputPath) backup after.disk) ∧
      ∀ probe, later.disk.root.tidy = true →
        Rollback.Blocked later data (ofString migration.options.outputPath) probe →
        ∃ fault after, exec (migration.rollBack outcome) later = (.error fault, after) := by
  obtain ⟨_, output, _, found, rfl⟩ := session_eq_ok opened
  refine ⟨?_, fun outcome data taken willing => ?_⟩
  · rw [Disk.placeOf_congr start]
    exact Disk.placeOf_eq_resolved_iff found
  · rw [rollBack, taken]
    refine ⟨fun backup named ready => ?_, fun probe tidy blocked => blocked.fails willing tidy⟩
    obtain ⟨after, run, _, rolled⟩ := ready.rollsBack willing named
    exact ⟨after, run, rolled⟩

def keptMigration (outputPath : String) : Migration :=
  { options := .plain false outputPath, adapter := none, candidates := [] }

def keptOutcome : Outcome := { rollbackData := some Rollback.keptData }

theorem exists_session {migration : Migration} {world : World} {output : Path}
    (found : (migration.session "/b" [] world).toOption.map (·.output) = some output) :
    ∃ session, migration.session "/b" [] world = .ok session ∧ session.output = output := by
  cases opened : migration.session "/b" [] world with
  | error fault =>
    rw [opened] at found
    cases found
  | ok session =>
    rw [opened] at found
    exact ⟨session, rfl, Option.some.inj found⟩

theorem rollBack_onto_output_kept :
    ∃ session after, (keptMigration "/out").session "/b" [] Rollback.keptWorld = .ok session ∧
      session.output.names = ["out"] ∧ Rollback.keptWorld.disk.placeOf (ofString "/out") = session.output.names ∧
      exec ((keptMigration "/out").rollBack keptOutcome) Rollback.keptWorld = (.ok (), after) ∧
      Rollback.RolledBack Rollback.keptWorld Rollback.keptData (ofString "/out") ["b"] after.disk := by
  obtain ⟨session, opened, output⟩ : ∃ session,
      (keptMigration "/out").session "/b" [] Rollback.keptWorld = .ok session ∧ session.output = ⟨.slash, ["out"]⟩ :=
    exists_session (by decide +kernel)
  obtain ⟨same, rolls⟩ := @rollBack_onto_output_iff _ _ _ _ Rollback.keptWorld _ opened rfl
  have homeless : (ofString "/out").home? = none := by decide +kernel
  obtain ⟨after, run, rolled⟩ :=
    (rolls keptOutcome Rollback.keptData rfl ⟨fun _ _ => rfl, fun _ => rfl⟩).1 ["b"] (by decide) Rollback.keptWorld_ready
  refine ⟨session, after, opened, by rw [output], same.mpr ?_, run, rolled⟩
  intro name rest home led
  cases homeless.symm.trans led

/-- The kept world, with a home directory for the user. -/
def homeWorld : World :=
  { Rollback.keptWorld with disk := { Rollback.keptWorld.disk with homes := [("", "/home")] } }

/-- Under a home directory, the backup is laid beside the output and not over it; on a way through a
file of the output, it is not laid anywhere. -/
theorem rollBack_misses_output :
    (∃ session, (keptMigration "~/out").session "/b" [] homeWorld = .ok session ∧
      session.output.names = ["home", "out"] ∧
      (exec ((keptMigration "~/out").rollBack keptOutcome) homeWorld).1.toOption = some () ∧
      (exec ((keptMigration "~/out").rollBack keptOutcome) homeWorld).2.disk.at? ["home", "out", "x"] = none ∧
      (exec ((keptMigration "~/out").rollBack keptOutcome) homeWorld).2.disk.at? ["~", "out", "x"] =
        some (.file [1])) ∧
    ∃ session, (keptMigration "/out/k/../../out").session "/b" [] homeWorld = .ok session ∧
      session.output.names = ["out"] ∧
      (exec ((keptMigration "/out/k/../../out").rollBack keptOutcome) homeWorld).1.toOption = none ∧
      (exec ((keptMigration "/out/k/../../out").rollBack keptOutcome) homeWorld).2.disk.at? ["out", "x"] = none := by
  obtain ⟨first, opens, output⟩ : ∃ session, (keptMigration "~/out").session "/b" [] homeWorld = .ok session ∧
      session.output = ⟨.slash, ["home", "out"]⟩ := exists_session (by decide +kernel)
  obtain ⟨second, opened, reached⟩ : ∃ session,
      (keptMigration "/out/k/../../out").session "/b" [] homeWorld = .ok session ∧ session.output = ⟨.slash, ["out"]⟩ :=
    exists_session (by decide +kernel)
  exact ⟨⟨first, opens, by rw [output], by decide +kernel⟩, second, opened, by rw [reached], by decide +kernel⟩

end Migration
end Refit
