import Mathlib.Data.List.Induction
import Refit.Proofs.Files.Room

open List

namespace Refit

variable {content : List UInt8}

namespace Disk

variable {disk middle after : Disk} {path : Path} {place probe : List String} {gone : List String → Prop}

theorem Touched.wider {made more put : List String → Prop} (touched : Touched made put disk after)
    (wider : ∀ probe, made probe → more probe) : Touched more put disk after := by
  induction touched with
  | refl => exact .refl
  | tail _ touch ih =>
    refine ih.tail ?_
    cases touch with
    | directory located absent there => exact .directory _ located absent (wider _ there)
    | file content located notDirectory there => exact .file _ content located notDirectory there

/-- A path goes through a place or leads to it. -/
def Passes (disk : Disk) (path : Path) (probe : List String) : Prop :=
  ∃ names, names <+: path.names ∧ probe = disk.placeOf ⟨path.root, names⟩

theorem passes_congr (same : after.workingDirectory = disk.workingDirectory) (path : Path) (probe : List String) :
    after.Passes path probe ↔ disk.Passes path probe := by
  simp only [Passes, placeOf_congr same]

theorem isDirectory_passed {names : List String} (is : disk.isDirectory path = true) (part : names <+: path.names) :
    disk.isDirectory ⟨path.root, names⟩ = true := by
  obtain ⟨rest, whole⟩ := part
  obtain ⟨place, located, stands⟩ := isDirectory_iff.1 is
  have same : path = Path.below ⟨path.root, names⟩ rest := by simp [Path.below, whole]
  rw [same, locate, absoluteNames_below, locateFrom_append] at located
  split at located
  · next middle first =>
      refine isDirectory_iff.2 ⟨middle, first, ?_⟩
      cases rest with
      | nil =>
        cases located
        exact stands
      | cons name others => exact (locateFrom_cons_ok.1 located).1
  · cases located

theorem at?_passed (is : disk.isDirectory path = true) (passes : disk.Passes path probe) :
    disk.at? probe = some .directory := by
  obtain ⟨names, part, rfl⟩ := passes
  obtain ⟨place, located, stands⟩ := isDirectory_iff.1 (isDirectory_passed is part)
  rwa [← eq_placeOf located]

/-- From some directory on, a path has no double dots. -/
def Leads (disk : Disk) (path : Path) : Prop :=
  ∃ front names, path = Path.below front names ∧ ".." ∉ names ∧ disk.isDirectory front = true

theorem Leads.passes (leads : disk.Leads path) (passes : disk.Passes path probe) :
    disk.at? probe = some .directory ∨ probe <+: disk.placeOf path := by
  obtain ⟨front, names, rfl, plain, is⟩ := leads
  obtain ⟨part, within, rfl⟩ := passes
  rcases prefix_or_prefix_of_prefix within (prefix_append front.names names) with early | ⟨rest, rfl⟩
  · exact .inl (at?_passed is ⟨part, early, rfl⟩)
  · have later : rest <+: names := (prefix_append_right_inj _).1 within
    have straight : disk.placeOf (front.below rest) = disk.placeOf front ++ rest :=
      placeOf_below disk front (fun dots => plain (later.subset dots))
    right
    rw [placeOf_below disk front plain]
    exact straight ▸ (prefix_append_right_inj _).2 later

/-- Files were taken away from some places, and nothing else changed. -/
structure Cleared (gone : List String → Prop) (disk after : Disk) : Prop where
  workingDirectory : after.workingDirectory = disk.workingDirectory
  tidy : disk.root.tidy = true → after.root.tidy = true
  directories : ∀ probe, after.at? probe = some .directory ↔ disk.at? probe = some .directory
  files : ∀ probe content, after.at? probe = some (.file content) ↔
    disk.at? probe = some (.file content) ∧ ¬ gone probe

theorem Cleared.refl (disk : Disk) : Cleared (fun _ => False) disk disk :=
  ⟨rfl, id, fun _ => .rfl, fun _ _ => by simp⟩

theorem Cleared.trans {first second : List String → Prop} (one : Cleared first disk middle)
    (two : Cleared second middle after) : Cleared (fun probe => first probe ∨ second probe) disk after where
  workingDirectory := two.workingDirectory.trans one.workingDirectory
  tidy ordered := two.tidy (one.tidy ordered)
  directories probe := (two.directories probe).trans (one.directories probe)
  files probe content := by rw [two.files, one.files, not_or, and_assoc]

theorem Cleared.congr {other : List String → Prop} (cleared : Cleared gone disk after)
    (same : ∀ probe, gone probe ↔ other probe) : Cleared other disk after :=
  ⟨cleared.workingDirectory, cleared.tidy, cleared.directories,
    fun probe content => by rw [cleared.files, same]⟩

theorem Cleared.locate (cleared : Cleared gone disk after) :
    after.locate path = .ok place ↔ disk.locate path = .ok place :=
  ⟨locate_mono cleared.workingDirectory.symm (fun probe => (cleared.directories probe).1),
    locate_mono cleared.workingDirectory (fun probe => (cleared.directories probe).2)⟩

theorem Cleared.at? (cleared : Cleared gone disk after) (kept : ¬ gone probe) :
    after.at? probe = disk.at? probe := by
  refine Option.ext (fun standing => ?_)
  cases standing with
  | directory => exact cleared.directories probe
  | file content => rw [cleared.files, and_iff_left kept]

theorem cleared_of_no_file (none : ∀ probe content, gone probe → disk.at? probe ≠ some (.file content)) :
    Cleared gone disk disk :=
  ⟨rfl, id, fun _ => .rfl, fun probe content =>
    ⟨fun stands => ⟨stands, fun there => none probe content there stands⟩, And.left⟩⟩

theorem cleared_erase (tidy : disk.root.tidy = true) (nonempty : place ≠ [])
    (stands : disk.at? place = some (.file content)) :
    Cleared (· = place) disk { disk with root := disk.root.erase place } := by
  have shows (probe : List String) :
      ({ disk with root := disk.root.erase place } : Disk).at? probe = if probe = place then none else disk.at? probe := by
    by_cases below : place <+: probe
    · obtain ⟨rest, rfl⟩ := below
      refine (Entry.at?_erase_below tidy nonempty rest).trans ?_
      split
      · rfl
      · next other => exact (at?_below_none (by simpa using other) (by simp [stands])).symm
    · have different : probe ≠ place := by
        rintro rfl
        exact below prefix_rfl
      rw [if_neg different]
      exact Entry.at?_erase_other below
  refine ⟨rfl, fun ordered => Entry.tidy_erase ordered place, fun probe => ?_, fun probe other => ?_⟩
  · rw [shows]
    split
    · next same => simp [same, stands]
    · rfl
  · rw [shows]
    split
    · next same => simp [same]
    · next different => simp [different]

end Disk

namespace DiskAction

open Disk

variable {disk after : Disk} {path source destination : Path} {place : List String}

theorem exec_removeFile (located : disk.locate path = .ok place) (stands : disk.at? place = some (.file content)) :
    exec (removeFile path) disk = (.ok (), { disk with root := disk.root.erase place }) := by
  rw [removeFile, exec_get_bind, located]
  dsimp only
  rw [Entry.at?_file.1 stands]
  rfl

theorem makeUnless_child {name : String} (is : disk.isDirectory path = true)
    (free : ∀ content, disk.at? (disk.placeOf (path.child name)) ≠ some (.file content)) :
    ∃ made, exec (unlessDirectory (path.child name) (makeOne (path.child name))) disk = (.ok (), made) ∧
      made.isDirectory (path.child name) = true := by
  obtain ⟨above, located, stands⟩ := isDirectory_iff.1 is
  have leads : disk.locate (path.child name) = .ok (disk.placeOf (path.child name)) := by
    rw [placeOf_child, locate_child located stands, eq_placeOf located]
  cases here : disk.at? (disk.placeOf (path.child name)) with
  | none =>
    rw [unlessDirectory, exec_tryCatch, exec_makeOne leads, if_pos here]
    exact ⟨_, rfl, isDirectory_put leads here⟩
  | some standing =>
    cases standing with
    | file content => exact absurd here (free content)
    | directory =>
      have there : disk.isDirectory (path.child name) = true := isDirectory_iff.2 ⟨_, leads, here⟩
      exact ⟨disk, makeUnless_there there, there⟩

theorem makeUnless_ok (run : exec (unlessDirectory path (makeOne path)) disk = (.ok (), after)) :
    after.isDirectory path = true := by
  rw [unlessDirectory, exec_tryCatch] at run
  rcases makeOne_cases path disk with ⟨fault, failed⟩ | ⟨place, located, absent, made⟩
  · rw [failed] at run
    dsimp only at run
    rw [exec_get_bind] at run
    split at run
    · next is =>
        cases run
        exact is
    · cases run
  · rw [made] at run
    cases run
    exact isDirectory_put located absent

theorem makeForCopy_ok (named : path.names ≠ [])
    (run : exec (makeForCopy path.root path.names.reverse) disk = (.ok (), after)) :
    after.isDirectory path = true := by
  rw [← Path.withName_name named, Path.withName, makeForCopy_child] at run
  obtain ⟨_, middle, _, run⟩ := exec_bind_ok run
  rw [← Path.withName_name named]
  split at run
  · obtain ⟨_, later, _, run⟩ := exec_bind_ok run
    exact makeUnless_ok run
  · exact makeUnless_ok run

theorem exists_of_isDirectory (is : disk.isDirectory path = true) : disk.exists? path = true := by
  obtain ⟨place, located, stands⟩ := isDirectory_iff.1 is
  exact exists_of_at? located (by simp [stands])

theorem makeForCopy_runs {root : PathRoot} {names : List String} (start : disk.isDirectory ⟨root, []⟩ = true)
    (free : ∀ part, part <+: names → ∀ content, disk.at? (disk.placeOf ⟨root, part⟩) ≠ some (.file content)) :
    ∃ made, exec (makeForCopy root names.reverse) disk = (.ok (), made) ∧ made.isDirectory ⟨root, names⟩ = true := by
  induction names using List.reverseRecOn with
  | nil => exact ⟨disk, rfl, start⟩
  | append_singleton rest name ih =>
    let path : Path := ⟨root, rest⟩
    change ∃ made, exec (makeForCopy (path.child name).root (path.child name).names.reverse) disk = (.ok (), made) ∧
      made.isDirectory (path.child name) = true
    rw [makeForCopy_child, exec_get_bind]
    cases present : disk.exists? path with
    | true =>
      obtain ⟨entry, found⟩ := Option.isSome_iff_exists.1 present
      obtain ⟨place, located, held⟩ := entry?_some.1 found
      have there : disk.isDirectory path = true := by
        cases entry with
        | directory entries => exact isDirectory_iff.2 ⟨place, located, Entry.at?_directory.2 ⟨entries, held⟩⟩
        | file content =>
          have file := Entry.at?_file.2 held
          rw [eq_placeOf located] at file
          exact absurd file (free rest (prefix_append _ _) content)
      simpa using makeUnless_child there (free _ prefix_rfl)
    | false =>
      obtain ⟨middle, making, there⟩ := ih (fun part within => free part (within.trans (prefix_append _ _)))
      have nonempty : path.names.reverse.isEmpty = false := by
        cases rest with
        | nil => cases present.symm.trans (exists_of_isDirectory start)
        | cons => simp
      have touched : Touched (fun _ => True) (fun _ => False) disk (exec (makeForCopy root rest.reverse) disk).2 :=
        makeForCopy_alters (fun _ _ => trivial)
      rw [making] at touched
      obtain ⟨made, run, done⟩ := makeUnless_child there (fun content stands => by
        rw [placeOf_touched touched] at stands
        exact free _ prefix_rfl content (touched.changes.fresh _ content (fun off => off) stands))
      refine ⟨made, ?_, done⟩
      rw [nonempty]
      simp only [Bool.not_false, Bool.and_self, if_true]
      rw [exec_bind, making]
      exact run

theorem makeForCopy_touches {made : Disk} (run : exec (makeForCopy path.root path.names.reverse) disk = (.ok (), made)) :
    Touched (disk.Passes path) (fun _ => False) disk made := by
  have touched : Touched (disk.Passes path) (fun _ => False) disk
      (exec (makeForCopy path.root path.names.reverse) disk).2 := by
    apply makeForCopy_alters
    intro rest part
    refine ⟨rest.reverse, ?_, rfl⟩
    rwa [← reverse_suffix, reverse_reverse]
  rwa [run] at touched

theorem copyTree_fresh (tidy : disk.root.tidy = true) (resolved : destination.Resolved)
    (named : destination.names ≠ []) (absent : disk.at? destination.names = none)
    (run : exec (copyTree source destination) disk = (.ok (), after)) :
    disk.isDirectory source = true ∧
      ∀ below, after.at? (destination.names ++ below) = disk.at? (disk.placeOf source ++ below) := by
  have copied := run
  rw [copyTree, exec_get_bind] at run
  cases found : disk.entry source with
  | error refusal =>
    rw [found] at run
    cases run
  | ok entry =>
    rw [found] at run
    cases entry with
    | file content => cases run
    | directory entries =>
      obtain ⟨_, made, making, _⟩ := exec_bind_ok run
      obtain ⟨origin, located, held⟩ := entry_ok.1 found
      obtain rfl := eq_placeOf located
      have stands : disk.at? (disk.placeOf source) = some .directory := Entry.at?_directory.2 ⟨entries, held⟩
      have tree (below : List String) :
          (Entry.directory entries).at? below = disk.at? (disk.placeOf source ++ below) := by
        rw [Disk.at?, Entry.at?_append, held]
        rfl
      have touched : Touched (· <+: destination.names) (fun _ => False) disk made := by
        apply (makeForCopy_touches making).wider
        rintro probe ⟨names, part, rfl⟩
        have inner : Path.Resolved ⟨destination.root, names⟩ :=
          ⟨resolved.root, fun dots => resolved.plain (part.subset dots),
            fun name member => resolved.valid name (part.subset member)⟩
        rwa [placeOf_resolved disk inner]
      have empty (name : String) (rest : List String) : made.at? (destination.names ++ name :: rest) = none := by
        rw [touched.at? (fun within => ?_) (fun off => off)]
        · exact at?_below_none (by simp) (by simp [absent])
        · have longer := within.length_le
          rw [length_append, length_cons] at longer
          omega
      obtain ⟨reached, leads, there⟩ := isDirectory_iff.1 (makeForCopy_ok named making)
      obtain rfl : reached = destination.names := (eq_placeOf leads).trans (placeOf_resolved made resolved)
      have accepts : made.Accepts (.directory entries) destination.names := by
        intro below new old isNew isOld
        cases below with
        | nil =>
          cases isNew
          rw [append_nil, there] at isOld
          cases isOld
          rfl
        | cons name rest => simp [empty] at isOld
      have apart : made.placeOf source ≠ destination.names := by
        intro same
        rw [placeOf_touched touched] at same
        rw [same, absent] at stands
        cases stands
      obtain ⟨last, ran, overlaid⟩ :=
        copyTree_overlays found (Entry.tidy_get? tidy held) making leads there accepts apart
      obtain rfl : last = after := congrArg Prod.snd (ran.symm.trans copied)
      refine ⟨isDirectory_iff.2 ⟨_, located, stands⟩, fun below => ?_⟩
      rw [← tree]
      cases covered : (Entry.directory entries).at? below with
      | some standing => exact overlaid.covered below standing covered
      | none =>
        cases below with
        | nil => cases covered
        | cons name rest =>
          rw [overlaid.uncovered]
          · exact empty name rest
          · intro other is
            rw [← append_cancel_left is]
            exact covered

end DiskAction
end Refit
