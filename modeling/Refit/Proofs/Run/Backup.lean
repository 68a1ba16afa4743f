import Refit.Proofs.Files.Actions
import Refit.Proofs.Run.Steps

open List

namespace Refit

namespace Moment

theorem no_slash_toDigits (n : Nat) : '/' ∉ Nat.toDigits 10 n := fun member =>
  absurd (Nat.isDigit_of_mem_toDigits (by decide) (by decide) member) (by decide)

theorem no_slash_two (n : Nat) : '/' ∉ (two n).toList := by
  have digits := no_slash_toDigits n
  simp [two, padded, digits]

theorem no_slash_compact (moment : Moment) : '/' ∉ moment.compact.toList := by
  have year : '/' ∉ moment.date.year.repr.toList := by
    cases moment.date.year with
    | ofNat n =>
      have digits := no_slash_toDigits n
      simpa [Int.repr] using digits
    | negSucc n =>
      have digits := no_slash_toDigits n.succ
      simpa [Int.repr] using digits
  simp [compact, year, no_slash_two]

end Moment

theorem Path.ofString_name {name : String} (valid : ValidName name) : ofString name = ⟨.relative, [name]⟩ := by
  have single : Path.toString ⟨.relative, [name]⟩ = name := by
    simp [Path.toString, plainText, PathRoot.text]
  have back : ofString (Path.toString ⟨.relative, [name]⟩) = ⟨.relative, [name]⟩ :=
    ofString_toString (by simpa [Valid] using valid)
  rwa [single] at back

namespace Stage

variable {source : Path} {name : String} {session s : Session} {tree : Entry} {place probe : List String}

def backupName (source : Path) (moment : Moment) : String :=
  "backup-" ++ source.name ++ "-" ++ moment.compact

theorem backupName_ne {moment : Moment} {other : String} (without : 'b' ∉ other.toList) :
    backupName source moment ≠ other := by
  intro same
  have starts : 'b' ∈ (backupName source moment).toList := by simp [backupName]
  exact without (same ▸ starts)

theorem backupName_valid (valid : source.Valid) (moment : Moment) :
    Path.ValidName (backupName source moment) := by
  have own : '/' ∉ source.name.toList := by
    unfold Path.name
    cases last : source.names.getLast? with
    | none => simp
    | some name => exact (valid name (mem_of_getLast? last)).2.2
  exact ⟨backupName_ne (by decide), backupName_ne (by decide),
    by simp [backupName, own, Moment.no_slash_compact]⟩

theorem backupPath_eq (valid : session.source.Valid) (moment : Moment) :
    backupPath session moment = session.output.parent.child (backupName session.source moment) := by
  unfold backupPath
  rw [← backupName, Path.ofString_name (backupName_valid valid moment)]
  rfl

theorem backupPath_resolved (source : session.source.Resolved)
    (output : session.output.Resolved) (moment : Moment) : (backupPath session moment).Resolved := by
  rw [backupPath_eq source.valid]
  refine ⟨output.root, ?_, ?_⟩
  · intro member
    rcases mem_append.1 member with above | own
    · exact output.plain (dropLast_subset _ above)
    · exact backupName_ne (by decide) (mem_singleton.1 own).symm
  · intro name member
    rcases mem_append.1 member with above | own
    · exact output.valid name (dropLast_subset _ above)
    · rw [mem_singleton.1 own]
      exact backupName_valid source.valid moment

def timed (session : Session) : Session := { session with world := session.world.readClock.2 }

def backedUp (session : Session) (path : Path) (world : World) : Session :=
  { session with
    world := world.note ⟨.info, part, "Backed up " ++ session.source.toString ++ " to " ++ path.toString⟩
    rollback := { session.rollback with backupPath := path.toString } }

theorem exec_backup_unwanted (unwanted : (!s.options.createBackup || s.options.dryRun) = true) :
    exec backup s = (.ok none, s) := by
  rw [backup, exec_get_bind, if_pos unwanted]
  rfl

theorem exec_backup_wanted (wanted : (!s.options.createBackup || s.options.dryRun) = false) :
    ∃ path, path = backupPath s s.world.readClock.1 ∧
      ((∃ fault world, (Call.backUp s.source path).perform (timed s).world = (.error fault, world) ∧
        exec backup s = (.error fault, { s with world := world })) ∨
      ∃ world, (Call.backUp s.source path).perform (timed s).world = (.ok (), world) ∧
        exec backup s = (.ok (some path), backedUp s path world)) := by
  refine ⟨_, rfl, ?_⟩
  have clock : exec now s = (.ok s.world.readClock.1, timed s) := exec_lift _ s
  have performed := exec_perform (.backUp s.source (backupPath s s.world.readClock.1)) (timed s)
  simp only [Call.operation, Call.path, Call.action] at performed
  rw [backup, exec_get_bind, if_neg (by simp [wanted]), exec_bind, clock]
  dsimp only
  rw [exec_bind, performed]
  rcases run : (Call.backUp s.source (backupPath s s.world.readClock.1)).perform (timed s).world with ⟨outcome, world⟩
  cases outcome with
  | error fault => exact .inl ⟨fault, world, rfl, rfl⟩
  | ok => exact .inr ⟨world, rfl, rfl⟩

open Disk

variable {disk after : Disk} {output path : Path}

theorem isPopulated_iff : isPopulated disk path = true ↔ ∃ place, disk.locate path = .ok place ∧
    disk.at? place = some .directory ∧ ∃ name, disk.at? (place ++ [name]) ≠ none := by
  unfold isPopulated
  constructor
  · intro populated
    split at populated
    · next entries found =>
        obtain ⟨place, located, holds⟩ := entry?_some.1 found
        refine ⟨place, located, Entry.at?_directory.2 ⟨entries, holds⟩, ?_⟩
        cases entries with
        | nil => cases populated
        | cons item rest =>
          refine ⟨item.1, ?_⟩
          simp [at?_child holds, Entry.findIn]
    · cases populated
  · rintro ⟨place, located, stands, name, inner⟩
    obtain ⟨entries, holds⟩ := Entry.at?_directory.1 stands
    rw [entry?_some.2 ⟨place, located, holds⟩]
    cases entries with
    | nil => simp [at?_child holds, Entry.findIn] at inner
    | cons item rest => rfl

theorem isPopulated_of_below (resolved : path.Resolved) {rest : List String} {standing : Standing}
    (stands : disk.at? (path.names ++ name :: rest) = some standing) : isPopulated disk path = true := by
  have directory : disk.at? path.names = some .directory := directory_above (by simp) stands
  have inner : disk.at? (path.names ++ [name]) ≠ none := by
    rw [append_cons] at stands
    cases rest with
    | nil => simp_all
    | cons other rest => simp [directory_above (cons_ne_nil other rest) stands]
  exact isPopulated_iff.2 ⟨_, locate_resolved resolved (by simp [directory]), directory, name, inner⟩

theorem isPopulated_congr (sameStart : after.workingDirectory = disk.workingDirectory)
    (same : ∀ probe, (after.at? probe).map Standing.isDirectory = (disk.at? probe).map Standing.isDirectory)
    (path : Path) : isPopulated after path = isPopulated disk path := by
  have located := locate_congr path sameStart same
  have directory (place : List String) :
      after.at? place = some .directory ↔ disk.at? place = some .directory := by
    have is (disk : Disk) : disk.at? place = some .directory ↔
        (disk.at? place).map Standing.isDirectory = some true := by simp [isDirectory_standing]
    rw [is, is, same]
  have there (place : List String) : after.at? place ≠ none ↔ disk.at? place ≠ none := by
    have is (disk : Disk) : disk.at? place ≠ none ↔ (disk.at? place).map Standing.isDirectory ≠ none := by simp
    rw [is, is, same]
  rw [Bool.eq_iff_iff, isPopulated_iff, isPopulated_iff]
  simp only [located, directory, there]

theorem isPopulated_of_changes {put : List String → Prop} (changes : Disk.Changes put disk after)
    (populated : isPopulated disk path = true) : isPopulated after path = true := by
  obtain ⟨place, located, stands, name, inner⟩ := isPopulated_iff.1 populated
  refine isPopulated_iff.2 ⟨place, changes.locate located, changes.directories place stands, name, ?_⟩
  cases standing : disk.at? (place ++ [name]) with
  | none => exact absurd standing inner
  | some stands =>
    cases stands with
    | directory => simp [changes.directories _ standing]
    | file content =>
      obtain ⟨later, still⟩ := changes.files _ content standing
      simp [still]

theorem isPopulated_away {made put : List String → Prop} (touched : Touched made put disk after)
    (resolved : output.Resolved) (away : ¬ made output.names ∧ ¬ put output.names)
    (inside : ∀ name, ¬ made (output.names ++ [name]) ∧ ¬ put (output.names ++ [name])) :
    isPopulated after output = isPopulated disk output := by
  rw [Bool.eq_iff_iff]
  refine ⟨fun populated => ?_, isPopulated_of_changes touched.changes⟩
  obtain ⟨place, located, stands, name, inner⟩ := isPopulated_iff.1 populated
  obtain rfl : place = output.names := by rw [eq_placeOf located, placeOf_resolved after resolved]
  rw [touched.at? away.1 away.2] at stands
  rw [touched.at? (inside name).1 (inside name).2] at inner
  exact isPopulated_iff.2 ⟨output.names, locate_resolved resolved (by simp [stands]), stands, name, inner⟩

/-- Neither of two places is above the other one. -/
def Beside (place other : List String) : Prop := ¬ place <+: other ∧ ¬ other <+: place

theorem beside_of_neighbour (nonempty : place ≠ [])
    (different : place.dropLast ++ [name] ≠ place) (rest : List String) :
    Beside (place.dropLast ++ [name]) (place ++ rest) := by
  have whole : place.dropLast ++ [place.getLast nonempty] = place := dropLast_concat_getLast nonempty
  have others : place.getLast nonempty ≠ name := by
    intro same
    rw [← same, whole] at different
    exact different rfl
  rw [← whole, append_assoc, dropLast_concat]
  unfold Beside
  rw [prefix_append_right_inj, prefix_append_right_inj, singleton_append, cons_prefix_cons,
    cons_prefix_cons]
  exact ⟨fun both => others both.1.symm, fun both => others both.1⟩

theorem around_resolved (resolved : path.Resolved) (around : DiskAction.Around disk path probe) :
    probe <+: path.names ∨ path.names <+: probe := by
  rw [DiskAction.Around, placeOf_resolved disk resolved] at around
  refine around.imp_left ?_
  rintro ⟨names, part, rfl⟩
  have inner : Path.Resolved ⟨path.root, names⟩ :=
    ⟨resolved.root, fun dots => resolved.plain (part.subset dots),
      fun name member => resolved.valid name (part.subset member)⟩
  rwa [placeOf_resolved disk inner]

theorem prefix_of_lands (lands : tree.Lands place probe) :
    place <+: probe := by
  obtain ⟨below, _, _, rfl | ⟨name, _, rfl⟩⟩ := lands
  · exact prefix_append _ _
  · rw [append_assoc]
    exact prefix_append _ _

theorem away_of_neighbour (nonempty : output.names ≠ []) (beside : (output.parent.child name).Resolved)
    (different : output.parent.child name ≠ output) (disk : Disk) (tree : Entry) (rest : List String) :
    ¬ DiskAction.Around disk (output.parent.child name) (output.names ++ rest) ∧
      ¬ tree.Lands (disk.placeOf (output.parent.child name)) (output.names ++ rest) := by
  have places : output.names.dropLast ++ [name] ≠ output.names := by
    intro same
    refine different ?_
    cases output
    simpa [Path.child, Path.parent] using same
  obtain ⟨above, below⟩ := beside_of_neighbour nonempty places rest
  constructor
  · intro around
    exact (around_resolved beside around).elim below above
  · intro lands
    rw [placeOf_resolved disk beside] at lands
    exact above (prefix_of_lands lands)

theorem isPopulated_copyTree (found : disk.entry source = .ok tree) (tidy : tree.tidy = true)
    (resolved : output.Resolved) (nonempty : output.names ≠ []) (beside : (output.parent.child name).Resolved)
    (different : output.parent.child name ≠ output) :
    isPopulated (exec (DiskAction.copyTree source (output.parent.child name)) disk).2 output =
      isPopulated disk output := by
  have away := away_of_neighbour nonempty beside different disk tree
  have here := away []
  rw [append_nil] at here
  exact isPopulated_away (DiskAction.copyTree_alters found tidy) resolved here (fun name => away [name])

end Stage
end Refit
