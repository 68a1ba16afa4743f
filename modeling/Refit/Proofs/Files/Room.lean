import Refit.Proofs.Files.Overlay

namespace Refit

variable {content : List UInt8}

namespace Disk

variable {disk after room : Disk} {path : Path} {place names result : List String}

/-- Whatever stands on a disk stands on the other one as well, as a directory or as a file. -/
structure Fits (disk room : Disk) : Prop where
  workingDirectory : room.workingDirectory = disk.workingDirectory
  directories : ∀ place, disk.at? place = some .directory → room.at? place = some .directory
  files : ∀ place content, disk.at? place = some (.file content) →
    ∃ later, room.at? place = some (.file later)

theorem Changes.fits {put : List String → Prop} (changes : Changes put disk after) : disk.Fits after :=
  ⟨changes.workingDirectory, changes.directories, changes.files⟩

theorem Fits.refl (disk : Disk) : disk.Fits disk := ⟨rfl, fun _ => id, fun _ content stands => ⟨content, stands⟩⟩

theorem Fits.trans (first : disk.Fits after) (second : after.Fits room) : disk.Fits room where
  workingDirectory := second.workingDirectory.trans first.workingDirectory
  directories place stands := second.directories place (first.directories place stands)
  files place content stands := by
    obtain ⟨later, still⟩ := first.files place content stands
    exact second.files place later still

section

variable (fits : disk.Fits room)
include fits

theorem Fits.placeOf (path : Path) : room.placeOf path = disk.placeOf path :=
  placeOf_congr fits.workingDirectory path

theorem Fits.notDirectory (stands : room.at? place = some (.file content)) :
    disk.at? place ≠ some .directory := by
  intro directory
  rw [fits.directories place directory] at stands
  cases stands

theorem Fits.congr (sameStart : after.workingDirectory = disk.workingDirectory)
    (same : ∀ probe, (after.at? probe).map Standing.isDirectory = (disk.at? probe).map Standing.isDirectory) :
    after.Fits room where
  workingDirectory := fits.workingDirectory.trans sameStart.symm
  directories place stands := by
    have kind := same place
    rw [stands] at kind
    cases before : disk.at? place with
    | none => simp [before] at kind
    | some standing =>
      rw [before] at kind
      have is : standing = .directory := isDirectory_standing.1 (Option.some.inj kind).symm
      exact fits.directories place (is ▸ before)
  files place content stands := by
    have kind := same place
    rw [stands] at kind
    cases before : disk.at? place with
    | none => simp [before] at kind
    | some standing =>
      rw [before] at kind
      cases standing with
      | directory => cases Option.some.inj kind
      | file old => exact fits.files place old before

theorem Fits.put {new : Entry} (leaf : ∀ name rest, new.at? (name :: rest) = none)
    (inside : Inside disk.root place) (notDirectory : disk.at? place ≠ some .directory)
    (stands : (room.at? place).map Standing.isDirectory = some new.standing.isDirectory) :
    (disk.put place new).Fits room where
  workingDirectory := fits.workingDirectory
  directories probe there := by
    rw [at?_put_leaf leaf inside notDirectory] at there
    split at there
    · next same =>
        subst same
        rw [Option.some.inj there] at stands
        obtain ⟨standing, found, kind⟩ := Option.map_eq_some_iff.1 stands
        rw [found, isDirectory_standing.1 kind]
    · exact fits.directories probe there
  files probe content there := by
    rw [at?_put_leaf leaf inside notDirectory] at there
    split at there
    · next same =>
        subst same
        rw [Option.some.inj there] at stands
        obtain ⟨standing, found, kind⟩ := Option.map_eq_some_iff.1 stands
        cases standing with
        | directory => cases kind
        | file later => exact ⟨later, found⟩
    · exact fits.files probe content there

theorem Fits.locateFrom (found : Disk.locateFrom room.root place names = .ok result) :
    Disk.locateFrom disk.root place names = .ok result ∨ Disk.locateFrom disk.root place names = .error .missing := by
  induction names generalizing place with
  | nil => exact .inl found
  | cons name rest ih =>
    obtain ⟨above, further⟩ := locateFrom_cons_ok.1 found
    rw [locateFrom_cons]
    cases here : disk.root.at? place with
    | none => exact .inr rfl
    | some standing =>
      cases standing with
      | directory => exact ih further
      | file content =>
        obtain ⟨later, there⟩ := fits.files place content here
        exact nomatch there.symm.trans above

theorem Fits.locate (found : room.locate path = .ok place) :
    disk.locate path = .ok place ∨ disk.locate path = .error .missing := by
  unfold Disk.locate absoluteNames at found ⊢
  rw [fits.workingDirectory] at found
  exact fits.locateFrom found

end

end Disk

namespace DiskAction

open Disk

variable {disk room : Disk} {path : Path} {place : List String} {old : List UInt8}

theorem isDirectory_put (located : disk.locate path = .ok place) (absent : disk.at? place = none) :
    (disk.put place (.directory [])).isDirectory path = true := by
  have touch : Touch (fun _ => True) (fun _ => False) disk (disk.put place (.directory [])) :=
    .directory disk located absent trivial
  refine isDirectory_iff.2 ⟨place, touch.changes.locate located, ?_⟩
  rw [@at?_put_leaf disk place (.directory []) (fun _ _ => rfl) (inside_of_locate located) (by simp [absent]), if_pos rfl]
  rfl

section

variable (fits : disk.Fits room) (is : room.isDirectory path = true) (located : disk.locate path = .ok place)
include fits is located

theorem made_fits :
    (disk.at? place = none ∧ (disk.put place (.directory [])).Fits room ∧
      (disk.put place (.directory [])).isDirectory path = true) ∨
    disk.at? place ≠ none ∧ disk.isDirectory path = true := by
  obtain ⟨other, found, stands⟩ := isDirectory_iff.1 is
  obtain rfl : other = place := by rw [eq_placeOf found, eq_placeOf located, fits.placeOf]
  cases here : disk.at? other with
  | none =>
    have notDirectory : disk.at? other ≠ some .directory := by simp [here]
    exact .inl ⟨rfl, fits.put (fun _ _ => rfl) (inside_of_locate located) notDirectory (by simp [stands]; rfl),
      isDirectory_put located here⟩
  | some standing =>
    refine .inr ⟨by simp, isDirectory_iff.2 ⟨other, located, ?_⟩⟩
    cases standing with
    | directory => exact here
    | file content =>
      obtain ⟨later, there⟩ := fits.files other content here
      exact nomatch there.symm.trans stands

theorem makeUnless_fits :
    ∃ after, exec (unlessDirectory path (makeOne path)) disk = (.ok (), after) ∧ after.Fits room ∧
      after.isDirectory path = true := by
  rcases made_fits fits is located with ⟨absent, fitting, made⟩ | ⟨_, directory⟩
  · rw [unlessDirectory, exec_tryCatch, exec_makeOne located, if_pos absent]
    exact ⟨_, rfl, fitting, made⟩
  · exact ⟨disk, makeUnless_there directory, fits, directory⟩

end

theorem makeAll_fits {root : PathRoot} {names : List String} (absolute : root ≠ .relative) (fits : disk.Fits room)
    (is : room.isDirectory ⟨root, names.reverse⟩ = true) :
    ∃ after, exec (makeAll root names) disk = (.ok (), after) ∧ after.Fits room ∧
      after.isDirectory ⟨root, names.reverse⟩ = true := by
  induction names generalizing disk with
  | nil =>
    have located : disk.locate ⟨root, []⟩ = .ok [] := by
      have whole : (⟨root, []⟩ : Path).isAbsolute = true := by cases root <;> simp_all [Path.isAbsolute]
      rw [Disk.locate, absoluteNames, if_pos whole]
      rfl
    exact makeUnless_fits fits is located
  | cons name above ih =>
    have whole : (⟨root, (name :: above).reverse⟩ : Path) = (⟨root, above.reverse⟩ : Path).child name := by
      simp [Path.child]
    rw [whole] at is ⊢
    obtain ⟨place, found, stands⟩ := isDirectory_iff.1 is
    obtain ⟨up, upFound, upStands, _⟩ := locate_child_ok found
    rw [makeAll, exec_tryCatch, whole]
    rcases fits.locate found with located | missing
    · rw [exec_makeOne located]
      rcases made_fits fits is located with ⟨absent, fitting, made⟩ | ⟨there, directory⟩
      · rw [if_pos absent]
        exact ⟨_, rfl, fitting, made⟩
      · rw [if_neg there]
        refine ⟨disk, ?_, fits, directory⟩
        simp [exec_get_bind, directory]
    · have failed : exec (makeOne ((⟨root, above.reverse⟩ : Path).child name)) disk =
          (.error (.refused .missing ((⟨root, above.reverse⟩ : Path).child name).toString), disk) := by
        rw [makeOne, exec_get_bind, missing]
        rfl
      obtain ⟨middle, making, fitting, parent⟩ := ih fits (isDirectory_iff.2 ⟨up, upFound, upStands⟩)
      obtain ⟨reached, upLocated, upIs⟩ := isDirectory_iff.1 parent
      obtain ⟨after, made, fitted, directory⟩ :=
        makeUnless_fits fitting is (locate_child upLocated upIs)
      rw [failed]
      dsimp only
      rw [exec_bind, making]
      exact ⟨after, made, fitted, directory⟩

theorem makeParent_fits (fits : disk.Fits room) (absolute : path.isAbsolute = true) (named : path.names ≠ [])
    (located : room.locate path = .ok place) (stands : room.at? place = some (.file old)) :
    ∃ middle, exec (makeDirectories path.parent) disk = (.ok (), middle) ∧ middle.Fits room ∧
      Changes (fun _ => False) disk middle ∧ middle.locate path = .ok place ∧
      middle.at? place ≠ some .directory := by
  have whole : path.parent.child path.name = path := Path.withName_name named
  obtain ⟨above, upFound, upStands, _⟩ := locate_child_ok (whole ▸ located)
  have root : path.parent.root ≠ .relative := by
    simp_all [Path.isAbsolute, Path.parent]
  have is : room.isDirectory ⟨path.parent.root, path.parent.names.reverse.reverse⟩ = true := by
    rw [List.reverse_reverse]
    exact isDirectory_iff.2 ⟨above, upFound, upStands⟩
  obtain ⟨middle, making, fitting, parent⟩ := makeAll_fits root fits is
  rw [List.reverse_reverse] at parent
  obtain ⟨reached, upLocated, upIs⟩ := isDirectory_iff.1 parent
  have changes : Touched (fun _ => True) (fun _ => False) disk (exec (makeDirectories path.parent) disk).2 :=
    makeDirectories_alters path.parent disk
  have leads : middle.locate (path.parent.child path.name) = .ok (advance reached path.name) :=
    locate_child upLocated upIs
  rw [whole] at leads
  have there : middle.locate path = .ok place := by
    rw [leads, eq_placeOf leads, eq_placeOf located, fitting.placeOf]
  rw [show exec (makeDirectories path.parent) disk = (.ok (), middle) from making] at changes
  exact ⟨middle, making, fitting, changes.changes, there, fitting.notDirectory stands⟩

theorem writeBytes_fits {middle : Disk} (fits : middle.Fits room)
    (changes : Changes (fun _ => False) disk middle) (located : middle.locate path = .ok place)
    (notDirectory : middle.at? place ≠ some .directory) (stands : room.at? place = some (.file old))
    (content : List UInt8) :
    ∃ after, exec (writeBytes path content) middle = (.ok (), after) ∧ after.Fits room ∧
      Puts place content disk after := by
  have run := exec_writeBytes content located notDirectory
  obtain ⟨_, _, puts⟩ := writeBytes_ok run
  rw [← eq_placeOf located] at puts
  refine ⟨_, run, fits.put (fun _ _ => rfl) (inside_of_locate located) notDirectory (by simp [stands]; rfl), ?_⟩
  exact ⟨changes.anywhere.trans puts.changes, puts.stands⟩

section

variable (fits : disk.Fits room) (absolute : path.isAbsolute = true) (named : path.names ≠ [])
  (located : room.locate path = .ok place) (stands : room.at? place = some (.file old))
include fits absolute named located stands

theorem writeFile_fits (content : List UInt8) :
    ∃ after, exec (writeFile path content) disk = (.ok (), after) ∧ after.Fits room ∧
      Puts place content disk after := by
  obtain ⟨middle, making, fitting, changes, there, notDirectory⟩ :=
    makeParent_fits fits absolute named located stands
  rw [writeFile, exec_bind, making]
  exact writeBytes_fits fitting changes there notDirectory stands content

theorem copyFile_fits {source : Path} (found : disk.entry source = .ok (.file content))
    (apart : disk.placeOf source ≠ place) :
    ∃ after, exec (copyFile source path) disk = (.ok (), after) ∧ after.Fits room ∧
      Puts place content disk after := by
  obtain ⟨middle, making, fitting, changes, there, notDirectory⟩ :=
    makeParent_fits fits absolute named located stands
  obtain ⟨origin, leadsThere, holds⟩ := entry_ok.1 found
  have stays : middle.entry source = .ok (.file content) := by
    have kept := changes.kept origin content (fun impossible => impossible) (Entry.at?_file.2 holds)
    exact entry_ok.2 ⟨origin, changes.locate leadsThere, Entry.at?_file.1 kept⟩
  have isNot : middle.isDirectory path = false := by
    cases is : middle.isDirectory path with
    | false => rfl
    | true =>
      obtain ⟨other, found, directory⟩ := isDirectory_iff.1 is
      cases there.symm.trans found
      exact absurd directory notDirectory
  have different : isSame middle source path = false := by
    rw [eq_placeOf leadsThere] at leadsThere
    simp [isSame, there, changes.locate leadsThere, apart]
  have read : middle.readBytes source = .ok content := by rw [readBytes, stays]
  rw [copyFile, exec_bind, making]
  dsimp only
  rw [exec_get_bind]
  simp only [landing, isNot, different, read, Bool.false_eq_true, if_false]
  exact writeBytes_fits fitting changes there notDirectory stands content

end

end DiskAction
end Refit
