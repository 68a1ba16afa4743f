import Mathlib.Logic.Relation
import Refit.Files.Disk
import Refit.Proofs.Exec
import Refit.Proofs.Files.Tree

open List

namespace Refit

open Entry

namespace Disk

variable {disk after : Disk} {root other entry : Entry} {place result names : List String} {name : String}
  {rest probe : List String} {path : Path} {standing : Standing}

/-- What stands at a place of a disk. -/
def at? (disk : Disk) (place : List String) : Option Standing := disk.root.at? place

def put (disk : Disk) (place : List String) (entry : Entry) : Disk :=
  { disk with root := disk.root.put place entry }

def advance (place : List String) (name : String) : List String :=
  if name = ".." then place.dropLast else place ++ [name]

theorem flatten_cons (place : List String) (name : String) (rest : List String) :
    flatten place (name :: rest) = flatten (advance place name) rest := by
  rw [flatten, advance]
  split <;> rfl

theorem locateFrom_cons (root : Entry) (place : List String) (name : String) (rest : List String) :
    locateFrom root place (name :: rest) =
      match root.at? place with
      | none => .error .missing
      | some (.file _) => .error .notDirectory
      | some .directory => locateFrom root (advance place name) rest := by
  rw [locateFrom, Entry.at?, advance]
  cases root.get? place with
  | none => rfl
  | some entry =>
    cases entry with
    | file content => rfl
    | directory entries =>
      dsimp only [Entry.standing]
      split <;> rfl

theorem locateFrom_cons_ok :
    locateFrom root place (name :: rest) = .ok result ↔
      root.at? place = some .directory ∧ locateFrom root (advance place name) rest = .ok result := by
  rw [locateFrom_cons]
  cases root.at? place with
  | none => simp
  | some stands => cases stands <;> simp

theorem eq_flatten_of_locateFrom (found : locateFrom root place names = .ok result) :
    result = flatten place names := by
  induction names generalizing place with
  | nil =>
    cases found
    rfl
  | cons name rest ih =>
    rw [flatten_cons]
    exact ih (locateFrom_cons_ok.1 found).2

theorem locateFrom_append (root : Entry) (place first second : List String) :
    locateFrom root place (first ++ second) =
      match locateFrom root place first with
      | .ok middle => locateFrom root middle second
      | .error refusal => .error refusal := by
  induction first generalizing place with
  | nil => rfl
  | cons name rest ih =>
    rw [cons_append, locateFrom_cons, locateFrom_cons]
    cases root.at? place with
    | none => rfl
    | some stands =>
      cases stands with
      | file content => rfl
      | directory => exact ih _

theorem locateFrom_mono (stay : ∀ probe, root.at? probe = some .directory → other.at? probe = some .directory)
    (found : locateFrom root place names = .ok result) : locateFrom other place names = .ok result := by
  induction names generalizing place with
  | nil => exact found
  | cons name rest ih =>
    obtain ⟨stands, further⟩ := locateFrom_cons_ok.1 found
    exact locateFrom_cons_ok.2 ⟨stay place stands, ih further⟩

theorem locateFrom_congr (same : ∀ probe,
      (root.at? probe).map Standing.isDirectory = (other.at? probe).map Standing.isDirectory) :
    locateFrom root place names = locateFrom other place names := by
  induction names generalizing place with
  | nil => rfl
  | cons name rest ih =>
    rw [locateFrom_cons, locateFrom_cons]
    have here := same place
    cases first : root.at? place with
    | none =>
      cases second : other.at? place with
      | none => rfl
      | some stands => simp [first, second] at here
    | some stands =>
      cases second : other.at? place with
      | none => simp [first, second] at here
      | some others =>
        simp only [first, second] at here
        cases stands with
        | file content =>
          cases others with
          | file changed => rfl
          | directory => cases here
        | directory =>
          cases others with
          | file changed => cases here
          | directory => exact ih

/-- A place has a directory above it, unless it is the root. -/
def Inside (root : Entry) (place : List String) : Prop :=
  place = [] ∨ root.at? place.dropLast = some .directory

theorem inside_above (stands : root.at? (place ++ rest) ≠ none) : Inside root place := by
  rcases eq_nil_or_concat place with rfl | ⟨above, name, rfl⟩
  · exact .inl rfl
  · rw [concat_eq_append, append_assoc] at stands
    refine .inr ?_
    rw [concat_eq_append, dropLast_concat]
    exact Entry.at?_above (by simp) stands

theorem inside_advance (stands : root.at? place = some .directory) (name : String) :
    Inside root (advance place name) := by
  unfold advance
  split
  · rcases eq_nil_or_concat place with rfl | ⟨above, last, rfl⟩
    · exact .inl rfl
    · rw [concat_eq_append] at stands ⊢
      rw [dropLast_concat]
      exact inside_above (by rw [stands]; simp)
  · exact .inr (by simpa using stands)

theorem inside_of_locateFrom (inside : Inside root place) (found : locateFrom root place names = .ok result) :
    Inside root result := by
  induction names generalizing place with
  | nil =>
    cases found
    exact inside
  | cons name rest ih =>
    obtain ⟨stands, further⟩ := locateFrom_cons_ok.1 found
    exact ih (inside_advance stands name) further

theorem flatten_plain (plain : ".." ∉ names) : flatten place names = place ++ names := by
  induction names generalizing place with
  | nil => simp [flatten]
  | cons name rest ih =>
    rw [mem_cons, not_or] at plain
    rw [flatten, if_neg (Ne.symm plain.1), ih plain.2, append_assoc, singleton_append]

theorem locateFrom_plain (plain : ".." ∉ names) (stands : root.at? (place ++ names) ≠ none) :
    locateFrom root place names = .ok (place ++ names) := by
  induction names generalizing place with
  | nil => simp [locateFrom]
  | cons name rest ih =>
    rw [mem_cons, not_or] at plain
    have step : advance place name = place ++ [name] := if_neg (Ne.symm plain.1)
    have further : locateFrom root (place ++ [name]) rest = .ok (place ++ [name] ++ rest) :=
      ih plain.2 (by simpa using stands)
    rw [locateFrom_cons_ok, step, further]
    exact ⟨Entry.at?_above (by simp) stands, by simp⟩

theorem locateFrom_child (found : locateFrom root place names = .ok result)
    (stands : root.at? result = some .directory) :
    locateFrom root place (names ++ [name]) = .ok (advance result name) := by
  rw [locateFrom_append, found]
  exact locateFrom_cons_ok.2 ⟨stands, rfl⟩

theorem locateFrom_child_ok {target : List String} (found : locateFrom root place (names ++ [name]) = .ok target) :
    ∃ above, locateFrom root place names = .ok above ∧ root.at? above = some .directory ∧
      target = advance above name := by
  rw [locateFrom_append] at found
  cases before : locateFrom root place names with
  | error refusal => simp [before] at found
  | ok above =>
    rw [before] at found
    obtain ⟨stands, last⟩ := locateFrom_cons_ok.1 found
    cases last
    exact ⟨above, rfl, stands, rfl⟩

theorem absoluteNames_below (disk : Disk) (path : Path) (names : List String) :
    disk.absoluteNames (path.below names) = disk.absoluteNames path ++ names := by
  unfold absoluteNames Path.below Path.isAbsolute
  split <;> simp_all

theorem absoluteNames_child (disk : Disk) (path : Path) (name : String) :
    disk.absoluteNames (path.child name) = disk.absoluteNames path ++ [name] :=
  disk.absoluteNames_below path [name]

theorem no_dots_of_flatten (plain : ".." ∉ place) : ".." ∉ flatten place names := by
  induction names generalizing place with
  | nil => exact plain
  | cons name rest ih =>
    rw [flatten_cons]
    refine ih ?_
    unfold advance
    split
    · exact fun member => plain (dropLast_subset _ member)
    · next other => simpa [plain] using Ne.symm other

section

variable (found : disk.locate path = .ok place)
include found

theorem no_dots_of_locate : ".." ∉ place := by
  rw [eq_flatten_of_locateFrom found]
  exact no_dots_of_flatten (by simp)

theorem inside_of_locate : Inside disk.root place :=
  inside_of_locateFrom (.inl rfl) found

theorem locate_child (stands : disk.at? place = some .directory) :
    disk.locate (path.child name) = .ok (advance place name) := by
  unfold locate at found ⊢
  rw [absoluteNames_child]
  exact locateFrom_child found stands

end

theorem locate_child_ok (found : disk.locate (path.child name) = .ok result) :
    ∃ above, disk.locate path = .ok above ∧ disk.at? above = some .directory ∧ result = advance above name := by
  unfold locate at found
  rw [absoluteNames_child] at found
  exact locateFrom_child_ok found

theorem locate_mono (same : after.workingDirectory = disk.workingDirectory)
    (stay : ∀ probe, disk.at? probe = some .directory → after.at? probe = some .directory)
    (found : disk.locate path = .ok place) : after.locate path = .ok place := by
  have names : after.absoluteNames path = disk.absoluteNames path := by
    unfold absoluteNames
    rw [same]
  unfold locate
  rw [names]
  exact locateFrom_mono stay found

theorem locate_congr (path : Path) (sameStart : after.workingDirectory = disk.workingDirectory)
    (same : ∀ probe, (after.at? probe).map Standing.isDirectory = (disk.at? probe).map Standing.isDirectory) :
    after.locate path = disk.locate path := by
  have names : after.absoluteNames path = disk.absoluteNames path := by
    unfold absoluteNames
    rw [sameStart]
  unfold locate
  rw [names]
  exact locateFrom_congr same

theorem entry_eq (disk : Disk) (path : Path) :
    disk.entry path =
      match disk.locate path with
      | .error refusal => .error refusal
      | .ok place =>
        match disk.root.get? place with
        | some entry => .ok entry
        | none => .error .missing := by
  unfold entry
  cases disk.locate path <;> rfl

theorem entry_ok :
    disk.entry path = .ok entry ↔ ∃ place, disk.locate path = .ok place ∧ disk.root.get? place = some entry := by
  rw [entry_eq]
  cases disk.locate path with
  | error refusal => simp
  | ok place => cases found : disk.root.get? place <;> simp [found]

theorem entry?_some :
    disk.entry? path = some entry ↔ ∃ place, disk.locate path = .ok place ∧ disk.root.get? place = some entry := by
  rw [← entry_ok]
  unfold entry?
  cases disk.entry path <;> simp [Except.toOption]

theorem exists_of_at? (located : disk.locate path = .ok place) (stands : disk.at? place ≠ none) :
    disk.exists? path = true := by
  have held : disk.root.get? place ≠ none := fun none => stands (by simp [at?, Entry.at?, none])
  obtain ⟨entry, found⟩ := Option.ne_none_iff_exists'.1 held
  rw [exists?, entry?_some.2 ⟨place, located, found⟩]
  rfl

theorem isDirectory_iff :
    disk.isDirectory path = true ↔ ∃ place, disk.locate path = .ok place ∧ disk.at? place = some .directory := by
  unfold isDirectory
  rw [Option.any_eq_true]
  constructor
  · rintro ⟨entry, found, is⟩
    obtain ⟨place, located, held⟩ := entry?_some.1 found
    cases entry with
    | file content => cases is
    | directory entries => exact ⟨place, located, Entry.at?_directory.2 ⟨entries, held⟩⟩
  · rintro ⟨place, located, stands⟩
    obtain ⟨entries, held⟩ := Entry.at?_directory.1 stands
    exact ⟨.directory entries, entry?_some.2 ⟨place, located, held⟩, rfl⟩

theorem isFile_iff :
    disk.isFile path = true ↔
      ∃ place content, disk.locate path = .ok place ∧ disk.at? place = some (.file content) := by
  unfold isFile
  rw [Option.any_eq_true]
  constructor
  · rintro ⟨entry, found, is⟩
    obtain ⟨place, located, held⟩ := entry?_some.1 found
    cases entry with
    | file content => exact ⟨place, content, located, Entry.at?_file.2 held⟩
    | directory entries => cases is
  · rintro ⟨place, content, located, stands⟩
    exact ⟨.file content, entry?_some.2 ⟨place, located, Entry.at?_file.1 stands⟩, rfl⟩

theorem at?_child {entries : List (String × Entry)} (holds : disk.root.get? place = some (.directory entries))
    (name : String) : disk.at? (place ++ [name]) = (findIn name entries).map Entry.standing := by
  rw [at?, Entry.at?_append, holds]
  dsimp only [Option.bind]
  rw [Entry.at?, get?_directory]
  cases findIn name entries <;> rfl

theorem isDirectory_standing : standing.isDirectory = true ↔ standing = .directory := by
  cases standing <;> simp [Standing.isDirectory]

/-- One change of a disk: a directory is made, or a file is put in the place of a file or of nothing. -/
inductive Touch (made put : List String → Prop) : Disk → Disk → Prop
  | directory (disk : Disk) {path : Path} {place : List String} (located : disk.locate path = .ok place)
      (absent : disk.at? place = none) (there : made place) :
      Touch made put disk (disk.put place (.directory []))
  | file (disk : Disk) {path : Path} {place : List String} (content : List UInt8)
      (located : disk.locate path = .ok place) (notDirectory : disk.at? place ≠ some .directory)
      (there : put place) : Touch made put disk (disk.put place (.file content))

/-- Directories were made at some places, and files put at others. -/
def Touched (made put : List String → Prop) : Disk → Disk → Prop := Relation.ReflTransGen (Touch made put)

theorem at?_put {new : Entry} (inside : Inside disk.root place) (rest : List String) :
    (disk.put place new).at? (place ++ rest) = new.at? rest := by
  rcases eq_nil_or_concat place with rfl | ⟨above, name, rfl⟩
  · rfl
  · rw [concat_eq_append] at inside ⊢
    rcases inside with empty | stands
    · simp at empty
    · rw [dropLast_concat] at stands
      rw [append_assoc]
      exact Entry.at?_put_below stands name new rest

theorem at?_put_other {new : Entry} (apart : ¬ place <+: probe) :
    (disk.put place new).at? probe = disk.at? probe :=
  Entry.at?_put_other apart

theorem directory_above (nonempty : rest ≠ [])
    (stands : disk.at? (place ++ rest) = some standing) : disk.at? place = some .directory := by
  refine Entry.at?_above nonempty ?_
  rw [at?] at stands
  simp [stands]

theorem at?_below_none (nonempty : rest ≠ []) (notDirectory : disk.at? place ≠ some .directory) :
    disk.at? (place ++ rest) = none := by
  cases below : disk.at? (place ++ rest) with
  | none => rfl
  | some standing => exact absurd (directory_above nonempty below) notDirectory

theorem get?_eq_none_iff : disk.root.get? place = none ↔ disk.at? place = none := by
  simp [at?, Entry.at?]

section

variable {new : Entry} (leaf : ∀ name rest, new.at? (name :: rest) = none) (inside : Inside disk.root place)
  (notDirectory : disk.at? place ≠ some .directory)
include leaf inside notDirectory

theorem at?_put_leaf (probe : List String) :
    (disk.put place new).at? probe = if probe = place then some new.standing else disk.at? probe := by
  by_cases below : place <+: probe
  · obtain ⟨rest, rfl⟩ := below
    rw [at?_put inside]
    cases rest with
    | nil => simp [Entry.at?]
    | cons name others => simp [leaf, at?_below_none _ notDirectory]
  · have different : probe ≠ place := by
      rintro rfl
      exact below prefix_rfl
    rw [at?_put_other below, if_neg different]

theorem get?_put_leaf (apart : ¬ probe <+: place) : (disk.put place new).root.get? probe = disk.root.get? probe := by
  by_cases below : place <+: probe
  · obtain ⟨rest, rfl⟩ := below
    have nonempty : rest ≠ [] := by
      rintro rfl
      exact apart (by simp)
    have before := at?_below_none nonempty notDirectory
    have shows := at?_put_leaf leaf inside notDirectory (place ++ rest)
    rw [if_neg (by simpa using nonempty), before] at shows
    rw [get?_eq_none_iff.2 shows, get?_eq_none_iff.2 before]
  · exact get?_put_other below apart

end

section

variable {made put : List String → Prop}

theorem Touch.get? (touch : Touch made put disk after)
    (noneMade : ∀ place, made place → ¬ probe <+: place) (nonePut : ∀ place, put place → ¬ probe <+: place) :
    after.root.get? probe = disk.root.get? probe := by
  cases touch with
  | directory located absent there =>
    exact get?_put_leaf (fun _ _ => rfl) (inside_of_locate located) (by simp [absent]) (noneMade _ there)
  | file content located notDirectory there =>
    exact get?_put_leaf (fun _ _ => rfl) (inside_of_locate located) notDirectory (nonePut _ there)

theorem Touched.get? (touched : Touched made put disk after)
    (noneMade : ∀ place, made place → ¬ probe <+: place) (nonePut : ∀ place, put place → ¬ probe <+: place) :
    after.root.get? probe = disk.root.get? probe := by
  induction touched with
  | refl => rfl
  | tail _ touch ih => rw [touch.get? noneMade nonePut, ih]

theorem Touched.at? (touched : Touched made put disk after)
    (notMade : ¬ made probe) (notPut : ¬ put probe) : after.at? probe = disk.at? probe := by
  induction touched with
  | refl => rfl
  | tail _ touch ih =>
    rw [← ih]
    cases touch with
    | directory located absent there =>
      rw [@at?_put_leaf _ _ (.directory []) (fun _ _ => rfl) (inside_of_locate located) (by simp [absent])]
      refine if_neg ?_
      rintro rfl
      exact notMade there
    | file content located notDirectory there =>
      rw [@at?_put_leaf _ _ (.file content) (fun _ _ => rfl) (inside_of_locate located) notDirectory]
      refine if_neg ?_
      rintro rfl
      exact notPut there

end

/-- Files were put at some places only. Directories stay and may be added; files stay files. -/
structure Changes (put : List String → Prop) (disk after : Disk) : Prop where
  workingDirectory : after.workingDirectory = disk.workingDirectory
  homes : after.homes = disk.homes
  tidy : disk.root.tidy = true → after.root.tidy = true
  directories : ∀ place, disk.at? place = some .directory → after.at? place = some .directory
  files : ∀ place content, disk.at? place = some (.file content) → ∃ later, after.at? place = some (.file later)
  kept : ∀ place content, ¬ put place → disk.at? place = some (.file content) →
    after.at? place = some (.file content)
  fresh : ∀ place content, ¬ put place → after.at? place = some (.file content) →
    disk.at? place = some (.file content)

variable {made put more : List String → Prop} {last : Disk}

theorem Changes.refl (disk : Disk) : Changes put disk disk :=
  ⟨rfl, rfl, id, fun _ => id, fun _ content stands => ⟨content, stands⟩, fun _ _ _ => id, fun _ _ _ => id⟩

theorem Changes.mono (changes : Changes put disk after) (wider : ∀ place, put place → more place) :
    Changes more disk after :=
  ⟨changes.workingDirectory, changes.homes, changes.tidy, changes.directories, changes.files,
    fun place content off => changes.kept place content (fun on => off (wider place on)),
    fun place content off => changes.fresh place content (fun on => off (wider place on))⟩

theorem Changes.anywhere (changes : Changes (fun _ => False) disk after) : Changes put disk after :=
  changes.mono (fun _ impossible => impossible.elim)

theorem Changes.trans (first : Changes put disk after) (second : Changes put after last) :
    Changes put disk last where
  workingDirectory := second.workingDirectory.trans first.workingDirectory
  homes := second.homes.trans first.homes
  tidy ordered := second.tidy (first.tidy ordered)
  directories place stands := second.directories place (first.directories place stands)
  files place content stands := by
    obtain ⟨later, still⟩ := first.files place content stands
    exact second.files place later still
  kept place content off stands := second.kept place content off (first.kept place content off stands)
  fresh place content off stands := first.fresh place content off (second.fresh place content off stands)

theorem Changes.locate (changes : Changes put disk after) (found : disk.locate path = .ok place) :
    after.locate path = .ok place :=
  locate_mono changes.workingDirectory changes.directories found

theorem Touch.changes (touch : Touch made put disk after) : Changes put disk after := by
  cases touch with
  | directory located absent there =>
    have shows := @at?_put_leaf disk _ (.directory []) (fun _ _ => rfl) (inside_of_locate located)
      (by simp [absent])
    refine ⟨rfl, rfl, fun ordered => tidy_put ordered rfl (no_dots_of_locate located), ?_, ?_, ?_, ?_⟩
    all_goals
      intro probe
      grind [Entry.standing]
  | file content located notDirectory there =>
    have shows := @at?_put_leaf disk _ (.file content) (fun _ _ => rfl) (inside_of_locate located) notDirectory
    refine ⟨rfl, rfl, fun ordered => tidy_put ordered rfl (no_dots_of_locate located), ?_, ?_, ?_, ?_⟩
    all_goals
      intro probe
      grind [Entry.standing]

theorem Touched.changes (touched : Touched made put disk after) : Changes put disk after := by
  induction touched with
  | refl => exact .refl disk
  | tail _ touch ih => exact ih.trans touch.changes

end Disk
end Refit
