import Refit.Proofs.Files.Actions

open List

namespace Refit

variable {path : Path}

namespace Entry

variable {name other : String} {entry : Entry} {rest : List (String × Entry)}

theorem at?_cons_entry (name other : String) (entry : Entry) (rest : List (String × Entry))
    (below : List String) :
    (directory ((name, entry) :: rest)).at? (other :: below) =
      if other = name then entry.at? below else (directory rest).at? (other :: below) := by
  simp only [at?, get?_directory, findIn]
  by_cases same : other = name
  · simp [same]
  · rw [if_neg (Ne.symm same), if_neg same]

theorem tidy_cons (tidy : (directory ((name, entry) :: rest)).tidy = true) :
    name ≠ ".." ∧ entry.tidy = true ∧ (directory rest).tidy = true ∧
      ∀ below, (directory rest).at? (name :: below) = none := by
  obtain ⟨each, ordered⟩ := tidy_directory.1 tidy
  obtain ⟨before, later⟩ := pairwise_cons.1 ordered
  obtain ⟨down, inner⟩ := each (name, entry) (by simp)
  refine ⟨down, inner, tidy_directory.2 ⟨fun item member => each item (by simp [member]), later⟩, fun below => ?_⟩
  have absent : findIn name rest = none := by
    cases found : findIn name rest with
    | none => rfl
    | some present => exact absurd (before _ (mem_of_findIn found)) (String.lt_irrefl name)
  simp [at?, get?_directory, absent]

end Entry

namespace Disk

variable {disk middle after : Disk} {tree : Entry} {place : List String}

/-- Where a tree and a disk both have something, both have a file or both have a directory. -/
def Accepts (disk : Disk) (tree : Entry) (place : List String) : Prop :=
  ∀ below new old, tree.at? below = some new → disk.at? (place ++ below) = some old →
    old.isDirectory = new.isDirectory

/-- What is in a tree stands at a place, and all else is as it was. -/
structure Overlaid (tree : Entry) (place : List String) (disk after : Disk) : Prop where
  workingDirectory : after.workingDirectory = disk.workingDirectory
  tidy : disk.root.tidy = true → after.root.tidy = true
  covered : ∀ below standing, tree.at? below = some standing → after.at? (place ++ below) = some standing
  uncovered : ∀ probe, (∀ below, probe = place ++ below → tree.at? below = none) →
    after.at? probe = disk.at? probe

theorem Overlaid.directories (overlaid : Overlaid tree place disk after) (accepts : disk.Accepts tree place)
    {probe : List String} (stands : disk.at? probe = some .directory) : after.at? probe = some .directory := by
  by_cases below : ∃ below, probe = place ++ below ∧ tree.at? below ≠ none
  · obtain ⟨below, rfl, new⟩ := below
    obtain ⟨standing, found⟩ := Option.ne_none_iff_exists'.1 new
    have kind := accepts below standing .directory found stands
    rw [overlaid.covered below standing found, isDirectory_standing.1 kind.symm]
  · rw [overlaid.uncovered probe (fun rest is => Classical.byContradiction (fun new => below ⟨rest, is, new⟩)), stands]

theorem overlaid_put {new : Entry} (leaf : ∀ name rest, new.at? (name :: rest) = none)
    (fine : new.tidy = true) (located : disk.locate path = .ok place)
    (notDirectory : disk.at? place ≠ some .directory) : Overlaid new place disk (disk.put place new) := by
  have shows := at?_put_leaf leaf (inside_of_locate located) notDirectory
  refine ⟨rfl, fun ordered => Entry.tidy_put ordered fine (no_dots_of_locate located), ?_, ?_⟩
  · intro below standing found
    cases below with
    | nil =>
      rw [append_nil, shows, if_pos rfl]
      exact found
    | cons name rest => simp [leaf] at found
  · intro probe off
    rw [shows, if_neg]
    rintro rfl
    have impossible := off [] (by simp)
    simp [Entry.at?] at impossible

end Disk

namespace DiskAction

open Disk

variable {disk after : Disk} {place above : List String} {source destination : Path} {name : String}
  {entry : Entry} {rest entries : List (String × Entry)} {made : Disk}

theorem exec_writeBytes (content : List UInt8) (located : disk.locate path = .ok place)
    (notDirectory : disk.at? place ≠ some .directory) :
    exec (writeBytes path content) disk = (.ok (), disk.put place (.file content)) := by
  rw [writeBytes, exec_get_bind, located]
  dsimp only
  cases found : disk.root.get? place with
  | none => rfl
  | some entry =>
    cases entry with
    | file old => rfl
    | directory entries => exact absurd (Entry.at?_directory.2 ⟨entries, found⟩) notDirectory

theorem copyMember_overlays (content : List UInt8) (located : disk.locate destination = .ok place)
    (notDirectory : disk.at? place ≠ some .directory) (apart : disk.placeOf source ≠ place) :
    exec (copyMember source destination content) disk = (.ok [], disk.put place (.file content)) := by
  have isNot : disk.isDirectory destination = false := by
    cases is : disk.isDirectory destination with
    | false => rfl
    | true =>
      obtain ⟨other, found, stands⟩ := isDirectory_iff.1 is
      cases located.symm.trans found
      exact absurd stands notDirectory
  have lands : landing disk source destination = destination := by simp [landing, isNot]
  have different : isSame disk source destination = false := by
    unfold isSame
    rw [located]
    cases origin : disk.locate source with
    | error refusal => rfl
    | ok left =>
      have other : left ≠ place := eq_placeOf origin ▸ apart
      simp [other]
  rw [copyMember, exec_get_bind, lands]
  dsimp only
  rw [different, if_neg (by simp), exec_tryCatch, exec_bind, exec_writeBytes content located notDirectory]
  rfl

theorem makeUnless_there (is : disk.isDirectory path = true) :
    exec (unlessDirectory path (makeOne path)) disk = (.ok (), disk) := by
  obtain ⟨place, located, stands⟩ := isDirectory_iff.1 is
  rw [unlessDirectory, exec_tryCatch, exec_makeOne located, if_neg (by simp [stands])]
  simp [exec_get_bind, is]

theorem makeForCopy_child (path : Path) (name : String) :
    makeForCopy (path.child name).root (path.child name).names.reverse = (do
      if !path.names.reverse.isEmpty && !(← get).exists? path then makeForCopy path.root path.names.reverse
      unlessDirectory (path.child name) (makeOne (path.child name))) := by
  have names : (path.child name).names.reverse = name :: path.names.reverse := by simp [Path.child]
  have whole : (⟨(path.child name).root, (name :: path.names.reverse).reverse⟩ : Path) = path.child name := by
    simp [Path.child]
  have up : (path.child name).parent = path := by simp [Path.parent, Path.child]
  rw [names, makeForCopy, whole, up]
  rfl

theorem makeForCopy_overlays (located : disk.locate destination = .ok above)
    (stands : disk.at? above = some .directory) (down : name ≠ "..")
    (accepts : disk.Accepts (.directory []) (above ++ [name])) :
    ∃ made, exec (makeForCopy (destination.child name).root (destination.child name).names.reverse) disk =
        (.ok (), made) ∧ Overlaid (.directory []) (above ++ [name]) disk made := by
  have leads : disk.locate (destination.child name) = .ok (above ++ [name]) := by
    rw [locate_child located stands, advance, if_neg down]
  have parent : disk.exists? destination = true := exists_of_at? located (by simp [stands])
  rw [makeForCopy_child, exec_get_bind, parent, Bool.not_true, Bool.and_false, if_neg Bool.false_ne_true]
  cases here : disk.at? (above ++ [name]) with
  | none =>
    rw [unlessDirectory, exec_tryCatch, exec_makeOne leads, if_pos here]
    exact ⟨_, rfl, overlaid_put (fun _ _ => rfl) rfl leads (by simp [here])⟩
  | some standing =>
    have kind := accepts [] .directory standing rfl (by simpa using here)
    rw [isDirectory_standing.1 kind] at here
    refine ⟨disk, makeUnless_there (isDirectory_iff.2 ⟨_, leads, here⟩), rfl, id, ?_, fun _ _ => rfl⟩
    intro below standing covered
    cases below with
    | nil =>
      cases covered
      rwa [append_nil]
    | cons first rest => cases covered

theorem accepts_item (accepts : disk.Accepts (.directory ((name, entry) :: rest)) place) :
    disk.Accepts entry (place ++ [name]) := by
  intro below new old found stands
  rw [append_assoc] at stands
  exact accepts (name :: below) new old (by rw [Entry.at?_cons_entry, if_pos rfl, found]) stands

theorem accepts_rest (tidy : (Entry.directory ((name, entry) :: rest)).tidy = true)
    (accepts : disk.Accepts (.directory ((name, entry) :: rest)) place)
    (overlaid : Overlaid entry (place ++ [name]) disk after) (stands : after.at? place = some .directory) :
    after.Accepts (.directory rest) place := by
  intro below new old found there
  cases below with
  | nil =>
    cases found
    rw [append_nil, stands] at there
    cases there
    rfl
  | cons other below =>
    have different : other ≠ name := by
      rintro rfl
      rw [(Entry.tidy_cons tidy).2.2.2] at found
      cases found
    rw [overlaid.uncovered _ (fun more is => ?_)] at there
    · exact accepts (other :: below) new old (by rw [Entry.at?_cons_entry, if_neg different, found]) there
    · simp [different] at is

theorem overlaid_cons {middle : Disk} (tidy : (Entry.directory ((name, entry) :: rest)).tidy = true)
    (first : Overlaid entry (place ++ [name]) disk middle)
    (second : Overlaid (.directory rest) place middle after) :
    Overlaid (.directory ((name, entry) :: rest)) place disk after := by
  have absent := (Entry.tidy_cons tidy).2.2.2
  refine ⟨second.workingDirectory.trans first.workingDirectory, fun ordered => second.tidy (first.tidy ordered),
    ?_, ?_⟩
  · intro below standing found
    cases below with
    | nil => exact second.covered [] standing found
    | cons other below =>
      rw [Entry.at?_cons_entry] at found
      split at found
      · next same =>
          subst same
          rw [second.uncovered]
          · rw [append_cons]
            exact first.covered below standing found
          · intro more is
            rw [← append_cancel_left is]
            exact absent below
      · exact second.covered (other :: below) standing found
  · intro probe off
    rw [second.uncovered, first.uncovered]
    · intro below is
      have whole := off (name :: below) (by rw [is, append_assoc, singleton_append])
      rwa [Entry.at?_cons_entry, if_pos rfl] at whole
    · intro below is
      have whole := off below is
      cases below with
      | nil => exact whole
      | cons other below =>
        rw [Entry.at?_cons_entry] at whole
        split at whole
        · next same => rw [same, absent]
        · exact whole

theorem at?_empty (name : String) (below : List String) : (Entry.directory []).at? (name :: below) = none := rfl

theorem accepts_made (accepts : disk.Accepts (.directory entries) place)
    (overlaid : Overlaid (.directory []) place disk made) : made.Accepts (.directory entries) place := by
  intro below new old found there
  cases below with
  | nil =>
    cases found
    rw [overlaid.covered [] .directory rfl] at there
    cases there
    rfl
  | cons name below =>
    refine accepts (name :: below) new old found ?_
    rw [← there, overlaid.uncovered]
    intro more is
    rw [← append_cancel_left is, at?_empty]

theorem overlaid_made (first : Overlaid (.directory []) place disk made)
    (second : Overlaid (.directory entries) place made after) :
    Overlaid (.directory entries) place disk after := by
  refine ⟨second.workingDirectory.trans first.workingDirectory, fun ordered => second.tidy (first.tidy ordered),
    second.covered, fun probe off => ?_⟩
  rw [second.uncovered probe off, first.uncovered]
  intro below is
  cases below with
  | nil => exact nomatch off [] is
  | cons name below => exact at?_empty name below

mutual

theorem copyEntries_overlays {source destination : Path} {place : List String} :
    {entries : List (String × Entry)} → (Entry.directory entries).tidy = true → (disk : Disk) →
    disk.locate destination = .ok place → disk.at? place = some .directory →
    disk.Accepts (.directory entries) place → disk.placeOf source ≠ place →
    ∃ after, exec (copyEntries source destination entries) disk = (.ok [], after) ∧
      Overlaid (.directory entries) place disk after
  | [], _, disk, _, stands, _, _ => by
      refine ⟨disk, rfl, rfl, id, fun below standing found => ?_, fun _ _ => rfl⟩
      cases below with
      | nil =>
        cases found
        rwa [append_nil]
      | cons first rest => cases found
  | (name, entry) :: rest, tidy, disk, located, stands, accepts, apart => by
      obtain ⟨down, tidyEntry, tidyRest, _⟩ := Entry.tidy_cons tidy
      obtain ⟨middle, first, overlaid⟩ :=
        copyEntry_overlays tidyEntry disk located stands down (accepts_item accepts) apart
      have stay (probe : List String) (directory : disk.at? probe = some .directory) :
          middle.at? probe = some .directory := overlaid.directories (accepts_item accepts) directory
      have start := overlaid.workingDirectory
      obtain ⟨after, second, overlaidRest⟩ := copyEntries_overlays tidyRest middle
        (locate_mono start stay located) (stay place stands)
        (accepts_rest tidy accepts overlaid (stay place stands)) (by rwa [placeOf_congr start])
      refine ⟨after, ?_, overlaid_cons tidy overlaid overlaidRest⟩
      rw [copyEntries, exec_bind, first]
      dsimp only
      rw [exec_bind, second]
      rfl

theorem copyEntry_overlays {source destination : Path} {above : List String} {name : String} :
    {entry : Entry} → entry.tidy = true → (disk : Disk) → disk.locate destination = .ok above →
    disk.at? above = some .directory → name ≠ ".." → disk.Accepts entry (above ++ [name]) →
    disk.placeOf source ≠ above →
    ∃ after, exec (copyEntry (source.child name) (destination.child name) entry) disk = (.ok [], after) ∧
      Overlaid entry (above ++ [name]) disk after
  | .file content, _, disk, located, stands, down, accepts, apart => by
      have leads : disk.locate (destination.child name) = .ok (above ++ [name]) := by
        rw [locate_child located stands, advance, if_neg down]
      have notDirectory : disk.at? (above ++ [name]) ≠ some .directory := by
        intro is
        have kind := accepts [] (.file content) .directory rfl (by rwa [append_nil])
        cases kind
      have different : disk.placeOf (source.child name) ≠ above ++ [name] := by
        rw [placeOf_item disk source down]
        exact fun same => apart (append_cancel_right same)
      rw [copyEntry]
      exact ⟨_, copyMember_overlays content leads notDirectory different,
        overlaid_put (fun _ _ => rfl) rfl leads notDirectory⟩
  | .directory entries, tidy, disk, located, stands, down, accepts, apart => by
      have outer : disk.Accepts (.directory []) (above ++ [name]) := by
        intro below new old found there
        cases below with
        | nil => exact accepts [] new old found there
        | cons first rest => cases found
      obtain ⟨made, making, overlaid⟩ := makeForCopy_overlays located stands down outer
      have stay (probe : List String) (directory : disk.at? probe = some .directory) :
          made.at? probe = some .directory := overlaid.directories outer directory
      have start := overlaid.workingDirectory
      have leads : made.locate (destination.child name) = .ok (above ++ [name]) := by
        rw [locate_child (locate_mono start stay located) (stay above stands), advance, if_neg down]
      have there : made.at? (above ++ [name]) = some .directory := by
        simpa using overlaid.covered [] .directory rfl
      have different : made.placeOf (source.child name) ≠ above ++ [name] := by
        rw [placeOf_congr start, placeOf_item disk source down]
        exact fun same => apart (append_cancel_right same)
      obtain ⟨after, copied, overlaidInner⟩ :=
        copyEntries_overlays tidy made leads there (accepts_made accepts overlaid) different
      refine ⟨after, ?_, overlaid_made overlaid overlaidInner⟩
      rw [copyEntry, exec_bind, exec_tryCatch, exec_map, making]
      exact copied

end

theorem copyTree_overlays (found : disk.entry source = .ok (.directory entries))
    (tidy : (Entry.directory entries).tidy = true)
    (making : exec (makeForCopy destination.root destination.names.reverse) disk = (.ok (), made))
    (located : made.locate destination = .ok place) (stands : made.at? place = some .directory)
    (accepts : made.Accepts (.directory entries) place) (apart : made.placeOf source ≠ place) :
    ∃ after, exec (copyTree source destination) disk = (.ok (), after) ∧
      Overlaid (.directory entries) place made after := by
  obtain ⟨after, copied, overlaid⟩ := copyEntries_overlays tidy made located stands accepts apart
  refine ⟨after, ?_, overlaid⟩
  rw [copyTree, exec_get_bind, found]
  rw [exec_bind, making]
  dsimp only
  rw [exec_bind, copied]
  rfl

end DiskAction
end Refit
