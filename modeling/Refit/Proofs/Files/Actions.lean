import Refit.Fault
import Refit.Proofs.Files.Disk
import Refit.Proofs.Files.Path

open List

namespace Refit

variable {names place : List String} {path : Path}

namespace Disk

variable {disk after : Disk} {path : Path} {place : List String}

/-- The place that a path stands for, whether or not anything is there. -/
def placeOf (disk : Disk) (path : Path) : List String := (disk.resolve path).names

theorem placeOf_eq (disk : Disk) (path : Path) : disk.placeOf path = flatten [] (disk.absoluteNames path) := rfl

theorem placeOf_congr (same : after.workingDirectory = disk.workingDirectory) (path : Path) :
    after.placeOf path = disk.placeOf path := by
  simp only [placeOf_eq, absoluteNames, same]

theorem eq_placeOf (found : disk.locate path = .ok place) : place = disk.placeOf path :=
  eq_flatten_of_locateFrom found

theorem flatten_append (place first second : List String) :
    flatten place (first ++ second) = flatten (flatten place first) second := by
  induction first generalizing place with
  | nil => rfl
  | cons name rest ih => rw [cons_append, flatten_cons, flatten_cons, ih]

theorem placeOf_child (disk : Disk) (path : Path) (name : String) :
    disk.placeOf (path.child name) = advance (disk.placeOf path) name := by
  rw [placeOf_eq, absoluteNames_child, flatten_append]
  rfl

theorem placeOf_below (disk : Disk) (path : Path) (plain : ".." ∉ names) :
    disk.placeOf (path.below names) = disk.placeOf path ++ names := by
  rw [placeOf_eq, placeOf_eq, absoluteNames_below, flatten_append, flatten_plain plain]

end Disk

namespace DiskAction

open Disk

variable {α β : Type} {made put : List String → Prop} {disk after : Disk} {path : Path} {place : List String}
  {action : DiskAction α} {content : List UInt8} {outcome : Except FileFault Unit} {source : Path} {root : PathRoot}

/-- Whatever an action comes to, it makes directories and puts files at some places only. -/
def Alters (made put : List String → Prop) (action : DiskAction α) (disk : Disk) : Prop :=
  Touched made put disk (exec action disk).2

theorem alters_pure (value : α) : Alters made put (pure value : DiskAction α) disk := .refl

theorem alters_throw (fault : FileFault) : Alters made put (throw fault : DiskAction α) disk := .refl

theorem alters_bind {next : α → DiskAction β} (first : Alters made put action disk)
    (second : ∀ value after, Touched made put disk after → Alters made put (next value) after) :
    Alters made put (action >>= next) disk := by
  unfold Alters at first ⊢
  rw [exec_bind]
  rcases run : exec action disk with ⟨outcome, after⟩
  rw [run] at first
  cases outcome with
  | ok value => exact first.trans (second value after first)
  | error fault => exact first

theorem alters_get_bind {next : Disk → DiskAction β} (second : Alters made put (next disk) disk) :
    Alters made put (get >>= next) disk := by
  unfold Alters
  rwa [exec_get_bind]

theorem alters_ite {condition : Prop} [Decidable condition] {other : DiskAction α}
    (holds : Alters made put action disk) (fails : Alters made put other disk) :
    Alters made put (if condition then action else other) disk := by
  split
  · exact holds
  · exact fails

theorem alters_tryCatch {onFault : FileFault → DiskAction α} (first : Alters made put action disk)
    (caught : ∀ fault after, Touched made put disk after → Alters made put (onFault fault) after) :
    Alters made put (tryCatch action onFault) disk := by
  unfold Alters at first ⊢
  rw [exec_tryCatch]
  rcases run : exec action disk with ⟨outcome, after⟩
  rw [run] at first
  cases outcome with
  | ok value => exact first
  | error fault => exact first.trans (caught fault after first)

theorem placeOf_touched (touched : Touched made put disk after) (path : Path) :
    after.placeOf path = disk.placeOf path :=
  placeOf_congr touched.changes.workingDirectory path

theorem exec_putEntry (place : List String) (entry : Entry) (disk : Disk) :
    exec (putEntry place entry) disk = (.ok (), disk.put place entry) := rfl

theorem exec_makeOne (located : disk.locate path = .ok place) :
    exec (makeOne path) disk =
      if disk.at? place = none then (.ok (), disk.put place (.directory []))
      else (.error (.refused .present path.toString), disk) := by
  rw [makeOne, exec_get_bind, located]
  cases found : disk.root.get? place with
  | none => simp [Disk.at?, Entry.at?, found, exec_putEntry]
  | some entry => simp [Disk.at?, Entry.at?, found, refuse]

theorem makeOne_cases (path : Path) (disk : Disk) :
    (∃ fault, exec (makeOne path) disk = (.error fault, disk)) ∨
    ∃ place, disk.locate path = .ok place ∧ disk.at? place = none ∧
      exec (makeOne path) disk = (.ok (), disk.put place (.directory [])) := by
  cases located : disk.locate path with
  | error refusal => exact .inl ⟨_, by rw [makeOne, exec_get_bind, located]; rfl⟩
  | ok place =>
    by_cases absent : disk.at? place = none
    · exact .inr ⟨place, rfl, absent, by rw [exec_makeOne located, if_pos absent]⟩
    · exact .inl ⟨_, by rw [exec_makeOne located, if_neg absent]⟩

theorem makeOne_alters (there : made (disk.placeOf path)) : Alters made put (makeOne path) disk := by
  unfold Alters
  rcases makeOne_cases path disk with ⟨fault, run⟩ | ⟨place, located, absent, run⟩
  · rw [run]
    exact .refl
  · rw [run]
    exact .single (.directory disk located absent (eq_placeOf located ▸ there))

theorem makeUnless_alters (there : made (disk.placeOf path)) :
    Alters made put (unlessDirectory path (makeOne path)) disk := by
  refine alters_tryCatch (makeOne_alters there) (fun fault after _ => alters_get_bind ?_)
  exact alters_ite (alters_pure _) (alters_throw _)

theorem makeAll_alters (there : ∀ rest, rest <:+ names → made (disk.placeOf ⟨root, rest.reverse⟩)) :
    Alters made put (makeAll root names) disk := by
  induction names generalizing disk with
  | nil => exact makeUnless_alters (there [] suffix_rfl)
  | cons name above ih =>
    have here := there (name :: above) suffix_rfl
    refine alters_tryCatch (makeOne_alters here) (fun fault after touched => ?_)
    split
    · have further : Alters made put (makeAll root above) after := by
        refine ih (fun rest part => ?_)
        rw [placeOf_touched touched]
        exact there rest (part.trans (suffix_cons _ _))
      refine alters_bind further (fun _ later next => makeUnless_alters ?_)
      rwa [placeOf_touched next, placeOf_touched touched]
    · exact alters_get_bind (alters_ite (alters_pure _) (alters_throw _))

theorem makeDirectories_alters (path : Path) (disk : Disk) :
    Alters (fun _ => True) put (makeDirectories path) disk :=
  makeAll_alters (fun _ _ => trivial)

theorem makeForCopy_alters (there : ∀ rest, rest <:+ names → made (disk.placeOf ⟨root, rest.reverse⟩)) :
    Alters made put (makeForCopy root names) disk := by
  induction names generalizing disk with
  | nil => exact alters_pure _
  | cons name above ih =>
    have here := there (name :: above) suffix_rfl
    refine alters_get_bind (alters_ite ?_ (makeUnless_alters here))
    refine alters_bind (ih fun rest part => there rest (part.trans (suffix_cons _ _))) ?_
    intro _ after touched
    refine makeUnless_alters ?_
    rwa [placeOf_touched touched]

theorem writeBytes_cases (path : Path) (content : List UInt8) (disk : Disk) :
    (∃ fault, exec (writeBytes path content) disk = (.error fault, disk)) ∨
    ∃ place, disk.locate path = .ok place ∧ disk.at? place ≠ some .directory ∧
      exec (writeBytes path content) disk = (.ok (), disk.put place (.file content)) := by
  rw [writeBytes, exec_get_bind]
  cases located : disk.locate path with
  | error refusal => exact .inl ⟨_, rfl⟩
  | ok place =>
    cases found : disk.root.get? place with
    | none =>
      refine .inr ⟨place, rfl, by simp [Disk.at?, Entry.at?, found], ?_⟩
      simp [found, exec_putEntry]
    | some entry =>
      cases entry with
      | directory entries => exact .inl ⟨.refused .isDirectory path.toString, by simp [found, refuse]⟩
      | file old =>
        refine .inr ⟨place, rfl, by simp [Disk.at?, Entry.at?, found, Entry.standing], ?_⟩
        simp [found, exec_putEntry]

/-- A file was put at a place, and nothing else changed but directories that were made. -/
structure Puts (place : List String) (content : List UInt8) (disk after : Disk) : Prop where
  changes : Changes (· = place) disk after
  stands : after.at? place = some (.file content)

theorem writeBytes_ok (run : exec (writeBytes path content) disk = (.ok (), after)) :
    disk.locate path = .ok (disk.placeOf path) ∧ disk.at? (disk.placeOf path) ≠ some .directory ∧
      Puts (disk.placeOf path) content disk after := by
  rcases writeBytes_cases path content disk with ⟨fault, failed⟩ | ⟨place, located, notDirectory, done⟩
  · cases failed.symm.trans run
  · cases done.symm.trans run
    have inside := inside_of_locate located
    obtain rfl := eq_placeOf located
    have touch : Touch (fun _ => False) (· = disk.placeOf path) disk
        (disk.put (disk.placeOf path) (.file content)) := .file disk content located notDirectory rfl
    refine ⟨located, notDirectory, touch.changes, ?_⟩
    simpa [Entry.at?, Entry.standing] using @at?_put disk _ (.file content) inside []

theorem writeBytes_error {fault : FileFault} (run : exec (writeBytes path content) disk = (.error fault, after)) :
    after = disk := by
  rcases writeBytes_cases path content disk with ⟨_, failed⟩ | ⟨_, _, _, done⟩
  · cases failed.symm.trans run
    rfl
  · cases done.symm.trans run

theorem exec_after_directories {next : DiskAction α} {outcome : Except FileFault α}
    (run : exec (makeDirectories path >>= fun _ => next) disk = (outcome, after)) :
    (∃ fault, outcome = .error fault ∧ Changes (fun _ => False) disk after) ∨
    ∃ middle, Changes (fun _ => False) disk middle ∧ exec next middle = (outcome, after) := by
  have first : Touched (fun _ => True) (fun _ => False) disk (exec (makeDirectories path) disk).2 :=
    makeDirectories_alters path disk
  rw [exec_bind] at run
  rcases before : exec (makeDirectories path) disk with ⟨result, middle⟩
  rw [before] at run first
  cases result with
  | ok => exact .inr ⟨middle, first.changes, run⟩
  | error fault =>
    cases run
    exact .inl ⟨fault, rfl, first.changes⟩

theorem writeFile_cases (run : exec (writeFile path content) disk = (outcome, after)) :
    (∃ fault, outcome = .error fault ∧ Changes (fun _ => False) disk after) ∨
    outcome = .ok () ∧ after.locate path = .ok (disk.placeOf path) ∧
      Puts (disk.placeOf path) content disk after := by
  rcases exec_after_directories run with
    failed | ⟨middle, changes, wrote⟩
  · exact .inl failed
  · have same := placeOf_congr changes.workingDirectory path
    cases outcome with
    | error fault =>
      obtain rfl := writeBytes_error wrote
      exact .inl ⟨fault, rfl, changes⟩
    | ok =>
      obtain ⟨located, _, puts⟩ := writeBytes_ok wrote
      rw [same] at located puts
      exact .inr ⟨rfl, puts.changes.locate located, changes.anywhere.trans puts.changes, puts.stands⟩

theorem advance_of_notDirectory {name : String} (stands : disk.at? place = some .directory)
    (notDirectory : disk.at? (advance place name) ≠ some .directory) : advance place name = place ++ [name] := by
  unfold advance at notDirectory ⊢
  split at notDirectory
  · rcases eq_nil_or_concat place with rfl | ⟨above, last, rfl⟩
    · exact absurd stands notDirectory
    · rw [concat_eq_append] at stands notDirectory
      rw [dropLast_concat] at notDirectory
      exact absurd (directory_above (by simp) stands) notDirectory
  · next plain => exact if_neg plain

theorem landing_cases (disk : Disk) (source path : Path) :
    disk.isDirectory path = false ∧ landing disk source path = path ∨
    disk.locate path = .ok (disk.placeOf path) ∧ disk.at? (disk.placeOf path) = some .directory ∧
      landing disk source path = path.child source.name := by
  unfold landing
  split
  · next is =>
      obtain ⟨place, located, stands⟩ := isDirectory_iff.1 is
      obtain rfl := eq_placeOf located
      exact .inr ⟨located, stands, rfl⟩
  · next isNot => exact .inl ⟨by simpa using isNot, rfl⟩

theorem landing_place (located : disk.locate (landing disk source path) = .ok place)
    (notDirectory : disk.at? place ≠ some .directory) :
    disk.locate path = .ok (disk.placeOf path) ∧
      (disk.at? (disk.placeOf path) ≠ some .directory ∧ place = disk.placeOf path ∨
        disk.at? (disk.placeOf path) = some .directory ∧ place = disk.placeOf path ++ [source.name]) := by
  rcases landing_cases disk source path with ⟨_, lands⟩ | ⟨found, stands, lands⟩
  · rw [lands] at located
    obtain rfl := eq_placeOf located
    exact ⟨located, .inl ⟨notDirectory, rfl⟩⟩
  · rw [lands] at located
    obtain rfl := eq_placeOf located
    rw [placeOf_child] at notDirectory ⊢
    exact ⟨found, .inr ⟨stands, advance_of_notDirectory stands notDirectory⟩⟩

theorem writeBytes_landing (run : exec (writeBytes (landing disk source path) content) disk = (.ok (), after)) :
    disk.locate path = .ok (disk.placeOf path) ∧
      (disk.at? (disk.placeOf path) ≠ some .directory ∧ Puts (disk.placeOf path) content disk after ∨
        disk.at? (disk.placeOf path) = some .directory ∧
          Puts (disk.placeOf path ++ [source.name]) content disk after) := by
  obtain ⟨located, notDirectory, puts⟩ := writeBytes_ok run
  obtain ⟨found, ⟨isNot, there⟩ | ⟨stands, inside⟩⟩ := landing_place located notDirectory
  · exact ⟨found, .inl ⟨isNot, there ▸ puts⟩⟩
  · exact ⟨found, .inr ⟨stands, inside ▸ puts⟩⟩

theorem copyFile_cases (run : exec (copyFile source path) disk = (outcome, after)) :
    (∃ fault, outcome = .error fault ∧ Changes (fun _ => False) disk after) ∨
    outcome = .ok () ∧ after.locate path = .ok (disk.placeOf path) ∧ ∃ content,
      Puts (disk.placeOf path) content disk after ∨
      after.at? (disk.placeOf path) = some .directory ∧
        Puts (disk.placeOf path ++ [source.name]) content disk after := by
  rcases exec_after_directories run with
    failed | ⟨middle, changes, copied⟩
  · exact .inl failed
  · rw [exec_get_bind] at copied
    dsimp only at copied
    have failing : ∀ fault : FileFault, (.error fault, middle) = (outcome, after) →
        ∃ fault, outcome = .error fault ∧ Changes (fun _ => False) disk after := by
      intro fault failed
      cases failed
      exact ⟨fault, rfl, changes⟩
    split at copied
    · exact .inl (failing _ copied)
    · cases read : middle.readBytes source with
      | error fault =>
        rw [read] at copied
        exact .inl (failing _ copied)
      | ok content =>
        rw [read] at copied
        cases outcome with
        | error fault =>
          obtain rfl := writeBytes_error copied
          exact .inl ⟨fault, rfl, changes⟩
        | ok =>
          obtain ⟨located, lies⟩ := writeBytes_landing copied
          rw [placeOf_congr changes.workingDirectory path] at located lies
          refine .inr ⟨rfl, ?_⟩
          rcases lies with ⟨_, puts⟩ | ⟨stands, puts⟩
          · exact ⟨puts.changes.locate located, content,
              .inl ⟨changes.anywhere.trans puts.changes, puts.stands⟩⟩
          · exact ⟨puts.changes.locate located, content, .inr ⟨puts.changes.directories _ stands,
              changes.anywhere.trans puts.changes, puts.stands⟩⟩

end DiskAction

/-- A path from the root of a disk, without double dots. -/
structure Path.Resolved (path : Path) : Prop where
  root : path.root = .slash
  plain : ".." ∉ path.names
  valid : path.Valid

namespace Disk

variable {path : Path} {disk : Disk}

theorem absoluteNames_resolved (disk : Disk) (resolved : path.Resolved) :
    disk.absoluteNames path = path.names := by
  simp [absoluteNames, Path.isAbsolute, resolved.root]

theorem resolve_resolved (disk : Disk) (resolved : path.Resolved) : disk.resolve path = path := by
  rw [resolve, absoluteNames_resolved disk resolved, flatten_plain resolved.plain]
  have slash := resolved.root
  cases path
  simp_all

theorem placeOf_resolved (disk : Disk) (resolved : path.Resolved) :
    disk.placeOf path = path.names := by
  rw [placeOf, resolve_resolved disk resolved]

theorem locate_resolved (resolved : path.Resolved) (stands : disk.at? path.names ≠ none) :
    disk.locate path = .ok path.names := by
  unfold locate
  rw [absoluteNames_resolved disk resolved]
  exact locateFrom_plain resolved.plain stands

theorem mem_of_mem_flatten {name : String} (member : name ∈ flatten place names) :
    name ∈ place ∨ name ∈ names := by
  induction names generalizing place with
  | nil => exact .inl member
  | cons first rest ih =>
    rw [flatten_cons] at member
    rcases ih member with inPlace | inRest
    · unfold advance at inPlace
      split at inPlace
      · exact .inl (List.dropLast_subset _ inPlace)
      · rcases List.mem_append.1 inPlace with inPlace | is
        · exact .inl inPlace
        · exact .inr (by simp [List.mem_singleton.1 is])
    · exact .inr (List.mem_cons_of_mem _ inRest)

theorem resolved_of_resolve (start : ∀ name ∈ disk.workingDirectory, Path.ValidName name) (valid : path.Valid) :
    (disk.resolve path).Resolved := by
  refine ⟨rfl, no_dots_of_flatten (by simp), fun name member => ?_⟩
  rcases mem_of_mem_flatten member with impossible | member
  · cases impossible
  · unfold absoluteNames at member
    split at member
    · exact valid name member
    · rcases List.mem_append.1 member with inStart | inPath
      · exact start name inStart
      · exact valid name inPath

theorem resolved_of_resolveUser (start : ∀ name ∈ disk.workingDirectory, Path.ValidName name) {resolved : Path}
    (valid : path.Valid) (done : disk.resolveUser path = .ok resolved) :
    resolved.Resolved := by
  have expanded : ∀ other ∈ disk.expandUser path, other.Valid := by
    intro other found
    unfold expandUser at found
    split at found
    · next name rest _ named =>
        split at found
        · obtain ⟨home, _, rfl⟩ := Option.map_eq_some_iff.1 (Option.mem_def.1 found)
          intro name member
          rcases List.mem_append.1 member with inHome | inRest
          · exact Path.ofString_valid home.2 name inHome
          · exact valid name (by simp [named, inRest])
        · cases found
          exact valid
    · cases found
      exact valid
  unfold resolveUser at done
  cases known : disk.expandUser path with
  | none => simp [known] at done
  | some other =>
    rw [known] at done
    dsimp only at done
    split at done
    · cases done
    · cases done
      exact resolved_of_resolve start (expanded other known)

theorem resolveUser_resolved (disk : Disk) (resolved : path.Resolved) :
    disk.resolveUser path =
      if path.names.any (·.toList.contains '\x00') then .error .nullInPath else .ok path := by
  have same : disk.expandUser path = some path := by
    unfold expandUser
    rw [resolved.root]
  simp only [resolveUser, same, resolve_resolved disk resolved]

end Disk

namespace Entry

/-- A file of a tree that is copied to a place can land somewhere: at its own place below it, or in
    a directory that is there already. -/
def Lands (tree : Entry) (place probe : List String) : Prop :=
  ∃ below content, tree.at? below = some (.file content) ∧
    (probe = place ++ below ∨ ∃ name, (place ++ below).getLast? = some name ∧ probe = place ++ below ++ [name])

theorem at?_item {entries : List (String × Entry)} (tidy : (directory entries).tidy = true)
    {item : String × Entry} (member : item ∈ entries) (below : List String) :
    (directory entries).at? (item.1 :: below) = item.2.at? below := by
  have found := findIn_of_mem (tidy_directory.1 tidy).2 member
  simp [at?, get?_directory, found]

theorem Lands.item {entries : List (String × Entry)} (tidy : (directory entries).tidy = true)
    {item : String × Entry} (member : item ∈ entries) {place probe : List String}
    (lands : item.2.Lands (place ++ [item.1]) probe) : (directory entries).Lands place probe := by
  obtain ⟨below, content, stands, lies⟩ := lands
  refine ⟨item.1 :: below, content, (at?_item tidy member below).trans stands, ?_⟩
  rwa [List.append_assoc] at lies

end Entry

namespace DiskAction

open Disk

variable {made put : List String → Prop} {disk after : Disk} {place : List String} {source : Path}

/-- The places of a path and of the paths above it, and all places below. -/
def Around (disk : Disk) (path : Path) (probe : List String) : Prop :=
  (∃ names, names <+: path.names ∧ probe = disk.placeOf ⟨path.root, names⟩) ∨ disk.placeOf path <+: probe

theorem placeOf_item (disk : Disk) (path : Path) {name : String} (down : name ≠ "..") :
    disk.placeOf (path.child name) = disk.placeOf path ++ [name] := by
  rw [placeOf_child, advance, if_neg down]

theorem around_child {name : String} (down : name ≠ "..") {probe : List String}
    (around : Around disk (path.child name) probe) : Around disk path probe := by
  have further : disk.placeOf path <+: disk.placeOf (path.child name) := by
    rw [placeOf_item disk path down]
    exact List.prefix_append _ _
  rcases around with ⟨names, part, rfl⟩ | below
  · rcases List.prefix_concat_iff.1 part with whole | part
    · right
      subst whole
      exact further
    · exact .inl ⟨names, part, rfl⟩
  · exact .inr (further.trans below)

theorem around_congr (same : after.workingDirectory = disk.workingDirectory) (path : Path)
    (probe : List String) : Around after path probe ↔ Around disk path probe := by
  simp only [Around, placeOf_congr same]

theorem makeForCopy_around (there : ∀ probe, Around disk path probe → made probe) :
    Alters made put (makeForCopy path.root path.names.reverse) disk := by
  refine makeForCopy_alters (fun rest part => there _ (.inl ⟨rest.reverse, ?_, rfl⟩))
  rwa [← List.reverse_suffix, List.reverse_reverse]

theorem copyMember_alters {destination : Path} (content : List UInt8)
    (there : put (disk.placeOf destination)) (inside : put (disk.placeOf destination ++ [source.name])) :
    Alters made put (copyMember source destination content) disk := by
  refine alters_get_bind (alters_ite (alters_pure _) ?_)
  refine alters_tryCatch (alters_bind ?_ (fun _ _ _ => alters_pure _)) (fun _ _ _ => alters_pure _)
  unfold Alters
  rcases writeBytes_cases (landing disk source destination) content disk with
    ⟨fault, run⟩ | ⟨place, located, notDirectory, run⟩
  · rw [run]
    exact .refl
  · rw [run]
    refine .single (.file disk content located notDirectory ?_)
    rcases (landing_place located notDirectory).2 with ⟨_, rfl⟩ | ⟨_, rfl⟩
    · exact there
    · exact inside

theorem name_child (path : Path) (name : String) : (path.child name).name = name := by
  simp [Path.name, Path.child]

mutual

theorem copyEntries_alters {source destination : Path} : {entries : List (String × Entry)} →
    (∀ item ∈ entries, item.1 ≠ ".." ∧ item.2.tidy = true) → (disk : Disk) →
    (∀ probe, Around disk destination probe → made probe) →
    (∀ item ∈ entries, ∀ probe, item.2.Lands (disk.placeOf destination ++ [item.1]) probe → put probe) →
    Alters made put (copyEntries source destination entries) disk
  | [], _, _, _, _ => alters_pure _
  | (name, entry) :: rest, tidy, disk, makes, puts => by
      obtain ⟨down, tidyEntry⟩ := tidy (name, entry) (by simp)
      have there : disk.placeOf (destination.child name) = disk.placeOf destination ++ [name] :=
        placeOf_item disk destination down
      have first : Alters made put (copyEntry (source.child name) (destination.child name) entry) disk := by
        refine copyEntry_alters tidyEntry disk ?_ (fun probe around => makes probe (around_child down around)) ?_
        · simp [there, name_child]
        · rw [there]
          exact puts (name, entry) (by simp)
      refine alters_bind first (fun _ after touched => ?_)
      refine alters_bind (copyEntries_alters (fun item member => tidy item (by simp [member])) after ?_ ?_)
        (fun _ _ _ => alters_pure _)
      · intro probe around
        exact makes probe ((around_congr touched.changes.workingDirectory _ _).1 around)
      · intro item member
        rw [placeOf_touched touched]
        exact puts item (by simp [member])

theorem copyEntry_alters {source destination : Path} : {entry : Entry} → entry.tidy = true → (disk : Disk) →
    (disk.placeOf destination).getLast? = some source.name →
    (∀ probe, Around disk destination probe → made probe) →
    (∀ probe, entry.Lands (disk.placeOf destination) probe → put probe) →
    Alters made put (copyEntry source destination entry) disk
  | .file content, _, disk, named, _, puts => by
      refine copyMember_alters content (puts _ ⟨[], content, rfl, ?_⟩) (puts _ ⟨[], content, rfl, ?_⟩)
      · simp
      · simp [named]
  | .directory entries, tidy, disk, named, makes, puts => by
      have start : Alters made put
          ((makeForCopy destination.root destination.names.reverse).map (fun _ => ([] : List CopyProblem)))
          disk := by
        unfold Alters
        rw [exec_map]
        exact makeForCopy_around makes
      refine alters_bind (alters_tryCatch start (fun _ _ _ => alters_pure _)) (fun problems after touched => ?_)
      refine alters_ite (copyEntries_alters (Entry.tidy_directory.1 tidy).1 after ?_ ?_) (alters_pure _)
      · intro probe around
        exact makes probe ((around_congr touched.changes.workingDirectory _ _).1 around)
      · intro item member probe lands
        rw [placeOf_touched touched] at lands
        exact puts probe (lands.item tidy member)

end

theorem copyTree_missing {refusal : Refusal} (found : disk.entry source = .error refusal)
    (destination : Path) :
    exec (copyTree source destination) disk = (.error (.refused refusal source.toString), disk) := by
  rw [copyTree, exec_get_bind, found]
  rfl

theorem copyTree_alters {destination : Path} {tree : Entry} (found : disk.entry source = .ok tree)
    (tidy : tree.tidy = true) :
    Alters (Around disk destination) (tree.Lands (disk.placeOf destination)) (copyTree source destination)
      disk := by
  refine alters_get_bind ?_
  rw [found]
  cases tree with
  | file content => exact alters_throw _
  | directory entries =>
    refine alters_bind (makeForCopy_around (fun _ around => around)) (fun _ after touched => ?_)
    refine alters_bind (copyEntries_alters (Entry.tidy_directory.1 tidy).1 after ?_ ?_) (fun _ _ _ => ?_)
    · intro probe around
      exact (around_congr touched.changes.workingDirectory _ _).1 around
    · intro item member probe lands
      rw [placeOf_touched touched] at lands
      exact lands.item tidy member
    · exact alters_ite (alters_pure _) (alters_throw _)

theorem copyTree_touches (tidy : disk.root.tidy = true) (source destination : Path) :
    ∃ tree : Entry, Touched (Around disk destination) (tree.Lands (disk.placeOf destination)) disk
      (exec (copyTree source destination) disk).2 := by
  cases found : disk.entry source with
  | error refusal =>
    rw [copyTree_missing found]
    exact ⟨.directory [], .refl⟩
  | ok tree =>
    obtain ⟨place, _, holds⟩ := entry_ok.1 found
    exact ⟨tree, copyTree_alters found (Entry.tidy_get? tidy holds)⟩

end DiskAction
end Refit
