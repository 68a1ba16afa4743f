import Mathlib.Data.List.Sort
import Refit.Proofs.Files.Actions
import Refit.Proofs.Files.Walk

/-!
What a walk yields, and in which order. A file is yielded exactly if the walk admits it and enters every
directory between its start and the file. The files of a directory come before those of the directories
in it, and both go by their names, so that a walk with more rules yields a part of the list.
-/

open List

namespace Refit

open Entry

variable {content : List UInt8} {tree : Entry}

namespace Walk

variable {walk : Walk} {start names found left right : List String} {tree : Entry} {name : String}
  {directories : List String} {rules : List IgnoreRule}

/-- What makes a walk yield a file that directories lead to from its start. -/
structure Admits (walk : Walk) (start directories : List String) (name : String) : Prop where
  extension : walk.extensions = [] ∨ ∃ extension ∈ walk.extensions, Text.endsWith name extension = true
  unmatched : ∀ rule ∈ walk.rules, rule.excludes (relativeText (start ++ directories ++ [name])) false = false
  entered : ∀ above directory, above ++ [directory] <+: directories →
    Text.startsWith directory "." = false ∧ directory ∉ excludedDirectories ∧
      ∀ rule ∈ walk.rules, rule.excludes (relativeText (start ++ above ++ [directory])) true = false

theorem admitsFile_iff (walk : Walk) (names : List String) (name : String) :
    walk.admitsFile names name = true ↔
      (walk.extensions = [] ∨ ∃ extension ∈ walk.extensions, Text.endsWith name extension = true) ∧
        ∀ rule ∈ walk.rules, rule.excludes (relativeText (names ++ [name])) false = false := by
  simp [admitsFile, ignores]

theorem entersDirectory_iff (walk : Walk) (names : List String) (name : String) :
    walk.entersDirectory names name = true ↔
      Text.startsWith name "." = false ∧ name ∉ excludedDirectories ∧
        ∀ rule ∈ walk.rules, rule.excludes (relativeText (names ++ [name])) true = false := by
  simp only [entersDirectory, ignores, Bool.and_eq_true, Bool.not_eq_true', contains_eq_mem,
    decide_eq_false_iff_not, any_eq_false, Bool.not_eq_true]
  grind

theorem admits_own : walk.Admits start [] name ↔ walk.admitsFile start name = true := by
  rw [admitsFile_iff]
  constructor
  · intro admits
    exact ⟨admits.extension, by simpa using admits.unmatched⟩
  · rintro ⟨extension, unmatched⟩
    exact ⟨extension, by simpa using unmatched, by simp⟩

theorem admits_deeper {directory : String} :
    walk.Admits start (directory :: directories) name ↔
      walk.entersDirectory start directory = true ∧ walk.Admits (start ++ [directory]) directories name := by
  rw [entersDirectory_iff]
  constructor
  · rintro ⟨extension, unmatched, entered⟩
    refine ⟨by simpa using entered [] directory (by simp), extension, by simpa using unmatched, ?_⟩
    intro above inner within
    have further := entered (directory :: above) inner (by simpa using within)
    simpa using further
  · rintro ⟨first, extension, unmatched, entered⟩
    refine ⟨extension, by simpa using unmatched, ?_⟩
    intro above inner within
    cases above with
    | nil =>
      obtain rfl : inner = directory := by simpa using within
      simpa using first
    | cons other above =>
      obtain ⟨rfl, deeper⟩ := cons_prefix_cons.1 within
      simpa using entered above inner deeper

theorem mem_of_yields (yields : walk.Yields names tree found) : found ∈ walk.below names tree := by
  induction yields with
  | @own names entries name content member admits =>
    apply mem_append_left
    exact mem_map.2 ⟨(name, .file content), mem_filter.2 ⟨member, by simp [isDirectory, admits]⟩, rfl⟩
  | @deeper names found entries name entry member enters _ ih =>
    rw [below, belowAll_eq]
    apply mem_append_right
    exact mem_flatMap.2 ⟨(name, entry), member, by simpa [enters] using ih⟩

theorem yields_of_admits (found : tree.get? (directories ++ [name]) = some (.file content))
    (admits : walk.Admits names directories name) :
    walk.Yields names tree (names ++ directories ++ [name]) := by
  induction directories generalizing names tree with
  | nil =>
    cases tree with
    | file _ => cases found
    | directory entries =>
      rw [nil_append, get?_directory] at found
      obtain ⟨entry, here, whole⟩ := Option.bind_eq_some_iff.1 found
      cases whole
      simpa using Yields.own (mem_of_findIn here) (admits_own.1 admits)
  | cons directory directories ih =>
    obtain ⟨enters, further⟩ := admits_deeper.1 admits
    cases tree with
    | file _ => cases found
    | directory entries =>
      rw [cons_append, get?_directory] at found
      obtain ⟨entry, here, deeper⟩ := Option.bind_eq_some_iff.1 found
      have inside := ih deeper further
      rw [append_assoc names [directory]] at inside
      exact .deeper (mem_of_findIn here) enters inside

theorem Yields.admits (yields : walk.Yields names tree found) (tidy : tree.tidy = true) :
    ∃ directories name content, found = names ++ directories ++ [name] ∧
      tree.get? (directories ++ [name]) = some (.file content) ∧ walk.Admits names directories name := by
  induction yields with
  | @own names entries name content member admits =>
    have here := findIn_of_mem (Entry.tidy_directory.1 tidy).2 member
    exact ⟨[], name, content, by simp, by simp [get?_directory, here], admits_own.2 admits⟩
  | @deeper names found entries directory entry member enters _ ih =>
    obtain ⟨each, ordered⟩ := Entry.tidy_directory.1 tidy
    obtain ⟨directories, name, content, rfl, inner, admits⟩ := ih (each _ member).2
    have here := findIn_of_mem ordered member
    refine ⟨directory :: directories, name, content, by simp, ?_, admits_deeper.2 ⟨enters, admits⟩⟩
    simpa [get?_directory, here] using inner

theorem mem_below_iff (walk : Walk) (names : List String) (tidy : tree.tidy = true) :
    found ∈ walk.below names tree ↔ ∃ directories name content, found = names ++ directories ++ [name] ∧
      tree.get? (directories ++ [name]) = some (.file content) ∧ walk.Admits names directories name := by
  constructor
  · intro member
    exact (yields_of_mem walk names tree found member).admits tidy
  · rintro ⟨directories, name, content, rfl, inner, admits⟩
    exact mem_of_yields (yields_of_admits inner admits)

/-- Whether a file is yielded before another one, both given by the names that lead to them from a common
    directory: a file of the directory goes first, and otherwise the names decide. -/
def precedes : List String → List String → Bool
  | [first], [second] => first < second
  | [_], _ :: _ :: _ => true
  | first :: next :: rest, second :: other :: others =>
    first < second || (first = second && precedes (next :: rest) (other :: others))
  | _, _ => false

theorem precedes_asymm (before : precedes left right = true) : precedes right left = false := by
  fun_induction precedes left right with
  | case1 first second =>
    have less : first < second := by simpa using before
    simpa [precedes] using String.lt_asymm less
  | case2 => rfl
  | case3 first next rest second other others ih =>
    rw [precedes]
    simp only [Bool.or_eq_true, Bool.and_eq_true, decide_eq_true_eq] at before
    rcases before with less | ⟨rfl, deeper⟩
    · have different : second ≠ first := fun same => String.lt_irrefl _ (same ▸ less)
      simp [different, String.lt_asymm less]
    · simp [ih deeper]
  | case4 => cases before

theorem precedes_cons (before : precedes left right = true) :
    precedes (name :: left) (name :: right) = true := by
  cases left with
  | nil => simp [precedes] at before
  | cons first rest =>
    cases right with
    | nil => simp [precedes] at before
    | cons second others => simp [precedes, before]

/-- Two files in the order of a walk that starts at a place. -/
def Before (start left right : List String) : Prop :=
  ∃ first second, left = start ++ first ∧ right = start ++ second ∧ precedes first second = true

theorem Before.outer (before : Before (start ++ [name]) left right) : Before start left right := by
  obtain ⟨first, second, rfl, rfl, ahead⟩ := before
  exact ⟨name :: first, name :: second, by simp, by simp, precedes_cons ahead⟩

theorem Before.asymm (before : Before start left right) (back : Before start right left) : False := by
  obtain ⟨first, second, rfl, rfl, ahead⟩ := before
  obtain ⟨secondBack, firstBack, same, sameBack, behind⟩ := back
  rw [append_cancel_left same, append_cancel_left sameBack] at ahead
  exact absurd (precedes_asymm ahead) (by simp [behind])

theorem ownFiles_ordered (walk : Walk) (names : List String) {entries : List (String × Entry)}
    (ordered : entries.Pairwise (fun first second => first.1 < second.1)) :
    (walk.ownFiles names entries).Pairwise (Before names) := by
  refine (ordered.filter _).map _ (fun first second less => ?_)
  exact ⟨[first.1], [second.1], rfl, rfl, by simpa [precedes] using less⟩

theorem below_ordered (walk : Walk) (names : List String) : {tree : Entry} → tree.tidy = true →
    (walk.below names tree).Pairwise (Before names)
  | .file _, _ => by simp [below]
  | .directory entries, tidy => by
      obtain ⟨each, ordered⟩ := Entry.tidy_directory.1 tidy
      rw [below, pairwise_append]
      refine ⟨walk.ownFiles_ordered names ordered, ?_, ?_⟩
      · rw [belowAll_eq, pairwise_flatMap]
        constructor
        · intro item member
          split
          · exact (below_ordered walk (names ++ [item.1]) (each item member).2).imp Before.outer
          · exact List.Pairwise.nil
        · refine ordered.imp (fun {first second} less left here right there => ?_)
          obtain ⟨next, rest, rfl⟩ := starts_of_entered here
          obtain ⟨other, others, rfl⟩ := starts_of_entered there
          exact ⟨_, _, rfl, rfl, by simp [precedes, less]⟩
      · intro file own other deeper
        obtain ⟨item, _, rfl⟩ := mem_map.1 own
        obtain ⟨directory, _, next, rest, rfl⟩ := belowAll_starts walk names entries other deeper
        exact ⟨_, _, rfl, rfl, rfl⟩
termination_by tree => sizeOf tree
decreasing_by
  have := sizeOf_lt_of_mem member
  obtain ⟨name, entry⟩ := item
  simp at this ⊢
  omega

theorem Admits.fewer (more : walk.rules ⊆ rules) (admits : Admits { walk with rules := rules } start directories name) :
    walk.Admits start directories name := by
  refine ⟨admits.extension, fun rule listed => admits.unmatched rule (more listed), ?_⟩
  intro above directory within
  obtain ⟨visible, kept, unmatched⟩ := admits.entered above directory within
  exact ⟨visible, kept, fun rule listed => unmatched rule (more listed)⟩

theorem below_sublist (more : walk.rules ⊆ rules) (tidy : tree.tidy = true) :
    (below { walk with rules := rules } names tree).Sublist (walk.below names tree) := by
  have antisymm : Std.Antisymm (Before names) := ⟨fun _ _ before back => (before.asymm back).elim⟩
  -- both lists are in the same strict order, so that membership alone decides
  apply sublist_of_subperm_of_pairwise _ (below_ordered _ names tidy) (below_ordered walk names tidy)
  apply subperm_of_subset (below_nodup _ names tidy)
  intro file member
  obtain ⟨directories, name, content, is, inner, admits⟩ := (mem_below_iff _ names tidy).1 member
  exact (mem_below_iff walk names tidy).2 ⟨directories, name, content, is, inner, admits.fewer more⟩

end Walk

theorem Disk.isFile_below {disk : Disk} {path : Path} {names : List String}
    (there : disk.entry? path = some tree) (plain : ".." ∉ names) (inner : tree.get? names = some (.file content)) :
    disk.isFile (path.below names) = true := by
  obtain ⟨place, located, held⟩ := entry?_some.1 there
  have stands : disk.at? (place ++ names) = some (.file content) := by
    apply Entry.at?_file.2
    rw [get?_append, held]
    exact inner
  refine isFile_iff.2 ⟨place ++ names, content, ?_, stands⟩
  unfold locate at located ⊢
  rw [absoluteNames_below, locateFrom_append, located]
  exact locateFrom_plain plain (by rw [at?] at stands; simp [stands])

theorem Disk.name_of_isFile {disk : Disk} {path : Path} {name : String} (is : disk.isFile (path.child name) = true) :
    name ≠ ".." := by
  obtain ⟨place, content, located, stands⟩ := isFile_iff.1 is
  obtain ⟨above, _, directory, rfl⟩ := locate_child_ok located
  rintro rfl
  have notDirectory : disk.at? (advance above "..") ≠ some .directory := by simp [stands]
  have longer := congrArg List.length (DiskAction.advance_of_notDirectory directory notDirectory)
  simp only [advance, if_true, length_dropLast, length_append, length_singleton] at longer
  omega

namespace Walk

variable {start : List String} {disk : Disk} {base : Path}

section

variable {walk : Walk} {directories : List String} {name : String} (admits : walk.Admits start directories name)
include admits

theorem plain_of_entered : ".." ∉ directories := by
  intro member
  obtain ⟨above, after, rfl⟩ := append_of_mem member
  obtain ⟨visible, _⟩ := admits.entered above ".." ⟨after, by simp⟩
  exact absurd visible (by decide)

theorem Admits.reached (is : disk.isFile (base.below (start ++ directories ++ [name])) = true) :
    ∃ tree content, disk.entry? (base.below start) = some tree ∧
      tree.get? (directories ++ [name]) = some (.file content) := by
  -- the directories are entered by name, but nothing is known of the last name except that it leads to a file
  have last : name ≠ ".." := by
    apply @Disk.name_of_isFile disk (base.below (start ++ directories))
    simpa [Path.below, Path.child] using is
  have plain : ".." ∉ directories ++ [name] := by
    simpa [plain_of_entered admits] using Ne.symm last
  have whole : base.below (start ++ directories ++ [name]) = (base.below start).below (directories ++ [name]) := by
    simp [Path.below]
  obtain ⟨entry, found, isFile⟩ := (Option.any_eq_true _ _).1 is
  obtain ⟨tree, there, inner⟩ := Disk.entry_of_below plain (whole ▸ found)
  cases entry with
  | directory entries => cases isFile
  | file content => exact ⟨tree, content, there, inner⟩

end

theorem mem_files_iff (tidy : disk.root.tidy = true) (walk : Walk)
    (there : disk.entry? (base.below start) = some tree) (path : Path) :
    path ∈ (walk.below start tree).map base.below ↔ ∃ directories name,
      path = base.below (start ++ directories ++ [name]) ∧ disk.isFile path = true ∧
        walk.Admits start directories name := by
  obtain ⟨place, _, held⟩ := Disk.entry?_some.1 there
  have tidyTree := tidy_get? tidy held
  rw [mem_map]
  constructor
  · rintro ⟨file, member, rfl⟩
    obtain ⟨directories, name, content, rfl, inner, admits⟩ := (mem_below_iff walk start tidyTree).1 member
    refine ⟨directories, name, rfl, ?_, admits⟩
    have plain := (get?_descends (· ≠ "..") (fun directory => (Entry.tidy_directory.1 directory).1) tidyTree
      inner).1
    have is := Disk.isFile_below there (fun dots => plain _ dots rfl) inner
    simpa [Path.below] using is
  · rintro ⟨directories, name, rfl, is, admits⟩
    obtain ⟨reached, content, thereToo, inner⟩ := admits.reached is
    cases there.symm.trans thereToo
    exact ⟨_, (mem_below_iff walk start tidyTree).2 ⟨directories, name, content, rfl, inner, admits⟩, rfl⟩

theorem files_nowhere (walk : Walk) (missing : disk.entry? (base.below start) = none) :
    walk.files disk (base.below start) base = .ok [] := by
  rw [files, missing]

/-- A walk from a directory at or below its base yields the admitted files, each of them once and in the order of a
walk; more rules take files away and leave the others in their order. -/
theorem files_exact {disk : Disk} (tidy : disk.root.tidy = true) (walk : Walk) (base : Path) (start : List String) :
    ∃ found, walk.files disk (base.below start) base = .ok found ∧ found.Nodup ∧
      (∀ path, path ∈ found ↔ ∃ directories name, path = base.below (start ++ directories ++ [name]) ∧
        disk.isFile path = true ∧ walk.Admits start directories name) ∧
      found.Pairwise (fun left right => ∃ first second, left = (base.below start).below first ∧
        right = (base.below start).below second ∧ precedes first second = true) ∧
      ∀ rules, walk.rules ⊆ rules → ∃ fewer,
        files { walk with rules := rules } disk (base.below start) base = .ok fewer ∧ fewer.Sublist found := by
  cases there : disk.entry? (base.below start) with
  | none =>
    refine ⟨[], walk.files_nowhere there, nodup_nil, fun path => ?_, List.Pairwise.nil, fun rules _ => ?_⟩
    · simp only [not_mem_nil, false_iff]
      rintro ⟨directories, name, rfl, is, admits⟩
      obtain ⟨tree, _, thereToo, _⟩ := admits.reached is
      cases there.symm.trans thereToo
    · exact ⟨[], files_nowhere _ there, List.Sublist.refl []⟩
  | some tree =>
    obtain ⟨place, _, held⟩ := Disk.entry?_some.1 there
    have tidyTree := tidy_get? tidy held
    have injective : Function.Injective base.below := fun left right same => by simpa [Path.below] using same
    refine ⟨_, walk.files_below there, (walk.below_nodup start tidyTree).map injective, walk.mem_files_iff tidy there,
      ?_, fun rules more => ?_⟩
    · refine (walk.below_ordered start tidyTree).map _ (fun left right before => ?_)
      obtain ⟨first, second, rfl, rfl, ahead⟩ := before
      exact ⟨first, second, by simp [Path.below], by simp [Path.below], ahead⟩
    · exact ⟨_, files_below _ there, (below_sublist more tidyTree).map base.below⟩

/-- The files of a layered project that are neither drafts, generated nor of the old kind. -/
def layeredFiles : List Path :=
  [["App.tsx"], ["ui", "Button.tsx"], ["ui", "forms", "Field.tsx"]].map (layeredProject.below ["src"]).below

theorem files_exact_layered :
    layeredDisk.root.tidy = true ∧
      layeredWalk.files layeredDisk (layeredProject.below ["src"]) layeredProject = .ok layeredFiles ∧
      layeredFiles.Nodup ∧
      (∀ path, path ∈ layeredFiles ↔ ∃ directories name,
        path = layeredProject.below (["src"] ++ directories ++ [name]) ∧ layeredDisk.isFile path = true ∧
          layeredWalk.Admits ["src"] directories name) ∧
      ∃ fewer, files { layeredWalk with rules := IgnoreRule.ofPatterns ["ui/"] ++ layeredWalk.rules } layeredDisk
        (layeredProject.below ["src"]) layeredProject = .ok fewer ∧ fewer.Sublist layeredFiles := by
  have tidy : layeredDisk.root.tidy = true := by decide +kernel
  have started : layeredWalk.files layeredDisk (layeredProject.below ["src"]) layeredProject = .ok layeredFiles := by
    decide +kernel
  obtain ⟨found, walked, once, yields, _, fewer⟩ := files_exact tidy layeredWalk layeredProject ["src"]
  obtain rfl : found = layeredFiles := Except.ok.inj (walked.symm.trans started)
  exact ⟨tidy, started, once, yields, fewer _ (subset_append_right _ _)⟩

end Walk
end Refit
