import Mathlib.Data.List.Nodup
import Refit.Files.Walk
import Refit.Proofs.Files.Disk
import Refit.Proofs.Text.Pieces

/-!
Walks through a project. A walk yields no file twice. A walk that starts in a directory of the project
yields the files of the whole walk that are under this directory, in the same order, unless a rule
matches the directory where the walk starts or one that leads there: the walk does not ask about those.
-/

open List

namespace Refit

open Entry

variable {names : List String}

namespace IgnoreRule

variable {above : List String}

/-- A rule that is held against single names, of files and directories alike. -/
def isBare (rule : IgnoreRule) : Bool := !rule.directoryOnly && !rule.anchored && !rule.hasSlash

/-- Whether the rule matches the directory that names lead to, or one on the way to it. -/
def closes (rule : IgnoreRule) (names : List String) : Bool :=
  (List.range names.length).any (fun count => rule.excludes (Walk.relativeText (names.take (count + 1))) true)

theorem closes_iff (rule : IgnoreRule) (names : List String) :
    rule.closes names = true ↔
      ∃ above, above ≠ [] ∧ above <+: names ∧ rule.excludes (Walk.relativeText above) true = true := by
  simp only [closes, any_eq_true, mem_range]
  constructor
  · rintro ⟨count, inside, matched⟩
    refine ⟨names.take (count + 1), ?_, take_prefix _ _, matched⟩
    have some : names ≠ [] := ne_nil_of_length_pos (by omega)
    simpa using some
  · rintro ⟨above, some, before, matched⟩
    have size := length_pos_of_ne_nil some
    refine ⟨above.length - 1, by have := before.length_le; omega, ?_⟩
    rw [Nat.sub_add_cancel size, ← prefix_iff_eq_take.1 before]
    exact matched

theorem split_relativeText (some : above ≠ []) (more : List String) :
    Text.split '/' (Walk.relativeText above) <+: Text.split '/' (Walk.relativeText (above ++ more)) := by
  cases more with
  | nil => simp
  | cons name rest =>
    have joined : (Walk.relativeText (above ++ name :: rest)).toList =
        (Walk.relativeText above).toList ++ '/' :: (Walk.relativeText (name :: rest)).toList := by
      rw [Walk.relativeText, String.intercalate_append_of_ne_nil some (by simp)]
      simp [Walk.relativeText]
    rw [Text.split, Text.split, joined, Text.splitChars_at _ _ (by simp), map_append]
    exact prefix_append _ _

theorem excludes_below (rule : IgnoreRule) (bare : rule.isBare = true) (some : above ≠ [])
    (matched : rule.excludes (Walk.relativeText above) true = true) (more : List String) (isDirectory : Bool) :
    rule.excludes (Walk.relativeText (above ++ more)) isDirectory = true := by
  simp only [isBare, Bool.and_eq_true, Bool.not_eq_true'] at bare
  obtain ⟨⟨both, loose⟩, single⟩ := bare
  simp only [excludes, both, loose, single, Bool.false_eq_true, if_false] at matched ⊢
  split at matched
  · cases matched
  · next pattern =>
      obtain ⟨piece, member, fits⟩ := any_eq_true.1 matched
      rw [if_neg pattern]
      exact any_eq_true.2 ⟨piece, (split_relativeText some more).subset member, fits⟩

end IgnoreRule

namespace Walk

variable {walk : Walk} {names found : List String} {tree child : Entry} {name : String}
  {entries : List (String × Entry)}

theorem belowAll_eq (walk : Walk) (names : List String) (entries : List (String × Entry)) :
    walk.belowAll names entries = entries.flatMap (fun item =>
      if walk.entersDirectory names item.1 then walk.below (names ++ [item.1]) item.2 else []) := by
  induction entries with
  | nil => rfl
  | cons item rest ih => rw [belowAll, ih, flatMap_cons]

/-- A walk comes upon a file: in the directory itself, or in one that it enters. -/
inductive Yields (walk : Walk) : List String → Entry → List String → Prop
  | own {names : List String} {entries : List (String × Entry)} {name : String} {content : List UInt8}
      (member : (name, .file content) ∈ entries) (admits : walk.admitsFile names name = true) :
      Yields walk names (.directory entries) (names ++ [name])
  | deeper {names found : List String} {entries : List (String × Entry)} {name : String} {entry : Entry}
      (member : (name, entry) ∈ entries) (enters : walk.entersDirectory names name = true)
      (inside : Yields walk (names ++ [name]) entry found) : Yields walk names (.directory entries) found

theorem yields_of_mem (walk : Walk) (names : List String) : (tree : Entry) →
    ∀ found ∈ walk.below names tree, walk.Yields names tree found
  | .file _, found, member => by simp [below] at member
  | .directory entries, found, member => by
      rw [below, belowAll_eq] at member
      rcases mem_append.1 member with own | deeper
      · obtain ⟨⟨name, entry⟩, kept, rfl⟩ := mem_map.1 own
        obtain ⟨present, isFile⟩ := mem_filter.1 kept
        cases entry with
        | directory _ => simp [Entry.isDirectory] at isFile
        | file content => exact .own present (Bool.and_eq_true_iff.1 isFile).2
      · obtain ⟨⟨name, entry⟩, present, inside⟩ := mem_flatMap.1 deeper
        split at inside
        · next enters => exact .deeper present enters (yields_of_mem walk _ entry found inside)
        · cases inside
termination_by tree => sizeOf tree
decreasing_by
  have := sizeOf_lt_of_mem present
  simp at this ⊢
  omega

theorem Yields.starts (yields : walk.Yields names tree found) : ∃ name rest, found = names ++ name :: rest := by
  induction yields with
  | @own _ _ name _ _ _ => exact ⟨name, [], rfl⟩
  | @deeper _ _ _ name _ _ _ _ ih =>
    obtain ⟨next, rest, rfl⟩ := ih
    exact ⟨name, next :: rest, by simp⟩

theorem Yields.admitted (yields : walk.Yields names tree found) :
    ignores walk.rules (relativeText found) false = false := by
  induction yields with
  | own _ admits =>
    simp only [admitsFile, Bool.and_eq_true, Bool.not_eq_true'] at admits
    exact admits.2
  | deeper _ _ _ ih => exact ih

theorem Yields.there (yields : walk.Yields names tree found) (tidy : tree.tidy = true) :
    ∃ rest content, found = names ++ rest ∧ tree.get? rest = some (.file content) := by
  induction yields with
  | @own _ _ name content member _ =>
    refine ⟨[name], content, rfl, ?_⟩
    rw [get?_directory, findIn_of_mem (Entry.tidy_directory.1 tidy).2 member]
    rfl
  | @deeper _ _ _ name entry member _ _ ih =>
    obtain ⟨each, ordered⟩ := Entry.tidy_directory.1 tidy
    obtain ⟨rest, content, rfl, holds⟩ := ih (each _ member).2
    refine ⟨name :: rest, content, by simp, ?_⟩
    rw [get?_directory, findIn_of_mem ordered member]
    exact holds

theorem starts_of_entered {walk : Walk} {names found : List String} {item : String × Entry}
    (inside : found ∈ if walk.entersDirectory names item.1 then walk.below (names ++ [item.1]) item.2 else []) :
    ∃ next rest, found = names ++ item.1 :: next :: rest := by
  split at inside
  · obtain ⟨next, rest, rfl⟩ := (yields_of_mem walk _ item.2 found inside).starts
    exact ⟨next, rest, by simp⟩
  · cases inside

theorem belowAll_starts (walk : Walk) (names : List String) (entries : List (String × Entry)) :
    ∀ found ∈ walk.belowAll names entries, ∃ item ∈ entries, ∃ next rest, found = names ++ item.1 :: next :: rest := by
  intro found member
  rw [belowAll_eq] at member
  obtain ⟨item, present, inside⟩ := mem_flatMap.1 member
  exact ⟨item, present, starts_of_entered inside⟩

theorem below_nodup (walk : Walk) (names : List String) : {tree : Entry} → tree.tidy = true →
    (walk.below names tree).Nodup
  | .file _, _ => by simp [below]
  | .directory entries, tidy => by
      obtain ⟨each, ordered⟩ := Entry.tidy_directory.1 tidy
      have own : (walk.ownFiles names entries).Nodup := by
        refine (ordered.filter _).map _ (fun left right before same => ?_)
        have equal : left.1 = right.1 := by simpa using same
        exact String.lt_irrefl _ (equal ▸ before)
      have deeper : (walk.belowAll names entries).Nodup := by
        rw [belowAll_eq]
        refine nodup_flatMap.2 ⟨fun item member => ?_, ordered.imp (fun {left right} before found here there => ?_)⟩
        · split
          · exact below_nodup walk _ (each item member).2
          · exact nodup_nil
        · obtain ⟨next, rest, rfl⟩ := starts_of_entered here
          obtain ⟨_, _, equal⟩ := starts_of_entered there
          have equalName : left.1 = right.1 := by simpa using congrArg (fun found => found[names.length]?) equal
          exact String.lt_irrefl _ (equalName ▸ before)
      refine nodup_append.2 ⟨own, deeper, ?_⟩
      intro found inOwn other deeper same
      obtain ⟨item, _, rfl⟩ := mem_map.1 inOwn
      obtain ⟨_, _, next, rest, rfl⟩ := belowAll_starts walk names entries other deeper
      have lengths := congrArg List.length same
      simp at lengths
decreasing_by
  have := sizeOf_lt_of_mem member
  obtain ⟨name, entry⟩ := item
  simp at this ⊢
  omega

/-- A name that a walk enters unless a rule matches it. -/
def isVisible (name : String) : Bool := !excludedDirectories.contains name && !Text.startsWith name "."

theorem filter_beside {start rest : List String} {files : List (List String)}
    (beside : ∀ file ∈ files, ∃ other more, other ≠ name ∧ file = start ++ other :: more) :
    files.filter (fun file => (start ++ name :: rest).isPrefixOf file) = [] := by
  refine filter_eq_nil_iff.2 (fun file member under => ?_)
  obtain ⟨other, more, different, rfl⟩ := beside file member
  have start := isPrefixOf_iff_prefix.1 under
  rw [prefix_append_right_inj, cons_prefix_cons] at start
  exact different start.1.symm

theorem belowAll_under (walk : Walk) (start rest : List String)
    (ordered : entries.Pairwise (fun left right => left.1 < right.1))
    (found : findIn name entries = some child) :
    (walk.belowAll start entries).filter (fun file => (start ++ name :: rest).isPrefixOf file) =
      if walk.entersDirectory start name then
        (walk.below (start ++ [name]) child).filter (fun file => (start ++ name :: rest).isPrefixOf file)
      else [] := by
  induction entries with
  | nil => cases found
  | cons item others ih =>
    obtain ⟨first, entry⟩ := item
    obtain ⟨ahead, ordered⟩ := pairwise_cons.1 ordered
    rw [belowAll, filter_append]
    rw [findIn] at found
    split at found
    · next same =>
        cases found
        subst same
        have later : ∀ file ∈ walk.belowAll start others,
            ∃ other more, other ≠ first ∧ file = start ++ other :: more := by
          intro file member
          obtain ⟨item, present, next, more, rfl⟩ := belowAll_starts walk start others file member
          exact ⟨item.1, next :: more, fun same => String.lt_irrefl _ (same ▸ ahead item present), rfl⟩
        rw [filter_beside later, append_nil]
        split <;> rfl
    · next different =>
        rw [filter_beside, nil_append, ih ordered found]
        intro file member
        obtain ⟨next, more, rfl⟩ := @starts_of_entered _ _ _ (first, entry) member
        exact ⟨first, next :: more, different, rfl⟩

/-- A directory is no file, so no file that stands beside it is under it. -/
theorem ownFiles_under (walk : Walk) (start rest : List String)
    (ordered : entries.Pairwise (fun left right => left.1 < right.1))
    (found : findIn name entries = some child) (inner : child.at? rest = some .directory) :
    (walk.ownFiles start entries).filter (fun file => (start ++ name :: rest).isPrefixOf file) = [] := by
  refine filter_beside (fun file member => ?_)
  obtain ⟨⟨other, entry⟩, kept, rfl⟩ := mem_map.1 member
  obtain ⟨present, isFile⟩ := mem_filter.1 kept
  refine ⟨other, [], fun same => ?_, rfl⟩
  subst same
  obtain rfl : entry = child := Option.some.inj ((findIn_of_mem ordered present).symm.trans found)
  cases entry with
  | directory _ => simp [Entry.isDirectory] at isFile
  | file content => cases rest <;> simp [at?, Entry.standing, get?_file] at inner

def isClosed (walk : Walk) (start : List String) : List String → Bool
  | [] => false
  | name :: rest => ignores walk.rules (relativeText (start ++ [name])) true || walk.isClosed (start ++ [name]) rest

theorem below_under (walk : Walk) (start : List String) (tidy : tree.tidy = true)
    (visible : ∀ name ∈ names, isVisible name = true) (found : tree.get? names = some child)
    (inner : child.standing = .directory) :
    (walk.below start tree).filter (fun file => (start ++ names).isPrefixOf file) =
      if walk.isClosed start names then [] else walk.below (start ++ names) child := by
  induction names generalizing start tree with
  | nil =>
    cases found
    simp only [append_nil]
    refine filter_eq_self.2 (fun file member => ?_)
    obtain ⟨name, rest, rfl⟩ := (yields_of_mem walk start child file member).starts
    exact isPrefixOf_iff_prefix.2 (prefix_append _ _)
  | cons name rest ih =>
    cases tree with
    | file content => cases found
    | directory entries =>
      obtain ⟨each, ordered⟩ := Entry.tidy_directory.1 tidy
      rw [get?_directory] at found
      obtain ⟨entry, here, deeper⟩ := Option.bind_eq_some_iff.1 found
      have standing : entry.at? rest = some .directory := by rw [at?, deeper, Option.map_some, inner]
      have further := ih (start ++ [name]) (each _ (mem_of_findIn here)).2
        (fun other member => visible other (by simp [member])) deeper
      have shown : isVisible name = true := visible name (by simp)
      have enters : walk.entersDirectory start name =
          !ignores walk.rules (relativeText (start ++ [name])) true := by
        unfold entersDirectory
        rw [← isVisible, shown, Bool.true_and]
      rw [below, filter_append, ownFiles_under walk start rest ordered here standing, nil_append,
        belowAll_under walk start rest ordered here, enters, isClosed]
      simp only [append_assoc, singleton_append] at further
      rw [further]
      cases ignores walk.rules (relativeText (start ++ [name])) true <;> simp

theorem below_bare (walk : Walk) {rule : IgnoreRule} (listed : rule ∈ walk.rules) (bare : rule.isBare = true)
    (closes : rule.closes names = true) (tree : Entry) : walk.below names tree = [] := by
  refine eq_nil_iff_forall_not_mem.2 (fun file member => ?_)
  obtain ⟨name, rest, rfl⟩ := (yields_of_mem walk names tree file member).starts
  have admitted := (yields_of_mem walk names tree _ member).admitted
  obtain ⟨above, some, ⟨between, rfl⟩, matched⟩ := (rule.closes_iff names).1 closes
  have still : rule.excludes (relativeText (above ++ between ++ name :: rest)) false = true := by
    rw [append_assoc]
    exact rule.excludes_below bare some matched _ false
  rw [ignores, any_eq_false] at admitted
  exact admitted rule listed still

theorem isClosed_iff (walk : Walk) (start names : List String) :
    walk.isClosed start names = true ↔ ∃ rule ∈ walk.rules, ∃ above, above ≠ [] ∧ above <+: names ∧
      rule.excludes (relativeText (start ++ above)) true = true := by
  induction names generalizing start with
  | nil => simp [isClosed]
  | cons name rest ih =>
    rw [isClosed, Bool.or_eq_true, ih, ignores, any_eq_true]
    constructor
    · rintro (⟨rule, listed, matched⟩ | ⟨rule, listed, above, _, before, matched⟩)
      · exact ⟨rule, listed, [name], by simp, by simp, matched⟩
      · exact ⟨rule, listed, name :: above, by simp, by simpa using before, by simpa using matched⟩
    · rintro ⟨rule, listed, above, some, before, matched⟩
      cases above with
      | nil => exact absurd rfl some
      | cons first others =>
        obtain ⟨rfl, within⟩ := cons_prefix_cons.1 before
        cases others with
        | nil => exact .inl ⟨rule, listed, matched⟩
        | cons next more => exact .inr ⟨rule, listed, next :: more, by simp, within, by simpa using matched⟩

end Walk

/-- The path leads to the directory or to something in it. -/
def Path.isUnder (path directory : Path) : Bool := (path.relativeTo? directory).isSome

@[simp] theorem Path.relativeTo?_below (base : Path) (names : List String) :
    (base.below names).relativeTo? base = some names := by
  simp [relativeTo?, below]

theorem Path.isUnder_below (base : Path) (file names : List String) :
    (base.below file).isUnder (base.below names) = names.isPrefixOf file := by
  rw [Bool.eq_iff_iff]
  simp [isUnder, relativeTo?, below]

theorem Disk.entry_of_below {disk : Disk} {base : Path} {entry : Entry} (plain : ".." ∉ names)
    (found : disk.entry? (base.below names) = some entry) :
    ∃ tree, disk.entry? base = some tree ∧ tree.get? names = some entry := by
  obtain ⟨place, located, holds⟩ := entry?_some.1 found
  unfold locate at located
  rw [absoluteNames_below, locateFrom_append] at located
  cases start : locateFrom disk.root [] (disk.absoluteNames base) with
  | error refusal => simp [start] at located
  | ok above =>
    rw [start] at located
    obtain rfl : place = above ++ names := by
      rw [eq_flatten_of_locateFrom located, flatten_plain plain]
    rw [get?_append] at holds
    obtain ⟨tree, here, inner⟩ := Option.bind_eq_some_iff.1 holds
    exact ⟨tree, entry?_some.2 ⟨above, start, here⟩, inner⟩

namespace Walk

theorem visible_down (visible : ∀ name ∈ names, isVisible name = true) : ".." ∉ names := by
  intro member
  exact absurd (visible ".." member) (by decide)

theorem files_below {disk : Disk} (walk : Walk) {base : Path} {names : List String} {tree : Entry}
    (found : disk.entry? (base.below names) = some tree) :
    walk.files disk (base.below names) base = .ok ((walk.below names tree).map base.below) := by
  unfold files
  cases tree with
  | file content => simp [found, below]
  | directory entries => simp [found]

theorem filter_isUnder (base : Path) (names : List String) (files : List (List String)) :
    (files.map base.below).filter (·.isUnder (base.below names)) =
      (files.filter (fun file => names.isPrefixOf file)).map base.below := by
  rw [filter_map]
  congr 2
  funext file
  exact base.isUnder_below file names

/-- A walk through a directory of a project yields the files of the walk through the project that are under this
directory, in the same order, unless a rule other than one for single names matches the directory or one that
leads to it. Where any rule matches these, the walk through the project yields nothing of the directory. -/
theorem files_under {disk : Disk} (tidy : disk.root.tidy = true) (walk : Walk) (base : Path) {names : List String}
    (visible : ∀ name ∈ names, isVisible name = true) (there : disk.isDirectory (base.below names) = true) :
    ∃ whole part, walk.files disk base base = .ok whole ∧ walk.files disk (base.below names) base = .ok part ∧
      ((∀ rule ∈ walk.rules, rule.closes names = true → rule.isBare = true) →
        whole.filter (·.isUnder (base.below names)) = part) ∧
      ((∃ rule ∈ walk.rules, rule.closes names = true) → whole.filter (·.isUnder (base.below names)) = []) := by
  obtain ⟨child, found, isDirectory⟩ := (Option.any_eq_true _ _).1 there
  obtain ⟨tree, start, inner⟩ := Disk.entry_of_below (visible_down visible) found
  obtain ⟨place, _, holds⟩ := Disk.entry?_some.1 start
  have standing : child.standing = .directory := by
    cases child with
    | file content => cases isDirectory
    | directory entries => rfl
  have under := walk.below_under [] (tidy_get? tidy holds) visible inner standing
  have closed : walk.isClosed [] names = true ↔ ∃ rule ∈ walk.rules, rule.closes names = true := by
    simp only [walk.isClosed_iff, IgnoreRule.closes_iff, nil_append]
  have whole := @files_below disk walk base [] tree (by simpa [Path.below] using start)
  simp only [nil_append] at under
  refine ⟨_, _, by simpa [Path.below] using whole, walk.files_below found, fun loose => ?_, fun shut => ?_⟩
  · rw [filter_isUnder, under]
    split
    · next shut =>
        -- A rule for single names closes the directory to both walks.
        obtain ⟨rule, listed, closes⟩ := closed.1 shut
        rw [walk.below_bare listed (loose rule listed closes) closes]
    · rfl
  · rw [filter_isUnder, under, if_pos (closed.2 shut)]
    rfl

/-- Components, some of them generated and some of an old kind, beside a directory of drafts. -/
def layeredDisk : Disk :=
  let file : Entry := .file []
  ⟨.directory
    [("project", .directory
      [("src", .directory
        [("App.tsx", file),
         ("legacy", .directory [("Old.tsx", file), ("parts", .directory [("Older.tsx", file)])]),
         ("ui", .directory
          [("Button.generated.tsx", file), ("Button.tsx", file), ("drafts", .directory [("New.tsx", file)]),
           ("forms", .directory [("Field.css", file), ("Field.tsx", file)])])])])], [], []⟩

def layeredProject : Path := ⟨.slash, ["project"]⟩

def layeredWalk : Walk := ⟨[".tsx"], IgnoreRule.ofPatterns ["/src/legacy/", "*.generated.tsx", "drafts/", "ui.tsx"]⟩

theorem files_under_layered :
    (∀ rule ∈ layeredWalk.rules, rule.closes ["src", "ui"] = false) ∧
      ∃ whole, layeredWalk.files layeredDisk layeredProject layeredProject = .ok whole ∧
        whole.filter (·.isUnder (layeredProject.below ["src", "ui"])) =
          [["src", "ui", "Button.tsx"], ["src", "ui", "forms", "Field.tsx"]].map layeredProject.below := by
  have free : ∀ rule ∈ layeredWalk.rules, rule.closes ["src", "ui"] = false := by decide +kernel
  have started : layeredWalk.files layeredDisk (layeredProject.below ["src", "ui"]) layeredProject =
      .ok ([["src", "ui", "Button.tsx"], ["src", "ui", "forms", "Field.tsx"]].map layeredProject.below) := by
    decide +kernel
  obtain ⟨whole, part, walked, found, same, _⟩ := files_under (by decide +kernel : layeredDisk.root.tidy = true)
    layeredWalk layeredProject (by decide : ∀ name ∈ ["src", "ui"], isVisible name = true) (by decide +kernel)
  refine ⟨free, whole, walked, ?_⟩
  rw [same (fun rule listed closes => absurd closes (by simp [free rule listed]))]
  exact Except.ok.inj (found.symm.trans started)

/-- A walk that starts in an excluded directory yields the files that stand directly in it, which the walk through
the project does not reach. -/
theorem files_yield_excluded :
    layeredDisk.root.tidy = true ∧ (∀ name ∈ ["src", "legacy"], isVisible name = true) ∧
      layeredWalk.files layeredDisk (layeredProject.below ["src", "legacy"]) layeredProject =
        .ok [layeredProject.below ["src", "legacy", "Old.tsx"]] ∧
      (layeredWalk.files layeredDisk layeredProject layeredProject).map
          (·.filter (·.isUnder (layeredProject.below ["src", "legacy"]))) = .ok [] := by
  decide +kernel

end Walk
end Refit
