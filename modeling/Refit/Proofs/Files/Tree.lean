import Refit.Files.Entry

open List

namespace Refit

/-- What stands at a place, without what is in it. -/
inductive Standing where
  | file (content : List UInt8)
  | directory
  deriving DecidableEq

def Standing.isDirectory : Standing → Bool
  | file _ => false
  | directory => true

namespace Entry

variable {place rest probe : List String}

def standing : Entry → Standing
  | file content => .file content
  | directory _ => .directory

def at? (tree : Entry) (place : List String) : Option Standing := (tree.get? place).map standing

variable {tree new entry : Entry} {entries : List (String × Entry)} {name other : String}

@[simp] theorem get?_nil (tree : Entry) : tree.get? [] = some tree := rfl

theorem get?_file (content : List UInt8) (name : String) (rest : List String) :
    (file content).get? (name :: rest) = none := rfl

theorem get?_directory (entries : List (String × Entry)) (name : String) (rest : List String) :
    (directory entries).get? (name :: rest) = (findIn name entries).bind (·.get? rest) := by
  rw [get?]
  cases findIn name entries <;> rfl

theorem get?_append (tree : Entry) (first second : List String) :
    tree.get? (first ++ second) = (tree.get? first).bind (·.get? second) := by
  fun_induction get? tree first with
  | case1 => rfl
  | case2 => rfl
  | case3 entries name rest entry found ih => simp [get?_directory, found, ih]
  | case4 entries name rest missing => simp [get?_directory, missing]

theorem at?_append (tree : Entry) (first second : List String) :
    tree.at? (first ++ second) = (tree.get? first).bind (·.at? second) := by
  unfold at?
  rw [get?_append]
  cases tree.get? first <;> rfl

theorem at?_directory :
    tree.at? place = some .directory ↔ ∃ entries, tree.get? place = some (.directory entries) := by
  unfold at?
  cases tree.get? place with
  | none => simp
  | some entry => cases entry <;> simp [standing]

theorem at?_file {content : List UInt8} :
    tree.at? place = some (.file content) ↔ tree.get? place = some (.file content) := by
  unfold at?
  cases tree.get? place with
  | none => simp
  | some entry => cases entry <;> simp [standing]

theorem at?_above (nonempty : rest ≠ []) (stands : tree.at? (place ++ rest) ≠ none) :
    tree.at? place = some .directory := by
  rw [at?_append] at stands
  cases found : tree.get? place with
  | none => simp [found] at stands
  | some entry =>
    cases rest with
    | nil => exact absurd rfl nonempty
    | cons name others =>
      cases entry with
      | file content => simp [found, at?, get?_file] at stands
      | directory entries => exact at?_directory.2 ⟨entries, found⟩

theorem findIn_putIn (name other : String) (entry : Entry) (entries : List (String × Entry)) :
    findIn other (putIn name entry entries) = if other = name then some entry else findIn other entries := by
  induction entries with
  | nil => simp [putIn, findIn, eq_comm]
  | cons head rest ih =>
    simp only [putIn]
    split
    · next same => simp only [findIn]; grind
    · split
      · simp only [findIn]; grind
      · simp only [findIn]; grind

theorem at?_put_below {above : List String} (inside : tree.at? above = some .directory) (name : String)
    (new : Entry) (rest : List String) :
    (tree.put (above ++ [name]) new).at? (above ++ name :: rest) = new.at? rest := by
  fun_induction get? tree above with
  | case1 tree =>
    obtain ⟨entries, is⟩ := at?_directory.1 inside
    cases is
    simp [put, at?, get?_directory, findIn_putIn]
  | case2 => cases inside
  | case3 entries first others entry found ih =>
    have step := ih (by simpa [at?, get?_directory, found] using inside)
    cases others <;> simpa [put, found, at?, get?_directory, findIn_putIn] using step
  | case4 entries first others missing => simp [at?, get?_directory, missing] at inside

theorem get?_put_cases {place probe : List String} (apart : ¬ place <+: probe) :
    (tree.put place new).get? probe = tree.get? probe ∨
      probe <+: place ∧ tree.at? probe = some .directory ∧
        (tree.put place new).at? probe = some .directory := by
  fun_induction put tree place new generalizing probe with
  | case1 => exact absurd nil_prefix apart
  | case2 | case5 => exact .inl rfl
  | case3 entries name new =>
    cases probe with
    | nil => exact .inr ⟨ nil_prefix, rfl, rfl⟩
    | cons first others =>
      have different : first ≠ name := by simpa [eq_comm] using apart
      simp [get?_directory, findIn_putIn, different]
  | case4 entries name next rest new entry found ih =>
    cases probe with
    | nil => exact .inr ⟨ nil_prefix, rfl, rfl⟩
    | cons first others =>
      rw [cons_prefix_cons] at apart
      by_cases same : first = name
      · subst same
        have step := ih (fun within => apart ⟨rfl, within⟩)
        simpa [at?, get?_directory, findIn_putIn, found] using step
      · simp [get?_directory, findIn_putIn, same]

theorem at?_put_other (apart : ¬ place <+: probe) :
    (tree.put place new).at? probe = tree.at? probe := by
  rcases @get?_put_cases tree new place probe apart with same | ⟨_, before, after⟩
  · simp only [at?, same]
  · rw [before, after]

theorem get?_put_other (apart : ¬ place <+: probe) (beside : ¬ probe <+: place) :
    (tree.put place new).get? probe = tree.get? probe := by
  rcases @get?_put_cases tree new place probe apart with same | ⟨within, _⟩
  · exact same
  · exact absurd within beside

mutual

/-- The names in every directory are in order, and none is a double dot. -/
def tidy : Entry → Bool
  | file _ => true
  | directory entries => tidyAll entries

def tidyAll : List (String × Entry) → Bool
  | [] => true
  | (name, entry) :: rest =>
    name ≠ ".." && entry.tidy && rest.all (fun later => name < later.1) && tidyAll rest

end

theorem tidy_directory : (directory entries).tidy = true ↔ (∀ item ∈ entries, item.1 ≠ ".." ∧ item.2.tidy = true) ∧
      entries.Pairwise (fun first second => first.1 < second.1) := by
  rw [tidy]
  induction entries with
  | nil => simp [tidyAll]
  | cons item rest ih =>
    simp only [tidyAll, Bool.and_eq_true, ih, all_eq_true, decide_eq_true_eq, mem_cons,
      forall_eq_or_imp, pairwise_cons]
    grind

theorem mem_of_findIn (found : findIn name entries = some entry) : (name, entry) ∈ entries := by
  induction entries with
  | nil => cases found
  | cons item rest ih =>
    obtain ⟨first, present⟩ := item
    rw [findIn] at found
    split at found
    · next same =>
        cases found
        simp [same]
    · exact mem_cons_of_mem _ (ih found)

theorem findIn_of_mem (ordered : entries.Pairwise (fun first second => first.1 < second.1))
    (member : (name, entry) ∈ entries) : findIn name entries = some entry := by
  induction entries with
  | nil => cases member
  | cons item rest ih =>
    obtain ⟨before, ordered⟩ := pairwise_cons.1 ordered
    rcases mem_cons.1 member with rfl | member
    · simp [findIn]
    · have later := before _ member
      have different : item.1 ≠ name := fun same => String.lt_irrefl _ (same ▸ later)
      simp [findIn, different, ih ordered member]

theorem get?_descends {fine : Entry → Bool} (sound : String → Prop)
    (step : ∀ {entries}, fine (directory entries) = true → ∀ item ∈ entries, sound item.1 ∧ fine item.2 = true)
    (start : fine tree = true) (found : tree.get? place = some entry) :
    (∀ name ∈ place, sound name) ∧ fine entry = true := by
  induction place generalizing tree with
  | nil =>
    cases found
    exact ⟨by simp, start⟩
  | cons name rest ih =>
    cases tree with
    | file content => cases found
    | directory entries =>
      rw [get?_directory] at found
      obtain ⟨child, inner, deeper⟩ := Option.bind_eq_some_iff.1 found
      obtain ⟨first, childFine⟩ := step start _ (mem_of_findIn inner)
      obtain ⟨others, last⟩ := ih childFine deeper
      exact ⟨forall_mem_cons.2 ⟨first, others⟩, last⟩

theorem tidy_get? (ordered : tree.tidy = true) (found : tree.get? place = some entry) : entry.tidy = true :=
  (get?_descends (· ≠ "..") (fun directory => (tidy_directory.1 directory).1) ordered found).2

theorem mem_putIn {item : String × Entry} (member : item ∈ putIn name new entries) :
    item = (name, new) ∨ item ∈ entries := by
  induction entries with
  | nil => simpa [putIn] using member
  | cons head rest ih =>
    simp only [putIn] at member
    split at member
    · rcases mem_cons.1 member with rfl | member
      · exact .inl rfl
      · exact .inr (by simp [member])
    · split at member
      · rcases mem_cons.1 member with rfl | member
        · exact .inl rfl
        · exact .inr member
      · rcases mem_cons.1 member with rfl | member
        · exact .inr (by simp)
        · rcases ih member with same | member
          · exact .inl same
          · exact .inr (by simp [member])

theorem pairwise_putIn (ordered : entries.Pairwise (fun first second => first.1 < second.1)) :
    (putIn name new entries).Pairwise (fun first second => first.1 < second.1) := by
  induction entries with
  | nil => simp [putIn]
  | cons head rest ih =>
    obtain ⟨before, ordered⟩ := pairwise_cons.1 ordered
    simp only [putIn]
    split
    · next same => exact pairwise_cons.2 ⟨by simpa [same] using before, ordered⟩
    · split
      · next less =>
          refine pairwise_cons.2 ⟨fun item member => ?_, pairwise_cons.2 ⟨before, ordered⟩⟩
          rcases mem_cons.1 member with rfl | member
          · exact less
          · exact String.lt_trans less (before item member)
      · next different notLess =>
          have greater : head.1 < name := by
            rcases String.le_total head.1 name with le | le
            · exact String.not_le.1 (fun back => different (String.le_antisymm le back))
            · exact absurd (String.le_antisymm (String.not_lt.1 notLess) le) different
          refine pairwise_cons.2 ⟨fun item member => ?_, ih ordered⟩
          rcases mem_putIn member with rfl | member
          · exact greater
          · exact before item member

theorem tidy_putIn (ordered : (directory entries).tidy = true) (fine : new.tidy = true) (down : name ≠ "..") :
    (directory (putIn name new entries)).tidy = true := by
  obtain ⟨each, pairwise⟩ := tidy_directory.1 ordered
  refine tidy_directory.2 ⟨fun item member => ?_, pairwise_putIn pairwise⟩
  rcases mem_putIn member with rfl | member
  · exact ⟨down, fine⟩
  · exact each item member

theorem tidy_put (ordered : tree.tidy = true) (fine : new.tidy = true) (down : ".." ∉ place) :
    (tree.put place new).tidy = true := by
  fun_induction put tree place new with
  | case1 => exact fine
  | case2 | case5 => exact ordered
  | case3 entries name new => exact tidy_putIn ordered fine (by simpa [eq_comm] using down)
  | case4 entries name next rest new entry found ih =>
    rw [mem_cons, not_or] at down
    obtain ⟨_, inner⟩ := (tidy_directory.1 ordered).1 _ (mem_of_findIn found)
    exact tidy_putIn ordered (ih inner fine down.2) (Ne.symm down.1)

theorem findIn_eraseIn_other (different : other ≠ name) :
    findIn other (eraseIn name entries) = findIn other entries := by
  induction entries with
  | nil => rfl
  | cons head rest ih =>
    simp only [eraseIn]
    split
    · next same => simp [findIn, same, different.symm]
    · simp [findIn, ih]

theorem eraseIn_sublist (name : String) (entries : List (String × Entry)) :
    (eraseIn name entries).Sublist entries := by
  induction entries with
  | nil => exact .slnil
  | cons head rest ih =>
    simp only [eraseIn]
    split
    · exact sublist_cons_self _ _
    · exact ih.cons_cons _

theorem findIn_eraseIn_self (ordered : entries.Pairwise (fun first second => first.1 < second.1)) :
    findIn name (eraseIn name entries) = none := by
  induction entries with
  | nil => rfl
  | cons head rest ih =>
    obtain ⟨before, ordered⟩ := pairwise_cons.1 ordered
    simp only [eraseIn]
    split
    · next same =>
        cases found : findIn name rest with
        | none => rfl
        | some entry => exact absurd (before _ (mem_of_findIn found)) (same ▸ String.lt_irrefl _)
    · next different => simp [findIn, different, ih ordered]

theorem tidy_erase (ordered : tree.tidy = true) (place : List String) : (tree.erase place).tidy = true := by
  fun_induction erase tree place with
  | case1 | case2 | case5 => exact ordered
  | case3 entries name =>
    obtain ⟨each, pairwise⟩ := tidy_directory.1 ordered
    have part := eraseIn_sublist name entries
    exact tidy_directory.2 ⟨fun item member => each item (part.mem member), pairwise.sublist part⟩
  | case4 entries name next rest entry found ih =>
    obtain ⟨down, inner⟩ := (tidy_directory.1 ordered).1 _ (mem_of_findIn found)
    exact tidy_putIn ordered (ih inner) down

theorem at?_erase_other {place : List String} (apart : ¬ place <+: probe) :
    (tree.erase place).at? probe = tree.at? probe := by
  fun_induction erase tree place generalizing probe with
  | case1 => exact absurd nil_prefix apart
  | case2 | case5 => rfl
  | case3 entries name =>
    cases probe with
    | nil => rfl
    | cons first others =>
      have different : first ≠ name := by simpa [eq_comm] using apart
      simp [at?, get?_directory, findIn_eraseIn_other different]
  | case4 entries name next rest entry found ih =>
    cases probe with
    | nil => rfl
    | cons first others =>
      rw [cons_prefix_cons] at apart
      by_cases same : first = name
      · subst same
        have step := ih (fun within => apart ⟨rfl, within⟩)
        simpa [at?, get?_directory, findIn_putIn, found] using step
      · simp [at?, get?_directory, findIn_putIn, same]

theorem at?_erase_below (ordered : tree.tidy = true) (nonempty : place ≠ []) (rest : List String) :
    (tree.erase place).at? (place ++ rest) = none := by
  fun_induction erase tree place with
  | case1 => exact absurd rfl nonempty
  | case2 => rfl
  | case3 entries name => simp [at?, get?_directory, findIn_eraseIn_self (tidy_directory.1 ordered).2]
  | case4 entries name next others entry found ih =>
    have step := ih ((tidy_directory.1 ordered).1 _ (mem_of_findIn found)).2 (by simp)
    simpa [at?, get?_directory, findIn_putIn] using step
  | case5 entries name next others missing => simp [at?, get?_directory, missing]

end Entry
end Refit
