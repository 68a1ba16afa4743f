import Mathlib.Data.List.Perm.Subperm
import Mathlib.Order.Bounds.Basic
import Refit.Proofs.Json.Entries
import Refit.Proofs.Project.Locality
import Refit.Proofs.Run.Stages

/-!
No path is given out twice: a path that is claimed is not among those that were taken before. Among
more numbers than there are taken paths one is free, since numbers make different paths. A sequence of
claims always finds the first free number, though it remembers where its searches ended.
-/

open List

namespace Refit

open Path

variable {target path : Path} {renamed : Bool}

namespace Path

theorem withName_below {names : List String} (nonempty : names ≠ []) (root : Path) (name : String) :
    (root.below names).withName name = root.below (names.dropLast ++ [name]) := by
  simp [withName, parent, child, below, List.dropLast_append_of_ne_nil nonempty]

theorem name_withName (path : Path) (name : String) : (path.withName name).name = name := by
  simp [withName, Path.child, Path.name]

/-- What stands before the last name of a path in its text. -/
def leading (path : Path) : List Char :=
  path.root.text.toList ++ if path.names.dropLast = [] then [] else body path.names.dropLast ++ ['/']

theorem body_concat (names : List String) (name : String) :
    body (names ++ [name]) = (if names = [] then [] else body names ++ ['/']) ++ name.toList := by
  induction names with
  | nil => simp [body]
  | cons first rest ih =>
    cases rest with
    | nil => simp [body]
    | cons second others =>
      have step (more : List String) : body (first :: second :: more) = first.toList ++ '/' :: body (second :: more) := by
        simp [body]
      rw [cons_append, cons_append, step, step, ← cons_append, ih]
      simp

theorem toList_toString_withName (path : Path) (name : String) :
    (path.withName name).toString.toList = path.leading ++ name.toList := by
  have some : (path.withName name).names ≠ [] := by simp [withName, child]
  rw [toList_toString (.inr some)]
  simp only [withName, child, parent, leading, body_concat, append_assoc]

theorem stemOf_append_suffixOf (name : String) : stemOf name ++ suffixOf name = name := by
  unfold stemOf suffixOf
  cases lastDot name.toList with
  | none => simp
  | some position => rw [← String.ofList_append, take_append_drop, String.ofList_toList]

theorem toString_inj {other : Path} (valid : path.Valid) (fine : other.Valid)
    (same : path.toString = other.toString) : path = other := by
  rw [← ofString_toString valid, same, ofString_toString fine]

theorem ofString_clear {text : String} (clear : '/' ∉ text.toList) :
    ofString text = ⟨.relative, [text].filter (fun name => name ≠ "" && name ≠ ".")⟩ := by
  have relative : rootOf text.toList = .relative := by
    cases chars : text.toList with
    | nil => rfl
    | cons c rest =>
      have different : c ≠ '/' := by
        intro same
        simp [chars, same] at clear
      exact (rootOf_body (by simpa using different)).1
  have whole : Text.splitChars (· = '/') text.toList = [text.toList] := by
    refine Text.splitChars_of_none (fun c member => decide_eq_false (fun same => clear (same ▸ member)))
  simp only [ofString, relative, Text.split, whole, map_cons, map_nil, String.ofList_toList]

theorem clear_name (valid : path.Valid) : '/' ∉ path.name.toList := by
  unfold name
  cases last : path.names.getLast? with
  | none => simp
  | some name => exact (valid name (mem_of_getLast? last)).2.2

theorem clear_stem (clear : '/' ∉ path.name.toList) : '/' ∉ path.stem.toList := by
  intro slash
  refine clear ?_
  rw [← stemOf_append_suffixOf path.name]
  exact String.toList_append ▸ mem_append_left _ slash

theorem clear_suffix (clear : '/' ∉ path.name.toList) : '/' ∉ path.suffix.toList := by
  intro slash
  refine clear ?_
  rw [← stemOf_append_suffixOf path.name]
  exact String.toList_append ▸ mem_append_right _ slash

theorem name_below {names : List String} (some : names ≠ []) (root : Path) :
    (root.below names).name = names.getLast some := by
  simp [name, below, List.getLast?_eq_some_getLast some]

theorem parent_below {names : List String} (some : names ≠ []) (root : Path) :
    (root.below names).parent = root.below names.dropLast := by
  simp [parent, below, dropLast_append_of_ne_nil some]

end Path

namespace Output

/-- A path that can be given out for another one: the path itself, or one with a number. -/
def Names.Offers (path target : Path) : Prop := target = path ∨ ∃ n, target = numbered path n

theorem Names.offers_of_claim {names after : Names}
    (claimed : names.claim path = (some (target, renamed), after)) : Offers path target := by
  unfold claim at claimed
  dsimp only at claimed
  split at claimed
  · cases claimed
    exact .inl rfl
  · split at claimed
    · cases claimed
    · cases claimed
      exact .inr ⟨_, rfl⟩

theorem Names.claim_none {names after : Names} (refused : names.claim path = (none, after)) :
    after = names := by
  unfold claim at refused
  dsimp only at refused
  split at refused
  · cases refused
  · split at refused
    · cases refused
      rfl
    · cases refused

theorem Names.name_numbered_ne_dots (path : Path) (n : Nat) : (numbered path n).name ≠ ".." := by
  have dash : '-' ∈ (path.stem ++ "-" ++ toString n ++ path.suffix).toList := by simp
  intro same
  rw [numbered, Path.name_withName] at same
  rw [same] at dash
  exact absurd dash (by decide)

theorem Names.Offers.below {root : Path} {names : List String} (nonempty : names ≠ [])
    (plain : ".." ∉ names) (offers : Offers (root.below names) target) : target.Within root := by
  rcases offers with rfl | ⟨n, rfl⟩
  · exact ⟨names, plain, rfl⟩
  · have last := name_numbered_ne_dots (root.below names) n
    rw [numbered, Path.name_withName] at last
    rw [numbered, Path.withName_below nonempty]
    refine ⟨_, ?_, rfl⟩
    rw [List.mem_append, not_or]
    exact ⟨fun member => plain (List.dropLast_subset _ member), by simpa using Ne.symm last⟩

theorem under_below {texts : List String} (down : ∀ text ∈ texts, leadsDown text = true) (root : Path) :
    under root texts = root.below (texts.flatMap (fun text => (ofString text).names)) := by
  unfold under
  induction texts generalizing root with
  | nil => simp [Path.below]
  | cons text rest ih =>
    rw [List.foldl_cons, (join_eq_below (down text (by simp)) root).1,
      ih (fun other member => down other (by simp [member])), below_below, List.flatMap_cons]

theorem assetPath_below (root : Path) {asset : Asset} (publicDir : Option String) {names : List String}
    (read : ofString asset.name = ⟨.relative, names⟩) :
    ∃ base ∈ [["public"], ["src", "assets"]], assetPath root asset publicDir = root.below (base ++ names) := by
  have joined (base : Path) : base.join (ofString asset.name) = base.below names := by
    rw [read]
    rfl
  have publics : under root ["public"] = root.below ["public"] := under_below (by decide) root
  have sources : under root ["src", "assets"] = root.below ["src", "assets"] := under_below (by decide) root
  unfold assetPath
  rw [joined, sources]
  cases isPublic asset publicDir with
  | true => exact ⟨["public"], by simp, below_below _ _ _⟩
  | false => exact ⟨["src", "assets"], by simp, below_below _ _ _⟩

namespace Names

variable {path : Path} {taken : List String}

theorem toList_numbered (path : Path) (n : Nat) :
    (numbered path n).toString.toList =
      path.leading ++ (path.stem.toList ++ '-' :: (ToString.toString n).toList ++ path.suffix.toList) := by
  rw [numbered, Path.toList_toString_withName]
  simp

theorem numbered_injective {a b : Nat} (same : (numbered path a).toString = (numbered path b).toString) :
    a = b := by
  have chars := congrArg String.toList same
  rw [toList_numbered, toList_numbered] at chars
  have digits : Nat.toDigits 10 a = Nat.toDigits 10 b := by simpa using chars
  have values := congrArg (fun digits => Nat.ofDigitChars 10 digits 0) digits
  simpa using values

theorem numbered_ne (named : path.names ≠ []) (n : Nat) : (numbered path n).toString ≠ path.toString := by
  intro same
  have chars := congrArg String.toList same
  have own : path.toString.toList = path.leading ++ (path.stem.toList ++ path.suffix.toList) := by
    rw [← String.toList_append, stem, suffix, Path.stemOf_append_suffixOf,
      ← Path.toList_toString_withName, withName_name named]
  rw [toList_numbered, own] at chars
  have lengths := congrArg List.length chars
  simp at lengths
  omega

theorem firstFree_eq (taken : List String) (path : Path) (fuel n : Nat) :
    ∃ k ≤ fuel, firstFree taken path fuel n = n + k ∧
      (∀ j < k, (numbered path (n + j)).toString ∈ taken) ∧
      (k < fuel → (numbered path (n + k)).toString ∉ taken) := by
  induction fuel generalizing n with
  | zero => exact ⟨0, Nat.le_refl 0, rfl, by simp, by simp⟩
  | succ fuel ih =>
    unfold firstFree
    split
    · next found =>
        obtain ⟨k, bound, reached, before, free⟩ := ih (n + 1)
        refine ⟨k + 1, by omega, by rw [reached]; omega, fun j below => ?_, fun below => ?_⟩
        · cases j with
          | zero => simpa using found
          | succ j =>
            have earlier := before j (by omega)
            rwa [Nat.add_right_comm] at earlier
        · have later := free (by omega)
          rwa [Nat.add_right_comm] at later
    · next missed => exact ⟨0, by omega, rfl, by simp, fun _ => by simpa using missed⟩

/-- The search for a number finds a free one: otherwise all the numbered paths and the path itself would
    be taken, which are more than the taken ones. -/
theorem firstFree_free (named : path.names ≠ []) (own : path.toString ∈ taken) (n : Nat) :
    (numbered path (firstFree taken path taken.length n)).toString ∉ taken := by
  obtain ⟨k, bound, reached, before, free⟩ := firstFree_eq taken path taken.length n
  rw [reached]
  by_cases below : k < taken.length
  · exact free below
  · have full : k = taken.length := by omega
    let others : List String := (List.range k).map (fun j => (numbered path (n + j)).toString)
    have distinct : (path.toString :: others).Nodup := by
      refine nodup_cons.2 ⟨fun member => ?_, ?_⟩
      · obtain ⟨j, _, same⟩ := mem_map.1 member
        exact numbered_ne named (n + j) same
      · refine List.Nodup.map_on (fun a _ b _ same => ?_) nodup_range
        have equal := numbered_injective same
        omega
    have within : path.toString :: others ⊆ taken := by
      refine cons_subset.2 ⟨own, fun text member => ?_⟩
      obtain ⟨j, inRange, rfl⟩ := mem_map.1 member
      exact before j (mem_range.1 inRange)
    have count := (distinct.subperm within).length_le
    simp [others] at count
    omega

theorem claim_fresh {names after : Names} (claimed : names.claim path = (some (target, renamed), after)) :
    target.toString ∉ names.taken ∧ after.taken = target.toString :: names.taken := by
  unfold claim at claimed
  dsimp only at claimed
  split at claimed
  · next free =>
      cases claimed
      exact ⟨by simpa using free, rfl⟩
  · next known =>
      split at claimed
      · cases claimed
      · next named =>
          cases claimed
          refine ⟨firstFree_free (by simpa using named) (by simpa using known) _, rfl⟩

theorem claim_free {names : Names} (free : path.toString ∉ names.taken) :
    names.claim path = (some (path, false), { names with taken := path.toString :: names.taken }) := by
  simp [claim, free]

theorem counts_of_taken {names : Names} (named : path.names ≠ []) (own : path.toString ∈ names.taken) :
    (names.claim path).2.counts ≠ [] := by
  have inserted (counts : List (String × Nat)) (key : String) (n : Nat) : Json.insert counts key n ≠ [] := by
    cases counts with
    | nil => simp [Json.insert]
    | cons entry rest =>
      unfold Json.insert
      split <;> simp
  simp [claim, own, named, inserted]

theorem counts_of_claim {names : Names} (none : (names.claim path).2.counts = []) : names.counts = [] := by
  by_cases own : path.toString ∈ names.taken
  · by_cases named : path.names = []
    · simpa [claim, own, named] using none
    · exact absurd none (counts_of_taken named own)
  · simpa [claim_free own] using none

variable {names : Names}

/-- All numbers up to the one that was used last for a path are taken, so a search may start behind it. -/
def Counted (names : Names) : Prop :=
  ∀ path : Path, path.Valid → ∀ last, Json.lookup names.counts path.toString = some last →
    1 ≤ last ∧ ∀ n, 2 ≤ n → n ≤ last → (numbered path n).toString ∈ names.taken

def freeNumbers (taken : List String) (path : Path) : Set Nat := {n | 2 ≤ n ∧ (numbered path n).toString ∉ taken}

/-- What is given out for a path after other paths: the path itself if it is free, else the path with the first free
number. -/
structure Allots (before : List String) (path target : Path) (renamed : Bool) : Prop where
  fresh : target.toString ∉ before
  directory : target.parent = path.parent
  kept : renamed = false ↔ target = path
  free : target = path ↔ path.toString ∉ before
  numbers : path.toString ∈ before → ∃ n, IsLeast (freeNumbers before path) n ∧ target = numbered path n

theorem firstFree_least {taken : List String} (named : path.names ≠ []) (own : path.toString ∈ taken) {last : Nat}
    (some : 1 ≤ last) (passed : ∀ n, 2 ≤ n → n ≤ last → (numbered path n).toString ∈ taken) :
    IsLeast (freeNumbers taken path) (firstFree taken path taken.length (last + 1)) := by
  have free := firstFree_free named own (last + 1)
  obtain ⟨k, _, reached, before, _⟩ := firstFree_eq taken path taken.length (last + 1)
  refine ⟨⟨by omega, free⟩, fun n ⟨large, unused⟩ => ?_⟩
  by_contra smaller
  by_cases early : n ≤ last
  · exact unused (passed n large early)
  · have between := before (n - (last + 1)) (by omega)
    rw [Nat.add_sub_of_le (by omega)] at between
    exact unused between

section

variable (counted : names.Counted) (valid : path.Valid)
include counted valid

theorem Counted.passed :
    1 ≤ (Json.lookup names.counts path.toString).getD 1 ∧
      ∀ n, 2 ≤ n → n ≤ (Json.lookup names.counts path.toString).getD 1 → (numbered path n).toString ∈ names.taken := by
  cases found : Json.lookup names.counts path.toString with
  | none => exact ⟨Nat.le_refl 1, fun n large small => absurd (Nat.le_trans large small) (by decide)⟩
  | some last => exact counted path valid last found

theorem claim_taken (named : path.names ≠ []) (own : path.toString ∈ names.taken) :
    ∃ n, IsLeast (freeNumbers names.taken path) n ∧
      names.claim path = (some (numbered path n, true),
        { taken := (numbered path n).toString :: names.taken
          counts := Json.insert names.counts path.toString n }) := by
  obtain ⟨some, passed⟩ := counted.passed valid
  refine ⟨_, firstFree_least named own some passed, ?_⟩
  simp [claim, own, named]

theorem claim_allots (named : path.names ≠ []) :
    ∃ target renamed, (names.claim path).1 = some (target, renamed) ∧ Allots names.taken path target renamed := by
  by_cases own : path.toString ∈ names.taken
  · obtain ⟨n, least, claimed⟩ := claim_taken counted valid named own
    have other : numbered path n ≠ path := fun same => numbered_ne named n (congrArg toString same)
    refine ⟨_, _, congrArg Prod.fst claimed, least.1.2, ?_, by simp [other], by simp [other, own],
      fun _ => ⟨n, least, rfl⟩⟩
    simp [numbered, Path.withName, Path.child, Path.parent]
  · rw [claim_free own]
    exact ⟨_, _, rfl, own, rfl, by simp, by simp [own], fun taken => absurd taken own⟩

end

theorem Counted.empty : empty.Counted := by
  intro path _ last found
  cases found

theorem Counted.claim (counted : names.Counted) (valid : path.Valid) (named : path.names ≠ []) :
    (names.claim path).2.Counted := by
  by_cases own : path.toString ∈ names.taken
  · obtain ⟨n, ⟨⟨large, _⟩, lowest⟩, claimed⟩ := claim_taken counted valid named own
    rw [claimed]
    intro other fine last found
    rw [Json.lookup_insert] at found
    split at found
    · next same =>
        cases found
        obtain rfl := Path.toString_inj fine valid same
        refine ⟨by omega, fun m large small => ?_⟩
        rcases Nat.eq_or_lt_of_le small with rfl | smaller
        · exact mem_cons_self ..
        · refine mem_cons_of_mem _ ?_
          by_contra unused
          exact absurd (lowest ⟨large, unused⟩) (by omega)
    · obtain ⟨some, passed⟩ := counted other fine last found
      exact ⟨some, fun m large small => mem_cons_of_mem _ (passed m large small)⟩
  · rw [claim_free own]
    intro other fine last found
    obtain ⟨some, passed⟩ := counted other fine last found
    exact ⟨some, fun n large small => mem_cons_of_mem _ (passed n large small)⟩

/-- Claims paths one after the other. -/
def claimAll (names : Names) : List Path → List (Option (Path × Bool)) × Names
  | [] => ([], names)
  | path :: rest => ((names.claim path).1 :: ((names.claim path).2.claimAll rest).1, ((names.claim path).2.claimAll rest).2)

/-- The texts of the paths that were given out. -/
def texts (given : List (Path × Bool)) : List String := given.map (fun entry => entry.1.toString)

/-- The same paths are taken, and no number is remembered: each search starts from 2. -/
def forgetful (names : Names) : Names := { names with counts := [] }

theorem claim_forgetful (counted : names.Counted) (valid : path.Valid) (named : path.names ≠ []) :
    (names.forgetful.claim path).1 = (names.claim path).1 := by
  have none : names.forgetful.Counted := fun _ _ _ found => nomatch found
  by_cases own : path.toString ∈ names.taken
  · obtain ⟨n, least, claimed⟩ := claim_taken counted valid named own
    obtain ⟨m, also, again⟩ := claim_taken none valid named own
    rw [claimed, again, least.unique also]
  · rw [claim_free own, claim_free (show path.toString ∉ names.forgetful.taken from own)]

theorem Allots.congr {before others : List String}
    (same : ∀ text, text ∈ before ↔ text ∈ others) (allots : Allots before path target renamed) :
    Allots others path target renamed := by
  have numbers : freeNumbers others path = freeNumbers before path := by
    simp only [freeNumbers, same]
  refine ⟨?_, allots.directory, allots.kept, ?_, ?_⟩
  · rw [← same]
    exact allots.fresh
  · rw [← same]
    exact allots.free
  · rw [← same, numbers]
    exact allots.numbers

/-- What a sequence of claims comes to from any point on. The taken paths are those that were given out, the last
one first. -/
theorem claimAll_run {paths : List Path} (fine : ∀ path ∈ paths, path.Valid ∧ path.names ≠ [])
    (counted : names.Counted) :
    ∃ given, (names.claimAll paths).1 = given.map some ∧ given.length = paths.length ∧
      (names.claimAll paths).2.Counted ∧ (names.claimAll paths).2.taken = (texts given).reverse ++ names.taken ∧
      (names.taken.Nodup → (names.claimAll paths).2.taken.Nodup) ∧
      ∀ (i : Nat) (path target : Path) (renamed : Bool), paths[i]? = some path → given[i]? = some (target, renamed) →
        Allots ((texts (given.take i)).reverse ++ names.taken) path target renamed := by
  induction paths generalizing names with
  | nil => exact ⟨[], rfl, rfl, counted, rfl, fun nodup => nodup, by simp⟩
  | cons path rest ih =>
    obtain ⟨valid, named⟩ := fine path (by simp)
    obtain ⟨target, renamed, claimed, allots⟩ := claim_allots counted valid named
    obtain ⟨given, answers, length, countedAfter, taken, nodup, each⟩ :=
      ih (fun other member => fine other (by simp [member])) (counted.claim valid named)
    obtain ⟨fresh, grown⟩ := claim_fresh (Prod.ext claimed rfl : names.claim path = (some (target, renamed), _))
    refine ⟨(target, renamed) :: given, ?_, by simp [length], countedAfter, ?_, fun distinct => nodup ?_, ?_⟩
    · simp [claimAll, claimed, answers]
    · rw [claimAll, taken, grown]
      simp [texts]
    · rw [grown]
      exact nodup_cons.2 ⟨fresh, distinct⟩
    · intro i otherPath otherTarget otherRenamed asked answered
      cases i with
      | zero =>
        cases asked
        cases answered
        exact allots
      | succ i =>
        have later := each i otherPath otherTarget otherRenamed asked answered
        rw [grown] at later
        simpa [texts] using later

theorem claimAll_answer (names : Names) (paths : List Path) (i : Nat) :
    (names.claimAll paths).1[i]? = paths[i]?.map (fun path => ((names.claimAll (paths.take i)).2.claim path).1) := by
  induction paths generalizing names i with
  | nil => simp [claimAll]
  | cons path rest ih =>
    cases i with
    | zero => simp [claimAll]
    | succ i => simpa [claimAll] using ih (names.claim path).2 i

/-- Whatever paths are claimed one after the other, each claim is answered, and no path is given out twice. A path that
was not given out before is given out as it is; else it gets, in the same directory, the first number from 2 on
that makes it a new path. The numbers that are remembered only save time. -/
theorem claimAll_allots {paths : List Path} (fine : ∀ path ∈ paths, path.Valid ∧ path.names ≠ []) :
    ∃ given : List (Path × Bool), (empty.claimAll paths).1 = given.map some ∧ given.length = paths.length ∧
      (texts given).Nodup ∧
      ∀ (i : Nat) (path target : Path) (renamed : Bool), paths[i]? = some path → given[i]? = some (target, renamed) →
        Allots (texts (given.take i)) path target renamed ∧
          ((empty.claimAll (paths.take i)).2.forgetful.claim path).1 = some (target, renamed) := by
  obtain ⟨given, answers, length, _, taken, nodup, each⟩ := claimAll_run fine Counted.empty
  have distinct := nodup nodup_nil
  rw [taken, empty, append_nil, nodup_reverse] at distinct
  refine ⟨given, answers, length, distinct, fun i path target renamed asked answered => ⟨?_, ?_⟩⟩
  · refine (each i path target renamed asked answered).congr (fun text => ?_)
    simp [empty]
  · obtain ⟨valid, named⟩ := fine path (mem_of_getElem? asked)
    have earlier : ∀ path ∈ paths.take i, path.Valid ∧ path.names ≠ [] :=
      fun other member => fine other (mem_of_mem_take member)
    obtain ⟨_, _, _, counted, _⟩ := claimAll_run earlier Counted.empty
    have answer := claimAll_answer empty paths i
    rw [answers, List.getElem?_map, answered, asked] at answer
    rw [claim_forgetful counted valid named]
    exact (Option.some.inj answer).symm

/-- Paths that already look numbered, between claims of the path that the numbers are for. -/
def lookalikes : List Path :=
  ["/out/B.tsx", "/out/B-2.tsx", "/out/B.tsx", "/out/in/B.tsx", "/out/B-2.tsx", "/out/B-4.tsx", "/out/B.tsx"].map
    ofString

theorem claimAll_allots_lookalikes :
    (∀ path ∈ lookalikes, path.Valid ∧ path.names ≠ []) ∧
      ∃ given : List (Path × Bool), (empty.claimAll lookalikes).1 = given.map some ∧
        texts given = ["/out/B.tsx", "/out/B-2.tsx", "/out/B-3.tsx", "/out/in/B.tsx", "/out/B-2-2.tsx", "/out/B-4.tsx",
          "/out/B-5.tsx"] ∧
        Allots (texts (given.take 6)) (ofString "/out/B.tsx") (ofString "/out/B-5.tsx") true := by
  have fine : ∀ path ∈ lookalikes, path.Valid ∧ path.names ≠ [] := by
    unfold Path.Valid
    decide +kernel
  obtain ⟨given, answers, _, _, each⟩ := claimAll_allots fine
  have read : given = (empty.claimAll lookalikes).1.filterMap id := by rw [answers]; simp
  subst read
  exact ⟨fine, _, answers, by decide +kernel, (each 6 _ _ _ (by decide +kernel) (by decide +kernel)).1⟩

end Names

open Event

variable {names : List String}

def steps (texts : List String) : List String := texts.filter (fun text => text ≠ "" && text ≠ ".")

theorem steps_valid {texts : List String} (clear : ∀ text ∈ texts, '/' ∉ text.toList) :
    ∀ name ∈ steps texts, Path.ValidName name := by
  intro name member
  obtain ⟨inTexts, kept⟩ := mem_filter.1 member
  have both : name ≠ "" ∧ name ≠ "." := by simpa using kept
  exact ⟨both.1, both.2, clear name inTexts⟩

theorem under_clear {texts : List String} (clear : ∀ text ∈ texts, '/' ∉ text.toList) (root : Path) :
    under root texts = root.below (steps texts) := by
  unfold under
  induction texts generalizing root with
  | nil => simp [steps, Path.below]
  | cons text rest ih =>
    have joined : root.join (Path.ofString text) = root.below (steps [text]) := by
      rw [Path.ofString_clear (clear text (by simp))]
      rfl
    rw [foldl_cons, joined, ih (fun other member => clear other (by simp [member])), Path.below_below,
      steps, steps, ← filter_append]
    rfl

theorem Names.valid_numbered (clear : '/' ∉ path.name.toList) (n : Nat) :
    Path.ValidName (path.stem ++ "-" ++ ToString.toString n ++ path.suffix) ∧
      '-' ∈ (path.stem ++ "-" ++ ToString.toString n ++ path.suffix).toList := by
  have dash : '-' ∈ (path.stem ++ "-" ++ ToString.toString n ++ path.suffix).toList := by simp
  refine ⟨⟨fun empty => ?_, fun dot => ?_, fun slash => ?_⟩, dash⟩
  · rw [empty] at dash
    exact absurd dash (by decide)
  · rw [dot] at dash
    exact absurd dash (by decide)
  · have noStem := Path.clear_stem clear
    have noSuffix := Path.clear_suffix clear
    have inDigits : '/' ∈ Nat.toDigits 10 n := by simpa [noStem, noSuffix] using slash
    exact absurd (Nat.isDigit_of_mem_toDigits (by decide) (by decide) inDigits) (by decide)

theorem Names.Offers.cases_below {root : Path} (some : names ≠ [])
    (valid : ∀ name ∈ names, Path.ValidName name) (offers : Offers (root.below names) target) :
    target = root.below names ∨
      ∃ name, target = root.below (names.dropLast ++ [name]) ∧ Path.ValidName name ∧ '-' ∈ name.toList := by
  rcases offers with rfl | ⟨n, rfl⟩
  · exact .inl rfl
  · have clear : '/' ∉ (root.below names).name.toList := by
      rw [Path.name_below some]
      exact (valid _ (getLast_mem some)).2.2
    obtain ⟨fine, dash⟩ := valid_numbered clear n
    exact .inr ⟨_, Path.withName_below some root _, fine, dash⟩

/-- The directories that files of the project are made in. -/
def areas : List (List String) :=
  [["src", "components"], ["src", "hooks"], ["src", "pages"], ["pages"], ["src", "styles"], ["public"],
   ["src", "assets"]]

def configurationNames : List String := ["tsconfig.json", "tailwind.config.js", "next.config.js", "vite.config.ts"]

/-- The places of the files that are made for the project. -/
inductive Region : List String → Prop
  | area {area : List String} (member : area ∈ areas) (rest : List String) : Region (area ++ rest)
  | configuration {name : String} (member : name ∈ configurationNames) : Region [name]

theorem Region.nonempty (region : Region names) : names ≠ [] := by
  cases region with
  | configuration => simp
  | area member rest =>
    intro empty
    have none : ∀ area ∈ areas, area ≠ [] := by decide
    exact none _ member (append_eq_nil_iff.1 empty).1

theorem artifactPlaces_apart : ∀ place ∈ artifactPlaces, ∀ area ∈ areas, ¬ area <+: place := by decide

theorem artifactPlaces_plain : ∀ place ∈ artifactPlaces, ∀ area ∈ areas,
    place.dropLast = area.dropLast → '-' ∉ (place.getLast?.getD "").toList := by decide

theorem Region.not_artifact (region : Region names) :
    names ∉ artifactPlaces ∧
      ∀ name : String, '-' ∈ name.toList → names.dropLast ++ [name] ∉ artifactPlaces := by
  have unnumbered {area : List String} (member : area ∈ areas) (name : String) (dash : '-' ∈ name.toList) :
      area.dropLast ++ [name] ∉ artifactPlaces := by
    intro artifact
    exact artifactPlaces_plain _ artifact area member (by simp) (by simpa using dash)
  cases region with
  | area member rest =>
    refine ⟨fun artifact => artifactPlaces_apart _ artifact _ member (prefix_append _ _), fun name dash => ?_⟩
    by_cases bare : rest = []
    · rw [bare, append_nil]
      exact unnumbered member name dash
    · intro artifact
      refine artifactPlaces_apart _ artifact _ member ?_
      rw [dropLast_append_of_ne_nil bare, append_assoc]
      exact prefix_append _ _
  | @configuration own member =>
    have apart : ∀ name ∈ configurationNames, [name] ∉ artifactPlaces := by decide
    exact ⟨apart own member, fun name dash => @unnumbered ["public"] (by decide) name dash⟩

end Output
end Refit
