import Mathlib.Data.Finset.Max
import Refit.Proofs.Conversion.Imported

/-!
Converted sources that are converted again. The import of the target library stays what it is, unless
the vendor has a name in which its mark is followed by a name that is itself renamed: of such a name the
first conversion takes off the mark, and the second one renames what is left.
-/

namespace Refit

open Json

namespace Conversion

variable {dialect : Dialect}

theorem sortedDistinct_nodup (texts : List String) : (sortedDistinct texts).Nodup :=
  (List.mergeSort_perm _ _).symm.nodup (Source.distinct_nodup texts)

theorem sortedDistinct_sorted (texts : List String) : (sortedDistinct texts).Pairwise (· ≤ ·) := by
  have sorted := @List.pairwise_mergeSort String (fun left right => left ≤ right)
    (fun first second third => by simpa using String.le_trans)
    (fun left right => by simpa using String.le_total left right) (Source.distinct texts)
  simpa [sortedDistinct] using sorted

theorem sortedDistinct_eq {texts ordered : List String} (sorted : ordered.Pairwise (· ≤ ·)) (nodup : ordered.Nodup)
    (same : ∀ text, text ∈ texts ↔ text ∈ ordered) : sortedDistinct texts = ordered := by
  refine List.Perm.eq_of_pairwise (fun first second _ _ => String.le_antisymm) (sortedDistinct_sorted texts) sorted ?_
  refine (List.perm_ext_iff_of_nodup (sortedDistinct_nodup texts) nodup).2 (fun text => ?_)
  rw [mem_sortedDistinct, same]

theorem sortedDistinct_congr {left right : List String} (same : ∀ text, text ∈ left ↔ text ∈ right) :
    sortedDistinct left = sortedDistinct right :=
  sortedDistinct_eq (sortedDistinct_sorted right) (sortedDistinct_nodup right)
    (fun text => by rw [same, mem_sortedDistinct])

namespace Rules

def isMarked (rules : Rules) (name : String) : Bool :=
  Text.startsWith name rules.vendorMark && rules.vendorMark.length < name.length

/-- Whether the mark of the vendor is followed by a name that is renamed itself: by the table, or because it has
the mark again. -/
def isUnsteady (rules : Rules) (name : String) : Bool :=
  let rest := Text.drop rules.vendorMark.length name
  rules.isMarked name && ((lookup rules.mapping rest).any (· ≠ rest) || rules.isMarked rest)

/-- Rules that have a mark, and a table that leads to names which stay. -/
structure Orderly (rules : Rules) : Prop where
  marked : rules.vendorMark ≠ ""
  settled : ∀ entry ∈ rules.mapping, entry.2 ≠ "" ∧ rules.targetName entry.2 = entry.2
  steady : ∀ entry ∈ rules.mapping, rules.isUnsteady entry.1 = false
  plain : ∀ entry ∈ rules.mapping, entry.1 = entry.2 → rules.isMarked entry.1 = false

theorem builtin_orderly (builtin : dialect ∈ Registry.builtin) : dialect.rules.Orderly := by
  rcases List.mem_pair.1 builtin with rfl | rfl <;>
    exact ⟨by decide, by decide +kernel, by decide +kernel, by decide +kernel⟩

variable {rules : Rules} {name : String}

theorem isMarked_iff : rules.isMarked name = true ↔ ∃ rest, rest ≠ "" ∧ name = rules.vendorMark ++ rest := by
  simp only [isMarked, Text.startsWith, Bool.and_eq_true, List.isPrefixOf_iff_prefix, decide_eq_true_eq]
  constructor
  · rintro ⟨⟨rest, joined⟩, longer⟩
    refine ⟨String.ofList rest, fun empty => ?_, String.ext (by simp [joined])⟩
    obtain rfl : rest = [] := by simpa using empty
    have size := congrArg List.length joined
    simp only [List.append_nil, String.length_toList] at size
    omega
  · rintro ⟨rest, some, rfl⟩
    refine ⟨⟨rest.toList, by simp⟩, ?_⟩
    have size : rest.length ≠ 0 := by simpa using some
    rw [String.length_append]
    omega

theorem drop_mark (rules : Rules) (rest : String) :
    Text.drop rules.vendorMark.length (rules.vendorMark ++ rest) = rest := by
  simp [Text.drop, ← String.length_toList]

theorem unmarked_of_isMarked {rest : String} (marked : rules.vendorMark ≠ "")
    (has : rules.isMarked (rules.vendorMark ++ rest) = true) : rules.unmarked (rules.vendorMark ++ rest) = rest := by
  have nonempty : rules.vendorMark.isEmpty = false := by simpa using marked
  rw [unmarked, nonempty, Bool.not_false, Bool.true_and, ← isMarked, if_pos has, drop_mark]

theorem unmarked_of_not_isMarked (hasNot : rules.isMarked name = false) : rules.unmarked name = name := by
  rw [unmarked, Bool.and_assoc, ← isMarked, hasNot, Bool.and_false]
  rfl

theorem targetName_of_lookup (orderly : rules.Orderly) {target : String}
    (found : lookup rules.mapping name = some target) : rules.targetName name = target := by
  have named := (orderly.settled _ (mem_of_lookup found)).1
  simp [targetName, found, named]

theorem targetName_of_none (missing : lookup rules.mapping name = none) :
    rules.targetName name = rules.unmarked name := by
  simp [targetName, missing]

section

variable (orderly : rules.Orderly)
include orderly

theorem targetName_eq_self_iff :
    rules.targetName name = name ↔
      (lookup rules.mapping name).any (· ≠ name) = false ∧ rules.isMarked name = false := by
  cases found : lookup rules.mapping name with
  | some target =>
    have plain := orderly.plain _ (mem_of_lookup found)
    rw [targetName_of_lookup orderly found]
    constructor
    · rintro rfl
      exact ⟨by simp, plain rfl⟩
    · rintro ⟨same, _⟩
      simpa using same
  | none =>
    rw [targetName_of_none found]
    cases has : rules.isMarked name with
    | false => simp [unmarked_of_not_isMarked has]
    | true =>
      obtain ⟨rest, some, rfl⟩ := isMarked_iff.1 has
      have shorter : rest ≠ rules.vendorMark ++ rest := by
        intro same
        have size := congrArg String.length same
        have mark : rules.vendorMark.length ≠ 0 := by simpa using orderly.marked
        rw [String.length_append] at size
        omega
      simp [unmarked_of_isMarked orderly.marked has, shorter]

theorem targetName_steady_iff (name : String) :
    rules.targetName (rules.targetName name) = rules.targetName name ↔ rules.isUnsteady name = false := by
  cases found : lookup rules.mapping name with
  | some target =>
    have entry := mem_of_lookup found
    rw [targetName_of_lookup orderly found]
    simp [(orderly.settled _ entry).2, orderly.steady _ entry]
  | none =>
    rw [targetName_of_none found]
    cases has : rules.isMarked name with
    | false =>
      rw [unmarked_of_not_isMarked has, targetName_of_none found, unmarked_of_not_isMarked has]
      simp [isUnsteady, has]
    | true =>
      obtain ⟨rest, some, rfl⟩ := isMarked_iff.1 has
      rw [unmarked_of_isMarked orderly.marked has, targetName_eq_self_iff orderly, isUnsteady, drop_mark, has]
      simp

theorem shorter_of_unsteady (moves : rules.targetName (rules.targetName name) ≠ rules.targetName name) :
    (rules.targetName name).length < name.length := by
  cases found : lookup rules.mapping name with
  | some target =>
    rw [targetName_of_lookup orderly found] at moves
    exact absurd (orderly.settled _ (mem_of_lookup found)).2 moves
  | none =>
    rw [targetName_of_none found] at moves ⊢
    cases has : rules.isMarked name with
    | false => simp [unmarked_of_not_isMarked has, targetName_of_none found] at moves
    | true =>
      obtain ⟨rest, some, rfl⟩ := isMarked_iff.1 has
      have mark : rules.vendorMark.length ≠ 0 := by simpa using orderly.marked
      rw [unmarked_of_isMarked orderly.marked has, String.length_append]
      omega

/-- If renaming leaves a collection of names as it is, it leaves each of them. Otherwise the longest name that
changes would have to come from a longer one. -/
theorem targetName_fixed {names : List String} (same : ∀ name, name ∈ names.map rules.targetName ↔ name ∈ names) :
    ∀ name ∈ names, rules.targetName name = name := by
  intro first listed
  by_contra changes
  obtain ⟨longest, member, bound⟩ := Finset.exists_max_image
    (names.filter (fun name => rules.targetName name ≠ name)).toFinset String.length
    ⟨first, by simp [listed, changes]⟩
  simp only [List.mem_toFinset, List.mem_filter, decide_eq_true_eq] at member bound
  obtain ⟨origin, known, leads⟩ := List.mem_map.1 ((same longest).2 member.1)
  have moves : rules.targetName (rules.targetName origin) ≠ rules.targetName origin := leads ▸ member.2
  have longer := shorter_of_unsteady orderly moves
  have limit := bound origin ⟨known, fun stays => moves (by rw [stays, stays])⟩
  rw [leads] at longer
  omega

end

end Rules

/-- The declaration that the import of the target library is. -/
def ImportPlan.targetDecl (plan : ImportPlan) (span : Syntax.Span) (text : String) : ImportDecl :=
  { moduleName := targetLibrary
    span := span
    text := text
    defaultName := none
    named := (sortedDistinct plan.targetNames).map (fun name => ⟨name, name⟩)
    namespaceName := none
    typeOnly := false }

/-- The names that a declaration takes from a module of the vendor. -/
def Rules.takes (rules : Rules) (decl : ImportDecl) : List String :=
  if rules.classify decl.moduleName = .vendor ∧ decl.typeOnly = false then
    (decl.defaultName.filter (· ≠ "")).toList ++ decl.named.map (·.imported)
  else []

theorem Rules.brings_eq (rules : Rules) (decl : ImportDecl) :
    rules.brings decl = (rules.takes decl).map rules.targetName := by
  unfold Rules.brings Rules.takes
  split <;> simp

theorem builtin_classify (builtin : dialect ∈ Registry.builtin) :
    dialect.rules.classify targetLibrary = .vendor := by
  rcases List.mem_pair.1 builtin with rfl | rfl <;> decide +kernel

variable {rules : Rules} {plan : ImportPlan}

/-- The target library is a vendor as well, so the names that are imported from it are renamed once more. -/
theorem targetNames_again (isVendor : rules.classify targetLibrary = .vendor) (platform : String) (plan : ImportPlan)
    (span : Syntax.Span) (text : String) :
    (rules.planImports platform [plan.targetDecl span text]).targetNames =
      (sortedDistinct plan.targetNames).map rules.targetName := by
  rw [planImports_targetNames]
  simp [Rules.brings, ImportPlan.targetDecl, isVendor]

theorem targetImport?_congr {left right : ImportPlan}
    (same : sortedDistinct left.targetNames = sortedDistinct right.targetNames) :
    left.targetImport? = right.targetImport? := by
  have members (name : String) : name ∈ left.targetNames ↔ name ∈ right.targetNames := by
    rw [← mem_sortedDistinct, same, mem_sortedDistinct]
  have empty : left.targetNames.isEmpty = right.targetNames.isEmpty := by
    rw [Bool.eq_iff_iff]
    simp only [List.isEmpty_iff, List.eq_nil_iff_forall_not_mem, members]
  rw [ImportPlan.targetImport?, ImportPlan.targetImport?, empty, same]

/-- Converting the import of the target library again gives the same import, if no name that the source takes from
the vendor has the mark before a name that is renamed itself. Every such name changes what is imported. -/
theorem targetImport_stable {dialect : Dialect} (builtin : dialect ∈ Registry.builtin) (platform : String)
    (decls : List ImportDecl) (span : Syntax.Span) (text : String) :
    let plan := dialect.rules.planImports platform decls
    let again := dialect.rules.planImports platform [plan.targetDecl span text]
    ((∀ decl ∈ decls, ∀ name ∈ dialect.rules.takes decl, dialect.rules.isUnsteady name = false) →
        again.targetImport? = plan.targetImport?) ∧
      (sortedDistinct again.targetNames = sortedDistinct plan.targetNames →
        ∀ decl ∈ decls, ∀ name ∈ dialect.rules.takes decl, dialect.rules.isUnsteady name = false) := by
  intro plan again
  have orderly := Rules.builtin_orderly builtin
  have renamed : again.targetNames = (sortedDistinct plan.targetNames).map dialect.rules.targetName :=
    targetNames_again (builtin_classify builtin) platform plan span text
  have listed (name : String) : name ∈ plan.targetNames ↔
      ∃ decl ∈ decls, ∃ taken ∈ dialect.rules.takes decl, dialect.rules.targetName taken = name := by
    simp only [plan, planImports_targetNames, List.mem_flatMap, Rules.brings_eq, List.mem_map]
  constructor
  · intro steady
    have stays : ∀ name ∈ sortedDistinct plan.targetNames, dialect.rules.targetName name = name := by
      intro name member
      obtain ⟨decl, present, taken, among, rfl⟩ := (listed name).1 (mem_sortedDistinct.1 member)
      exact (Rules.targetName_steady_iff orderly taken).2 (steady decl present taken among)
    refine targetImport?_congr (sortedDistinct_congr (fun name => ?_))
    rw [renamed, List.map_congr_left stays, List.map_id', mem_sortedDistinct]
  · intro same decl present taken among
    have members (name : String) : name ∈ (sortedDistinct plan.targetNames).map dialect.rules.targetName ↔
        name ∈ sortedDistinct plan.targetNames := by
      rw [← renamed, ← mem_sortedDistinct, same]
    have member := mem_sortedDistinct.2 ((listed _).2 ⟨decl, present, taken, among, rfl⟩)
    exact (Rules.targetName_steady_iff orderly taken).1 (Rules.targetName_fixed orderly members _ member)

/-- Imports of the vendor under all kinds of names, one of them of types, beside one of the runtime. -/
def variedDecls : List ImportDecl :=
  [⟨"bolt-ui", ⟨0, 10⟩, "", some "BoltPanel", [⟨"Text", "Label"⟩, ⟨"BoltBolt", "Twice"⟩, ⟨"Bolt", "Bolt"⟩], none, false⟩,
   ⟨"~/components/ui/card", ⟨11, 20⟩, "", none, [⟨"Card", "Card"⟩, ⟨"BoltCard", "Other"⟩], some "all", false⟩,
   ⟨"@bolt/core", ⟨21, 30⟩, "", none, [⟨"BoltText", "BoltText"⟩], none, true⟩,
   ⟨"@remix-run/react", ⟨31, 40⟩, "", none, [⟨"Link", "Link"⟩], none, false⟩]

theorem targetImport_stable_varied :
    (Dialect.bolt.rules.planImports "nextjs" variedDecls).targetImport? =
        some "import \x7b Bolt, Card, Panel, Typography \x7d from '@xala-technologies/ui-system';" ∧
      (Dialect.bolt.rules.planImports "nextjs"
        [(Dialect.bolt.rules.planImports "nextjs" variedDecls).targetDecl ⟨0, 10⟩ ""]).targetImport? =
        some "import \x7b Bolt, Card, Panel, Typography \x7d from '@xala-technologies/ui-system';" := by
  have taken : (Dialect.bolt.rules.planImports "nextjs" variedDecls).targetNames =
      ["Panel", "Typography", "Bolt", "Bolt", "Card", "Card"] := by decide +kernel
  have sorted : sortedDistinct ["Panel", "Typography", "Bolt", "Bolt", "Card", "Card"] =
      ["Bolt", "Card", "Panel", "Typography"] :=
    sortedDistinct_eq (by decide +kernel) (by decide) (fun text => by simp only [List.mem_cons]; tauto)
  have first : (Dialect.bolt.rules.planImports "nextjs" variedDecls).targetImport? =
      some "import \x7b Bolt, Card, Panel, Typography \x7d from '@xala-technologies/ui-system';" := by
    rw [ImportPlan.targetImport?, taken, sorted]
    decide +kernel
  have bolt : Dialect.bolt ∈ Registry.builtin := List.mem_cons_of_mem _ (List.mem_singleton_self _)
  have stable := (targetImport_stable bolt "nextjs" variedDecls ⟨0, 10⟩ "").1 (by decide +kernel)
  exact ⟨first, stable.trans first⟩

/-- A text of the vendor becomes one that the target library does not have, and then one that it has. -/
theorem targetImport_moves :
    let plan := Dialect.bolt.rules.planImports "react"
      [⟨"bolt-ui", ⟨0, 34⟩, "", none, [⟨"BoltText", "BoltText"⟩], none, false⟩]
    plan.targetImport? = some "import \x7b Text \x7d from '@xala-technologies/ui-system';" ∧
      (Dialect.bolt.rules.planImports "react" [plan.targetDecl ⟨0, 52⟩ ""]).targetImport? =
        some "import \x7b Typography \x7d from '@xala-technologies/ui-system';" := by
  decide +kernel

end Conversion
end Refit
