import Refit.Proofs.Conversion.Stability
import Refit.Proofs.Text.Pieces

/-!
What an import plan brings in. The declarations of a source are parted by the kinds of their modules, and
the new imports bring in every name that the plan puts in the place of a local one, each of them once.
-/

open List

namespace Refit

open Text

namespace Conversion

variable {target : RuntimeTarget} {group : RuntimeGroup} {name : String} {c : Char}

def isNameChar (c : Char) : Bool := c.isAlphanum || c = '_' || c = '$'

def words (text : List Char) : List (List Char) :=
  (splitChars (fun c => !isNameChar c) text).filter (· ≠ [])

/-- The names that an import binds, as it is written: the words between the first one and `from`. -/
def boundNames (line : String) : List String :=
  (((words line.toList).drop 1).takeWhile (· ≠ "from".toList)).map String.ofList

/-- The module of an import, as it is written: the last text in quotes. -/
def importedModule (line : String) : String :=
  String.ofList (((splitChars (· = '\'') line.toList).reverse.drop 1).headD [])

/-- A text that is read as one name. -/
def IsName (name : String) : Prop :=
  name ≠ "" ∧ name ≠ "from" ∧ name.toList.all isNameChar = true

instance (name : String) : Decidable (IsName name) := inferInstanceAs (Decidable (_ ∧ _ ∧ _))

theorem words_at (first second : List Char) (apart : isNameChar c = false) :
    words (first ++ c :: second) = words first ++ words second := by
  rw [words, splitChars_at first second (by simp [apart]), filter_append]
  rfl

theorem words_skip (text : List Char) (apart : isNameChar c = false) : words (c :: text) = words text :=
  words_at [] text apart

theorem words_name {name : List Char} (some : name ≠ []) (plain : name.all isNameChar = true) :
    words name = [name] := by
  have whole : splitChars (fun c => !isNameChar c) name = [name] :=
    splitChars_of_none (fun c member => by simp [all_eq_true.1 plain c member])
  simp [words, whole, some]

theorem words_intercalate (texts : List String) :
    words (String.intercalate ", " texts).toList = texts.flatMap (fun text => words text.toList) := by
  induction texts with
  | nil => rfl
  | cons first rest ih =>
    cases rest with
    | nil => simp
    | cons next others =>
      have joined : (String.intercalate ", " (first :: next :: others)).toList =
          first.toList ++ ',' :: ' ' :: (String.intercalate ", " (next :: others)).toList := by
        simp
      rw [joined, words_at _ _ (by decide), words_skip _ (by decide), ih]
      rfl

theorem words_names {names : List String} (plain : ∀ name ∈ names, IsName name) :
    names.flatMap (fun name => words name.toList) = names.map String.toList := by
  induction names with
  | nil => rfl
  | cons name rest ih =>
    obtain ⟨some, _, chars⟩ := plain name (by simp)
    rw [flatMap_cons, words_name (by simpa using some) chars, ih (fun other member => plain other (by simp [member]))]
    rfl

/-- The names that an import with this content binds, the default before the others. -/
def RuntimeGroup.bound (group : RuntimeGroup) : List String :=
  group.defaultName.toList.filter (· ≠ "") ++ group.names

theorem RuntimeGroup.mem_bound : name ∈ group.bound ↔ group.Provides name := by
  simp [bound, Provides]

theorem words_importLine (moduleName : String) (group : RuntimeGroup) :
    ∃ rest, words (importLine moduleName group).toList =
      "import".toList :: group.bound.flatMap (fun name => words name.toList) ++ "from".toList :: rest := by
  have braces (text : String) : words ("\x7b " ++ text ++ " \x7d").toList = words text.toList := by
    have chars : ("\x7b " ++ text ++ " \x7d").toList = '\x7b' :: ' ' :: (text.toList ++ ' ' :: ['\x7d']) := by simp
    rw [chars, words_skip _ (by decide), words_skip _ (by decide), words_at _ _ (by decide)]
    exact append_nil _
  have line (content : String) : ("import " ++ content ++ " from '" ++ moduleName ++ "';").toList =
      "import".toList ++ ' ' :: (content.toList ++ ' ' :: ("from".toList ++ ' ' :: ('\'' :: (moduleName ++ "';").toList))) := by
    simp
  simp only [importLine]
  rw [line, words_at _ _ (by decide), words_at _ _ (by decide), words_at _ _ (by decide), words_intercalate,
    words_name (by decide) (by decide), words_name (by decide) (by decide), flatMap_append]
  have named : (if group.names.isEmpty then [] else
      ["\x7b " ++ String.intercalate ", " group.names ++ " \x7d"]).flatMap (fun text => words text.toList) =
      group.names.flatMap (fun name => words name.toList) := by
    cases names : group.names with
    | nil => rfl
    | cons first others => simpa using (braces _).trans (words_intercalate (first :: others))
  rw [named, RuntimeGroup.bound]
  cases group.defaultName with
  | none => simp
  | some name => by_cases empty : name = "" <;> simp [empty]

theorem boundNames_importLine (plain : ∀ name ∈ group.bound, IsName name) (moduleName : String) :
    boundNames (importLine moduleName group) = group.bound := by
  obtain ⟨rest, read⟩ := words_importLine moduleName group
  have before : ∀ word ∈ group.bound.map String.toList, decide (word ≠ "from".toList) = true := by
    rintro word member
    obtain ⟨name, listed, rfl⟩ := mem_map.1 member
    exact decide_eq_true (fun same => (plain name listed).2.1 (String.toList_inj.1 same))
  rw [boundNames, read, words_names plain, cons_append, drop_one, tail_cons,
    takeWhile_append_of_pos before, takeWhile_cons_of_neg (by simp), append_nil, map_map]
  simp

theorem importedModule_importLine {moduleName : String} (clear : '\'' ∉ moduleName.toList) (group : RuntimeGroup) :
    importedModule (importLine moduleName group) = moduleName := by
  have line (content : String) : ("import " ++ content ++ " from '" ++ moduleName ++ "';").toList =
      ("import " ++ content ++ " from ").toList ++ '\'' :: (moduleName.toList ++ '\'' :: [';']) := by
    simp
  have whole : splitChars (· = '\'') moduleName.toList = [moduleName.toList] :=
    splitChars_of_none (fun c member => decide_eq_false (fun same => clear (same ▸ member)))
  simp only [importedModule, importLine]
  rw [line, splitChars_at _ _ (by simp), splitChars_at _ _ (by simp), whole]
  simp [splitChars]

/-- Targets that can be told apart in the lines that import them: a name belongs to one module, and is its default
    export or another one. -/
def Legible (targets : List (String × RuntimeTarget)) : Prop :=
  ∀ entry ∈ targets, IsName entry.2.name ∧ '\'' ∉ entry.2.moduleName.toList ∧
    ∀ other ∈ targets, other.2.name = entry.2.name →
      other.2.moduleName = entry.2.moduleName ∧ other.2.isDefault = entry.2.isDefault

instance (targets : List (String × RuntimeTarget)) : Decidable (Legible targets) :=
  inferInstanceAs (Decidable (∀ _ ∈ _, _))

theorem builtin_legible {dialect : Dialect} (builtin : dialect ∈ Registry.builtin) (platform : String) :
    Legible (dialect.rules.targetsOn platform) := by
  have all : ∀ dialect ∈ Registry.builtin, ∀ entry ∈ dialect.rules.runtimeTargets, Legible entry.2 := by
    decide +kernel
  unfold Rules.targetsOn
  cases found : Json.lookup dialect.rules.runtimeTargets platform with
  | none => simp [Legible]
  | some targets => exact all dialect builtin _ (Json.mem_of_lookup found)

section Content

variable {targets : List (String × RuntimeTarget)} {taken : List RuntimeTarget} {moduleName name : String}

theorem nodup_bound_groupOf (legible : Legible targets) (known : ∀ target ∈ taken, ∃ key, (key, target) ∈ targets) :
    (groupOf taken moduleName).bound.Nodup := by
  have names : (groupOf taken moduleName).names.Nodup := Source.distinct_nodup _
  refine nodup_append.2 ⟨List.Nodup.filter _ ?_, names, ?_⟩
  · cases (groupOf taken moduleName).defaultName <;> simp
  · rintro name default other named rfl
    obtain ⟨target, member, _, is, rfl⟩ :=
      of_defaultName_groupOf (Option.mem_toList.1 (mem_filter.1 default).1)
    obtain ⟨same, listed, _, isNot, equal⟩ := mem_names_groupOf.1 named
    obtain ⟨_, inTargets⟩ := known target member
    obtain ⟨_, otherInTargets⟩ := known same listed
    have both := ((legible _ inTargets).2.2 _ otherInTargets equal).2
    rw [isNot, is] at both
    cases both

theorem boundNames_lineOf (single : SingleDefaults targets) (legible : Legible targets)
    (known : ∀ target ∈ taken, ∃ key, (key, target) ∈ targets) (moduleName : String) :
    boundNames (lineOf taken moduleName) = (groupOf taken moduleName).bound := by
  refine boundNames_importLine (fun name member => ?_) moduleName
  obtain ⟨target, among, _, rfl⟩ := (provides_groupOf single known).1 (RuntimeGroup.mem_bound.1 member)
  obtain ⟨_, inTargets⟩ := known target among
  exact (legible _ inTargets).1

theorem importedModule_lineOf (legible : Legible targets) (known : ∀ target ∈ taken, ∃ key, (key, target) ∈ targets)
    (member : moduleName ∈ modulesOf taken) : importedModule (lineOf taken moduleName) = moduleName := by
  obtain ⟨target, among, rfl⟩ := mem_modulesOf.1 member
  obtain ⟨_, inTargets⟩ := known target among
  exact importedModule_importLine (legible _ inTargets).2.1 _

/-- A name has one module, so the line of that module is the only one that binds it. -/
theorem countP_lineOf (single : SingleDefaults targets) (legible : Legible targets)
    (known : ∀ target ∈ taken, ∃ key, (key, target) ∈ targets) (member : target ∈ taken) :
    ((modulesOf taken).map (lineOf taken)).countP (fun line => target.name ∈ boundNames line) = 1 := by
  have only (moduleName : String) :
      target.name ∈ (groupOf taken moduleName).bound ↔ moduleName = target.moduleName := by
    rw [RuntimeGroup.mem_bound, provides_groupOf single known]
    constructor
    · rintro ⟨other, listed, rfl, named⟩
      obtain ⟨_, inTargets⟩ := known target member
      obtain ⟨_, otherInTargets⟩ := known other listed
      exact ((legible _ inTargets).2.2 _ otherInTargets named).1
    · rintro rfl
      exact ⟨target, member, rfl, rfl⟩
  rw [countP_map]
  simp only [Function.comp_def, boundNames_lineOf single legible known, only]
  exact count_eq_one_of_mem (modulesOf_nodup taken) (mem_modulesOf.2 ⟨target, member, rfl⟩)

end Content

/-- A declaration takes a name of the runtime that has this target. -/
def Rules.Reaches (rules : Rules) (platform : String) (decls : List ImportDecl) (target : RuntimeTarget) : Prop :=
  ∃ decl ∈ decls, rules.classify decl.moduleName = .runtime ∧ ∃ binding ∈ decl.named,
    Json.lookup (rules.targetsOn platform) binding.imported = some target

variable {rules : Rules} {platform : String} {decls : List ImportDecl}

theorem mem_taken :
    target ∈ rules.taken platform decls ↔ rules.Reaches platform decls target := by
  simp only [mem_map, mem_flatMap, Rules.mem_takesRuntime]
  constructor
  · rintro ⟨taken, ⟨decl, member, kind, binding, among, _, found⟩, rfl⟩
    exact ⟨decl, member, kind, binding, among, found⟩
  · rintro ⟨decl, member, kind, binding, among, found⟩
    exact ⟨(binding.localName, target), ⟨decl, member, kind, binding, among, rfl, found⟩, rfl⟩

theorem targetImport?_eq (plan : ImportPlan) :
    plan.targetImport? = if sortedDistinct plan.targetNames = [] then none else
      some ("import \x7b " ++ String.intercalate ", " (sortedDistinct plan.targetNames) ++ " \x7d from '" ++
        targetLibrary ++ "';") := by
  have empty : sortedDistinct plan.targetNames = [] ↔ plan.targetNames = [] := by
    simp only [eq_nil_iff_forall_not_mem, mem_sortedDistinct]
  unfold ImportPlan.targetImport?
  by_cases none : plan.targetNames = []
  · rw [if_pos (empty.2 none), if_pos (by simpa using none)]
  · have some : sortedDistinct plan.targetNames ≠ [] := fun nothing => none (empty.1 nothing)
    rw [if_neg some, if_neg (by simpa using none)]
    exact congrArg Option.some (String.ext (by simp [importLine, some]))

theorem mem_brings : name ∈ decls.flatMap rules.brings ↔
    ∃ decl ∈ decls, rules.classify decl.moduleName = .vendor ∧ decl.typeOnly = false ∧
      ∃ own, (decl.defaultName = some own ∧ own ≠ "" ∨ ∃ binding ∈ decl.named, binding.imported = own) ∧
        rules.targetName own = name := by
  simp only [mem_flatMap, Rules.brings_eq, Rules.takes]
  refine exists_congr (fun decl => and_congr_right (fun _ => ?_))
  split
  · next kind => simp only [kind, true_and, mem_map, mem_append, Option.mem_toList, Option.filter_eq_some_iff, decide_eq_true_eq]
  · next kind =>
      simp only [map_nil, not_mem_nil, false_iff]
      exact fun reads => kind ⟨reads.1, reads.2.1⟩

/-- A plan that parts the declarations by their kinds, and whose imports bring in exactly the names that the
    declarations call for. -/
structure Planned (rules : Rules) (platform : String) (decls : List ImportDecl) (plan : ImportPlan) : Prop where
  parted : (plan.passedThrough ++ plan.replaced).Perm decls
  passed : plan.passedThrough.Sublist decls ∧
    ∀ decl ∈ plan.passedThrough, rules.classify decl.moduleName = .unrelated
  replaced : plan.replaced.Sublist decls ∧ ∀ decl ∈ plan.replaced, rules.classify decl.moduleName ≠ .unrelated
  target : ∃ names : List String, names.Nodup ∧
    plan.targetImport? = (if names = [] then none else
      some ("import \x7b " ++ String.intercalate ", " names ++ " \x7d from '" ++ targetLibrary ++ "';")) ∧
    (∀ entry ∈ plan.vendorLocals, entry.2 ∈ names) ∧
    ∀ name, name ∈ names ↔
      ∃ decl ∈ decls, rules.classify decl.moduleName = .vendor ∧ decl.typeOnly = false ∧
        ∃ own, (decl.defaultName = some own ∧ own ≠ "" ∨ ∃ binding ∈ decl.named, binding.imported = own) ∧
          rules.targetName own = name
  bound : ∀ entry ∈ plan.runtimeLocals, plan.runtimeImports.countP (fun line => entry.2 ∈ boundNames line) = 1
  modules : (plan.runtimeImports.map importedModule).Nodup ∧
    ∀ moduleName, moduleName ∈ plan.runtimeImports.map importedModule ↔
      ∃ target, rules.Reaches platform decls target ∧ target.moduleName = moduleName
  lines : ∀ line ∈ plan.runtimeImports, (boundNames line).Nodup ∧
    ∀ name, name ∈ boundNames line ↔
      ∃ target, rules.Reaches platform decls target ∧ target.moduleName = importedModule line ∧ target.name = name

/-- The plan of a built-in dialect brings in each name that it puts in the place of another one by exactly
    one import, and nothing that the declarations do not call for. -/
theorem planImports_planned {dialect : Dialect} (builtin : dialect ∈ Registry.builtin) (platform : String)
    (decls : List ImportDecl) :
    Planned dialect.rules platform decls (dialect.rules.planImports platform decls) := by
  have single := builtin_singleDefaults builtin platform
  have legible := builtin_legible builtin platform
  have holds := Draft.Holds.addAll dialect.rules platform decls
  have lines := planImports_runtimeImports dialect.rules platform decls
  have known := @known_of_taken dialect.rules platform decls
  have modules : (dialect.rules.planImports platform decls).runtimeImports.map importedModule =
      modulesOf (dialect.rules.taken platform decls) := by
    rw [lines, map_map]
    exact (map_congr_left (fun _ member => importedModule_lineOf legible known member)).trans (map_id' _)
  refine ⟨filter_append_perm _ decls, ⟨filter_sublist, ?_⟩, ⟨filter_sublist, ?_⟩,
    ⟨_, sortedDistinct_nodup _, targetImport?_eq _, ?_, ?_⟩, ?_, ⟨modules ▸ modulesOf_nodup _, ?_⟩, ?_⟩
  · exact fun decl member => of_decide_eq_true (mem_filter.1 member).2
  · intro decl member unrelated
    have other := (mem_filter.1 member).2
    simp [Rules.isUnrelated, unrelated] at other
  · exact fun entry member => mem_sortedDistinct.2 (holds.mem_targetNames member)
  · intro name
    rw [mem_sortedDistinct, planImports_targetNames, mem_brings]
  · intro entry member
    obtain ⟨first, among, rfl⟩ := mem_map.1 (holds.runtimeLocals member)
    rw [lines]
    exact countP_lineOf single legible known (mem_map_of_mem among)
  · intro moduleName
    rw [modules, mem_modulesOf]
    exact exists_congr (fun target => and_congr_left (fun _ => mem_taken))
  · intro line member
    rw [lines] at member
    obtain ⟨moduleName, listed, rfl⟩ := mem_map.1 member
    rw [boundNames_lineOf single legible known, importedModule_lineOf legible known listed]
    refine ⟨nodup_bound_groupOf legible known, fun name => ?_⟩
    rw [RuntimeGroup.mem_bound, provides_groupOf single known]
    exact exists_congr (fun target => and_congr_left (fun _ => mem_taken))

/-- Imports that take names of two modules of the platform in turn, some of them twice and under other names. -/
def turnedDecls : List ImportDecl :=
  [⟨"@remix-run/react", ⟨0, 10⟩, "", some "Remix", [⟨"useParams", "useParams"⟩, ⟨"NavLink", "Nav"⟩, ⟨"Form", "Form"⟩], none, false⟩,
   ⟨"react", ⟨11, 20⟩, "", some "React", [], none, false⟩,
   ⟨"bolt-ui", ⟨21, 30⟩, "", some "BoltPanel", [⟨"Text", "Label"⟩], some "all", false⟩,
   ⟨"@remix-run/react", ⟨31, 40⟩, "", none,
     [⟨"useNavigate", "go"⟩, ⟨"Link", "Link"⟩, ⟨"useParams", "params"⟩, ⟨"useLocation", "Nav"⟩], none, false⟩]

theorem planImports_planned_turned :
    Dialect.bolt ∈ Registry.builtin ∧
      (Dialect.bolt.rules.planImports "nextjs" turnedDecls).runtimeImports =
        ["import \x7b useParams, useRouter, usePathname \x7d from 'next/navigation';", "import Link from 'next/link';"] ∧
      (Dialect.bolt.rules.planImports "nextjs" turnedDecls).runtimeLocals =
        [("useParams", "useParams"), ("Nav", "usePathname"), ("go", "useRouter"), ("Link", "Link"),
         ("params", "useParams")] ∧
      Planned Dialect.bolt.rules "nextjs" turnedDecls (Dialect.bolt.rules.planImports "nextjs" turnedDecls) := by
  have bolt : Dialect.bolt ∈ Registry.builtin := mem_cons_of_mem _ (mem_singleton_self _)
  exact ⟨bolt, by decide +kernel, by decide +kernel, planImports_planned bolt "nextjs" turnedDecls⟩

end Conversion
end Refit
