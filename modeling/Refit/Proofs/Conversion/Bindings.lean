import Mathlib.Data.List.Induction
import Refit.Adapter.Basic
import Refit.Proofs.Json.Entries

open List

namespace Refit

open Json

namespace Source

variable {α : Type} [BEq α] [LawfulBEq α]

theorem distinct_concat (items : List α) (item : α) :
    distinct (items ++ [item]) =
      if (distinct items).contains item then distinct items else distinct items ++ [item] := by
  simp [distinct]

theorem mem_distinct {items : List α} {item : α} : item ∈ distinct items ↔ item ∈ items := by
  induction items using List.reverseRecOn with
  | nil => simp [distinct]
  | append_singleton before last ih =>
    rw [distinct_concat]
    split
    · next already =>
        grind
    · simp [ih]

theorem distinct_nodup (items : List α) : (distinct items).Nodup := by
  induction items using List.reverseRecOn with
  | nil => exact nodup_nil
  | append_singleton before last ih =>
    rw [distinct_concat]
    split
    · exact ih
    · next fresh =>
        have unseen : last ∉ distinct before := by simpa using fresh
        refine nodup_append.2 ⟨ih, by simp, ?_⟩
        rintro item member other single rfl
        exact unseen (mem_singleton.1 single ▸ member)

end Source

/-- A declaration gives its source a name. -/
def ImportDecl.Binds (decl : ImportDecl) (name : String) : Prop :=
  decl.defaultName = some name ∨ (∃ binding ∈ decl.named, binding.localName = name) ∨
    decl.namespaceName = some name

namespace Conversion

variable {decl : ImportDecl} {rules : Rules} {entry : String × String}

/-- An import with this content takes the name from its module. -/
def RuntimeGroup.Provides (group : RuntimeGroup) (name : String) : Prop :=
  group.defaultName = some name ∧ name ≠ "" ∨ name ∈ group.names

/-- A module has at most one default export, and it has a name. -/
def SingleDefaults (targets : List (String × RuntimeTarget)) : Prop :=
  ∀ entry ∈ targets, entry.2.isDefault = true → entry.2.name ≠ "" ∧
    ∀ other ∈ targets, other.2.isDefault = true → other.2.moduleName = entry.2.moduleName →
      other.2.name = entry.2.name

instance (targets : List (String × RuntimeTarget)) : Decidable (SingleDefaults targets) :=
  inferInstanceAs (Decidable (∀ _ ∈ _, _))

theorem builtin_singleDefaults {dialect : Dialect} (builtin : dialect ∈ Registry.builtin) (platform : String) :
    SingleDefaults (dialect.rules.targetsOn platform) := by
  have all : ∀ dialect ∈ Registry.builtin, SingleDefaults [] ∧
      ∀ entry ∈ dialect.rules.runtimeTargets, SingleDefaults entry.2 := by decide
  obtain ⟨none, each⟩ := all dialect builtin
  unfold Rules.targetsOn
  cases found : lookup dialect.rules.runtimeTargets platform with
  | none => exact none
  | some targets => exact each _ (mem_of_lookup found)

def groupOf (taken : List RuntimeTarget) (moduleName : String) : RuntimeGroup :=
  let own := taken.filter (·.moduleName = moduleName)
  ⟨(own.filter (·.isDefault)).getLast?.map (·.name), Source.distinct ((own.filter (!·.isDefault)).map (·.name))⟩

def modulesOf (taken : List RuntimeTarget) : List String := Source.distinct (taken.map (·.moduleName))

section Groups

variable {targets : List (String × RuntimeTarget)} {taken : List RuntimeTarget} {moduleName name : String}

theorem mem_modulesOf : moduleName ∈ modulesOf taken ↔ ∃ target ∈ taken, target.moduleName = moduleName := by
  rw [modulesOf, Source.mem_distinct, mem_map]

theorem modulesOf_nodup (taken : List RuntimeTarget) : (modulesOf taken).Nodup := Source.distinct_nodup _

theorem groupOf_other {target : RuntimeTarget} (other : target.moduleName ≠ moduleName) (taken : List RuntimeTarget) :
    groupOf (taken ++ [target]) moduleName = groupOf taken moduleName := by
  simp [groupOf, other]

theorem groupOf_missing (missing : moduleName ∉ modulesOf taken) : groupOf taken moduleName = ⟨none, []⟩ := by
  have none : taken.filter (·.moduleName = moduleName) = [] :=
    filter_eq_nil_iff.2 (fun target member same =>
      missing (mem_modulesOf.2 ⟨target, member, of_decide_eq_true same⟩))
  simp [groupOf, none, Source.distinct]

/-- One more target of a module: it is its default, or it is added to the names unless it is among them. -/
theorem groupOf_concat (taken : List RuntimeTarget) (target : RuntimeTarget) :
    groupOf (taken ++ [target]) target.moduleName =
      if target.isDefault then { groupOf taken target.moduleName with defaultName := some target.name }
      else if (groupOf taken target.moduleName).names.contains target.name then groupOf taken target.moduleName
      else { groupOf taken target.moduleName with names := (groupOf taken target.moduleName).names ++ [target.name] } := by
  cases default : target.isDefault with
  | true => simp [groupOf, default]
  | false =>
    simp only [groupOf, filter_append, map_append]
    simp only [decide_true, filter_cons_of_pos, filter_nil, default, Bool.not_false, map_cons,
      map_nil, Source.distinct_concat]
    split <;> simp_all

theorem mem_names_groupOf : name ∈ (groupOf taken moduleName).names ↔
    ∃ target ∈ taken, target.moduleName = moduleName ∧ target.isDefault = false ∧ target.name = name := by
  simp only [groupOf, Source.mem_distinct, mem_map, mem_filter, decide_eq_true_eq, Bool.not_eq_true']
  exact exists_congr (fun target => by tauto)

theorem of_defaultName_groupOf (is : (groupOf taken moduleName).defaultName = some name) :
    ∃ target ∈ taken, target.moduleName = moduleName ∧ target.isDefault = true ∧ target.name = name := by
  obtain ⟨target, last, rfl⟩ := Option.map_eq_some_iff.1 is
  have member := mem_of_getLast? last
  simp only [mem_filter, decide_eq_true_eq] at member
  exact ⟨target, member.1.1, member.1.2, member.2, rfl⟩

section

variable (single : SingleDefaults targets) (known : ∀ target ∈ taken, ∃ key, (key, target) ∈ targets)
include single known

theorem defaultName_groupOf {target : RuntimeTarget} (member : target ∈ taken)
    (is : target.isDefault = true) : (groupOf taken target.moduleName).defaultName = some target.name := by
  have own : target ∈ (taken.filter (·.moduleName = target.moduleName)).filter (·.isDefault) := by
    simp [member, is]
  cases default : (groupOf taken target.moduleName).defaultName with
  | none =>
    have empty := List.getLast?_eq_none_iff.1 (Option.map_eq_none_iff.1 default)
    exact absurd empty (ne_nil_of_mem own)
  | some name =>
    obtain ⟨last, listed, same, isLast, rfl⟩ := of_defaultName_groupOf default
    obtain ⟨_, inTargets⟩ := known target member
    obtain ⟨_, otherInTargets⟩ := known last listed
    rw [(single _ inTargets is).2 _ otherInTargets isLast same]

theorem provides_groupOf :
    (groupOf taken moduleName).Provides name ↔
      ∃ target ∈ taken, target.moduleName = moduleName ∧ target.name = name := by
  rw [RuntimeGroup.Provides, mem_names_groupOf]
  constructor
  · rintro (⟨is, _⟩ | ⟨target, member, own, _, named⟩)
    · obtain ⟨target, member, own, _, named⟩ := of_defaultName_groupOf is
      exact ⟨target, member, own, named⟩
    · exact ⟨target, member, own, named⟩
  · rintro ⟨target, member, rfl, rfl⟩
    obtain ⟨_, inTargets⟩ := known target member
    cases is : target.isDefault with
    | true => exact .inl ⟨defaultName_groupOf single known member is, (single _ inTargets is).1⟩
    | false => exact .inr ⟨target, member, rfl, is, rfl⟩

end

end Groups

namespace Rules

/-- The names that a declaration brings in from the target library. -/
def brings (rules : Rules) (decl : ImportDecl) : List String :=
  if rules.classify decl.moduleName = .vendor ∧ decl.typeOnly = false then
    ((decl.defaultName.filter (· ≠ "")).toList ++ decl.named.map (·.imported)).map rules.targetName
  else []

/-- What a declaration takes from the vendor: its local names, and what they are in the target library. -/
def takesVendor (rules : Rules) (decl : ImportDecl) : List (String × String) :=
  if rules.classify decl.moduleName = .vendor ∧ decl.typeOnly = false then
    (decl.defaultName.filter (· ≠ "")).toList.map (fun name => (name, rules.targetName name)) ++
      decl.named.map (fun binding => (binding.localName, rules.targetName binding.imported))
  else []

/-- What a declaration takes from the runtime: its local names, and where their targets are. -/
def takesRuntime (rules : Rules) (platform : String) (decl : ImportDecl) : List (String × RuntimeTarget) :=
  if rules.classify decl.moduleName = .runtime then
    decl.named.filterMap (fun binding =>
      (lookup (rules.targetsOn platform) binding.imported).map (fun target => (binding.localName, target)))
  else []

theorem map_takesVendor (rules : Rules) (decl : ImportDecl) : (rules.takesVendor decl).map (·.2) = rules.brings decl := by
  unfold takesVendor brings
  split <;> simp [Function.comp_def]

theorem binds_of_takesVendor (member : entry ∈ rules.takesVendor decl) :
    rules.classify decl.moduleName = .vendor ∧ decl.Binds entry.1 := by
  unfold takesVendor at member
  split at member
  · next isVendor =>
      refine ⟨isVendor.1, ?_⟩
      rcases mem_append.1 member with whole | named
      · obtain ⟨name, is, rfl⟩ := mem_map.1 whole
        exact .inl (Option.filter_eq_some_iff.1 (Option.mem_toList.1 is)).1
      · obtain ⟨binding, listed, rfl⟩ := mem_map.1 named
        exact .inr (.inl ⟨binding, listed, rfl⟩)
  · cases member

theorem mem_takesRuntime {platform : String} {taken : String × RuntimeTarget} :
    taken ∈ rules.takesRuntime platform decl ↔ rules.classify decl.moduleName = .runtime ∧
      ∃ binding ∈ decl.named, binding.localName = taken.1 ∧
        lookup (rules.targetsOn platform) binding.imported = some taken.2 := by
  unfold takesRuntime
  split
  · next isRuntime =>
      simp only [isRuntime, true_and, mem_filterMap, Option.map_eq_some_iff]
      exact exists_congr (fun binding => by grind)
  · next other => simp [other]

end Rules

namespace Draft

/-- A draft that holds what was taken so far from the vendor and from the runtime. -/
structure Holds (vendor : List (String × String)) (runtime : List (String × RuntimeTarget)) (draft : Draft) : Prop where
  targetNames : draft.targetNames = vendor.map (·.2)
  vendorLocals : draft.vendorLocals ⊆ vendor
  groups : draft.groups = (modulesOf (runtime.map (·.2))).map (fun name => (name, groupOf (runtime.map (·.2)) name))
  runtimeLocals : draft.runtimeLocals ⊆ runtime.map (fun taken => (taken.1, taken.2.name))

variable {vendor : List (String × String)} {runtime : List (String × RuntimeTarget)} {draft : Draft}

theorem Holds.mem_targetNames (holds : draft.Holds vendor runtime)
    (member : entry ∈ draft.vendorLocals) : entry.2 ∈ draft.targetNames := by
  rw [holds.targetNames]
  exact mem_map_of_mem (holds.vendorLocals member)

theorem Holds.drop (holds : draft.Holds vendor runtime) (names : List String) :
    (draft.drop names).Holds vendor runtime :=
  ⟨holds.targetNames, holds.vendorLocals, holds.groups, holds.runtimeLocals⟩

theorem Holds.bindVendor (holds : draft.Holds vendor runtime) (localName target : String) :
    (draft.bindVendor localName target).Holds (vendor ++ [(localName, target)]) runtime where
  targetNames := by simp [Draft.bindVendor, holds.targetNames]
  vendorLocals := by
    intro entry member
    rcases mem_of_mem_insert member with rfl | old
    · simp
    · exact mem_append_left _ (holds.vendorLocals old)
  groups := holds.groups
  runtimeLocals := holds.runtimeLocals

theorem groups_withGroup {taken : List RuntimeTarget}
    (groups : draft.groups = (modulesOf taken).map (fun name => (name, groupOf taken name))) (target : RuntimeTarget) :
    (draft.withGroup target).groups =
      (modulesOf (taken ++ [target])).map (fun name => (name, groupOf (taken ++ [target]) name)) := by
  have old : (lookup draft.groups target.moduleName).getD ⟨none, []⟩ = groupOf taken target.moduleName := by
    rw [groups, lookup_map]
    split
    · rfl
    · next missing => exact (groupOf_missing missing).symm
  have modules : modulesOf (taken ++ [target]) = if target.moduleName ∈ modulesOf taken then modulesOf taken
      else modulesOf taken ++ [target.moduleName] := by
    rw [modulesOf, map_append, map_cons, map_nil, Source.distinct_concat]
    exact if_congr contains_iff_mem rfl rfl
  simp only [Draft.withGroup]
  rw [old, ← groupOf_concat, groups, insert_map (modulesOf_nodup taken), modules]
  refine map_congr_left (fun name _ => ?_)
  by_cases same : name = target.moduleName
  · rw [if_pos same, same]
  · rw [if_neg same, groupOf_other (Ne.symm same)]

section

variable (holds : draft.Holds vendor runtime)
include holds

theorem Holds.bindRuntime (localName : String) (target : RuntimeTarget) :
    (draft.bindRuntime localName target).Holds vendor (runtime ++ [(localName, target)]) where
  targetNames := holds.targetNames
  vendorLocals := holds.vendorLocals
  groups := by
    rw [map_append]
    exact groups_withGroup holds.groups target
  runtimeLocals := by
    intro entry member
    rw [map_append]
    rcases mem_of_mem_insert member with rfl | old
    · simp
    · exact mem_append_left _ (holds.runtimeLocals old)

theorem Holds.bindAll (rules : Rules) (bindings : List ImportBinding) :
    (bindings.foldl (fun (draft : Draft) binding =>
      draft.bindVendor binding.localName (rules.targetName binding.imported)) draft).Holds
      (vendor ++ bindings.map (fun binding => (binding.localName, rules.targetName binding.imported))) runtime := by
  induction bindings generalizing draft vendor with
  | nil => simpa using holds
  | cons binding rest ih => simpa using ih (holds.bindVendor binding.localName (rules.targetName binding.imported))

theorem Holds.addVendor (isVendor : rules.classify decl.moduleName = .vendor) :
    (draft.addVendor rules decl).Holds (vendor ++ rules.takesVendor decl) runtime := by
  unfold Draft.addVendor Rules.takesVendor
  cases valued : decl.typeOnly with
  | true => simpa using holds.drop _
  | false =>
    rw [if_pos ⟨isVendor, rfl⟩]
    cases decl.defaultName.filter (· ≠ "") with
    | none =>
      have named := holds.bindAll rules decl.named
      cases decl.namespaceName.filter (· ≠ "") with
      | none => simpa using named
      | some name => simpa using named.drop _
    | some own =>
      have named := (holds.bindVendor own (rules.targetName own)).bindAll rules decl.named
      rw [append_assoc] at named
      cases decl.namespaceName.filter (· ≠ "") with
      | none => exact named
      | some name => exact named.drop _

theorem Holds.addBindings (targets : List (String × RuntimeTarget)) (bindings : List ImportBinding) :
    (bindings.foldl (addRuntimeBinding targets) draft).Holds vendor (runtime ++ bindings.filterMap (fun binding =>
      (lookup targets binding.imported).map (fun target => (binding.localName, target)))) := by
  induction bindings generalizing draft runtime with
  | nil => simpa using holds
  | cons binding rest ih =>
    rw [foldl_cons, addRuntimeBinding]
    cases found : lookup targets binding.imported with
    | none => simpa [found] using ih (holds.drop [binding.imported])
    | some target => simpa [found] using ih (holds.bindRuntime binding.localName target)

theorem Holds.add (rules : Rules) (platform : String) (decl : ImportDecl) :
    (draft.add rules platform decl).Holds (vendor ++ rules.takesVendor decl)
      (runtime ++ rules.takesRuntime platform decl) := by
  unfold Draft.add
  cases kind : rules.classify decl.moduleName with
  | unrelated => simpa [Rules.takesVendor, Rules.takesRuntime, kind] using holds
  | vendor => simpa [Rules.takesRuntime, kind] using holds.addVendor kind
  | runtime =>
    simpa [Rules.takesVendor, Rules.takesRuntime, Draft.addRuntime, kind] using (holds.addBindings _ decl.named).drop _

end

theorem Holds.addAll (rules : Rules) (platform : String) (decls : List ImportDecl) :
    (decls.foldl (Draft.add rules platform) Draft.empty).Holds (decls.flatMap rules.takesVendor)
      (decls.flatMap (rules.takesRuntime platform)) := by
  induction decls using List.reverseRecOn with
  | nil => exact ⟨rfl, nil_subset _, rfl, nil_subset _⟩
  | append_singleton before last ih => simpa using ih.add rules platform last

end Draft

variable {rules : Rules} {platform name target : String} {decls : List ImportDecl}

theorem planImports_targetNames (rules : Rules) (platform : String) (decls : List ImportDecl) :
    (rules.planImports platform decls).targetNames = decls.flatMap rules.brings := by
  have names := (Draft.Holds.addAll rules platform decls).targetNames
  rw [map_flatMap] at names
  simp only [Rules.map_takesVendor] at names
  exact names

theorem vendorLocals_origin (found : lookup (rules.planImports platform decls).vendorLocals name = some target) :
    target ∈ decls.flatMap rules.brings ∧
      ∃ decl ∈ decls, rules.classify decl.moduleName = .vendor ∧ decl.Binds name := by
  obtain ⟨decl, member, taken⟩ :=
    mem_flatMap.1 ((Draft.Holds.addAll rules platform decls).vendorLocals (mem_of_lookup found))
  refine ⟨mem_flatMap.2 ⟨decl, member, ?_⟩, decl, member, Rules.binds_of_takesVendor taken⟩
  rw [← Rules.map_takesVendor]
  exact mem_map_of_mem taken

abbrev Rules.taken (rules : Rules) (platform : String) (decls : List ImportDecl) : List RuntimeTarget :=
  (decls.flatMap (rules.takesRuntime platform)).map (·.2)

theorem known_of_taken : ∀ target ∈ rules.taken platform decls, ∃ key, (key, target) ∈ rules.targetsOn platform := by
  intro target member
  obtain ⟨taken, among, rfl⟩ := mem_map.1 member
  obtain ⟨decl, _, listed⟩ := mem_flatMap.1 among
  obtain ⟨_, binding, _, _, found⟩ := Rules.mem_takesRuntime.1 listed
  exact ⟨binding.imported, mem_of_lookup found⟩

def lineOf (taken : List RuntimeTarget) (moduleName : String) : String :=
  importLine moduleName (groupOf taken moduleName)

theorem planImports_runtimeImports (rules : Rules) (platform : String) (decls : List ImportDecl) :
    (rules.planImports platform decls).runtimeImports =
      (modulesOf (rules.taken platform decls)).map (lineOf (rules.taken platform decls)) := by
  simp only [Rules.planImports]
  rw [(Draft.Holds.addAll rules platform decls).groups, map_map]
  rfl

theorem runtimeLocals_origin (single : SingleDefaults (rules.targetsOn platform))
    (found : lookup (rules.planImports platform decls).runtimeLocals name = some target) :
    (∃ decl ∈ decls, rules.classify decl.moduleName = .runtime ∧ decl.Binds name) ∧
      ∃ entry ∈ rules.targetsOn platform, entry.2.name = target ∧ ∃ group : RuntimeGroup, group.Provides target ∧
        importLine entry.2.moduleName group ∈ (rules.planImports platform decls).runtimeImports := by
  obtain ⟨taken, among, same⟩ :=
    mem_map.1 ((Draft.Holds.addAll rules platform decls).runtimeLocals (mem_of_lookup found))
  obtain ⟨rfl, rfl⟩ := Prod.mk.inj same
  obtain ⟨decl, member, listed⟩ := mem_flatMap.1 among
  obtain ⟨isRuntime, binding, bound, named, known⟩ := Rules.mem_takesRuntime.1 listed
  have inTaken : taken.2 ∈ rules.taken platform decls := mem_map_of_mem among
  refine ⟨⟨decl, member, isRuntime, .inr (.inl ⟨binding, bound, named⟩)⟩, (binding.imported, taken.2),
    mem_of_lookup known, rfl, groupOf (rules.taken platform decls) taken.2.moduleName,
    (provides_groupOf single known_of_taken).2 ⟨taken.2, inTaken, rfl, rfl⟩, ?_⟩
  rw [planImports_runtimeImports]
  exact mem_map_of_mem (mem_modulesOf.2 ⟨taken.2, inTaken, rfl⟩)

end Conversion
end Refit
