import Refit.Proofs.Conversion.Bindings

open List

namespace Refit.Registry

variable {registry : Registry} {seen listed : List String} {entries : List (String × Adapter)}
  {plugins : List (String × (Options → List IgnoreRule → Adapter))}

/-- A registry in which every plugin makes an adapter. -/
def equipped (registry : Registry) (plugins : List (String × (Options → List IgnoreRule → Adapter))) : Registry :=
  { registry with plugins := plugins.map (fun plugin => ⟨plugin.1, .adapter plugin.2⟩) }

/-- The entries under names that were not there before, in any case. -/
def firsts : List String → List (String × Adapter) → List (String × Adapter)
  | _, [] => []
  | seen, entry :: rest =>
    if Text.lower entry.1 ∈ seen then firsts seen rest
    else entry :: firsts (Text.lower entry.1 :: seen) rest

def offered (registry : Registry) (plugins : List (String × (Options → List IgnoreRule → Adapter))) :
    List (String × Adapter) :=
  plugins.map (fun plugin => (plugin.1, plugin.2 registry.options registry.rules))

/-- The adapters of an equipped registry, each with the name under which it is there. -/
def discovered (registry : Registry) (plugins : List (String × (Options → List IgnoreRule → Adapter))) :
    List (String × Adapter) :=
  builtin.map (fun dialect => (dialect.name, registry.ofDialect dialect)) ++
    firsts (builtin.map (fun dialect => Text.lower dialect.name)) (registry.offered plugins)

theorem load_eq (seen : List String) :
    registry.load seen (plugins.map (fun plugin => ⟨plugin.1, .adapter plugin.2⟩)) =
      .ok ((firsts seen (registry.offered plugins)).map Prod.snd) := by
  unfold offered
  induction plugins generalizing seen with
  | nil => rfl
  | cons plugin rest ih =>
    rw [map_cons, map_cons, load, firsts]
    by_cases known : Text.lower plugin.1 ∈ seen
    · simp [known, ih]
    · simp [known, ih, bind, Except.bind, pure, Except.pure]

theorem adapters_equipped :
    (registry.equipped plugins).adapters = .ok ((registry.discovered plugins).map Prod.snd) := by
  have loaded : (registry.equipped plugins).load (builtin.map (fun dialect => Text.lower dialect.name))
      (registry.equipped plugins).plugins = _ := load_eq _
  rw [adapters, loaded, discovered, map_append, map_map]
  rfl

theorem firsts_apart (seen : List String) (entries : List (String × Adapter)) :
    ((firsts seen entries).map (fun entry => Text.lower entry.1)).Nodup ∧
      ∀ entry ∈ firsts seen entries, Text.lower entry.1 ∉ seen := by
  induction entries generalizing seen with
  | nil => simp [firsts]
  | cons entry rest ih =>
    rw [firsts]
    split
    · exact ih seen
    · next new =>
      obtain ⟨apart, fresh⟩ := ih (Text.lower entry.1 :: seen)
      refine ⟨nodup_cons.2 ⟨fun again => ?_, apart⟩, forall_mem_cons.2 ⟨new, fun other member old => ?_⟩⟩
      · obtain ⟨other, member, same⟩ := mem_map.1 again
        exact fresh other member (same ▸ mem_cons_self ..)
      · exact fresh other member (mem_cons_of_mem _ old)

theorem discovered_apart : ((registry.discovered plugins).map (fun entry => Text.lower entry.1)).Nodup := by
  obtain ⟨apart, fresh⟩ := firsts_apart (builtin.map (fun dialect => Text.lower dialect.name)) (registry.offered plugins)
  have builtin : (builtin.map (fun dialect => Text.lower dialect.name)).Nodup := by decide +kernel
  rw [discovered, map_append, map_map]
  refine nodup_append'.2 ⟨builtin, apart, fun key old new => ?_⟩
  obtain ⟨entry, member, rfl⟩ := mem_map.1 new
  exact fresh entry member old

/-- Where names that differ do so not only in case, those that come first up to case are all that come first. -/
theorem foldl_eq_firsts (known : ∀ key, key ∈ seen ↔ key ∈ listed.map Text.lower)
    (apart : ∀ first ∈ listed ++ entries.map Prod.fst, ∀ second ∈ listed ++ entries.map Prod.fst,
      Text.lower first = Text.lower second → first = second) :
    (entries.map Prod.fst).foldl (fun seen item => if seen.contains item then seen else seen ++ [item]) listed =
      listed ++ (firsts seen entries).map Prod.fst := by
  induction entries generalizing seen listed with
  | nil => simp [firsts]
  | cons entry rest ih =>
    have same : Text.lower entry.1 ∈ seen ↔ entry.1 ∈ listed := by
      rw [known, mem_map]
      refine ⟨fun ⟨other, member, equal⟩ => ?_, fun member => ⟨_, member, rfl⟩⟩
      exact apart other (by simp [member]) entry.1 (by simp) equal ▸ member
    rw [map_cons, foldl_cons, firsts]
    by_cases old : entry.1 ∈ listed
    · rw [if_pos (by simpa using old), if_pos (same.2 old)]
      exact ih known (fun first one second two => apart first (by grind) second (by grind))
    · have more : ∀ key, key ∈ Text.lower entry.1 :: seen ↔ key ∈ (listed ++ [entry.1]).map Text.lower := by
        simp [known, or_comm]
      rw [if_neg (by simpa using old), if_neg (mt same.1 old), ih more (by simpa using apart)]
      simp

theorem names_eq_iff : ((registry.equipped plugins).names.map Text.lower).Nodup ↔
    (registry.equipped plugins).names = (registry.discovered plugins).map Prod.fst := by
  have all : (registry.equipped plugins).names =
      Source.distinct (builtin.map (·.name) ++ (registry.offered plugins).map Prod.fst) := by
    rw [names, equipped, offered, map_map, map_map]
    rfl
  refine ⟨fun once => ?_, fun same => ?_⟩
  · have apart := fun first one second two =>
      inj_on_of_nodup_map once (all ▸ Source.mem_distinct.2 one : first ∈ _) (all ▸ Source.mem_distinct.2 two : second ∈ _)
    have own : (builtin.map (·.name)).foldl (fun seen item => if seen.contains item then seen else seen ++ [item]) [] =
        builtin.map (·.name) := by decide
    rw [all, Source.distinct, foldl_append, own, discovered, map_append, map_map]
    exact foldl_eq_firsts (by simp) apart
  · have once := @discovered_apart registry plugins
    rwa [same, map_map]

theorem find_equipped (text : String) : (registry.equipped plugins).find text =
    match (registry.discovered plugins).find? (fun entry => decide (Text.lower entry.2.name = Text.lower text)) with
    | some entry => .ok entry.2
    | none => .error (.unknown text) := by
  rw [find, adapters_equipped]
  simp only [bind, Except.bind, find?_map, Function.comp_def]
  cases (registry.discovered plugins).find? (fun entry => decide (Text.lower entry.2.name = Text.lower text)) <;> rfl

theorem find_iff :
    (∀ entry ∈ registry.discovered plugins, ∀ text, Text.lower text = Text.lower entry.1 →
      (registry.equipped plugins).find text = .ok entry.2) ↔
    ∀ entry ∈ registry.discovered plugins, Text.lower entry.2.name = Text.lower entry.1 := by
  refine ⟨fun accepts entry member => ?_, fun faithful entry member text same => ?_⟩
  · have found := accepts entry member entry.1 rfl
    rw [find_equipped] at found
    split at found
    · next other first =>
      rw [← Except.ok.inj found]
      simpa using List.find?_some first
    · cases found
  · rw [find_equipped]
    split
    · next other first =>
      have there := mem_of_find?_eq_some first
      have is : Text.lower other.2.name = Text.lower text := by simpa using List.find?_some first
      rw [inj_on_of_nodup_map discovered_apart there member ((faithful other there).symm.trans (is.trans same))]
    · next missing =>
      exact absurd ((faithful entry member).trans same.symm) (by simpa using find?_eq_none.1 missing entry member)

/-- One name is listed for each adapter, in order, exactly if no two of the names differ only in case; and
    every adapter is found under its name, in any case, exactly if all call themselves what they are called. -/
theorem names_resolve (registry : Registry) (plugins : List (String × (Options → List IgnoreRule → Adapter))) :
    (registry.equipped plugins).adapters = .ok ((registry.discovered plugins).map Prod.snd) ∧
      (((registry.equipped plugins).names.map Text.lower).Nodup ↔
        (registry.equipped plugins).names = (registry.discovered plugins).map Prod.fst) ∧
      ((∀ entry ∈ registry.discovered plugins, ∀ text, Text.lower text = Text.lower entry.1 →
          (registry.equipped plugins).find text = .ok entry.2) ↔
        ∀ entry ∈ registry.discovered plugins, Text.lower entry.2.name = Text.lower entry.1) :=
  ⟨adapters_equipped, names_eq_iff, find_iff⟩

/-- A registry with plugins under names for adapters that give themselves other names. -/
def clashing : Registry :=
  let calling (own : String) : Options → List IgnoreRule → Adapter := fun options rules =>
    { Adapter.ofWorkshop ⟨.lovable, options, rules, fun name _ => .ok name⟩ with name := own }
  equipped ⟨.plain false "/out", [], fun name _ => .ok name, []⟩
    [("Custom", calling "custom"), ("custom", calling "custom"), ("alias", calling "other")]

/-- Names that differ only in case are listed for one adapter, and a plugin under another name than its adapter's
    own is listed and not found. -/
theorem names_clash :
    clashing.names = ["lovable", "bolt", "Custom", "custom", "alias"] ∧
      (clashing.adapters.map (·.map (·.name))).toOption = some ["lovable", "bolt", "custom", "other"] ∧
      (clashing.find "alias").map (·.name) = .error (.unknown "alias") := by
  decide +kernel

end Refit.Registry
