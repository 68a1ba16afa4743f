import Mathlib.Data.List.Nodup
import Refit.Adapter.Units
import Refit.Proofs.Json.Entries

open List

namespace Refit

namespace Json

variable {α : Type} {entries : List (String × α)} {key : String} {value : α}

theorem nodup_insert (once : (entries.map Prod.fst).Nodup) (key : String) (value : α) :
    ((insert entries key value).map Prod.fst).Nodup := by
  rw [keys_insert]
  split
  · exact once
  · next new =>
    rw [← concat_eq_append]
    exact once.concat new

theorem mem_insert_iff (once : (entries.map Prod.fst).Nodup) {entry : String × α} :
    entry ∈ insert entries key value ↔ entry = (key, value) ∨ entry ∈ entries ∧ entry.1 ≠ key := by
  induction entries with
  | nil => simp [insert]
  | cons first rest ih =>
    obtain ⟨new, later⟩ := nodup_cons.1 once
    unfold insert
    by_cases here : first.1 = key
    · have others : entry ∈ rest → entry.1 ≠ key := fun member same =>
        new (mem_map.2 ⟨entry, member, same.trans here.symm⟩)
      rw [if_pos here]
      grind
    · rw [if_neg here, mem_cons, ih later]
      grind

end Json

namespace Output

variable {source required versions : Versions} {excluded : List String} {entry : String × String}

theorem require_cons (versions required : Versions) (first : String × String) :
    require versions (first :: required) = require (Json.insert versions first.1 first.2) required := rfl

theorem mem_require (once : (versions.map Prod.fst).Nodup) (apart : (required.map Prod.fst).Nodup) :
    entry ∈ require versions required ↔ entry ∈ required ∨ entry ∈ versions ∧ entry.1 ∉ required.map Prod.fst := by
  induction required generalizing versions with
  | nil => simp [require]
  | cons first required ih =>
    obtain ⟨new, later⟩ := nodup_cons.1 apart
    rw [require_cons, ih (Json.nodup_insert once _ _) later, Json.mem_insert_iff once, map_cons, mem_cons,
      mem_cons]
    grind

theorem nodup_filter (once : (source.map Prod.fst).Nodup) (keep : String × String → Bool) :
    ((source.filter keep).map Prod.fst).Nodup := once.sublist (filter_sublist.map _)

theorem mem_carried (once : (source.map Prod.fst).Nodup) (apart : (required.map Prod.fst).Nodup) :
    entry ∈ carried source required excluded ↔
      entry ∈ required ∨ entry ∈ source ∧ entry.1 ∉ excluded ∧ entry.1 ∉ required.map Prod.fst := by
  rw [carried, sortedByName, (mergeSort_perm _ _).mem_iff, mem_require (nodup_filter once _) apart, mem_filter]
  simp [and_assoc]

theorem required_apart (typed : Bool) (options : Options) :
    ((requiredPackages options ++ requiredTools typed options).map Prod.fst).Nodup := by
  unfold requiredPackages requiredTools
  split_ifs <;> decide

/-- What is required has the required version in its own section. In the other section it stands just as the
    source has it there, unless it is left out. -/
def Settles (required own elsewhere other : Versions) (excluded : List String) : Prop :=
  ∀ name version, (name, version) ∈ required → ∀ found,
    ((name, found) ∈ own ↔ found = version) ∧ ((name, found) ∈ other ↔ (name, found) ∈ elsewhere ∧ name ∉ excluded)

theorem settles_carried {elsewhere more : Versions} (once : (source.map Prod.fst).Nodup)
    (onceMore : (elsewhere.map Prod.fst).Nodup) (apart : (required.map Prod.fst).Nodup)
    (apartMore : (more.map Prod.fst).Nodup) (between : (required.map Prod.fst).Disjoint (more.map Prod.fst)) :
    Settles required (carried source required excluded) elsewhere (carried elsewhere more excluded) excluded := by
  intro name version member found
  have listed : name ∈ required.map Prod.fst := mem_map_of_mem member
  have absent : name ∉ more.map Prod.fst := between listed
  have single : (name, found) ∈ required ↔ found = version := by
    refine ⟨fun other => ?_, fun same => same ▸ member⟩
    exact (Prod.mk.inj (inj_on_of_nodup_map apart other member rfl)).2
  have none : (name, found) ∉ more := fun other => absent (mem_map_of_mem other)
  rw [mem_carried once apart, mem_carried onceMore apartMore]
  exact ⟨by simp [single, listed], by simp only [none, false_or, absent, not_false_iff, and_true]⟩

/-- What the target requires has its version in the section where the target wants it. The other section keeps the
    version that the project has there. -/
theorem manifest_settles {analysis : Analysis} (once : (analysis.dependencies.map Prod.fst).Nodup)
    (onceMore : (analysis.devDependencies.map Prod.fst).Nodup) (options : Options) (description : String)
    (excluded : List String) :
    ∃ packages tools,
      (manifest analysis options description excluded).get? "dependencies" = some (versionsValue packages) ∧
      (manifest analysis options description excluded).get? "devDependencies" = some (versionsValue tools) ∧
      Settles (requiredPackages options) packages analysis.devDependencies tools excluded ∧
      Settles (requiredTools (isTyped analysis options) options) tools analysis.dependencies packages excluded := by
  have apart := required_apart (isTyped analysis options) options
  rw [map_append, nodup_append'] at apart
  obtain ⟨first, second, between⟩ := apart
  exact ⟨_, _, rfl, rfl, settles_carried once onceMore first second between,
    settles_carried onceMore once second first (fun _ second first => between first second)⟩

/-- A project with a package among its tools that the target requires otherwise. -/
def shelf : Analysis :=
  { root := "/project"
    source := "bolt"
    framework := "remix"
    language := "typescript"
    packageManager := "npm"
    layout := { sourceDir := "app", componentsDir := "app/components" }
    dependencies := [("@bolt/core", "^1.0.0"), ("zod", "^3.0.0")]
    devDependencies := [("react", "^17.0.0")] }

theorem manifest_settles_shelf :
    (shelf.dependencies.map Prod.fst).Nodup ∧ (shelf.devDependencies.map Prod.fst).Nodup ∧
      ∃ packages, (manifest shelf (.plain true "/out") "" []).get? "dependencies" = some (versionsValue packages) ∧
        ∀ version, ("react", version) ∈ packages ↔ version = "^18.0.0" := by
  have once : (shelf.dependencies.map Prod.fst).Nodup := by decide
  obtain ⟨packages, _, own, _, settles, _⟩ := manifest_settles once (by decide) (.plain true "/out") "" []
  exact ⟨once, by decide, packages, own, fun version => (settles "react" "^18.0.0" (by decide) version).1⟩

/-- The version that is required in one section does not reach the other. -/
theorem manifest_keeps_conflict :
    ("react", "^18.0.0") ∈ requiredPackages (.plain true "/out") ∧
      ∃ tools, (manifest shelf (.plain true "/out") "" []).get? "devDependencies" = some (versionsValue tools) ∧
        ("react", "^17.0.0") ∈ tools := by
  refine ⟨by decide, _, rfl, (mem_carried (by decide) ?_).2 (.inr (by decide))⟩
  decide

end Output

/-- A package that belongs neither to a framework nor to the target library. -/
def Dialect.Unrelated (dialect : Dialect) (name : String) : Prop :=
  dialect.rules.classify name = .unrelated ∧ name ∉ dialect.profile.dependencies

namespace Workshop

open Output

variable {dialect : Dialect}

/-- A section has what is required there and all that is unrelated in the section of the source, sorted by name. -/
structure Carries (dialect : Dialect) (source required entries : Versions) : Prop where
  unrelated : ∀ entry ∈ entries, entry.1 ≠ Conversion.targetLibrary → dialect.Unrelated entry.1
  fulfilled : ∀ entry ∈ required, entry ∈ entries
  kept : ∀ entry ∈ source, dialect.Unrelated entry.1 → entry.1 ∉ required.map Prod.fst → entry ∈ entries
  only : ∀ entry ∈ entries, entry ∈ required ∨ entry ∈ source
  sorted : entries.Pairwise (fun left right => left.1 < right.1)

end Workshop
end Refit
