import Mathlib.Data.List.Nodup
import Refit.Json.Value

open List

namespace Refit.Json

variable {α : Type} {entries : List (String × α)} {key : String} {value : α}

theorem lookup_insert (entries : List (String × α)) (key other : String) (value : α) :
    lookup (insert entries key value) other = if other = key then some value else lookup entries other := by
  induction entries with
  | nil => by_cases same : key = other <;> simp [insert, lookup, eq_comm]
  | cons entry rest ih =>
    unfold insert
    by_cases here : entry.1 = key
    · rw [if_pos here]
      by_cases same : other = key
      · simp [lookup, same]
      · simp [lookup, here, same, Ne.symm same]
    · rw [if_neg here]
      by_cases same : entry.1 = other
      · have different : other ≠ key := same ▸ here
        simp [lookup, same, different]
      · simpa [lookup, same] using ih

theorem keys_insert (entries : List (String × α)) (key : String) (value : α) :
    (insert entries key value).map Prod.fst =
      if key ∈ entries.map Prod.fst then entries.map Prod.fst else entries.map Prod.fst ++ [key] := by
  induction entries with
  | nil => rfl
  | cons entry rest ih =>
    unfold insert
    by_cases here : entry.1 = key
    · simp [here]
    · have other : key ≠ entry.1 := Ne.symm here
      rw [if_neg here, map_cons, ih]
      by_cases later : key ∈ rest.map Prod.fst <;> simp [later, other]

theorem mem_keys_insert {other : String} :
    other ∈ (insert entries key value).map Prod.fst ↔ other = key ∨ other ∈ entries.map Prod.fst := by
  rw [keys_insert]
  split
  · next there => exact ⟨.inr, fun either => either.elim (· ▸ there) id⟩
  · rw [mem_append, mem_singleton, or_comm]

theorem mem_of_lookup (found : lookup entries key = some value) : (key, value) ∈ entries := by
  obtain ⟨entry, first, rfl⟩ := Option.map_eq_some_iff.1 found
  have same : entry.1 = key := by simpa using List.find?_some first
  exact same ▸ mem_of_find?_eq_some first

theorem lookup_of_mem (once : (entries.map Prod.fst).Nodup) (member : (key, value) ∈ entries) :
    lookup entries key = some value := by
  cases found : lookup entries key with
  | none => simpa using find?_eq_none.1 (Option.map_eq_none_iff.1 found) _ member
  | some other =>
    obtain ⟨_, same⟩ := Prod.mk.inj (inj_on_of_nodup_map once (mem_of_lookup found) member rfl)
    rw [same]

theorem insert_insert (entries : List (String × α)) (key : String) (old value : α) :
    insert (insert entries key old) key value = insert entries key value := by
  induction entries with
  | nil => simp [insert]
  | cons entry rest ih => by_cases here : entry.1 = key <;> simp [insert, here, ih]

theorem mem_of_mem_insert {entry : String × α} (member : entry ∈ insert entries key value) :
    entry = (key, value) ∨ entry ∈ entries := by
  induction entries with
  | nil => exact .inl (mem_singleton.1 member)
  | cons first rest ih =>
    unfold insert at member
    split at member
    · rcases mem_cons.1 member with here | later
      · exact .inl here
      · exact .inr (mem_cons_of_mem _ later)
    · rcases mem_cons.1 member with rfl | later
      · exact .inr (mem_cons_self ..)
      · exact (ih later).imp_right (mem_cons_of_mem _)

variable {keys : List String} {f : String → α}

theorem lookup_map (keys : List String) (f : String → α) (key : String) :
    lookup (keys.map (fun key => (key, f key))) key = if key ∈ keys then some (f key) else none := by
  induction keys with
  | nil => rfl
  | cons first rest ih =>
    by_cases here : first = key
    · simp [lookup, here]
    · have other : key ≠ first := Ne.symm here
      simpa [lookup, here, other] using ih

theorem insert_map (distinct : keys.Nodup) (key : String) (value : α) :
    insert (keys.map (fun key => (key, f key))) key value =
      (if key ∈ keys then keys else keys ++ [key]).map (fun other => (other, if other = key then value else f other)) := by
  induction keys with
  | nil => simp [insert]
  | cons first rest ih =>
    obtain ⟨once, later⟩ := nodup_cons.1 distinct
    rw [map_cons, insert]
    by_cases here : first = key
    · subst here
      have others : ∀ other ∈ rest, other ≠ first := fun other member same => once (same ▸ member)
      simpa using fun other member same => absurd same (others other member)
    · have different : key ≠ first := Ne.symm here
      rw [ih later]
      by_cases listed : key ∈ rest <;> simp [listed, here, different]

end Refit.Json
