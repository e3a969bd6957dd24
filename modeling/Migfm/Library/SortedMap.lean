import Mathlib.Data.List.Sort
import Mathlib.Data.List.Dedup

/-! A map as a list of pairs, of which the first with a name counts, and its entries in the order of their names. -/
namespace Migfm.Library.SortedMap

variable {κ α β : Type*} [DecidableEq κ] {pairs : List (κ × α)}

def find (pairs : List (κ × α)) (name : κ) : Option (κ × α) := pairs.find? fun pair => pair.1 = name

theorem find_named {name : κ} {pair : κ × α} (found : find pairs name = some pair) : pair.1 = name := by
  rw [find] at found
  simpa using List.find?_some found

theorem find_isSome {name : κ} (listed : name ∈ pairs.map Prod.fst) : ∃ pair, find pairs name = some pair := by
  obtain ⟨pair,member,rfl⟩ := List.mem_map.mp listed
  apply Option.isSome_iff_exists.mp
  rw [find,List.find?_isSome]
  exact ⟨pair,member,decide_eq_true rfl⟩

theorem find_map (f : α → β) (name : κ) :
    find (pairs.map fun pair => (pair.1,f pair.2)) name = (find pairs name).map fun pair => (pair.1,f pair.2) := by
  rw [find,List.find?_map]
  rfl

/-- Of distinct names it does not matter which pair is first. -/
theorem find_distinct (distinct : (pairs.map Prod.fst).Nodup) {pair : κ × α} (member : pair ∈ pairs) :
    find pairs pair.1 = some pair := by
  obtain ⟨first,found⟩ := find_isSome (List.mem_map_of_mem member)
  have listed : first ∈ pairs := List.mem_of_find?_eq_some found
  have same : first = pair := List.inj_on_of_nodup_map distinct listed member (find_named found)
  rw [found,same]

theorem lookup_find [BEq κ] [LawfulBEq κ] (pairs : List (κ × α)) (name : κ) : pairs.lookup name = (find pairs name).map Prod.snd := by
  induction pairs with
  | nil => rfl
  | cons pair pairs ih =>
    rw [List.lookup_cons,find,List.find?_cons]
    by_cases same : pair.1 = name
    · subst same
      simp only [beq_self_eq_true,decide_true,Option.map_some]
    · rw [beq_eq_false_iff_ne.mpr (Ne.symm same),decide_eq_false same]
      exact ih

variable [LE κ] [DecidableLE κ]

def names (pairs : List (κ × α)) : List κ := (pairs.map Prod.fst).dedup.insertionSort (· ≤ ·)

def entries (pairs : List (κ × α)) : List (κ × α) := (names pairs).filterMap (find pairs)

theorem mem_names {name : κ} : name ∈ names pairs ↔ name ∈ pairs.map Prod.fst := by
  rw [names,List.mem_insertionSort,List.mem_dedup]

theorem names_nodup (pairs : List (κ × α)) : (names pairs).Nodup := by
  apply (List.perm_insertionSort _ _).nodup_iff.mpr
  exact List.nodup_dedup _

theorem entries_names (pairs : List (κ × α)) : (entries pairs).map Prod.fst = names pairs := by
  rw [entries,List.map_filterMap]
  have each : ∀ name ∈ names pairs, (find pairs name).map Prod.fst = some name := by
    intro name listed
    obtain ⟨pair,found⟩ := find_isSome (mem_names.mp listed)
    rw [found,Option.map_some,find_named found]
  rw [List.filterMap_congr each,List.filterMap_some]

theorem mem_entries {pair : κ × α} : pair ∈ entries pairs ↔ find pairs pair.1 = some pair := by
  rw [entries,List.mem_filterMap]
  constructor
  · rintro ⟨name,listed,found⟩
    rw [find_named found]
    exact found
  · intro found
    exact ⟨pair.1,mem_names.mpr (List.mem_map_of_mem (List.mem_of_find?_eq_some found)),found⟩

theorem entries_subset : entries pairs ⊆ pairs := by
  intro pair member
  exact List.mem_of_find?_eq_some (mem_entries.mp member)

theorem names_map (f : α → β) : names (pairs.map fun pair => (pair.1,f pair.2)) = names pairs := by
  rw [names,List.map_map]
  rfl

theorem entries_map (f : α → β) :
    entries (pairs.map fun pair => (pair.1,f pair.2)) = (entries pairs).map fun pair => (pair.1,f pair.2) := by
  rw [entries,names_map,entries,List.map_filterMap]
  apply List.filterMap_congr
  intro name listed
  exact find_map f name

/-- The entries are found in them, also from behind. -/
theorem lookup_entries [BEq κ] [LawfulBEq κ] (name : κ) : (entries pairs).reverse.lookup name = pairs.lookup name := by
  rw [lookup_find,lookup_find]
  cases found : find pairs name with
  | none =>
    cases other : find (entries pairs).reverse name with
    | none => rfl
    | some pair =>
      have listed := mem_entries.mp (List.mem_reverse.mp (List.mem_of_find?_eq_some other))
      rw [find_named other,found] at listed
      cases listed
  | some pair =>
    have named := find_named found
    subst named
    have distinct : ((entries pairs).reverse.map Prod.fst).Nodup := by
      rw [List.map_reverse,List.nodup_reverse,entries_names]
      exact names_nodup pairs
    rw [find_distinct distinct (List.mem_reverse.mpr (mem_entries.mpr found))]

/-- In any order the entries are the same map. -/
theorem entries_perm [@Std.Total κ (· ≤ ·)] [@Std.Antisymm κ (· ≤ ·)] [IsTrans κ (· ≤ ·)] {other : List (κ × α)}
    (perm : other.Perm (entries pairs)) : entries other = entries pairs := by
  have distinct : (other.map Prod.fst).Nodup := by
    rw [(perm.map Prod.fst).nodup_iff,entries_names]
    exact names_nodup pairs
  have same : names other = names pairs := by
    apply @List.Perm.eq_of_pairwise κ (· ≤ ·)
    · intro first second _ _ before after
      exact Std.Antisymm.antisymm _ _ before after
    · exact List.pairwise_insertionSort _ _
    · exact List.pairwise_insertionSort _ _
    · rw [names,distinct.dedup]
      apply (List.perm_insertionSort _ _).trans
      exact (perm.map Prod.fst).trans (entries_names pairs ▸ List.Perm.refl _)
  rw [entries,same,entries]
  apply List.filterMap_congr
  intro name listed
  obtain ⟨pair,found⟩ := find_isSome (mem_names.mp listed)
  have named := find_named found
  subst named
  rw [found]
  exact find_distinct distinct (perm.mem_iff.mpr (mem_entries.mpr found))

end Migfm.Library.SortedMap
