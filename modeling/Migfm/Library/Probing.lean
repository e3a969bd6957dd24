import Mathlib.Data.List.Basic
import Mathlib.Data.List.Perm.Basic

/-! Tables that are filled by probing from any slot for the next free one. -/
namespace Migfm.Library.Probing

variable {α : Type} [DecidableEq α]

/-- The next free slot from `i` on, round the table; without fuel, or outside of the table,
there is none. -/
def probe (free : α) (table : List α) : Nat → Nat → Option Nat
  | 0,_ => none
  | fuel + 1,i => table[i]?.bind fun x => if x = free then some i else probe free table fuel ((i + 1) % table.length)

/-- Places the values one after another, each with the slot its probing starts at. -/
def fill (free : α) (fuel : Nat) : List (Nat × α) → List α → Option (List α)
  | [],table => some table
  | (start,value)::values,table => (probe free table fuel start).bind fun i => fill free fuel values (table.set i value)

/-- The values that a table holds. -/
def held (free : α) (table : List α) : List α := table.filter (· ≠ free)

section Probe
variable {free : α} {table : List α}

/-- By induction on the distance to a free slot. -/
theorem probe_reaches {distance fuel i : Nat} (inside : i < table.length) (there : table[(i + distance) % table.length]? = some free)
    (enough : distance < fuel) : ∃ j, probe free table fuel i = some j ∧ table[j]? = some free := by
  induction distance generalizing i fuel with
  | zero =>
    rw [Nat.add_zero,Nat.mod_eq_of_lt inside] at there
    obtain ⟨fuel,rfl⟩ := Nat.exists_eq_succ_of_ne_zero (Nat.ne_of_gt enough)
    refine ⟨i,?_,there⟩
    rw [probe,there,Option.bind_some,if_pos rfl]
  | succ distance ih =>
    obtain ⟨fuel,rfl⟩ := Nat.exists_eq_succ_of_ne_zero (Nat.ne_zero_of_lt enough)
    rw [probe,List.getElem?_eq_getElem inside,Option.bind_some]
    by_cases here : table[i] = free
    · rw [if_pos here]
      refine ⟨i,rfl,?_⟩
      rw [List.getElem?_eq_getElem inside,here]
    · rw [if_neg here]
      apply ih (Nat.mod_lt _ (Nat.zero_lt_of_lt inside)) _ (Nat.lt_of_succ_lt_succ enough)
      rw [Nat.mod_add_mod,Nat.add_assoc,Nat.add_comm 1]
      exact there

/-- Where a slot is free, it is found within one round. -/
theorem probe_free (some_ : free ∈ table) {i fuel : Nat} (inside : i < table.length) (enough : table.length ≤ fuel) :
    ∃ j, probe free table fuel i = some j ∧ table[j]? = some free := by
  obtain ⟨z,within,there⟩ := List.mem_iff_getElem.mp some_
  apply @probe_reaches _ _ free table ((z + (table.length - i)) % table.length) fuel i inside
  · rw [Nat.add_mod_mod]
    have round : i + (z + (table.length - i)) = z + table.length := by omega
    rw [round,Nat.add_mod_right,Nat.mod_eq_of_lt within,List.getElem?_eq_getElem within,there]
  · exact Nat.lt_of_lt_of_le (Nat.mod_lt _ (Nat.zero_lt_of_lt inside)) enough

/-- A value takes the place of a free one. -/
theorem held_set {j : Nat} (there : table[j]? = some free) (value : α) :
    (held free (table.set j value)).Perm (held free [value] ++ held free table) := by
  obtain ⟨within,here⟩ := List.getElem?_eq_some_iff.mp there
  have split : table = table.take j ++ free::table.drop (j + 1) := by
    rw [← here,← List.drop_eq_getElem_cons within,List.take_append_drop]
  have whole : held free table = held free (table.take j) ++ held free (table.drop (j + 1)) := by
    conv_lhs => rw [split]
    simp [held]
  have after : held free (table.set j value) = held free (table.take j) ++ (held free [value] ++ held free (table.drop (j + 1))) := by
    rw [List.set_eq_take_append_cons_drop,if_pos within]
    simp only [held,List.filter_append,List.filter_cons,List.filter_nil]
    split <;> rfl
  rw [after,whole,← List.append_assoc,← List.append_assoc]
  exact List.perm_append_comm.append_right _

theorem held_length_le (free : α) (table : List α) : (held free table).length ≤ table.length := List.length_filter_le ..

theorem free_of_held_lt (less : (held free table).length < table.length) : free ∈ table := by
  by_contra none_
  have all : held free table = table := by
    apply List.filter_eq_self.mpr
    intro x member
    rw [decide_eq_true_iff]
    rintro rfl
    exact none_ member
  rw [all] at less
  exact Nat.lt_irrefl _ less

end Probe

section Fill
variable {free : α}

/-- By induction on the values: while they fit, each finds a slot, and the table holds them all. -/
theorem fill_held {fuel : Nat} {values : List (Nat × α)} {table : List α} (enough : table.length ≤ fuel)
    (starts : ∀ value ∈ values, value.1 < table.length) (room : (held free table).length + values.length ≤ table.length) :
    ∃ full, fill free fuel values table = some full ∧ full.length = table.length ∧
      (held free full).Perm (held free (values.map Prod.snd) ++ held free table) := by
  induction values generalizing table with
  | nil => exact ⟨table,rfl,rfl,.refl _⟩
  | cons value values ih =>
    obtain ⟨start,value⟩ := value
    obtain ⟨first,others⟩ := List.forall_mem_cons.mp starts
    rw [List.length_cons] at room
    have less : (held free table).length < table.length := by omega
    obtain ⟨j,found,there⟩ := probe_free (free_of_held_lt less) first enough
    have placed := held_set there value
    have one : (held free [value]).length ≤ 1 := held_length_le free [value]
    have length := placed.length_eq
    rw [List.length_append] at length
    have same : (table.set j value).length = table.length := List.length_set
    obtain ⟨full,filled,size,holds⟩ := @ih (table.set j value) (same ▸ enough) (same ▸ others) (by rw [same]; omega)
    refine ⟨full,?_,size.trans same,?_⟩
    · rw [fill,found,Option.bind_some,filled]
    · apply (holds.trans (placed.append_left _)).trans
      rw [List.map_cons]
      have front : held free (value::values.map Prod.snd) = held free [value] ++ held free (values.map Prod.snd) := by
        rw [held,held,held,← List.filter_append]
        rfl
      rw [front,← List.append_assoc]
      exact List.perm_append_comm.append_right _

theorem probe_start {table : List α} {fuel i j : Nat} (found : probe free table fuel i = some j) : i < table.length := by
  cases fuel with
  | zero => cases found
  | succ fuel =>
    obtain ⟨x,there,_⟩ := Option.bind_eq_some_iff.mp found
    exact (List.getElem?_eq_some_iff.mp there).1

/-- A table that is filled was never left. -/
theorem fill_starts {fuel : Nat} {values : List (Nat × α)} {table full : List α} (filled : fill free fuel values table = some full) :
    ∀ value ∈ values, value.1 < table.length := by
  induction values generalizing table with
  | nil => exact List.forall_mem_nil _
  | cons value values ih =>
    obtain ⟨start,value⟩ := value
    obtain ⟨j,found,rest⟩ := Option.bind_eq_some_iff.mp filled
    have later := ih rest
    rw [List.length_set] at later
    exact List.forall_mem_cons.mpr ⟨probe_start found,later⟩

/-- What is not held is free, so tables of one size that hold the same have the same entries. -/
theorem perm_of_held {first second : List α} (size : first.length = second.length) (same : (held free first).Perm (held free second)) :
    first.Perm second := by
  have split (table : List α) : (held free table ++ List.replicate (table.length - (held free table).length) free).Perm table := by
    have rest : table.filter (fun x => !decide (x ≠ free)) = List.replicate (table.length - (held free table).length) free := by
      apply List.eq_replicate_iff.mpr
      constructor
      · have both := (List.filter_append_perm (fun x => decide (x ≠ free)) table).length_eq
        rw [List.length_append] at both
        rw [held]
        omega
      · intro x member
        simpa using (List.mem_filter.mp member).2
    rw [← rest]
    exact List.filter_append_perm _ table
  apply (split first).symm.trans
  rw [size,same.length_eq]
  exact (same.append_right _).trans (split second)

end Fill

/-- The numbers below the size, placed in a table of zeros: the slot of the zero stays free for
the ones after it, and what is left free at the end stands for it. -/
theorem fill_range {fuel : Nat} {starts : List Nat} (enough : starts.length ≤ fuel) (inside : ∀ start ∈ starts, start < starts.length) :
    ∃ table, fill 0 fuel (starts.zip (List.range starts.length)) (List.replicate starts.length 0) = some table ∧
      table.Perm (List.range starts.length) := by
  have size : (List.replicate starts.length 0).length = starts.length := List.length_replicate
  have names : (starts.zip (List.range starts.length)).map Prod.snd = List.range starts.length := by
    apply List.map_snd_zip
    exact Nat.le_of_eq List.length_range
  have empty : held 0 (List.replicate starts.length 0) = [] := by simp [held]
  have within : ∀ value ∈ starts.zip (List.range starts.length), value.1 < (List.replicate starts.length 0).length := by
    intro value member
    rw [size]
    exact inside _ (List.of_mem_zip member).1
  have room : (held 0 (List.replicate starts.length 0)).length + (starts.zip (List.range starts.length)).length ≤ (List.replicate starts.length 0).length := by
    rw [empty,size,List.length_zip,List.length_range,List.length_nil]
    omega
  obtain ⟨table,filled,length,holds⟩ := fill_held (size.symm ▸ enough) within room
  refine ⟨table,filled,?_⟩
  rw [names,empty,List.append_nil] at holds
  apply perm_of_held _ holds
  rw [length,size,List.length_range]

end Migfm.Library.Probing
