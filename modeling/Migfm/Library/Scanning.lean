import Mathlib.Data.List.Basic

/-! A scan along memory that ends at the first cell of a kind. What lies beyond the cells of the list cannot be
read, so a scan that meets no such cell has no result. -/
namespace Migfm.Library

variable {α : Type}

/-- The cells that are passed, the one it stops at, and what follows. -/
def scan (pass : α → Bool) : List α → Option (List α × α × List α)
  | [] => none
  | c::p => if pass c then (scan pass p).map fun (passed,rest) => (c::passed,rest) else some ([],c,p)

theorem scan_eq_none {pass : α → Bool} {p : List α} : scan pass p = none ↔ ∀ c ∈ p, pass c = true := by
  induction p with
  | nil => exact iff_of_true rfl fun c member => absurd member List.not_mem_nil
  | cons c p ih =>
    rw [scan,List.forall_mem_cons]
    split
    · rename_i goes
      rw [Option.map_eq_none_iff,ih]
      exact (and_iff_right goes).symm
    · rename_i stops
      exact iff_of_false (Option.some_ne_none _) fun all => stops all.1

theorem scan_eq_some {pass : α → Bool} {p passed after : List α} {stop : α} :
    scan pass p = some (passed,stop,after) ↔ p = passed ++ stop::after ∧ (∀ c ∈ passed, pass c = true) ∧ pass stop = false := by
  induction p generalizing passed with
  | nil =>
    refine iff_of_false (fun found => ?_) (fun ⟨whole,_⟩ => ?_)
    · cases found
    · exact List.append_ne_nil_of_right_ne_nil passed (List.cons_ne_nil stop after) whole.symm
  | cons c p ih =>
    rw [scan]
    split
    · rename_i goes
      rw [Option.map_eq_some_iff]
      constructor
      · intro ⟨(others,_,_),found,same⟩
        cases same
        obtain ⟨whole,all,stops⟩ := ih.mp found
        exact ⟨by rw [whole,List.cons_append],List.forall_mem_cons.mpr ⟨goes,all⟩,stops⟩
      · intro ⟨whole,all,stops⟩
        cases passed with
        | nil =>
          cases whole
          rw [goes] at stops
          cases stops
        | cons first passed =>
          cases whole
          exact ⟨_,ih.mpr ⟨rfl,(List.forall_mem_cons.mp all).2,stops⟩,rfl⟩
    · rename_i stays
      constructor
      · intro found
        cases found
        exact ⟨rfl,fun c member => absurd member List.not_mem_nil,Bool.eq_false_iff.mpr stays⟩
      · intro ⟨whole,all,stops⟩
        cases passed with
        | nil =>
          cases whole
          rfl
        | cons first passed =>
          cases whole
          exact absurd (List.forall_mem_cons.mp all).1 stays

/-- A scan that stops is the same whatever follows. -/
theorem scan_append {pass : α → Bool} {p passed after : List α} {stop : α} (found : scan pass p = some (passed,stop,after))
    (more : List α) : scan pass (p ++ more) = some (passed,stop,after ++ more) := by
  obtain ⟨whole,all,stops⟩ := scan_eq_some.mp found
  refine scan_eq_some.mpr ⟨?_,all,stops⟩
  rw [whole,List.append_assoc,List.cons_append]

/-- It stops at the first cell that does not pass. -/
theorem scan_at {pass : α → Bool} {passed : List α} {stop : α} (after : List α) (all : ∀ c ∈ passed, pass c = true)
    (stops : pass stop = false) : scan pass (passed ++ stop::after) = some (passed,stop,after) :=
  scan_eq_some.mpr ⟨rfl,all,stops⟩

end Migfm.Library
