import Mathlib.Data.List.Perm.Basic
import Mathlib.Tactic

/-! A list whose places are set one at a time: what the others hold stays. -/
namespace Migfm.Library.Slots

variable {α β : Type*} {slots : List α} {k : Nat} {old : α}

theorem perm_slot (here : slots[k]? = some old) : slots.Perm (old::slots.eraseIdx k) := by
  obtain ⟨inside,rfl⟩ := List.getElem?_eq_some_iff.mp here
  exact (List.getElem_cons_eraseIdx_perm inside).symm

theorem perm_set (here : slots[k]? = some old) (new : α) : (slots.set k new).Perm (new::slots.eraseIdx k) := by
  obtain ⟨inside,rfl⟩ := List.getElem?_eq_some_iff.mp here
  exact List.set_perm_cons_eraseIdx inside new

theorem filterMap_cons_toList (f : α → Option β) (first : α) (rest : List α) :
    (first::rest).filterMap f = (f first).toList ++ rest.filterMap f := by
  cases value : f first with
  | none => rw [List.filterMap_cons_none value,Option.toList_none,List.nil_append]
  | some b => rw [List.filterMap_cons_some value,Option.toList_some,List.singleton_append]

/-- What a place gives is exchanged for what its new value gives. -/
theorem count_set [BEq β] (here : slots[k]? = some old) (new : α) (f : α → Option β) (b : β) :
    ((slots.set k new).filterMap f).count b + (f old).toList.count b =
      (slots.filterMap f).count b + (f new).toList.count b := by
  have before := ((perm_slot here).filterMap f).count_eq b
  have after := ((perm_set here new).filterMap f).count_eq b
  rw [filterMap_cons_toList,List.count_append] at before after
  omega

theorem countP_set (here : slots[k]? = some old) (new : α) (p : α → Bool) :
    (slots.set k new).countP p + (if p old then 1 else 0) = slots.countP p + if p new then 1 else 0 := by
  have before := (perm_slot here).countP_eq p
  have after := (perm_set here new).countP_eq p
  rw [List.countP_cons] at before after
  omega

/-! ### Without gaps -/

/-- What is held comes first, and then `free` places. -/
def packed (held : List α) (free : Nat) : List (Option α) := held.map some ++ List.replicate free none

theorem packed_held {held : List α} {free : Nat} (inside : k < held.length) : (packed held free)[k]? = some (some held[k]) := by
  rw [packed,List.getElem?_append_left (by rwa [List.length_map]),List.getElem?_map,List.getElem?_eq_getElem inside]
  rfl

theorem packed_free (held : List α) (free : Nat) : (packed held (free + 1))[held.length]? = some none := by
  rw [packed,List.getElem?_append_right (by rw [List.length_map]),List.length_map,Nat.sub_self]
  rfl

/-- The first free place is taken. -/
theorem packed_set (held : List α) (free : Nat) (new : α) :
    (packed held (free + 1)).set held.length (some new) = packed (held ++ [new]) free := by
  rw [packed,List.set_append_right _ _ (by rw [List.length_map]),List.length_map,Nat.sub_self,packed,List.map_append,List.append_assoc]
  rfl

end Migfm.Library.Slots
