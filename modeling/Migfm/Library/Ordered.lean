import Mathlib.Data.List.TakeWhile
import Mathlib.Tactic

/-! A list in the order of a relation, cut where a condition ends that holds of a
first part of it, and an element put there. -/
namespace Migfm.Library.Ordered

variable {α : Type*} {r : α → α → Prop} {items : List α} {ahead : α → Bool}

/-- The element goes behind the part of the list that is ahead of it. -/
def place (ahead : α → Bool) (item : α) (items : List α) : List α :=
  items.takeWhile ahead ++ item :: items.dropWhile ahead

theorem place_perm (ahead : α → Bool) (item : α) (items : List α) : (place ahead item items).Perm (item :: items) := by
  have whole : items.takeWhile ahead ++ items.dropWhile ahead = items := List.takeWhile_append_dropWhile
  have moved : (place ahead item items).Perm (item :: (items.takeWhile ahead ++ items.dropWhile ahead)) := List.perm_middle
  rw [whole] at moved
  exact moved

theorem mem_place {item other : α} : other ∈ place ahead item items ↔ other = item ∨ other ∈ items := by
  rw [(place_perm ahead item items).mem_iff,List.mem_cons]

/-- Behind the cut no element is ahead. -/
theorem dropWhile_behind (sorted : items.Pairwise r) (closed : ∀ x y, r x y → ahead y = true → ahead x = true) :
    ∀ x ∈ items.dropWhile ahead, ahead x = false := by
  induction items with
  | nil =>
    intro x member
    cases member
  | cons first rest ih =>
    obtain ⟨before,sorted⟩ := List.pairwise_cons.mp sorted
    cases holds : ahead first with
    | true =>
      rw [List.dropWhile_cons_of_pos holds]
      exact ih sorted
    | false =>
      rw [List.dropWhile_cons_of_neg (by simp [holds])]
      intro x member
      rcases List.mem_cons.mp member with rfl | later
      · exact holds
      · by_contra other
        have x_ahead : ahead x = true := by simpa using other
        rw [closed first x (before x later) x_ahead] at holds
        cases holds

theorem place_pairwise (sorted : items.Pairwise r) (closed : ∀ x y, r x y → ahead y = true → ahead x = true)
    {item : α} (after : ∀ x ∈ items, ahead x = true → r x item) (before : ∀ x ∈ items, ahead x = false → r item x) :
    (place ahead item items).Pairwise r := by
  have parts : (items.takeWhile ahead ++ items.dropWhile ahead).Pairwise r := by
    rw [List.takeWhile_append_dropWhile]
    exact sorted
  obtain ⟨first,second,across⟩ := List.pairwise_append.mp parts
  have behind : ∀ x ∈ items.dropWhile ahead, r item x := by
    intro x member
    exact before x ((List.dropWhile_sublist ahead).subset member) (dropWhile_behind sorted closed x member)
  apply List.pairwise_append.mpr
  refine ⟨first,List.pairwise_cons.mpr ⟨behind,second⟩,?_⟩
  intro x member y later
  rcases List.mem_cons.mp later with rfl | later
  · exact after x ((List.takeWhile_sublist ahead).subset member) (List.mem_takeWhile_imp member)
  · exact across x member y later

/-- The cut does not depend on a first part that is all ahead. -/
theorem dropWhile_suffix {first rest : List α} (all : ∀ x ∈ first, ahead x = true) :
    (first ++ rest).dropWhile ahead = rest.dropWhile ahead :=
  List.dropWhile_append_of_pos all

/-- A weaker condition cuts further on. -/
theorem dropWhile_dropWhile {weaker : α → Bool} (imp : ∀ x, ahead x = true → weaker x = true) (items : List α) :
    (items.dropWhile ahead).dropWhile weaker = items.dropWhile weaker := by
  have whole : items.takeWhile ahead ++ items.dropWhile ahead = items := List.takeWhile_append_dropWhile
  have all : ∀ x ∈ items.takeWhile ahead, weaker x = true := by
    intro x member
    exact imp x (List.mem_takeWhile_imp member)
  have cut : (items.takeWhile ahead ++ items.dropWhile ahead).dropWhile weaker = (items.dropWhile ahead).dropWhile weaker :=
    dropWhile_suffix all
  rw [← cut,whole]

theorem take_cut (ahead : α → Bool) (items : List α) :
    items.take (items.length - (items.dropWhile ahead).length) = items.takeWhile ahead := by
  have whole : items.takeWhile ahead ++ items.dropWhile ahead = items := List.takeWhile_append_dropWhile
  have lengths : items.length = (items.takeWhile ahead).length + (items.dropWhile ahead).length := by
    rw [← List.length_append,whole]
  have cut : items.length - (items.dropWhile ahead).length = (items.takeWhile ahead).length := by omega
  rw [cut]
  exact (List.prefix_iff_eq_take.mp (List.takeWhile_prefix ahead)).symm

end Migfm.Library.Ordered
