import Mathlib.Data.List.Sort
import Mathlib.Data.Nat.Init
import Mathlib.Tactic

/-! Who is in front is used, and the list is sorted by how often each was used, where equals keep their order. Each round
uses everybody once, and every other round goes backwards: who comes last in a round is first in the next. -/
namespace Migfm.Library.LeastUsed

variable {α : Type*} (use : α → α) (r : α → α → Prop) [DecidableRel r]

def step : List α → List α
  | [] => []
  | first::rest => (use first::rest).insertionSort r

/-- The items in the order of a round. -/
def order (items : List α) (round : Nat) : List α := if round % 2 = 0 then items else items.reverse

/-- The list in the middle of a round. -/
def middle (items : List α) (round done : Nat) : List α :=
  ((order items round).drop done).map use^[round] ++ ((order items round).take done).reverse.map use^[round + 1]

/-- After so many steps. -/
def after (items : List α) (n : Nat) : List α := middle use items (n / items.length) (n % items.length)

theorem length_order (items : List α) (round : Nat) : (order items round).length = items.length := by
  rw [order]
  split
  · rfl
  · exact List.length_reverse

theorem mem_order {items : List α} {round : Nat} {item : α} : item ∈ order items round ↔ item ∈ items := by
  rw [order]
  split
  · exact Iff.rfl
  · exact List.mem_reverse

theorem order_succ (items : List α) (round : Nat) : order items (round + 1) = (order items round).reverse := by
  rw [order,order]
  split
  · rw [if_neg (by omega),List.reverse_reverse]
  · rw [if_pos (by omega)]

/-- At the end of a round the next one begins. -/
theorem middle_end (items : List α) (round : Nat) : middle use items round items.length = middle use items (round + 1) 0 := by
  rw [middle,middle,order_succ,List.drop_of_length_le (length_order items round).le,List.take_of_length_le (length_order items round).le,
    List.drop_zero,List.take_zero]
  exact (List.append_nil _).symm

/-- An item goes behind those before it, and not behind its equals. -/
theorem insertionSort_behind {item : α} {low high : List α} (sorted : (low ++ high).Pairwise r)
    (behind : ∀ other ∈ low, ¬r item other) (before : ∀ other ∈ high, r item other) :
    (item::(low ++ high)).insertionSort r = low ++ item::high := by
  have passed : ∀ other ∈ low, decide (¬r item other) = true := fun other member => decide_eq_true (behind other member)
  have stopped : high.takeWhile (fun other => ¬r item other) = [] ∧ high.dropWhile (fun other => ¬r item other) = high := by
    cases high with
    | nil => exact ⟨rfl,rfl⟩
    | cons other high =>
      have here : ¬decide (¬r item other) = true := fun passes => of_decide_eq_true passes (before other (.head _))
      exact ⟨List.takeWhile_cons_of_neg here,List.dropWhile_cons_of_neg here⟩
  rw [List.insertionSort_cons,sorted.insertionSort_eq,List.orderedInsert_eq_take_drop,List.takeWhile_append_of_pos passed,
    List.dropWhile_append_of_pos passed,stopped.1,stopped.2,List.append_nil]

/-- Who is in front in the middle of a round. -/
theorem head_middle {items : List α} {round done : Nat} (inside : done < items.length) :
    (middle use items round done).head? = (order items round)[done]?.map use^[round] := by
  have within : done < (order items round).length := (length_order items round).symm ▸ inside
  rw [middle,List.drop_eq_getElem_cons within,List.getElem?_eq_getElem within]
  rfl

/-- Nobody was used more than once more than another. -/
theorem mem_middle {items : List α} {round done : Nat} {item : α} (member : item ∈ middle use items round done) :
    ∃ other ∈ items, item = use^[round] other ∨ item = use^[round + 1] other := by
  rcases List.mem_append.mp member with early | late
  · obtain ⟨other,listed,rfl⟩ := List.mem_map.mp early
    exact ⟨other,mem_order.mp (List.mem_of_mem_drop listed),.inl rfl⟩
  · obtain ⟨other,listed,rfl⟩ := List.mem_map.mp late
    exact ⟨other,mem_order.mp (List.mem_of_mem_take (List.mem_reverse.mp listed)),.inr rfl⟩

/-- The relation compares how often the items were used, up to a number of uses. -/
def Counts (items : List α) (most : Nat) : Prop :=
  ∀ item ∈ items, ∀ other ∈ items, ∀ m ≤ most, ∀ n ≤ most, (r (use^[m] item) (use^[n] other) ↔ m ≤ n)

section Counts
variable {use r} {items : List α} {most : Nat}

theorem step_middle (counts : Counts use r items most) {round done : Nat} (inside : done < items.length) (bounded : round < most) :
    step use r (middle use items round done) = middle use items round (done + 1) := by
  have within : done < (order items round).length := (length_order items round).symm ▸ inside
  have early : ∀ item ∈ ((order items round).drop (done + 1)).map use^[round], ∃ other ∈ items, item = use^[round] other := by
    intro item member
    obtain ⟨other,listed,rfl⟩ := List.mem_map.mp member
    exact ⟨other,mem_order.mp (List.mem_of_mem_drop listed),rfl⟩
  have late : ∀ item ∈ ((order items round).take done).reverse.map use^[round + 1], ∃ other ∈ items, item = use^[round + 1] other := by
    intro item member
    obtain ⟨other,listed,rfl⟩ := List.mem_map.mp member
    exact ⟨other,mem_order.mp (List.mem_of_mem_take (List.mem_reverse.mp listed)),rfl⟩
  have first : (order items round)[done] ∈ items := mem_order.mp (List.getElem_mem within)
  rw [middle,List.drop_eq_getElem_cons within,List.map_cons,List.cons_append,step,← Function.iterate_succ_apply' use round,
    insertionSort_behind,middle,List.take_succ_eq_append_getElem within,List.reverse_append,List.reverse_singleton,List.singleton_append,
    List.map_cons]
  · apply List.pairwise_append.mpr
    refine ⟨?_,?_,?_⟩
    · apply List.pairwise_of_forall_mem_list
      intro a one b other
      obtain ⟨x,listed,rfl⟩ := early a one
      obtain ⟨y,listed',rfl⟩ := early b other
      exact (counts x listed y listed' round bounded.le round bounded.le).mpr le_rfl
    · apply List.pairwise_of_forall_mem_list
      intro a one b other
      obtain ⟨x,listed,rfl⟩ := late a one
      obtain ⟨y,listed',rfl⟩ := late b other
      exact (counts x listed y listed' (round + 1) bounded (round + 1) bounded).mpr le_rfl
    · intro a one b other
      obtain ⟨x,listed,rfl⟩ := early a one
      obtain ⟨y,listed',rfl⟩ := late b other
      exact (counts x listed y listed' round bounded.le (round + 1) bounded).mpr (Nat.le_succ round)
  · intro other member
    obtain ⟨y,listed,rfl⟩ := early other member
    rw [counts _ first y listed (round + 1) bounded round bounded.le]
    exact Nat.not_succ_le_self round
  · intro other member
    obtain ⟨y,listed,rfl⟩ := late other member
    exact (counts _ first y listed (round + 1) bounded (round + 1) bounded).mpr le_rfl

theorem step_after (counts : Counts use r items most) (some_ : items ≠ []) {n : Nat} (bounded : n / items.length < most) :
    step use r (after use items n) = after use items (n + 1) := by
  have positive := List.length_pos_of_ne_nil some_
  have inside := Nat.mod_lt n positive
  have whole := Nat.div_add_mod n items.length
  rw [after,step_middle counts inside bounded,after]
  by_cases ends : n % items.length + 1 = items.length
  · have next : n + 1 = items.length * (n / items.length + 1) := by
      rw [Nat.mul_succ]
      omega
    rw [ends,middle_end,next,Nat.mul_div_cancel_left _ positive,Nat.mul_mod_right]
  · have next : n + 1 = items.length * (n / items.length) + (n % items.length + 1) := by omega
    have less : n % items.length + 1 < items.length := by omega
    rw [next,Nat.mul_add_div positive,Nat.mul_add_mod,Nat.div_eq_of_lt less,Nat.mod_eq_of_lt less]
    rfl

theorem iterate_step (counts : Counts use r items most) (some_ : items ≠ []) {n : Nat} (bounded : n ≤ most) :
    (step use r)^[n] items = after use items n := by
  induction n with
  | zero =>
    rw [after,Nat.zero_div,Nat.zero_mod,middle]
    exact (List.append_nil _).symm.trans (congrArg (· ++ []) (List.map_id _).symm)
  | succ n ih =>
    rw [Function.iterate_succ_apply',ih (Nat.le_of_succ_le bounded)]
    exact step_after counts some_ ((Nat.div_le_self ..).trans_lt bounded)

end Counts

end Migfm.Library.LeastUsed
