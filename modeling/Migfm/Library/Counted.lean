import Migfm.Library.Heap
import Mathlib.Algebra.Group.Pi.Basic

/-! Blocks that count their holders: who holds a block adds one to its count and takes
one away again, and the last one frees it. How the count goes up and down is a
parameter. -/
namespace Migfm.Library.Counted

structure Blocks where
  counts : Heap Int
  frees : Nat → Nat

def none_ : Blocks := ⟨Heap.empty,fun _ => 0⟩

def Blocks.alloc (blocks : Blocks) (count : Int) : Nat × Blocks :=
  ((blocks.counts.alloc count).1,{blocks with counts := (blocks.counts.alloc count).2})

/-- `none` is an access to a block that is not there, or a count that overflows. -/
def Blocks.retain (up : Int → Option Int) (b : Nat) (blocks : Blocks) : Option Blocks := do
  let count ← blocks.counts.cell b
  let more ← up count
  some {blocks with counts := blocks.counts.write b more}

def Blocks.release (down : Int → Option Int) (b : Nat) (blocks : Blocks) : Option Blocks := do
  let count ← blocks.counts.cell b
  let less ← down count
  if less = 0 then some ⟨blocks.counts.free b,Function.update blocks.frees b (blocks.frees b + 1)⟩
  else some {blocks with counts := blocks.counts.write b less}

/-- What one holder counts for. -/
def held (holder : Option Nat) (b : Nat) : Int := if holder = some b then 1 else 0

@[simp] theorem held_none : held none = 0 := rfl

@[simp] theorem held_self (b : Nat) : held (some b) b = 1 := if_pos rfl

theorem held_ne {b other : Nat} (apart : other ≠ b) : held (some b) other = 0 :=
  if_neg fun same => apart (Option.some.inj same).symm

/-- A block is there while it is held, with as many holders as it counts, and is freed
once when the last has gone. -/
structure Counts (holders : Nat → Int) (blocks : Blocks) : Prop where
  cell : ∀ b, blocks.counts.cell b = if holders b = 0 then none else some (holders b)
  frees : ∀ b, blocks.frees b = if b < blocks.counts.next ∧ holders b = 0 then 1 else 0

section Counts
variable {holders others : Nat → Int} {blocks after : Blocks} {up down : Int → Option Int} {b : Nat}

theorem counts_none : Counts 0 none_ := ⟨fun _ => rfl,fun _ => rfl⟩

theorem Counts.read (counts : Counts holders blocks) (holds : holders b ≠ 0) : blocks.counts.cell b = some (holders b) := by
  rw [counts.cell,if_neg holds]

theorem Counts.lt_next (counts : Counts holders blocks) (holds : holders b ≠ 0) : b < blocks.counts.next := by
  exact Heap.lt_next (counts.read holds)

theorem Counts.next (counts : Counts holders blocks) : holders blocks.counts.next = 0 := by
  by_contra holds
  exact absurd (counts.lt_next holds) (Nat.lt_irrefl _)

/-- The blocks say who holds them. -/
theorem Counts.unique (counts : Counts holders blocks) (again : Counts others blocks) : holders = others := by
  funext b
  have same := (counts.cell b).symm.trans (again.cell b)
  split at same
  · rename_i none_
    split at same
    · rename_i other
      rw [none_,other]
    · cases same
  · split at same
    · cases same
    · exact Option.some.inj same

/-- A block can only start with one holder. -/
theorem Counts.alloc_iff (counts : Counts holders blocks) (count : Int) :
    Counts (holders + held (some (blocks.alloc count).1)) (blocks.alloc count).2 ↔ count = 1 := by
  have unheld : holders blocks.counts.next = 0 := counts.next
  constructor
  · intro fresh
    have cell := fresh.cell blocks.counts.next
    simp only [Blocks.alloc,Heap.alloc_cell_self,Heap.alloc_address,Pi.add_apply,held_self,unheld] at cell
    exact Option.some.inj cell
  · rintro rfl
    refine ⟨fun b => ?_,fun b => ?_⟩
    · by_cases here : b = blocks.counts.next
      · subst here
        simp [Blocks.alloc,unheld]
      · simp only [Blocks.alloc,Heap.alloc_address,Pi.add_apply,held_ne here,Int.add_zero,Heap.alloc_cell_ne here]
        exact counts.cell b
    · by_cases here : b = blocks.counts.next
      · subst here
        simp [Blocks.alloc,unheld,counts.frees]
      · simp only [Blocks.alloc,Heap.alloc_address,Heap.alloc_next,Pi.add_apply,held_ne here,Int.add_zero,counts.frees]
        have past : b < blocks.counts.next + 1 ↔ b < blocks.counts.next := by omega
        simp only [past]

/-- The count goes up with the new holder where the block is held and its count can. -/
theorem Counts.retain_iff (counts : Counts holders blocks) (some_ : 0 ≤ holders b) :
    (∃ after, blocks.retain up b = some after ∧ Counts (holders + held (some b)) after) ↔
      holders b ≠ 0 ∧ up (holders b) = some (holders b + 1) := by
  constructor
  · rintro ⟨after,retained,counted⟩
    obtain ⟨count,read,more,goes,rfl⟩ : ∃ count, blocks.counts.cell b = some count ∧ ∃ more, up count = some more ∧
        {blocks with counts := blocks.counts.write b more} = after := by
      simpa [Blocks.retain,Option.bind_eq_some_iff] using retained
    have holds : holders b ≠ 0 := by
      intro none_
      rw [counts.cell,if_pos none_] at read
      cases read
    obtain rfl : holders b = count := Option.some.inj ((counts.read holds).symm.trans read)
    have cell := counted.cell b
    rw [Heap.write_cell_self,read,Option.map_some,Pi.add_apply,held_self,if_neg (by omega)] at cell
    exact ⟨holds,goes.trans cell⟩
  · rintro ⟨holds,goes⟩
    refine ⟨{blocks with counts := blocks.counts.write b (holders b + 1)},?_,fun other => ?_,fun other => ?_⟩
    · simp [Blocks.retain,counts.read holds,goes]
    · by_cases here : other = b
      · subst here
        rw [Heap.write_cell_self,counts.read holds,Pi.add_apply,held_self,if_neg (by omega),Option.map_some]
      · rw [Heap.write_cell_ne here,Pi.add_apply,held_ne here,Int.add_zero,counts.cell]
    · by_cases here : other = b
      · subst here
        rw [Pi.add_apply,held_self,counts.frees,if_neg (fun gone => holds gone.2),if_neg (by omega)]
      · rw [Pi.add_apply,held_ne here,Int.add_zero,counts.frees,Heap.write_next]

/-- A holder gives the block back. -/
theorem Counts.release (counts : Counts holders blocks) (holds : holders b ≠ 0) (goes : down (holders b) = some (holders b - 1)) :
    ∃ after, blocks.release down b = some after ∧ Counts (holders - held (some b)) after := by
  have read := counts.read holds
  have inside := counts.lt_next holds
  have kept : blocks.frees b = 0 := by rw [counts.frees,if_neg fun gone => holds gone.2]
  by_cases last : holders b - 1 = 0
  · refine ⟨⟨blocks.counts.free b,Function.update blocks.frees b (blocks.frees b + 1)⟩,?_,fun other => ?_,fun other => ?_⟩
    · simp [Blocks.release,read,goes,last]
    · by_cases here : other = b
      · subst here
        rw [Heap.free_cell_self,Pi.sub_apply,held_self,if_pos last]
      · rw [Heap.free_cell_ne here,Pi.sub_apply,held_ne here,Int.sub_zero,counts.cell]
    · show Function.update blocks.frees b (blocks.frees b + 1) other = _
      by_cases here : other = b
      · subst here
        rw [Function.update_self,kept,Pi.sub_apply,held_self,Heap.free_next,if_pos ⟨inside,last⟩]
      · rw [Function.update_of_ne here,Pi.sub_apply,held_ne here,Int.sub_zero,Heap.free_next,counts.frees]
  · refine ⟨{blocks with counts := blocks.counts.write b (holders b - 1)},?_,fun other => ?_,fun other => ?_⟩
    · simp [Blocks.release,read,goes,last]
    · by_cases here : other = b
      · subst here
        rw [Heap.write_cell_self,read,Pi.sub_apply,held_self,if_neg last,Option.map_some]
      · rw [Heap.write_cell_ne here,Pi.sub_apply,held_ne here,Int.sub_zero,counts.cell]
    · by_cases here : other = b
      · subst here
        rw [kept,Pi.sub_apply,held_self,if_neg fun gone => last gone.2]
      · rw [Pi.sub_apply,held_ne here,Int.sub_zero,Heap.write_next,counts.frees]

end Counts

end Migfm.Library.Counted
