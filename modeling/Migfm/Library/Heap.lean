import Mathlib.Logic.Relation
import Mathlib.Order.Interval.Set.Basic
import Mathlib.Tactic
import Mathlib.Order.CompletePartialOrder

/-! A heap of cells at numbered addresses. An address is handed out once: a freed
cell stays empty. Which addresses a cell names is a parameter, and what the
heap's users share is said with the set of addresses that can be reached. -/
namespace Migfm.Library

structure Heap (Cell : Type) where
  cell : Nat → Option Cell
  next : Nat
  fresh : ∀ address, next ≤ address → cell address = none

namespace Heap
variable {Cell : Type}

def empty : Heap Cell := ⟨fun _ => none,0,fun _ _ => rfl⟩

/-- The new cell's address comes first. -/
def alloc (heap : Heap Cell) (cell : Cell) : Nat × Heap Cell :=
  (heap.next,{
    cell := fun address => if address = heap.next then some cell else heap.cell address
    next := heap.next + 1
    fresh := fun address later => by
      rw [if_neg (Nat.ne_of_gt later)]
      exact heap.fresh address (Nat.le_of_succ_le later) })

/-- A write through an address that holds no cell does nothing. -/
def write (heap : Heap Cell) (address : Nat) (cell : Cell) : Heap Cell where
  cell other := if other = address then (heap.cell other).map fun _ => cell else heap.cell other
  next := heap.next
  fresh other later := by simp [heap.fresh other later]

def free (heap : Heap Cell) (address : Nat) : Heap Cell where
  cell other := if other = address then none else heap.cell other
  next := heap.next
  fresh other later := by simp [heap.fresh other later]

variable {heap mid later : Heap Cell} {address other : Nat} {cell : Cell}

@[simp] theorem alloc_next : (heap.alloc cell).2.next = heap.next + 1 := rfl
@[simp] theorem alloc_address : (heap.alloc cell).1 = heap.next := rfl
@[simp] theorem write_next : (heap.write address cell).next = heap.next := rfl
@[simp] theorem free_next : (heap.free address).next = heap.next := rfl

@[simp] theorem alloc_cell_self : (heap.alloc cell).2.cell heap.next = some cell := if_pos rfl

theorem alloc_cell_ne (apart : other ≠ heap.next) : (heap.alloc cell).2.cell other = heap.cell other := if_neg apart

theorem write_cell_ne (apart : other ≠ address) : (heap.write address cell).cell other = heap.cell other := if_neg apart

theorem free_cell_ne (apart : other ≠ address) : (heap.free address).cell other = heap.cell other := if_neg apart

@[simp] theorem write_cell_self : (heap.write address cell).cell address = (heap.cell address).map fun _ => cell :=
  if_pos rfl

@[simp] theorem free_cell_self : (heap.free address).cell address = none := if_pos rfl

theorem lt_next {found : Cell} (read : heap.cell address = some found) : address < heap.next := by
  by_contra beyond
  rw [heap.fresh address (Nat.le_of_not_lt beyond)] at read
  cases read

/-! ### What can be reached -/

abbrev Region := Set Nat

/-- The addresses handed out from `heap` to `later`. -/
abbrev Since (heap later : Heap Cell) : Region := Set.Ico heap.next later.next

section Reach
variable (refs : Cell → List Nat)

def Edge (heap : Heap Cell) (address target : Nat) : Prop := ∃ cell, heap.cell address = some cell ∧ target ∈ refs cell

def Reaches (heap : Heap Cell) : Nat → Nat → Prop := Relation.ReflTransGen (heap.Edge refs)

/-- A set of addresses handed out that no cell in it leads out of. -/
structure Closed (heap : Heap Cell) (region : Region) : Prop where
  bounded : ∀ address ∈ region, address < heap.next
  inside : ∀ address ∈ region, ∀ target, heap.Edge refs address target → target ∈ region

/-- From `heap` to `later` only the cells of a region changed, and the region with
the cells handed out since is closed. -/
structure Confined (region : Region) (heap later : Heap Cell) : Prop where
  grows : heap.next ≤ later.next
  kept : ∀ address < heap.next, address ∉ region → later.cell address = heap.cell address
  closed : later.Closed refs (region ∪ heap.Since later)

variable {refs} {region wider : Region}

theorem since_self (same : later.next = heap.next) : heap.Since later = ∅ := by rw [Since,same,Set.Ico_self]

theorem since_trans (first : heap.next ≤ mid.next) (second : mid.next ≤ later.next) :
    heap.Since mid ∪ mid.Since later = heap.Since later :=
  Set.Ico_union_Ico_eq_Ico first second

theorem Closed.reaches (closed : heap.Closed refs region) (member : address ∈ region)
    (reaches : heap.Reaches refs address other) : other ∈ region := by
  induction reaches with
  | refl => exact member
  | tail _ edge inside => exact closed.inside _ inside _ edge

theorem Closed.empty : heap.Closed refs ∅ := ⟨fun _ none => none.elim,fun _ none => none.elim⟩

theorem Closed.union (closed : heap.Closed refs region) (widely : heap.Closed refs wider) :
    heap.Closed refs (region ∪ wider) := by
  constructor
  · rintro address (member | member)
    · exact closed.bounded address member
    · exact widely.bounded address member
  · rintro address (member | member) target edge
    · exact .inl (closed.inside address member target edge)
    · exact .inr (widely.inside address member target edge)

/-- A closed region stays closed while its cells stay. -/
theorem Closed.agree (closed : heap.Closed refs region) (grows : heap.next ≤ later.next)
    (same : ∀ address ∈ region, later.cell address = heap.cell address) : later.Closed refs region := by
  constructor
  · intro address member
    exact (closed.bounded address member).trans_le grows
  · rintro address member target ⟨cell,read,ref⟩
    rw [same address member] at read
    exact closed.inside address member target ⟨cell,read,ref⟩

theorem closed_reach (bounded : ∀ target, heap.Reaches refs address target → target < heap.next) :
    heap.Closed refs {target | heap.Reaches refs address target} :=
  ⟨bounded,fun _ reaches _ edge => reaches.tail edge⟩

/-! ### Confined changes -/

theorem Confined.refl (closed : heap.Closed refs region) : Confined refs region heap heap := by
  refine ⟨le_rfl,fun _ _ _ => rfl,?_⟩
  rwa [since_self rfl,Set.union_empty]

theorem Confined.trans (first : Confined refs region heap mid)
    (second : Confined refs (region ∪ heap.Since mid) mid later) : Confined refs region heap later := by
  constructor
  · exact first.grows.trans second.grows
  · intro address old outside
    rw [second.kept address (old.trans_le first.grows) ?_,first.kept address old outside]
    rintro (member | member)
    · exact outside member
    · exact (Nat.not_lt.mpr member.1) old
  · have closed := second.closed
    rwa [Set.union_assoc,since_trans first.grows second.grows] at closed

theorem confined_alloc (closed : heap.Closed refs region) (within : ∀ target ∈ refs cell, target ∈ region) :
    Confined refs region heap (heap.alloc cell).2 := by
  constructor
  · exact Nat.le_succ _
  · intro address old _
    exact alloc_cell_ne (Nat.ne_of_lt old)
  · constructor
    · rintro address (member | member)
      · exact Nat.lt_succ_of_lt (closed.bounded address member)
      · exact member.2
    · rintro address member target ⟨found,read,ref⟩
      by_cases same : address = heap.next
      · subst same
        rw [alloc_cell_self] at read
        cases read
        exact .inl (within target ref)
      · rw [alloc_cell_ne same] at read
        rcases member with member | member
        · exact .inl (closed.inside address member target ⟨found,read,ref⟩)
        · exact absurd (Nat.le_antisymm (Nat.lt_succ_iff.mp member.2) member.1) same

theorem confined_write (closed : heap.Closed refs region) (member : address ∈ region)
    (within : ∀ target ∈ refs cell, target ∈ region) : Confined refs region heap (heap.write address cell) := by
  constructor
  · exact le_rfl
  · intro other _ outside
    exact write_cell_ne fun same => outside (same ▸ member)
  · rw [since_self write_next,Set.union_empty]
    refine ⟨closed.bounded,?_⟩
    rintro other inner target ⟨found,read,ref⟩
    by_cases same : other = address
    · subst same
      rw [write_cell_self,Option.map_eq_some_iff] at read
      obtain ⟨_,_,rfl⟩ := read
      exact within target ref
    · rw [write_cell_ne same] at read
      exact closed.inside other inner target ⟨found,read,ref⟩

theorem confined_free (closed : heap.Closed refs region) (member : address ∈ region) :
    Confined refs region heap (heap.free address) := by
  constructor
  · exact le_rfl
  · intro other _ outside
    exact free_cell_ne fun same => outside (same ▸ member)
  · rw [since_self free_next,Set.union_empty]
    refine ⟨closed.bounded,?_⟩
    rintro other inner target ⟨found,read,ref⟩
    by_cases same : other = address
    · subst same
      rw [free_cell_self] at read
      cases read
    · rw [free_cell_ne same] at read
      exact closed.inside other inner target ⟨found,read,ref⟩

theorem Confined.alloc (confined : Confined refs region heap mid)
    (within : ∀ target ∈ refs cell, target ∈ region ∪ heap.Since mid) :
    Confined refs region heap (mid.alloc cell).2 :=
  confined.trans (confined_alloc confined.closed within)

theorem Confined.write (confined : Confined refs region heap mid)
    (member : address ∈ region ∪ heap.Since mid)
    (within : ∀ target ∈ refs cell, target ∈ region ∪ heap.Since mid) :
    Confined refs region heap (mid.write address cell) :=
  confined.trans (confined_write confined.closed member within)

/-- Changes to a region are changes to any closed one around it. -/
theorem Confined.mono (confined : Confined refs region heap later) (closed : heap.Closed refs wider) (within : region ⊆ wider) :
    Confined refs wider heap later := by
  refine ⟨confined.grows,fun address old outside => confined.kept address old fun member => outside (within member),?_,?_⟩
  · rintro address (member | member)
    · exact (closed.bounded address member).trans_le confined.grows
    · exact member.2
  · rintro address member target ⟨cell,read,ref⟩
    by_cases inner : address ∈ region ∪ heap.Since later
    · exact (confined.closed.inside address inner target ⟨cell,read,ref⟩).imp_left fun listed => within listed
    · rw [Set.mem_union,not_or] at inner
      have listed := member.resolve_right inner.2
      rw [confined.kept address (closed.bounded address listed) inner.1] at read
      exact .inl (closed.inside address listed target ⟨cell,read,ref⟩)

/-- A region apart from the changes keeps its cells. -/
theorem Confined.frame (confined : Confined refs region heap later) (closed : heap.Closed refs wider)
    (apart : Disjoint region wider) : ∀ address ∈ wider, later.cell address = heap.cell address := by
  intro address member
  exact confined.kept address (closed.bounded address member) fun inner => Set.disjoint_left.mp apart inner member

/-- Cells handed out later lie in no region of before. -/
theorem Closed.apart (closed : heap.Closed refs wider) (apart : Disjoint region wider) (later : Heap Cell) :
    Disjoint (region ∪ heap.Since later) wider := by
  rw [Set.disjoint_union_left]
  refine ⟨apart,Set.disjoint_left.mpr ?_⟩
  intro address new member
  exact Nat.not_lt.mpr new.1 (closed.bounded address member)

/-- Where the cells of a closed region stay, what is reached from it does. -/
theorem Closed.reach_agree (closed : heap.Closed refs region) (member : address ∈ region)
    (same : ∀ address ∈ region, later.cell address = heap.cell address) :
    later.Reaches refs address other ↔ heap.Reaches refs address other := by
  constructor
  · intro reaches
    suffices inside : heap.Reaches refs address other ∧ other ∈ region from inside.1
    induction reaches with
    | refl => exact ⟨.refl,member⟩
    | tail _ edge ih =>
      obtain ⟨cell,read,ref⟩ := edge
      have before := (same _ ih.2).symm.trans read
      exact ⟨ih.1.tail ⟨cell,before,ref⟩,closed.inside _ ih.2 _ ⟨cell,before,ref⟩⟩
  · intro reaches
    suffices inside : later.Reaches refs address other ∧ other ∈ region from inside.1
    induction reaches with
    | refl => exact ⟨.refl,member⟩
    | tail _ edge ih =>
      obtain ⟨cell,read,ref⟩ := edge
      exact ⟨ih.1.tail ⟨cell,(same _ ih.2).trans read,ref⟩,closed.inside _ ih.2 _ ⟨cell,read,ref⟩⟩

/-! ### Trees -/

variable (refs) in
abbrev reach (heap : Heap Cell) (address : Nat) : Region := {target | heap.Reaches refs address target}

variable (refs) in
/-- From an address on no cell is named twice, and none names one it is reached from. -/
inductive Tree (heap : Heap Cell) : Nat → Prop
  | node {address : Nat} {cell : Cell} (read : heap.cell address = some cell)
      (children : ∀ child ∈ refs cell, Tree heap child)
      (apart : (refs cell).Pairwise fun child other => Disjoint (heap.reach refs child) (heap.reach refs other))
      (outside : ∀ child ∈ refs cell, ¬heap.Reaches refs child address) : Tree heap address

theorem Tree.reaches (tree : heap.Tree refs address) (reaches : heap.Reaches refs address other) : heap.Tree refs other := by
  induction reaches with
  | refl => exact tree
  | tail _ edge ih =>
    obtain ⟨cell,found,ref⟩ := edge
    cases ih with
    | node read children =>
      cases read.symm.trans found
      exact children _ ref

theorem Tree.bounded (tree : heap.Tree refs address) : address < heap.next := by
  cases tree with
  | node read => exact lt_next read

theorem Tree.closed (tree : heap.Tree refs address) : heap.Closed refs (heap.reach refs address) :=
  closed_reach fun _ reaches => (tree.reaches reaches).bounded

theorem Tree.agree (tree : heap.Tree refs address)
    (same : ∀ other ∈ heap.reach refs address, later.cell other = heap.cell other) : later.Tree refs address := by
  induction tree with
  | @node address cell read children apart outside ih =>
    have step {child target : Nat} (ref : child ∈ refs cell) (reaches : heap.Reaches refs child target) :
        target ∈ heap.reach refs address := .head ⟨cell,read,ref⟩ reaches
    have reached {child : Nat} (ref : child ∈ refs cell) : later.reach refs child = heap.reach refs child :=
      Set.ext fun target => (children child ref).closed.reach_agree .refl fun other reaches => same other (step ref reaches)
    refine .node ((same address .refl).trans read) ?_ (apart.imp_of_mem ?_) ?_
    · exact fun child ref => ih child ref fun other reaches => same other (step ref reaches)
    · intro child other ref also disjoint
      rwa [reached ref,reached also]
    · intro child ref back
      exact outside child ref ((Set.ext_iff.mp (reached ref) address).mp back)

/-- A child is replaced by what its cells and new ones became. -/
theorem Tree.lift {child : Nat} {cell : Cell} (tree : heap.Tree refs address) (read : heap.cell address = some cell)
    (ref : child ∈ refs cell) (below : later.Tree refs child) (given : Disjoint region (heap.reach refs address))
    (confined : Confined refs (heap.reach refs child ∪ region) heap later) : later.Tree refs address := by
  cases tree with
  | node found children apart outside =>
    cases found.symm.trans read
    have whole := (Tree.node read children apart outside).closed
    have within {other : Nat} (also : other ∈ refs cell) : heap.reach refs other ⊆ heap.reach refs address :=
      fun target reaches => .head ⟨cell,read,also⟩ reaches
    -- the changes leave the other children and the cell alone
    have elsewhere {other : Nat} (also : other ∈ refs cell)
        (disjoint : Disjoint (heap.reach refs child) (heap.reach refs other)) :
        Disjoint (heap.reach refs child ∪ region) (heap.reach refs other) :=
      Set.disjoint_union_left.mpr ⟨disjoint,given.mono_right (within also)⟩
    have cells {other : Nat} (also : other ∈ refs cell)
        (disjoint : Disjoint (heap.reach refs child) (heap.reach refs other)) :
        ∀ target ∈ heap.reach refs other, later.cell target = heap.cell target :=
      confined.frame (children other also).closed (elsewhere also disjoint)
    have kept : later.cell address = heap.cell address := by
      refine confined.kept address (lt_next read) ?_
      rintro (back | listed)
      · exact outside child ref back
      · exact Set.disjoint_left.mp given listed .refl
    have inside : later.reach refs child ⊆ heap.reach refs child ∪ region ∪ heap.Since later :=
      fun target reaches => confined.closed.reaches (.inl (.inl .refl)) reaches
    have same {other : Nat} (also : other ∈ refs cell)
        (disjoint : Disjoint (heap.reach refs child) (heap.reach refs other)) :
        later.reach refs other = heap.reach refs other :=
      Set.ext fun target => (children other also).closed.reach_agree .refl (cells also disjoint)
    have meets {other : Nat} : ¬Disjoint (heap.reach refs other) (heap.reach refs other) :=
      fun disjoint => Set.disjoint_left.mp disjoint .refl .refl
    have every : ∀ other ∈ refs cell, other ≠ child → Disjoint (heap.reach refs child) (heap.reach refs other) := by
      intro other also differs
      have : Std.Symm fun child other => Disjoint (heap.reach refs child) (heap.reach refs other) :=
        ⟨fun _ _ disjoint => disjoint.symm⟩
      exact apart.forall ref also differs.symm
    refine .node (kept.trans read) ?_ (apart.imp_of_mem ?_) ?_
    · intro other also
      by_cases differs : other = child
      · exact differs ▸ below
      · exact (children other also).agree (cells also (every other also differs))
    · intro first second one two disjoint
      by_cases here : first = child
      · subst here
        have differs : second ≠ first := by
          rintro rfl
          exact meets disjoint
        rw [same two disjoint]
        exact ((children second two).closed.apart (elsewhere two disjoint) later).mono_left inside
      · by_cases there : second = child
        · subst there
          rw [same one disjoint.symm]
          exact (((children first one).closed.apart (elsewhere one disjoint.symm) later).mono_left inside).symm
        · rwa [same one (every first one here),same two (every second two there)]
    · intro other also back
      by_cases differs : other = child
      · subst differs
        rcases inside back with (back | listed) | new
        · exact outside other ref back
        · exact Set.disjoint_left.mp given listed .refl
        · exact Nat.not_lt.mpr new.1 (lt_next read)
      · exact outside other also ((Set.ext_iff.mp (same also (every other also differs)) address).mp back)

end Reach

end Heap

end Migfm.Library
