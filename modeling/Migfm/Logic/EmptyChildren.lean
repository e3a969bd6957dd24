import Migfm.Logic.DeepCopy
import Migfm.Logic.Paths

/-! `CopyWithoutEmptyChildren` of base_values.cc against the tree that is left of a
tree when the dictionaries and lists that come to hold nothing are dropped. -/
namespace Migfm.Logic
open Library

/-! ### What is left of a tree -/

mutual

def Value.pruned : Value → Option Value
  | .dictionary entries => if prunedEntries entries = [] then none else some (.dictionary (prunedEntries entries))
  | .list items => if prunedItems items = [] then none else some (.list (prunedItems items))
  | value => some value

def prunedEntries : List (WString × Value) → List (WString × Value)
  | [] => []
  | (key,value)::entries =>
    match value.pruned with
    | some copy => (key,copy)::prunedEntries entries
    | none => prunedEntries entries

def prunedItems : List Value → List Value
  | [] => []
  | value::items =>
    match value.pruned with
    | some copy => copy::prunedItems items
    | none => prunedItems items

end

/-- A step down: to the value of a key, or to an item. -/
inductive Link
  | key (name : WString)
  | item

mutual

/-- The scalar leaves in their order, each with the chain that leads to it. -/
def Value.leaves : Value → List (List Link × Value)
  | .dictionary entries => leavesEntries entries
  | .list items => leavesItems items
  | value => [([],value)]

def leavesEntries : List (WString × Value) → List (List Link × Value)
  | [] => []
  | (key,value)::entries => value.leaves.map (Prod.map (Link.key key::·) id) ++ leavesEntries entries

def leavesItems : List Value → List (List Link × Value)
  | [] => []
  | value::items => value.leaves.map (Prod.map (Link.item::·) id) ++ leavesItems items

end

mutual

/-- No dictionary and no list of the tree is empty. -/
def Value.Full : Value → Prop
  | .dictionary entries => entries ≠ [] ∧ FullEntries entries
  | .list items => items ≠ [] ∧ FullItems items
  | _ => True

def FullEntries : List (WString × Value) → Prop
  | [] => True
  | (_,value)::entries => value.Full ∧ FullEntries entries

def FullItems : List Value → Prop
  | [] => True
  | value::items => value.Full ∧ FullItems items

end

mutual

/-- The second tree is the first without some children that hold no leaf. -/
inductive Value.Sheds : Value → Value → Prop
  | leaf {value : Value} (leaf : value.leaves = [([],value)]) : Value.Sheds value value
  | dictionary {entries kept : List (WString × Value)} (sheds : ShedsEntries entries kept) :
      Value.Sheds (.dictionary entries) (.dictionary kept)
  | list {items kept : List Value} (sheds : ShedsItems items kept) : Value.Sheds (.list items) (.list kept)

inductive ShedsEntries : List (WString × Value) → List (WString × Value) → Prop
  | nil : ShedsEntries [] []
  | drop {key : WString} {value : Value} {entries kept : List (WString × Value)} (hollow : value.leaves = [])
      (sheds : ShedsEntries entries kept) : ShedsEntries ((key,value)::entries) kept
  | keep {key : WString} {value copy : Value} {entries kept : List (WString × Value)} (below : Value.Sheds value copy)
      (sheds : ShedsEntries entries kept) : ShedsEntries ((key,value)::entries) ((key,copy)::kept)

inductive ShedsItems : List Value → List Value → Prop
  | nil : ShedsItems [] []
  | drop {value : Value} {items kept : List Value} (hollow : value.leaves = []) (sheds : ShedsItems items kept) :
      ShedsItems (value::items) kept
  | keep {value copy : Value} {items kept : List Value} (below : Value.Sheds value copy) (sheds : ShedsItems items kept) :
      ShedsItems (value::items) (copy::kept)

end

/-- A tree is left exactly of what has a leaf, and it has the same leaves. -/
def Left (value : Value) : Option Value → Prop
  | none => value.leaves = []
  | some copy => value.Sheds copy ∧ copy.Full ∧ copy.leaves = value.leaves ∧ copy.leaves ≠ []

mutual

theorem Value.pruned_left : ∀ value : Value, Left value value.pruned
  | .dictionary entries => by
    obtain ⟨sheds,full,leaves,hollow⟩ := prunedEntries_left entries
    rw [Value.pruned]
    split
    · rename_i empty
      rw [empty] at leaves
      exact leaves.symm
    · rename_i more
      exact ⟨.dictionary sheds,⟨more,full⟩,leaves,fun none => more (hollow none)⟩
  | .list items => by
    obtain ⟨sheds,full,leaves,hollow⟩ := prunedItems_left items
    rw [Value.pruned]
    split
    · rename_i empty
      rw [empty] at leaves
      exact leaves.symm
    · rename_i more
      exact ⟨.list sheds,⟨more,full⟩,leaves,fun none => more (hollow none)⟩
  | .null => ⟨.leaf rfl,trivial,rfl,List.cons_ne_nil _ _⟩
  | .fundamental _ => ⟨.leaf rfl,trivial,rfl,List.cons_ne_nil _ _⟩
  | .string _ => ⟨.leaf rfl,trivial,rfl,List.cons_ne_nil _ _⟩
  | .binary _ => ⟨.leaf rfl,trivial,rfl,List.cons_ne_nil _ _⟩

theorem prunedEntries_left : ∀ entries : List (WString × Value), ShedsEntries entries (prunedEntries entries) ∧
    FullEntries (prunedEntries entries) ∧ leavesEntries (prunedEntries entries) = leavesEntries entries ∧
      (leavesEntries (prunedEntries entries) = [] → prunedEntries entries = [])
  | [] => ⟨.nil,trivial,rfl,fun _ => rfl⟩
  | (key,value)::entries => by
    have first := value.pruned_left
    obtain ⟨sheds,full,leaves,hollow⟩ := prunedEntries_left entries
    rw [prunedEntries,leavesEntries]
    cases left : value.pruned with
    | none =>
      rw [left] at first
      refine ⟨.drop first sheds,full,?_,hollow⟩
      rw [(first : value.leaves = []),leaves]
      rfl
    | some copy =>
      rw [left] at first
      obtain ⟨below,filled,same,some⟩ := first
      refine ⟨.keep below sheds,⟨filled,full⟩,?_,?_⟩
      · rw [leavesEntries,same,leaves]
      · intro none
        rw [leavesEntries] at none
        exact absurd (List.map_eq_nil_iff.mp (List.append_eq_nil_iff.mp none).1) some

theorem prunedItems_left : ∀ items : List Value, ShedsItems items (prunedItems items) ∧ FullItems (prunedItems items) ∧
    leavesItems (prunedItems items) = leavesItems items ∧ (leavesItems (prunedItems items) = [] → prunedItems items = [])
  | [] => ⟨.nil,trivial,rfl,fun _ => rfl⟩
  | value::items => by
    have first := value.pruned_left
    obtain ⟨sheds,full,leaves,hollow⟩ := prunedItems_left items
    rw [prunedItems,leavesItems]
    cases left : value.pruned with
    | none =>
      rw [left] at first
      refine ⟨.drop first sheds,full,?_,hollow⟩
      rw [(first : value.leaves = []),leaves]
      rfl
    | some copy =>
      rw [left] at first
      obtain ⟨below,filled,same,some⟩ := first
      refine ⟨.keep below sheds,⟨filled,full⟩,?_,?_⟩
      · rw [leavesItems,same,leaves]
      · intro none
        rw [leavesItems] at none
        exact absurd (List.map_eq_nil_iff.mp (List.append_eq_nil_iff.mp none).1) some

end

mutual

/-- Of a full tree everything is left. -/
theorem Value.Full.pruned : ∀ {value : Value}, value.Full → value.pruned = some value
  | .dictionary entries,full => by rw [Value.pruned,FullEntries.pruned full.2,if_neg full.1]
  | .list items,full => by rw [Value.pruned,FullItems.pruned full.2,if_neg full.1]
  | .null,_ => rfl
  | .fundamental _,_ => rfl
  | .string _,_ => rfl
  | .binary _,_ => rfl

theorem FullEntries.pruned : ∀ {entries : List (WString × Value)}, FullEntries entries → prunedEntries entries = entries
  | [],_ => rfl
  | (key,value)::entries,full => by
    rw [prunedEntries,full.1.pruned,FullEntries.pruned full.2]

theorem FullItems.pruned : ∀ {items : List Value}, FullItems items → prunedItems items = items
  | [],_ => rfl
  | value::items,full => by
    rw [prunedItems,full.1.pruned,FullItems.pruned full.2]

end

mutual

/-- The keys of each dictionary are in the order of a `std::map`. -/
def Value.Sorted : Value → Prop
  | .dictionary entries => (entries.map Prod.fst).Pairwise (· < ·) ∧ SortedEntries entries
  | .list items => SortedItems items
  | _ => True

def SortedEntries : List (WString × Value) → Prop
  | [] => True
  | (_,value)::entries => value.Sorted ∧ SortedEntries entries

def SortedItems : List Value → Prop
  | [] => True
  | value::items => value.Sorted ∧ SortedItems items

end

theorem SortedEntries.value {entries : List (WString × Value)} (sorted : SortedEntries entries) {value : Value}
    (member : value ∈ entries.map Prod.snd) : value.Sorted := by
  induction entries with
  | nil => cases member
  | cons first entries ih =>
    rcases List.mem_cons.mp member with rfl | member
    · exact sorted.1
    · exact ih sorted.2 member

theorem SortedItems.value {items : List Value} (sorted : SortedItems items) {value : Value} (member : value ∈ items) :
    value.Sorted := by
  induction items with
  | nil => cases member
  | cons first items ih =>
    rcases List.mem_cons.mp member with rfl | member
    · exact sorted.1
    · exact ih sorted.2 member

theorem SortedEntries.of_values {entries : List (WString × Value)} (sorted : ∀ value ∈ entries.map Prod.snd, value.Sorted) :
    SortedEntries entries := by
  induction entries with
  | nil => trivial
  | cons first entries ih => exact ⟨sorted _ List.mem_cons_self,ih fun value listed => sorted value (List.mem_cons_of_mem _ listed)⟩

theorem SortedItems.of_values {items : List Value} (sorted : ∀ value ∈ items, value.Sorted) : SortedItems items := by
  induction items with
  | nil => trivial
  | cons first items ih => exact ⟨sorted _ List.mem_cons_self,ih fun value listed => sorted value (List.mem_cons_of_mem _ listed)⟩

theorem prunedEntries_keys (entries : List (WString × Value)) :
    ((prunedEntries entries).map Prod.fst).Sublist (entries.map Prod.fst) := by
  induction entries with
  | nil => exact .slnil
  | cons entry entries ih =>
    rw [prunedEntries]
    split
    · exact ih.cons_cons _
    · exact ih.cons _

mutual

theorem Value.Sorted.pruned : ∀ {value copy : Value}, value.Sorted → value.pruned = some copy → copy.Sorted
  | .dictionary entries,copy,sorted,left => by
    rw [Value.pruned] at left
    split at left
    · cases left
    · cases left
      exact ⟨sorted.1.sublist (prunedEntries_keys entries),SortedEntries.pruned sorted.2⟩
  | .list items,copy,sorted,left => by
    rw [Value.pruned] at left
    split at left
    · cases left
    · cases left
      exact SortedItems.pruned sorted
  | .null,_,_,rfl => trivial
  | .fundamental _,_,_,rfl => trivial
  | .string _,_,_,rfl => trivial
  | .binary _,_,_,rfl => trivial

theorem SortedEntries.pruned : ∀ {entries : List (WString × Value)}, SortedEntries entries → SortedEntries (prunedEntries entries)
  | [],_ => trivial
  | (key,value)::entries,sorted => by
    rw [prunedEntries]
    split
    · rename_i copy left
      exact ⟨sorted.1.pruned left,SortedEntries.pruned sorted.2⟩
    · exact SortedEntries.pruned sorted.2

theorem SortedItems.pruned : ∀ {items : List Value}, SortedItems items → SortedItems (prunedItems items)
  | [],_ => trivial
  | value::items,sorted => by
    rw [prunedItems]
    split
    · rename_i copy left
      exact ⟨sorted.1.pruned left,SortedItems.pruned sorted.2⟩
    · exact SortedItems.pruned sorted.2

end

/-! ### The copiers -/

/-- The loop over the items, each copied and appended unless its copy is NULL. -/
def CopyItemsLeft (copyChild : ValueHeap → Nat → Option (Option Nat × ValueHeap)) (copy : Nat) :
    ValueHeap → List Nat → Option ValueHeap
  | heap,[] => some heap
  | heap,child::list_ => (copyChild heap child).bind fun (child_copy,copied) =>
      (ListValue.Append copied copy child_copy).bind fun appended => CopyItemsLeft copyChild copy appended list_

def CopyListWithoutEmptyChildren (copyChild : ValueHeap → Nat → Option (Option Nat × ValueHeap)) (heap : ValueHeap)
    (list : List Nat) : Option (Option Nat × ValueHeap) :=
  let (copy,created) := heap.alloc (.list [])
  (CopyItemsLeft copyChild copy created list).bind fun filled => (ListValue.list_ filled copy).map fun left =>
    if left = [] then (none,filled.free copy) else (some copy,filled)

/-- The loop over the keys of `dict`. -/
def CopyEntriesLeft (copyChild : ValueHeap → Nat → Option (Option Nat × ValueHeap)) (dict copy : Nat) :
    ValueHeap → List WString → Option ValueHeap
  | heap,[] => some heap
  | heap,key::keys => (DictionaryValue.GetWithoutPathExpansion heap dict key).bind fun child =>
      (copyChild heap child).bind fun (child_copy,copied) =>
        (DictionaryValue.SetWithoutPathExpansion copied copy key child_copy).bind fun set =>
          CopyEntriesLeft copyChild dict copy set keys

def CopyDictionaryWithoutEmptyChildren (copyChild : ValueHeap → Nat → Option (Option Nat × ValueHeap)) (heap : ValueHeap)
    (dict : Nat) (dictionary : ValueMap Nat) : Option (Option Nat × ValueHeap) :=
  let (copy,created) := heap.alloc (.dictionary [])
  (CopyEntriesLeft copyChild dict copy created (dictionary.map Prod.fst)).bind fun filled =>
    (DictionaryValue.dictionary_ filled copy).map fun left => if left = [] then (none,filled.free copy) else (some copy,filled)

/-- `CopyWithoutEmptyChildren`, as deep as the fuel; NULL for a node of which nothing is left. -/
def CopyWithoutEmptyChildren : Nat → ValueHeap → Nat → Option (Option Nat × ValueHeap)
  | 0,_,_ => none
  | fuel + 1,heap,node =>
    match heap.cell node with
    | some (.list list_) => CopyListWithoutEmptyChildren (CopyWithoutEmptyChildren fuel) heap list_
    | some (.dictionary dictionary_) => CopyDictionaryWithoutEmptyChildren (CopyWithoutEmptyChildren fuel) heap node dictionary_
    | _ => (DeepCopy (fuel + 1) heap node).map fun (copy,copied) => (some copy,copied)

def DictionaryValue.DeepCopyWithoutEmptyChildren (fuel : Nat) (heap : ValueHeap) (this : Nat) : Option (Nat × ValueHeap) :=
  (CopyWithoutEmptyChildren fuel heap this).map fun
    | (some copy,copied) => (copy,copied)
    | (none,copied) => copied.alloc (.dictionary [])

/-! ### A node that is being filled -/

variable {heap mid later : ValueHeap} {this copy : Nat} {cell : Cell} {tree : Value}

/-- `heap.next` holds the copy so far, and all that is new lies behind it. -/
structure Filling (heap later : ValueHeap) (cell : Cell) : Prop where
  kept : ∀ address < heap.next, later.cell address = heap.cell address
  grows : heap.next < later.next
  closed : later.Closed Cell.refs (Set.Ico (heap.next + 1) later.next)
  read : later.cell heap.next = some cell
  inside : ∀ child ∈ cell.refs, child ∈ Set.Ico (heap.next + 1) later.next

theorem filling_alloc (leaf : cell.refs = []) : Filling heap (heap.alloc cell).2 cell := by
  refine ⟨fun address before => Heap.alloc_cell_ne before.ne,Nat.lt_succ_self _,?_,Heap.alloc_cell_self,by simp [leaf]⟩
  rw [Heap.alloc_next,Set.Ico_self]
  exact .empty

theorem Filling.extends_ (filling : Filling heap mid cell) : Extends heap mid := ⟨filling.grows.le,filling.kept⟩

/-- More is allocated, and nothing that was is touched. -/
theorem Filling.grow (filling : Filling heap mid cell) (confined : Heap.Confined Cell.refs ∅ mid later) :
    Filling heap later cell := by
  have old (address : Nat) (before : address < mid.next) : later.cell address = mid.cell address :=
    confined.kept address before (Set.notMem_empty _)
  have region : Set.Ico (heap.next + 1) mid.next ∪ mid.Since later = Set.Ico (heap.next + 1) later.next :=
    Set.Ico_union_Ico_eq_Ico filling.grows confined.grows
  have first : later.Closed Cell.refs (Set.Ico (heap.next + 1) mid.next) :=
    filling.closed.agree confined.grows fun address member => old address member.2
  have second : later.Closed Cell.refs (mid.Since later) := by
    have closed := confined.closed
    rwa [Set.empty_union] at closed
  refine ⟨?_,filling.grows.trans_le confined.grows,region ▸ first.union second,(old _ filling.grows).trans filling.read,?_⟩
  · intro address before
    exact (old address (before.trans filling.grows)).trans (filling.kept address before)
  · intro child ref
    exact ⟨(filling.inside child ref).1,(filling.inside child ref).2.trans_le confined.grows⟩

theorem Filling.grow_denotes (filling : Filling heap mid cell) (confined : Heap.Confined Cell.refs ∅ mid later)
    {children : List Nat} {values : List Value} (refs : ∀ child ∈ children, child ∈ cell.refs)
    (denotes : List.Forall₂ mid.Denotes children values) : List.Forall₂ later.Denotes children values := by
  refine List.forall₂_iff_get.mpr ⟨denotes.length_eq,?_⟩
  intro i left right
  refine (denotes.get left right).agree filling.closed ?_ (filling.inside _ (refs _ (List.get_mem ..)))
  exact fun address member => confined.kept address member.2 (Set.notMem_empty _)

/-- The node is written, with children from among what is new. -/
theorem Filling.write (filling : Filling heap later cell) {next : Cell}
    (inside : ∀ child ∈ next.refs, child ∈ Set.Ico (heap.next + 1) later.next) :
    Filling heap (later.write heap.next next) next := by
  refine ⟨?_,filling.grows,filling.closed.agree le_rfl ?_,?_,inside⟩
  · intro address before
    rw [Heap.write_cell_ne before.ne]
    exact filling.kept address before
  · exact fun address member => Heap.write_cell_ne (Nat.ne_of_gt member.1)
  · rw [Heap.write_cell_self,filling.read]
    rfl

theorem Filling.write_denotes (filling : Filling heap later cell) {next : Cell} {children : List Nat} {values : List Value}
    (inside : ∀ child ∈ children, child ∈ Set.Ico (heap.next + 1) later.next)
    (denotes : List.Forall₂ later.Denotes children values) :
    List.Forall₂ (ValueHeap.Denotes (later.write heap.next next)) children values := by
  refine List.forall₂_iff_get.mpr ⟨denotes.length_eq,?_⟩
  intro i left right
  exact (denotes.get left right).agree filling.closed (fun _ member => Heap.write_cell_ne (Nat.ne_of_gt member.1))
    (inside _ (List.get_mem ..))

theorem Filling.confined (filling : Filling heap later cell) : Heap.Confined Cell.refs ∅ heap later := by
  refine ⟨filling.grows.le,fun address before _ => filling.kept address before,?_⟩
  rw [Set.empty_union]
  refine ⟨fun address member => member.2,?_⟩
  rintro address member target ⟨found,read,ref⟩
  by_cases same : address = heap.next
  · subst same
    cases filling.read.symm.trans read
    exact ⟨Nat.le_of_succ_le (filling.inside target ref).1,(filling.inside target ref).2⟩
  · have listed := filling.closed.inside address ⟨Nat.lt_of_le_of_ne member.1 (Ne.symm same),member.2⟩ target ⟨found,read,ref⟩
    exact ⟨Nat.le_of_succ_le listed.1,listed.2⟩

theorem Filling.copied (filling : Filling heap later cell) (denotes : later.Denotes heap.next tree) :
    Copied heap later heap.next tree :=
  ⟨filling.confined,⟨le_rfl,filling.grows⟩,denotes⟩

theorem Filling.freed (filling : Filling heap later cell) : Heap.Confined Cell.refs ∅ heap (later.free heap.next) := by
  refine ⟨filling.grows.le,?_,?_⟩
  · intro address before _
    rw [Heap.free_cell_ne before.ne]
    exact filling.kept address before
  · have closed := filling.confined.closed
    rw [Set.empty_union] at closed ⊢
    have freed := (Heap.confined_free closed ⟨le_rfl,filling.grows⟩).closed
    rwa [Heap.since_self Heap.free_next,Set.union_empty] at freed

/-! ### What the copiers return -/

/-- A copy of what is left, or NULL; all other nodes are as before. -/
def CopiedLeft (heap later : ValueHeap) : Option Nat → Option Value → Prop
  | none,none => Heap.Confined Cell.refs ∅ heap later
  | some copy,some tree => Copied heap later copy tree
  | _,_ => False

/-- Whatever extends `heap`, the copier finds the child as it is and copies what is left of it. -/
def CopiesLeft (heap : ValueHeap) (enough child : Nat) (tree : Value) : Prop :=
  ∀ mid, Extends heap mid → ∃ child_copy later,
    (∀ fuel, enough ≤ fuel → CopyWithoutEmptyChildren (fuel + 1) mid child = some (child_copy,later)) ∧
      CopiedLeft mid later child_copy tree.pruned

theorem CopyItemsLeft_spec {enough : Nat} {list_ copies : List Nat} {items values : List Value}
    (children : List.Forall₂ (CopiesLeft heap enough) list_ items) (filling : Filling heap mid (.list copies))
    (denotes : List.Forall₂ mid.Denotes copies values) :
    ∃ later copies', (∀ fuel, enough ≤ fuel →
        CopyItemsLeft (CopyWithoutEmptyChildren (fuel + 1)) heap.next mid list_ = some later) ∧
      Filling heap later (.list copies') ∧ List.Forall₂ later.Denotes copies' (values ++ prunedItems items) := by
  induction children generalizing mid copies values with
  | nil => exact ⟨mid,copies,fun _ _ => rfl,filling,by rwa [prunedItems,List.append_nil]⟩
  | @cons child tree list_ items child_copies _ ih =>
    obtain ⟨child_copy,copied,copies_,left⟩ := child_copies mid filling.extends_
    rw [prunedItems]
    cases pruned : tree.pruned with
    | none =>
      rw [pruned] at left
      cases child_copy with
      | some copy => exact left.elim
      | none =>
        obtain ⟨final,copies',rest,filled,denotes⟩ := ih (filling.grow left) (filling.grow_denotes left (fun _ ref => ref) denotes)
        refine ⟨final,copies',?_,filled,denotes⟩
        intro fuel fits
        rw [CopyItemsLeft,copies_ fuel fits]
        exact rest fuel fits
    | some value =>
      rw [pruned] at left
      cases child_copy with
      | none => exact left.elim
      | some copy =>
        have grown := filling.grow left.confined
        have inside : ∀ child ∈ copies ++ [copy], child ∈ Set.Ico (heap.next + 1) copied.next := by
          intro child ref
          rcases List.mem_append.mp ref with ref | ref
          · exact grown.inside child ref
          · cases List.mem_singleton.mp ref
            exact ⟨filling.grows.trans_le left.new.1,left.new.2⟩
        have all := List.rel_append (filling.grow_denotes left.confined (fun _ ref => ref) denotes) (.cons left.denotes .nil)
        have append : ListValue.Append copied heap.next (some copy) = some (copied.write heap.next (.list (copies ++ [copy]))) := by
          rw [ListValue.Append,ListValue.list_,grown.read]
          rfl
        have written : Filling heap (copied.write heap.next (.list (copies ++ [copy]))) (.list (copies ++ [copy])) :=
          grown.write inside
        obtain ⟨final,copies',rest,filled,denotes⟩ := ih written (grown.write_denotes inside all)
        refine ⟨final,copies',?_,filled,by rwa [List.append_assoc] at denotes⟩
        intro fuel fits
        rw [CopyItemsLeft,copies_ fuel fits]
        dsimp only [Option.bind_some]
        rw [append]
        exact rest fuel fits

/-- The map so far, and that the keys to come lie behind its own. -/
theorem CopyEntriesLeft_spec {enough dict : Nat} {map : ValueMap Nat} {entries : List (WString × Value)}
    {values : List (WString × Value)} {dictionary_ rest : ValueMap Nat}
    (read : heap.cell dict = some (.dictionary dictionary_)) (ordered : dictionary_.Ordered) (listed : ∀ entry ∈ rest, entry ∈ dictionary_)
    (names : rest.map Prod.fst = entries.map Prod.fst) (sorted : (rest.map Prod.fst).Pairwise (· < ·))
    (children : List.Forall₂ (CopiesLeft heap enough) (rest.map Prod.snd) (entries.map Prod.snd))
    (filling : Filling heap mid (.dictionary map)) (keys : map.map Prod.fst = values.map Prod.fst)
    (before : ∀ entry ∈ map, ∀ key ∈ rest.map Prod.fst, entry.1 < key)
    (denotes : List.Forall₂ mid.Denotes (map.map Prod.snd) (values.map Prod.snd)) :
    ∃ later map', (∀ fuel, enough ≤ fuel → CopyEntriesLeft (CopyWithoutEmptyChildren (fuel + 1)) dict heap.next mid
        (rest.map Prod.fst) = some later) ∧ Filling heap later (.dictionary map') ∧
      map'.map Prod.fst = (values ++ prunedEntries entries).map Prod.fst ∧
      List.Forall₂ later.Denotes (map'.map Prod.snd) ((values ++ prunedEntries entries).map Prod.snd) := by
  induction entries generalizing mid map values rest with
  | nil =>
    cases List.map_eq_nil_iff.mp names
    exact ⟨mid,map,fun _ _ => rfl,filling,by rwa [prunedEntries,List.append_nil],by rwa [prunedEntries,List.append_nil]⟩
  | cons entry entries ih =>
    obtain ⟨key,tree⟩ := entry
    obtain _ | ⟨⟨name,child⟩,rest⟩ := rest
    · cases names
    obtain ⟨rfl,following⟩ := List.cons.inj names
    obtain _ | ⟨child_copies,children⟩ := children
    obtain ⟨less,sorted⟩ := List.pairwise_cons.mp sorted
    obtain ⟨child_copy,copied,copies,left⟩ := child_copies mid filling.extends_
    have found : DictionaryValue.GetWithoutPathExpansion mid dict name = some child := by
      rw [DictionaryValue.GetWithoutPathExpansion,DictionaryValue.dictionary_,filling.kept dict (Heap.lt_next read),read]
      exact ValueMap.Ordered.find_mem ordered (listed _ List.mem_cons_self)
    have later_listed : ∀ entry ∈ rest, entry ∈ dictionary_ := fun entry member => listed entry (List.mem_cons_of_mem _ member)
    have later_before : ∀ entry ∈ map, ∀ key ∈ rest.map Prod.fst, entry.1 < key :=
      fun entry member key listed => before entry member key (List.mem_cons_of_mem _ listed)
    rw [prunedEntries]
    cases pruned : tree.pruned with
    | none =>
      rw [pruned] at left
      cases child_copy with
      | some copy => exact left.elim
      | none =>
        obtain ⟨final,map',runs,filled,named,denotes⟩ := ih later_listed following sorted children (filling.grow left) keys later_before
          (filling.grow_denotes left (fun _ ref => ref) denotes)
        refine ⟨final,map',?_,filled,named,denotes⟩
        intro fuel fits
        rw [List.map_cons,CopyEntriesLeft,found,Option.bind_some,copies fuel fits]
        exact runs fuel fits
    | some value =>
      rw [pruned] at left
      cases child_copy with
      | none => exact left.elim
      | some copy =>
        have grown := filling.grow left.confined
        have inside : ∀ child ∈ (map ++ [(name,copy)]).map Prod.snd, child ∈ Set.Ico (heap.next + 1) copied.next := by
          intro child ref
          rw [List.map_append] at ref
          rcases List.mem_append.mp ref with ref | ref
          · exact grown.inside child ref
          · cases List.mem_singleton.mp ref
            exact ⟨filling.grows.trans_le left.new.1,left.new.2⟩
        have all : List.Forall₂ copied.Denotes ((map ++ [(name,copy)]).map Prod.snd) ((values ++ [(name,value)]).map Prod.snd) := by
          rw [List.map_append,List.map_append]
          exact List.rel_append (filling.grow_denotes left.confined (fun _ ref => ref) denotes) (.cons left.denotes .nil)
        have fresh : map.find name = none := by
          refine ValueMap.find_none fun member => ?_
          obtain ⟨entry,member,same⟩ := List.mem_map.mp member
          exact (before entry member name List.mem_cons_self).ne same
        have set : DictionaryValue.SetWithoutPathExpansion copied heap.next name (some copy) =
            some (copied.write heap.next (.dictionary (map ++ [(name,copy)]))) := by
          rw [DictionaryValue.SetWithoutPathExpansion,DictionaryValue.dictionary_,grown.read]
          dsimp only [Option.map_some]
          rw [fresh,ValueMap.assign_last fun entry member => before entry member name List.mem_cons_self]
        have written : Filling heap (copied.write heap.next (.dictionary (map ++ [(name,copy)]))) (.dictionary (map ++ [(name,copy)])) :=
          grown.write inside
        have behind : ∀ entry ∈ map ++ [(name,copy)], ∀ key ∈ rest.map Prod.fst, entry.1 < key := by
          intro entry member key listed
          rcases List.mem_append.mp member with member | member
          · exact later_before entry member key listed
          · cases List.mem_singleton.mp member
            exact less key listed
        obtain ⟨final,map',runs,filled,named,denotes⟩ := ih later_listed following sorted children written
          (by rw [List.map_append,List.map_append,keys]; rfl) behind (grown.write_denotes inside all)
        rw [List.append_assoc] at named denotes
        refine ⟨final,map',?_,filled,named,denotes⟩
        intro fuel fits
        rw [List.map_cons,CopyEntriesLeft,found,Option.bind_some,copies fuel fits]
        dsimp only [Option.bind_some]
        rw [set]
        exact runs fuel fits

mutual

def Value.height : Value → Nat
  | .dictionary entries => heightEntries entries + 1
  | .list items => heightItems items + 1
  | _ => 0

def heightEntries : List (WString × Value) → Nat
  | [] => 0
  | (_,value)::entries => max value.height (heightEntries entries)

def heightItems : List Value → Nat
  | [] => 0
  | value::items => max value.height (heightItems items)

end

theorem height_le_entries {entries : List (WString × Value)} (member : tree ∈ entries.map Prod.snd) :
    tree.height ≤ heightEntries entries := by
  induction entries with
  | nil => cases member
  | cons first entries ih =>
    rw [heightEntries]
    rcases List.mem_cons.mp member with rfl | member
    · exact le_max_left ..
    · exact (ih member).trans (le_max_right ..)

theorem height_le_items {items : List Value} (member : tree ∈ items) : tree.height ≤ heightItems items := by
  induction items with
  | nil => cases member
  | cons first items ih =>
    rw [heightItems]
    rcases List.mem_cons.mp member with rfl | member
    · exact le_max_left ..
    · exact (ih member).trans (le_max_right ..)

theorem Extends.trans (first : Extends heap mid) (second : Extends mid later) : Extends heap later := by
  refine ⟨first.1.trans second.1,?_⟩
  intro address before
  exact (second.2 address (before.trans_le first.1)).trans (first.2 address before)

theorem CopiesLeft.mono {enough more child : Nat} (copies : CopiesLeft heap enough child tree) (extended : Extends heap mid)
    (wider : enough ≤ more) : CopiesLeft mid more child tree := by
  intro later further
  obtain ⟨child_copy,final,runs,left⟩ := copies later (extended.trans further)
  exact ⟨child_copy,final,fun fuel fits => runs fuel (wider.trans fits),left⟩

theorem copiesLeft_leaf {node : Nat} {cell : Cell} (denotes : heap.Denotes node tree) (read : heap.cell node = some cell)
    (scalar : (∀ list_, cell ≠ .list list_) ∧ ∀ dictionary_, cell ≠ .dictionary dictionary_) (shallow : tree.depth = 0)
    (same : tree.emptied = tree) (left : tree.pruned = some tree) : CopiesLeft heap 0 node tree := by
  intro mid extended
  obtain ⟨copy,later,runs,copied⟩ := DeepCopy_spec denotes extended
  refine ⟨some copy,later,?_,?_⟩
  · intro fuel _
    rw [CopyWithoutEmptyChildren,(extended.2 _ (Heap.lt_next read)).trans read]
    dsimp only
    split
    · rename_i here
      exact absurd (Option.some.inj here) (scalar.1 _)
    · rename_i here
      exact absurd (Option.some.inj here) (scalar.2 _)
    · rw [runs fuel (shallow ▸ Nat.zero_le fuel)]
      rfl
  · rw [left]
    exact same ▸ copied

/-- With fuel for the height of the tree the copier copies what is left of it. -/
theorem CopyWithoutEmptyChildren_spec (denotes : heap.Denotes this tree) (sorted : tree.Sorted) :
    CopiesLeft heap tree.height this tree := by
  induction denotes using ValueHeap.Denotes.rule with
  | null read => exact copiesLeft_leaf (.null read) read (by simp) rfl rfl rfl
  | fundamental read => exact copiesLeft_leaf (.fundamental read) read (by simp) rfl rfl rfl
  | string read => exact copiesLeft_leaf (.string read) read (by simp) rfl rfl rfl
  | binary read content fits => exact copiesLeft_leaf (.binary read content fits) read (by simp) rfl rfl rfl
  | @dictionary this dictionary_ entries read keys children copies =>
    intro mid extended
    have found := (extended.2 _ (Heap.lt_next read)).trans read
    have each : List.Forall₂ (CopiesLeft mid (heightEntries entries)) (dictionary_.map Prod.snd) (entries.map Prod.snd) :=
      List.forall₂_iff_get.mpr ⟨children.length_eq,fun i left right =>
        (copies i left right (sorted.2.value (List.get_mem ..))).mono extended (height_le_entries (List.get_mem ..))⟩
    have ordered : dictionary_.Ordered := by
      rw [ValueMap.Ordered,keys]
      exact sorted.1
    have start : ∀ entry ∈ ([] : ValueMap Nat), ∀ key ∈ dictionary_.map Prod.fst, entry.1 < key := fun _ member => by cases member
    obtain ⟨later,map,runs,filling,named,denotes⟩ := @CopyEntriesLeft_spec mid _ _ _ [] entries [] dictionary_ dictionary_
      found ordered (fun _ member => member) keys ordered each (filling_alloc rfl) rfl start .nil
    rw [List.nil_append] at named denotes
    have stored : DictionaryValue.dictionary_ later mid.next = some map := by rw [DictionaryValue.dictionary_,filling.read]
    have empty : map = [] ↔ prunedEntries entries = [] := by
      rw [← List.map_eq_nil_iff (f := Prod.fst),named,List.map_eq_nil_iff]
    have step (fuel : Nat) (fits : (Value.dictionary entries).height ≤ fuel) : CopyWithoutEmptyChildren (fuel + 1) mid this =
        some (if map = [] then (none,later.free mid.next) else (some mid.next,later)) := by
      obtain ⟨fuel,rfl⟩ : ∃ n, fuel = n + 1 := Nat.exists_eq_succ_of_ne_zero (Nat.ne_zero_of_lt fits)
      rw [CopyWithoutEmptyChildren,found]
      dsimp only [CopyDictionaryWithoutEmptyChildren]
      rw [Heap.alloc_address,runs fuel (Nat.le_of_succ_le_succ fits),Option.bind_some,stored,Option.map_some]
    rw [Value.pruned]
    by_cases nothing : prunedEntries entries = []
    · rw [if_pos nothing]
      exact ⟨none,_,fun fuel fits => (step fuel fits).trans (congrArg some (if_pos (empty.mpr nothing))),filling.freed⟩
    · rw [if_neg nothing]
      refine ⟨some mid.next,later,?_,filling.copied (.dictionary filling.read named denotes)⟩
      intro fuel fits
      exact (step fuel fits).trans (congrArg some (if_neg fun gone => nothing (empty.mp gone)))
  | @list this list_ items read children copies =>
    intro mid extended
    have found := (extended.2 _ (Heap.lt_next read)).trans read
    have each : List.Forall₂ (CopiesLeft mid (heightItems items)) list_ items :=
      List.forall₂_iff_get.mpr ⟨children.length_eq,fun i left right =>
        (copies i left right (SortedItems.value sorted (List.get_mem ..))).mono extended (height_le_items (List.get_mem ..))⟩
    obtain ⟨later,left,runs,filling,denotes⟩ := CopyItemsLeft_spec each (filling_alloc rfl) .nil
    rw [List.nil_append] at denotes
    have stored : ListValue.list_ later mid.next = some left := by rw [ListValue.list_,filling.read]
    have empty : left = [] ↔ prunedItems items = [] := by
      rw [← List.length_eq_zero_iff,denotes.length_eq,List.length_eq_zero_iff]
    have step (fuel : Nat) (fits : (Value.list items).height ≤ fuel) : CopyWithoutEmptyChildren (fuel + 1) mid this =
        some (if left = [] then (none,later.free mid.next) else (some mid.next,later)) := by
      obtain ⟨fuel,rfl⟩ : ∃ n, fuel = n + 1 := Nat.exists_eq_succ_of_ne_zero (Nat.ne_zero_of_lt fits)
      rw [CopyWithoutEmptyChildren,found]
      dsimp only [CopyListWithoutEmptyChildren]
      rw [Heap.alloc_address,runs fuel (Nat.le_of_succ_le_succ fits),Option.bind_some,stored,Option.map_some]
    rw [Value.pruned]
    by_cases nothing : prunedItems items = []
    · rw [if_pos nothing]
      exact ⟨none,_,fun fuel fits => (step fuel fits).trans (congrArg some (if_pos (empty.mpr nothing))),filling.freed⟩
    · rw [if_neg nothing]
      refine ⟨some mid.next,later,?_,filling.copied (.list filling.read denotes)⟩
      intro fuel fits
      exact (step fuel fits).trans (congrArg some (if_neg fun gone => nothing (empty.mp gone)))

/-! ### `DeepCopyWithoutEmptyChildren` -/

/-- All runs with enough fuel return this. -/
def DeepCopiesWithoutEmptyChildren (heap : ValueHeap) (this copy : Nat) (later : ValueHeap) : Prop :=
  ∃ fuel, ∀ more, fuel ≤ more → DictionaryValue.DeepCopyWithoutEmptyChildren more heap this = some (copy,later)

theorem deepCopiedWithoutEmptyChildren {entries : List (WString × Value)} (denotes : heap.Denotes this (.dictionary entries))
    (sorted : (Value.dictionary entries).Sorted) :
    ∃ copy later, DeepCopiesWithoutEmptyChildren heap this copy later ∧ heap.Confined Cell.refs ∅ later ∧
      later.Denotes copy (.dictionary (prunedEntries entries)) := by
  obtain ⟨child_copy,copied,runs,left⟩ := CopyWithoutEmptyChildren_spec denotes sorted heap ⟨le_rfl,fun _ _ => rfl⟩
  have returns (more : Nat) (enough : (Value.dictionary entries).height + 1 ≤ more) :
      CopyWithoutEmptyChildren more heap this = some (child_copy,copied) := by
    obtain ⟨fuel,rfl⟩ : ∃ n, more = n + 1 := Nat.exists_eq_succ_of_ne_zero (Nat.ne_zero_of_lt enough)
    exact runs fuel (Nat.le_of_succ_le_succ enough)
  rw [Value.pruned] at left
  by_cases nothing : prunedEntries entries = []
  · rw [if_pos nothing] at left
    cases child_copy with
    | some copy => exact left.elim
    | none =>
      have empty : (copied.alloc (.dictionary [])).2.cell copied.next = some (.dictionary []) := Heap.alloc_cell_self
      refine ⟨copied.next,(copied.alloc (.dictionary [])).2,⟨(Value.dictionary entries).height + 1,?_⟩,Heap.Confined.alloc left (by simp [Cell.refs]),?_⟩
      · intro more enough
        rw [DictionaryValue.DeepCopyWithoutEmptyChildren,returns more enough]
        rfl
      · rw [nothing]
        exact .dictionary empty rfl .nil
  · rw [if_neg nothing] at left
    cases child_copy with
    | none => exact left.elim
    | some copy =>
      refine ⟨copy,copied,⟨(Value.dictionary entries).height + 1,?_⟩,left.confined,left.denotes⟩
      intro more enough
      rw [DictionaryValue.DeepCopyWithoutEmptyChildren,returns more enough]
      rfl

/-- The copy is the dictionary without what holds no leaf: it has the same leaves in the
same order and at the same chains, nothing below its root is empty, the original is as it
was, and a copy of the copy is the same tree. -/
theorem withoutEmptyChildren {entries : List (WString × Value)} (denotes : heap.Denotes this (.dictionary entries))
    (sorted : (Value.dictionary entries).Sorted) :
    ∃ copy later kept, DeepCopiesWithoutEmptyChildren heap this copy later ∧ later.Denotes copy (.dictionary kept) ∧
      ShedsEntries entries kept ∧ FullEntries kept ∧ leavesEntries kept = leavesEntries entries ∧
      later.Denotes this (.dictionary entries) ∧
      ∃ again final, DeepCopiesWithoutEmptyChildren later copy again final ∧ final.Denotes again (.dictionary kept) := by
  obtain ⟨copy,later,copies,confined,copied⟩ := deepCopiedWithoutEmptyChildren denotes sorted
  obtain ⟨sheds,full,leaves,-⟩ := prunedEntries_left entries
  have still : (Value.dictionary (prunedEntries entries)).Sorted :=
    ⟨sorted.1.sublist (prunedEntries_keys entries),sorted.2.pruned⟩
  obtain ⟨again,final,twice,-,same⟩ := deepCopiedWithoutEmptyChildren copied still
  rw [full.pruned] at same
  have kept := confined.frame denotes.closed (Set.empty_disjoint _)
  exact ⟨copy,later,_,copies,copied,sheds,full,leaves,denotes.agree denotes.closed kept ValueHeap.mem_nodes,again,final,twice,same⟩

/-- An empty dictionary under `a`; under `b` a list of another and of the integer 42. -/
def sparse : ValueHeap :=
  (((((Heap.empty.alloc (.dictionary [])).2.alloc (.dictionary [])).2.alloc (.fundamental (.integer 42))).2.alloc
    (.list [1,2])).2.alloc (.dictionary [([97],0),([98],3)])).2

def sparseEntries : List (WString × Value) :=
  [([97],.dictionary []),([98],.list [.dictionary [],.fundamental (.integer 42)])]

theorem sparse_withoutEmptyChildren :
    ∃ copy later kept, DeepCopiesWithoutEmptyChildren sparse 4 copy later ∧ later.Denotes copy (.dictionary kept) ∧
      ShedsEntries sparseEntries kept ∧ FullEntries kept ∧ leavesEntries kept = leavesEntries sparseEntries ∧
      later.Denotes 4 (.dictionary sparseEntries) ∧
      ∃ again final, DeepCopiesWithoutEmptyChildren later copy again final ∧ final.Denotes again (.dictionary kept) := by
  have empty : sparse.Denotes 0 (.dictionary []) := .dictionary (rfl : sparse.cell 0 = some (.dictionary [])) rfl .nil
  have other : sparse.Denotes 1 (.dictionary []) := .dictionary (rfl : sparse.cell 1 = some (.dictionary [])) rfl .nil
  have number : sparse.Denotes 2 (.fundamental (.integer 42)) := .fundamental rfl
  have list : sparse.Denotes 3 (.list [.dictionary [],.fundamental (.integer 42)]) :=
    .list rfl (.cons other (.cons number .nil))
  have root : sparse.cell 4 = some (.dictionary [([97],0),([98],3)]) := rfl
  refine withoutEmptyChildren (.dictionary root rfl (.cons empty (.cons list .nil))) ⟨?_,?_⟩
  · exact (by decide : [[97],[98]].Pairwise ((· < ·) : WString → WString → Prop))
  · exact ⟨⟨List.Pairwise.nil,trivial⟩,⟨⟨List.Pairwise.nil,trivial⟩,trivial,trivial⟩,trivial⟩

end Migfm.Logic
