import Migfm.Logic.BaseValues

/-! What the operations of base_values.cc on a tree change: its own nodes. Two
trees without a common node stay so, and each stays as it is while the other is
edited. -/
namespace Migfm.Logic
open Library

variable {heap mid later : ValueHeap} {this : Nat} {region : Heap.Region}

/-! ### What setting and removing children changes -/

namespace DictionaryValue

theorem dictionary_read {dictionary : ValueMap Nat} (found : dictionary_ heap this = some dictionary) :
    heap.cell this = some (.dictionary dictionary) := by
  unfold dictionary_ at found
  split at found
  · rename_i read
    cases found
    exact read
  · cases found

variable (closed : heap.Closed Cell.refs region) (member : this ∈ region)
include closed member

theorem child_mem {dictionary : ValueMap Nat} (found : dictionary_ heap this = some dictionary)
    {entry : WString × Nat} (listed : entry ∈ dictionary) : entry.2 ∈ region :=
  closed.inside this member _ ⟨_,dictionary_read found,List.mem_map_of_mem listed⟩

theorem GetWithoutPathExpansion_mem {key : WString} {value : Nat}
    (found : GetWithoutPathExpansion heap this key = some value) : value ∈ region := by
  obtain ⟨dictionary,read,found⟩ := Option.bind_eq_some_iff.mp found
  exact child_mem closed member read (ValueMap.mem_of_find found)

theorem GetDictionaryWithoutPathExpansion_mem {key : WString} {value : Nat}
    (found : GetDictionaryWithoutPathExpansion heap this key = some value) : value ∈ region :=
  GetWithoutPathExpansion_mem closed member (Option.filter_eq_some_iff.mp found).1

theorem SetWithoutPathExpansion_confined {key : WString} {in_value : Option Nat}
    (given : ∀ value ∈ in_value, value ∈ region)
    (outcome : SetWithoutPathExpansion heap this key in_value = some later) :
    Heap.Confined Cell.refs region heap later := by
  cases in_value with
  | none =>
    cases outcome
    exact .refl closed
  | some in_value =>
    obtain ⟨dictionary,found,rfl⟩ := Option.map_eq_some_iff.mp outcome
    refine Heap.Confined.write ?_ (.inl member) ?_
    · split
      · rename_i old entry
        exact Heap.confined_free closed (child_mem closed member found (ValueMap.mem_of_find entry))
      · exact .refl closed
    · intro target ref
      obtain ⟨entry,listed,rfl⟩ := List.mem_map.mp ref
      rcases ValueMap.mem_assign listed with rfl | listed
      · exact .inl (given in_value rfl)
      · exact .inl (child_mem closed member found listed)

theorem SetAlong_confined {in_value : Nat} (given : in_value ∈ region) {path : List WString}
    (outcome : SetAlong heap this in_value path = some later) : Heap.Confined Cell.refs region heap later := by
  induction path generalizing heap this region with
  | nil => cases outcome
  | cons key path ih =>
    cases path with
    | nil => exact SetWithoutPathExpansion_confined closed member (by simpa using given) outcome
    | cons next path =>
      unfold SetAlong at outcome
      split at outcome
      · rename_i child_dictionary found
        exact ih closed (GetDictionaryWithoutPathExpansion_mem closed member found) given outcome
      · obtain ⟨linked,set,outcome⟩ := Option.bind_eq_some_iff.mp outcome
        have created := @Heap.confined_alloc Cell heap (.dictionary []) Cell.refs region closed (by simp [Cell.refs])
        have child : heap.next ∈ region ∪ heap.Since (heap.alloc (.dictionary [])).2 :=
          .inr ⟨le_rfl,Nat.lt_succ_self _⟩
        have links := SetWithoutPathExpansion_confined created.closed (.inl member)
          (fun value same => Option.some.inj same ▸ child) set
        have whole := created.trans links
        exact whole.trans (ih whole.closed (.inr ⟨le_rfl,links.grows.trans_lt' (Nat.lt_succ_self _)⟩) (.inl given) outcome)

theorem Set_confined {path : WString} {in_value : Option Nat} (given : ∀ value ∈ in_value, value ∈ region)
    (outcome : Set heap this path in_value = some later) : Heap.Confined Cell.refs region heap later := by
  cases in_value with
  | none =>
    cases outcome
    exact .refl closed
  | some in_value => exact SetAlong_confined closed member (given in_value rfl) outcome

theorem GetAlong_mem {path : List WString} {value : Nat} (found : GetAlong heap this path = some value) :
    value ∈ region := by
  induction path generalizing this with
  | nil => cases found
  | cons key path ih =>
    cases path with
    | nil => exact GetWithoutPathExpansion_mem closed member found
    | cons next path =>
      obtain ⟨child_dictionary,child,found⟩ := Option.bind_eq_some_iff.mp found
      exact ih (GetDictionaryWithoutPathExpansion_mem closed member child) found

theorem RemoveWithoutPathExpansion_confined {key : WString} {out_value : Bool} {removed : Option Nat}
    (outcome : RemoveWithoutPathExpansion heap this key out_value = some (removed,later)) :
    Heap.Confined Cell.refs region heap later := by
  obtain ⟨dictionary,found,outcome⟩ := Option.map_eq_some_iff.mp outcome
  split at outcome
  · cases outcome
    exact .refl closed
  · rename_i entry listed
    cases outcome
    refine Heap.Confined.write ?_ (.inl member) ?_
    · split
      · exact .refl closed
      · exact Heap.confined_free closed (child_mem closed member found (ValueMap.mem_of_find listed))
    · intro target ref
      obtain ⟨entry,listed,rfl⟩ := List.mem_map.mp ref
      exact .inl (child_mem closed member found (ValueMap.mem_of_mem_erase listed))

theorem Remove_confined {path : WString} {out_value : Bool} {removed : Option Nat}
    (outcome : Remove heap this path out_value = some (removed,later)) : Heap.Confined Cell.refs region heap later := by
  unfold Remove at outcome
  split at outcome
  · exact RemoveWithoutPathExpansion_confined closed member outcome
  · split at outcome
    · cases outcome
      exact .refl closed
    · rename_i current_dictionary found
      have inside := GetAlong_mem closed member (Option.filter_eq_some_iff.mp found).1
      exact RemoveWithoutPathExpansion_confined closed inside outcome

end DictionaryValue

namespace ListValue

theorem list_read {list : List Nat} (found : list_ heap this = some list) : heap.cell this = some (.list list) := by
  unfold list_ at found
  split at found
  · rename_i read
    cases found
    exact read
  · cases found

variable (closed : heap.Closed Cell.refs region) (member : this ∈ region)
include closed member

theorem item_mem {list : List Nat} (found : list_ heap this = some list) {item : Nat} (listed : item ∈ list) :
    item ∈ region :=
  closed.inside this member _ ⟨_,list_read found,listed⟩

theorem Append_confined {in_value : Option Nat} (given : ∀ value ∈ in_value, value ∈ region)
    (outcome : Append heap this in_value = some later) : Heap.Confined Cell.refs region heap later := by
  cases in_value with
  | none =>
    cases outcome
    exact .refl closed
  | some in_value =>
    obtain ⟨list,found,rfl⟩ := Option.map_eq_some_iff.mp outcome
    refine Heap.confined_write closed member ?_
    intro target ref
    rcases List.mem_append.mp ref with listed | listed
    · exact item_mem closed member found listed
    · exact given target (List.mem_singleton.mp listed ▸ rfl)

theorem AppendNulls_confined {n : Nat} (outcome : AppendNulls heap this n = some later) :
    Heap.Confined Cell.refs region heap later := by
  induction n generalizing heap region with
  | zero =>
    cases outcome
    exact .refl closed
  | succ n ih =>
    obtain ⟨appended,append,outcome⟩ := Option.bind_eq_some_iff.mp outcome
    have created := @Heap.confined_alloc Cell heap .null Cell.refs region closed (by simp [Cell.refs])
    have null : heap.next ∈ region ∪ heap.Since (heap.alloc .null).2 := .inr ⟨le_rfl,Nat.lt_succ_self _⟩
    have whole := created.trans
      (Append_confined created.closed (.inl member) (fun value same => Option.some.inj same ▸ null) append)
    exact whole.trans (ih whole.closed (.inl member) outcome)

theorem Set_confined {index : Nat} {in_value : Option Nat} {set : Bool} (given : ∀ value ∈ in_value, value ∈ region)
    (outcome : Set heap this index in_value = some (set,later)) : Heap.Confined Cell.refs region heap later := by
  cases in_value with
  | none =>
    cases outcome
    exact .refl closed
  | some in_value =>
    obtain ⟨list,found,outcome⟩ := Option.bind_eq_some_iff.mp outcome
    split at outcome
    · rename_i bound
      cases outcome
      refine Heap.Confined.write (Heap.confined_free closed (item_mem closed member found (List.getElem_mem bound))) (.inl member) ?_
      intro target ref
      rcases List.mem_or_eq_of_mem_set ref with listed | rfl
      · exact .inl (item_mem closed member found listed)
      · exact .inl (given target rfl)
    · obtain ⟨filled,fill,outcome⟩ := Option.bind_eq_some_iff.mp outcome
      obtain ⟨appended,append,same⟩ := Option.map_eq_some_iff.mp outcome
      cases same
      have fills := AppendNulls_confined closed member fill
      exact fills.trans (Append_confined fills.closed (.inl member) (fun value same => .inl (given value same)) append)

theorem erased_confined {list : List Nat} (found : list_ heap this = some list) {item : Nat} (listed : item ∈ list)
    (released : Bool) (index : Nat) :
    Heap.Confined Cell.refs region heap
      ((if released then heap else heap.free item).write this (.list (list.eraseIdx index))) := by
  refine Heap.Confined.write ?_ (.inl member) ?_
  · split
    · exact .refl closed
    · exact Heap.confined_free closed (item_mem closed member found listed)
  · intro target ref
    exact .inl (item_mem closed member found (List.mem_of_mem_eraseIdx ref))

theorem Remove_confined {index : Nat} {out_value : Bool} {removed : Option Nat}
    (outcome : Remove heap this index out_value = some (removed,later)) : Heap.Confined Cell.refs region heap later := by
  obtain ⟨list,found,outcome⟩ := Option.map_eq_some_iff.mp outcome
  split at outcome
  · rename_i bound
    cases outcome
    exact erased_confined closed member found (List.getElem_mem bound) out_value index
  · cases outcome
    exact .refl closed

omit closed member in
theorem FindEqual_mem {equals : Nat → Option Bool} {list : List Nat} {start : Nat} {found : Nat × Nat}
    (outcome : FindEqual equals list start = some (some found)) : found.2 ∈ list := by
  induction list generalizing start with
  | nil => cases outcome
  | cons item list ih =>
    obtain ⟨same,_,outcome⟩ := Option.bind_eq_some_iff.mp outcome
    split at outcome
    · cases outcome
      exact List.mem_cons_self
    · exact List.mem_cons_of_mem _ (ih outcome)

theorem RemoveValue_confined {fuel value : Nat} {removed : Option Nat}
    (outcome : RemoveValue heap this fuel value = some (removed,later)) : Heap.Confined Cell.refs region heap later := by
  obtain ⟨list,found,outcome⟩ := Option.bind_eq_some_iff.mp outcome
  obtain ⟨place,equal,outcome⟩ := Option.map_eq_some_iff.mp outcome
  cases place with
  | none =>
    cases outcome
    exact .refl closed
  | some place =>
    cases outcome
    exact erased_confined closed member found (FindEqual_mem equal) false place.1

end ListValue

/-! ### Edits of two trees -/

inductive Operation
  | dictionarySet (path : WString) (in_value : Option Nat)
  | dictionarySetWithoutPathExpansion (key : WString) (in_value : Option Nat)
  | dictionaryRemove (path : WString) (out_value : Bool)
  | dictionaryRemoveWithoutPathExpansion (key : WString) (out_value : Bool)
  | listSet (index : Nat) (in_value : Option Nat)
  | listRemove (index : Nat) (out_value : Bool)
  | listRemoveValue (fuel value : Nat)

namespace Operation

def in_value : Operation → Option Nat
  | .dictionarySet _ in_value | .dictionarySetWithoutPathExpansion _ in_value | .listSet _ in_value => in_value
  | _ => none

def perform (heap : ValueHeap) (this : Nat) : Operation → Option ValueHeap
  | .dictionarySet path in_value => DictionaryValue.Set heap this path in_value
  | .dictionarySetWithoutPathExpansion key in_value => DictionaryValue.SetWithoutPathExpansion heap this key in_value
  | .dictionaryRemove path out_value => (DictionaryValue.Remove heap this path out_value).map Prod.snd
  | .dictionaryRemoveWithoutPathExpansion key out_value =>
    (DictionaryValue.RemoveWithoutPathExpansion heap this key out_value).map Prod.snd
  | .listSet index in_value => (ListValue.Set heap this index in_value).map Prod.snd
  | .listRemove index out_value => (ListValue.Remove heap this index out_value).map Prod.snd
  | .listRemoveValue fuel value => (ListValue.RemoveValue heap this fuel value).map Prod.snd

theorem perform_confined {operation : Operation} (closed : heap.Closed Cell.refs region) (member : this ∈ region)
    (given : ∀ value ∈ operation.in_value, value ∈ region) (outcome : operation.perform heap this = some later) :
    Heap.Confined Cell.refs region heap later := by
  cases operation with
  | dictionarySet path in_value => exact DictionaryValue.Set_confined closed member given outcome
  | dictionarySetWithoutPathExpansion key in_value =>
    exact DictionaryValue.SetWithoutPathExpansion_confined closed member given outcome
  | dictionaryRemove path out_value =>
    obtain ⟨_,performed,rfl⟩ := Option.map_eq_some_iff.mp outcome
    exact DictionaryValue.Remove_confined closed member performed
  | dictionaryRemoveWithoutPathExpansion key out_value =>
    obtain ⟨_,performed,rfl⟩ := Option.map_eq_some_iff.mp outcome
    exact DictionaryValue.RemoveWithoutPathExpansion_confined closed member performed
  | listSet index in_value =>
    obtain ⟨_,performed,rfl⟩ := Option.map_eq_some_iff.mp outcome
    exact ListValue.Set_confined closed member given performed
  | listRemove index out_value =>
    obtain ⟨_,performed,rfl⟩ := Option.map_eq_some_iff.mp outcome
    exact ListValue.Remove_confined closed member performed
  | listRemoveValue fuel value =>
    obtain ⟨_,performed,rfl⟩ := Option.map_eq_some_iff.mp outcome
    exact ListValue.RemoveValue_confined closed member performed

end Operation

namespace ValueHeap

/-- The nodes and buffers of the tree under `value`. -/
abbrev nodes (heap : ValueHeap) (value : Nat) : Heap.Region := {node | heap.Reaches Cell.refs value node}

def Unchanged (heap later : ValueHeap) (value : Nat) : Prop :=
  ∀ node ∈ heap.nodes value, later.cell node = heap.cell node

/-- A Set or Remove on a node of the tree under `value`; what is set is a tree
without a node of the other. -/
def Edits (value other : Nat) (heap later : ValueHeap) : Prop :=
  ∃ this operation, this ∈ heap.nodes value ∧
    (∀ in_value ∈ Operation.in_value operation,
      (∃ tree, heap.Denotes in_value tree) ∧ Disjoint (heap.nodes in_value) (heap.nodes other)) ∧
    operation.perform heap this = some later

/-- What the program does to neither of the trees. -/
def Elsewhere (value other : Nat) (heap later : ValueHeap) : Prop :=
  heap.next ≤ later.next ∧ heap.Unchanged later value ∧ heap.Unchanged later other

def Step (value other : Nat) (heap later : ValueHeap) : Prop :=
  Edits value other heap later ∨ Edits other value heap later ∨ Elsewhere value other heap later

structure Separate (heap : ValueHeap) (value other : Nat) : Prop where
  closed : heap.Closed Cell.refs (heap.nodes value)
  others : heap.Closed Cell.refs (heap.nodes other)
  apart : Disjoint (heap.nodes value) (heap.nodes other)

variable {value other : Nat}

theorem Denotes.closed {tree : Value} (denotes : heap.Denotes value tree) : heap.Closed Cell.refs (heap.nodes value) :=
  Heap.closed_reach fun _ => denotes.bounded

theorem Separate.symm (separate : heap.Separate value other) : heap.Separate other value :=
  ⟨separate.others,separate.closed,separate.apart.symm⟩

/-- Trees inside closed regions that have nothing in common are separate. -/
theorem separate_of_closed {wider : Heap.Region} (closed : heap.Closed Cell.refs region)
    (widely : heap.Closed Cell.refs wider) (apart : Disjoint region wider) (member : value ∈ region)
    (inside : other ∈ wider) : heap.Separate value other := by
  have within : heap.nodes value ⊆ region := fun _ reaches => closed.reaches member reaches
  have around : heap.nodes other ⊆ wider := fun _ reaches => widely.reaches inside reaches
  constructor
  · exact Heap.closed_reach fun _ reaches => closed.bounded _ (within reaches)
  · exact Heap.closed_reach fun _ reaches => widely.bounded _ (around reaches)
  · exact Disjoint.mono within around apart

theorem mem_nodes : value ∈ heap.nodes value := Relation.ReflTransGen.refl

theorem Separate.edits (separate : heap.Separate value other) (edits : Edits value other heap later) :
    later.Separate value other ∧ heap.Unchanged later other := by
  obtain ⟨this,operation,member,given,outcome⟩ := edits
  -- the region of the edited tree, with what is set
  obtain ⟨region,closed,within,argument,apart⟩ : ∃ region, heap.Closed Cell.refs region ∧ heap.nodes value ⊆ region ∧
      (∀ in_value ∈ operation.in_value, in_value ∈ region) ∧ Disjoint region (heap.nodes other) := by
    cases set : operation.in_value with
    | none => exact ⟨_,separate.closed,subset_rfl,by simp,separate.apart⟩
    | some in_value =>
      obtain ⟨⟨tree,denotes⟩,apart⟩ := given in_value set
      refine ⟨_,separate.closed.union denotes.closed,Set.subset_union_left,?_,?_⟩
      · intro found same
        cases same
        exact .inr mem_nodes
      · exact Set.disjoint_union_left.mpr ⟨separate.apart,apart⟩
  have confined := Operation.perform_confined closed (within member) argument outcome
  have kept := confined.frame separate.others apart
  have still := separate.others.agree confined.grows kept
  exact ⟨separate_of_closed confined.closed still (separate.others.apart apart later) (.inl (within mem_nodes)) mem_nodes,kept⟩

theorem Separate.elsewhere (separate : heap.Separate value other) (elsewhere : Elsewhere value other heap later) :
    later.Separate value other :=
  separate_of_closed (separate.closed.agree elsewhere.1 elsewhere.2.1) (separate.others.agree elsewhere.1 elsewhere.2.2)
    separate.apart mem_nodes mem_nodes

/-- Two trees without a common node never get one. -/
theorem Separate.run (separate : heap.Separate value other)
    (run : Relation.ReflTransGen (Step value other) heap later) : later.Separate value other := by
  induction run with
  | refl => exact separate
  | tail _ step ih =>
    rcases step with edits | edits | elsewhere
    · exact (ih.edits edits).1
    · exact (ih.symm.edits edits).1.symm
    · exact ih.elsewhere elsewhere

end ValueHeap
end Migfm.Logic
