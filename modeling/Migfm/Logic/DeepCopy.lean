import Migfm.Logic.Edits

/-! `DeepCopy` of the six classes of base_values.cc. The copy shares no node with
the original, but a dictionary is copied without its entries. -/
namespace Migfm.Logic
open Library

def CreateNullValue (heap : ValueHeap) : Nat × ValueHeap := heap.alloc .null
def CreateBooleanValue (heap : ValueHeap) (in_value : Bool) : Nat × ValueHeap := heap.alloc (.fundamental (.boolean in_value))
def CreateIntegerValue (heap : ValueHeap) (in_value : Int32) : Nat × ValueHeap := heap.alloc (.fundamental (.integer in_value))
def CreateBigIntegerValue (heap : ValueHeap) (in_value : Int64) : Nat × ValueHeap :=
  heap.alloc (.fundamental (.bigInteger in_value))
def CreateRealValue (heap : ValueHeap) (in_value : Float) : Nat × ValueHeap := heap.alloc (.fundamental (.real in_value))
def CreateStringValue (heap : ValueHeap) (in_value : List UInt8) : Nat × ValueHeap := heap.alloc (.string in_value)

/-- The buffer is copied as far as `size` says. -/
def BinaryValue.CreateWithCopiedBuffer (heap : ValueHeap) (buffer size : Nat) : Option (Nat × ValueHeap) :=
  match heap.cell buffer with
  | some (.buffer bytes) =>
    if size ≤ bytes.length then
      let (buffer_copy,copied) := heap.alloc (.buffer (bytes.take size))
      some (copied.alloc (.binary buffer_copy size))
    else none
  | _ => none

def Value.DeepCopy (heap : ValueHeap) : Nat × ValueHeap := CreateNullValue heap

def FundamentalValue.DeepCopy (heap : ValueHeap) : FundamentalValue → Nat × ValueHeap
  | .boolean boolean_value_ => CreateBooleanValue heap boolean_value_
  | .integer integer_value_ => CreateIntegerValue heap integer_value_
  | .real real_value_ => CreateRealValue heap real_value_
  | .bigInteger big_integer_value_ => CreateBigIntegerValue heap big_integer_value_

def StringValue.DeepCopy (heap : ValueHeap) (value_ : List UInt8) : Nat × ValueHeap := CreateStringValue heap value_

def BinaryValue.DeepCopy (heap : ValueHeap) (buffer_ size_ : Nat) : Option (Nat × ValueHeap) :=
  CreateWithCopiedBuffer heap buffer_ size_

def DictionaryValue.DeepCopy (heap : ValueHeap) : Nat × ValueHeap := heap.alloc (.dictionary [])

def ListValue.CopyItems (deepCopy : ValueHeap → Nat → Option (Nat × ValueHeap)) (result : Nat) :
    ValueHeap → List Nat → Option ValueHeap
  | heap,[] => some heap
  | heap,item::list_ => (deepCopy heap item).bind fun (copy,copied) =>
      (Append copied result (some copy)).bind fun appended => CopyItems deepCopy result appended list_

def ListValue.DeepCopy (deepCopy : ValueHeap → Nat → Option (Nat × ValueHeap)) (heap : ValueHeap) (list_ : List Nat) :
    Option (Nat × ValueHeap) :=
  let (result,created) := heap.alloc (.list [])
  (CopyItems deepCopy result created list_).map fun copied => (result,copied)

/-- The virtual `DeepCopy`, as deep as the fuel. -/
def DeepCopy : Nat → ValueHeap → Nat → Option (Nat × ValueHeap)
  | 0,_,_ => none
  | fuel + 1,heap,this =>
    match heap.cell this with
    | some .null => some (Value.DeepCopy heap)
    | some (.fundamental value) => some (value.DeepCopy heap)
    | some (.string value_) => some (StringValue.DeepCopy heap value_)
    | some (.binary buffer_ size_) => BinaryValue.DeepCopy heap buffer_ size_
    | some (.dictionary _) => some (DictionaryValue.DeepCopy heap)
    | some (.list list_) => ListValue.DeepCopy (DeepCopy fuel) heap list_
    | _ => none

/-! ### The tree that is copied -/

mutual

/-- The tree with every dictionary empty. -/
def Value.emptied : Value → Value
  | .dictionary _ => .dictionary []
  | .list items => .list (emptiedItems items)
  | value => value

def emptiedItems : List Value → List Value
  | [] => []
  | value::items => value.emptied::emptiedItems items

end

mutual

/-- Every dictionary of the tree is empty. -/
def Value.Bare : Value → Prop
  | .dictionary entries => entries = []
  | .list items => BareItems items
  | _ => True

def BareItems : List Value → Prop
  | [] => True
  | value::items => value.Bare ∧ BareItems items

end

mutual

def Value.depth : Value → Nat
  | .list items => depthItems items + 1
  | _ => 0

def depthItems : List Value → Nat
  | [] => 0
  | value::items => max value.depth (depthItems items)

end

mutual

theorem Value.emptied_eq_iff : ∀ value : Value, value.emptied = value ↔ value.Bare
  | .dictionary entries => by rw [Value.emptied,Value.Bare,Value.dictionary.injEq,eq_comm]
  | .list items => by rw [Value.emptied,Value.Bare,Value.list.injEq,emptiedItems_eq_iff]
  | .null | .fundamental _ | .string _ | .binary _ => by simp [Value.emptied,Value.Bare]

theorem emptiedItems_eq_iff : ∀ items : List Value, emptiedItems items = items ↔ BareItems items
  | [] => by simp [emptiedItems,BareItems]
  | value::items => by
    rw [emptiedItems,BareItems,List.cons.injEq,Value.emptied_eq_iff value,emptiedItems_eq_iff items]

end

/-! ### What `DeepCopy` returns -/

variable {heap mid later : ValueHeap} {this value copy : Nat} {tree : Value}

/-- `copy` is the root of a tree of new nodes, and all other nodes are as before. -/
structure Copied (heap later : ValueHeap) (copy : Nat) (tree : Value) : Prop where
  confined : heap.Confined Cell.refs ∅ later
  new : copy ∈ heap.Since later
  denotes : later.Denotes copy tree

/-- Where the old cells are as in `heap`. -/
def Extends (heap mid : ValueHeap) : Prop :=
  heap.next ≤ mid.next ∧ ∀ address < heap.next, mid.cell address = heap.cell address

theorem copied_alloc {cell : Cell} (leaf : cell.refs = [])
    (denotes : ValueHeap.Denotes (heap.alloc cell).2 heap.next tree) : Copied heap (heap.alloc cell).2 heap.next tree :=
  ⟨Heap.confined_alloc .empty (by simp [leaf]),⟨le_rfl,Nat.lt_succ_self _⟩,denotes⟩

/-- The loop of `ListValue::DeepCopy` over the children copied so far. -/
structure Copying (heap later : ValueHeap) (values : List Value) : Prop where
  kept : ∀ address < heap.next, later.cell address = heap.cell address
  grows : heap.next < later.next
  closed : later.Closed Cell.refs (Set.Ico (heap.next + 1) later.next)
  copies : ∃ copies, later.cell heap.next = some (.list copies) ∧ List.Forall₂ later.Denotes copies values ∧
    ∀ copy ∈ copies, copy ∈ Set.Ico (heap.next + 1) later.next

theorem Copying.append {values : List Value} (copying : Copying heap mid values) (copied : Copied mid later copy tree) :
    ∃ appended, ListValue.Append later heap.next (some copy) = some appended ∧ Copying heap appended (values ++ [tree]) := by
  obtain ⟨copies,read,denotes,inside⟩ := copying.copies
  have old (address : Nat) (before : address < mid.next) : later.cell address = mid.cell address :=
    copied.confined.kept address before (Set.notMem_empty _)
  have found : later.cell heap.next = some (.list copies) := (old _ copying.grows).trans read
  have grows := copied.confined.grows
  have region : Set.Ico (heap.next + 1) mid.next ∪ mid.Since later = Set.Ico (heap.next + 1) later.next :=
    Set.Ico_union_Ico_eq_Ico copying.grows grows
  have first : later.Closed Cell.refs (Set.Ico (heap.next + 1) mid.next) :=
    copying.closed.agree grows fun address member => old address member.2
  have second : later.Closed Cell.refs (mid.Since later) := by
    have closed := copied.confined.closed
    rwa [Set.empty_union] at closed
  have closed := first.union second
  refine ⟨later.write heap.next (.list (copies ++ [copy])),?_,?_⟩
  · rw [ListValue.Append,ListValue.list_,found]
    rfl
  have same : ∀ address ∈ Set.Ico (heap.next + 1) later.next,
      (later.write heap.next (.list (copies ++ [copy]))).cell address = later.cell address := by
    intro address member
    exact Heap.write_cell_ne (Nat.ne_of_gt member.1)
  rw [region] at closed
  constructor
  · intro address before
    rw [Heap.write_cell_ne (Nat.ne_of_lt before),old address (before.trans copying.grows)]
    exact copying.kept address before
  · exact copying.grows.trans_le grows
  · exact closed.agree le_rfl same
  · refine ⟨copies ++ [copy],?_,?_,?_⟩
    · rw [Heap.write_cell_self,found]
      rfl
    · refine List.rel_append ?_ (.cons ?_ .nil)
      · refine List.forall₂_iff_get.mpr ⟨denotes.length_eq,?_⟩
        intro i left right
        have listed := inside _ (List.get_mem copies ⟨i,left⟩)
        have moved := (denotes.get left right).agree copying.closed (fun address member => old address member.2) listed
        exact moved.agree closed same ⟨listed.1,listed.2.trans_le grows⟩
      · exact copied.denotes.agree closed same ⟨copying.grows.trans_le copied.new.1,copied.new.2⟩
    · intro found listed
      rcases List.mem_append.mp listed with listed | listed
      · exact ⟨(inside found listed).1,(inside found listed).2.trans_le grows⟩
      · cases List.mem_singleton.mp listed
        exact ⟨copying.grows.trans_le copied.new.1,copied.new.2⟩

/-- The loop with any fuel that is enough for each child. -/
theorem CopyItems_spec {enough : Nat} {list_ : List Nat} {items values : List Value}
    (children : List.Forall₂ (fun child tree => ∀ mid, Extends heap mid → ∃ copy later,
      (∀ fuel, enough ≤ fuel → DeepCopy (fuel + 1) mid child = some (copy,later)) ∧ Copied mid later copy tree) list_ items)
    (copying : Copying heap mid values) :
    ∃ later, (∀ fuel, enough ≤ fuel → ListValue.CopyItems (DeepCopy (fuel + 1)) heap.next mid list_ = some later) ∧
      Copying heap later (values ++ items) := by
  induction children generalizing mid values with
  | nil => exact ⟨mid,fun _ _ => rfl,by rwa [List.append_nil]⟩
  | cons child _ ih =>
    obtain ⟨copy,later,copies,copied⟩ := child mid ⟨Nat.le_of_lt copying.grows,copying.kept⟩
    obtain ⟨appended,append,copying⟩ := copying.append copied
    obtain ⟨final,rest,copying⟩ := ih copying
    refine ⟨final,?_,by rwa [List.append_assoc] at copying⟩
    intro fuel fits
    rw [ListValue.CopyItems,copies fuel fits]
    dsimp only [Option.bind_some]
    rw [append]
    exact rest fuel fits

theorem Copying.copied {values : List Value} (copying : Copying heap later values) :
    Copied heap later heap.next (.list values) := by
  obtain ⟨copies,read,denotes,inside⟩ := copying.copies
  refine ⟨⟨Nat.le_of_lt copying.grows,fun address before _ => copying.kept address before,?_⟩,
    ⟨le_rfl,copying.grows⟩,.list read denotes⟩
  rw [Set.empty_union]
  refine ⟨fun address member => member.2,?_⟩
  rintro address member target ⟨cell,found,ref⟩
  by_cases same : address = heap.next
  · subst same
    cases read.symm.trans found
    exact ⟨Nat.le_of_succ_le (inside target ref).1,(inside target ref).2⟩
  · have listed := copying.closed.inside address ⟨Nat.lt_of_le_of_ne member.1 (Ne.symm same),member.2⟩ target ⟨cell,found,ref⟩
    exact ⟨Nat.le_of_succ_le listed.1,listed.2⟩

theorem depth_le {items : List Value} (member : tree ∈ items) : tree.depth ≤ depthItems items := by
  induction items with
  | nil => cases member
  | cons first items ih =>
    rw [depthItems]
    rcases List.mem_cons.mp member with rfl | member
    · exact le_max_left ..
    · exact (ih member).trans (le_max_right ..)

theorem emptiedItems_map (items : List Value) : emptiedItems items = items.map Value.emptied := by
  induction items with
  | nil => rfl
  | cons value items ih => rw [emptiedItems,ih,List.map_cons]

theorem copied_binary {buffer_ size_ : Nat} {bytes : List UInt8} (content : heap.cell buffer_ = some (.buffer bytes))
    (fits : size_ ≤ bytes.length) :
    ∃ later, BinaryValue.DeepCopy heap buffer_ size_ = some (heap.next + 1,later) ∧
      Copied heap later (heap.next + 1) (.binary (bytes.take size_)) := by
  -- the buffer first, then the node that names it
  let buffered := (heap.alloc (.buffer (bytes.take size_))).2
  have confined : Heap.Confined Cell.refs ∅ heap buffered := Heap.confined_alloc .empty (by simp [Cell.refs])
  refine ⟨(buffered.alloc (.binary heap.next size_)).2,?_,?_,?_,?_⟩
  · rw [BinaryValue.DeepCopy,BinaryValue.CreateWithCopiedBuffer,content]
    exact if_pos fits
  · refine confined.alloc ?_
    intro target ref
    cases List.mem_singleton.mp ref
    exact .inr ⟨le_rfl,Nat.lt_succ_self _⟩
  · exact ⟨Nat.le_succ _,Nat.lt_succ_self _⟩
  · have loaded : (buffered.alloc (.binary heap.next size_)).2.cell heap.next = some (.buffer (bytes.take size_)) :=
      (Heap.alloc_cell_ne (Nat.ne_of_lt (Nat.lt_succ_self _))).trans Heap.alloc_cell_self
    have read : (buffered.alloc (.binary heap.next size_)).2.cell (heap.next + 1) = some (.binary heap.next size_) :=
      Heap.alloc_cell_self
    have denotes := ValueHeap.Denotes.binary read loaded (by rw [List.length_take,min_eq_left fits])
    rwa [List.take_take,min_self] at denotes

theorem copying_nil : Copying heap (heap.alloc (.list [])).2 [] := by
  refine ⟨fun address before => Heap.alloc_cell_ne (Nat.ne_of_lt before),Nat.lt_succ_self _,?_,
    [],Heap.alloc_cell_self,.nil,by simp⟩
  rw [Heap.alloc_next,Set.Ico_self]
  exact .empty

/-- With fuel for the depth of the tree `DeepCopy` returns a copy of the emptied tree. -/
theorem DeepCopy_spec (denotes : heap.Denotes this tree) (extended : Extends heap mid) :
    ∃ copy later, (∀ fuel, tree.depth ≤ fuel → DeepCopy (fuel + 1) mid this = some (copy,later)) ∧
      Copied mid later copy tree.emptied := by
  induction denotes using ValueHeap.Denotes.rule generalizing mid with
  | null read =>
    have found := (extended.2 _ (Heap.lt_next read)).trans read
    refine ⟨mid.next,_,fun fuel _ => ?_,copied_alloc rfl (.null Heap.alloc_cell_self)⟩
    rw [DeepCopy,found]
    rfl
  | @fundamental _ value read =>
    have found := (extended.2 _ (Heap.lt_next read)).trans read
    refine ⟨mid.next,(mid.alloc (.fundamental value)).2,fun fuel _ => ?_,copied_alloc rfl (.fundamental Heap.alloc_cell_self)⟩
    rw [DeepCopy,found]
    cases value <;> rfl
  | string read =>
    have found := (extended.2 _ (Heap.lt_next read)).trans read
    refine ⟨mid.next,_,fun fuel _ => ?_,copied_alloc rfl (.string Heap.alloc_cell_self)⟩
    rw [DeepCopy,found]
    rfl
  | binary read content fits =>
    have found := (extended.2 _ (Heap.lt_next read)).trans read
    obtain ⟨later,copies,copied⟩ := copied_binary ((extended.2 _ (Heap.lt_next content)).trans content) fits
    refine ⟨mid.next + 1,later,fun fuel _ => ?_,copied⟩
    rw [DeepCopy,found]
    exact copies
  | dictionary read keys children _ =>
    have found := (extended.2 _ (Heap.lt_next read)).trans read
    have empty : (mid.alloc (.dictionary [])).2.cell mid.next = some (.dictionary []) := Heap.alloc_cell_self
    refine ⟨mid.next,_,fun fuel _ => ?_,copied_alloc rfl (.dictionary empty rfl .nil)⟩
    rw [DeepCopy,found]
    rfl
  | @list _ list_ items read children copies =>
    have found := (extended.2 _ (Heap.lt_next read)).trans read
    have each : List.Forall₂ (fun child tree => ∀ later, Extends mid later → ∃ copy final,
        (∀ fuel, depthItems items ≤ fuel → DeepCopy (fuel + 1) later child = some (copy,final)) ∧
          Copied later final copy tree) list_ (emptiedItems items) := by
      rw [emptiedItems_map,List.forall₂_map_right_iff]
      refine List.forall₂_iff_get.mpr ⟨children.length_eq,?_⟩
      intro i left right later further
      have extends_ : Extends heap later := by
        refine ⟨extended.1.trans further.1,?_⟩
        intro address before
        exact (further.2 address (before.trans_le extended.1)).trans (extended.2 address before)
      obtain ⟨copy,final,runs,copied⟩ := copies i left right extends_
      exact ⟨copy,final,fun fuel fits => runs fuel ((depth_le (List.get_mem ..)).trans fits),copied⟩
    obtain ⟨later,runs,copying⟩ := CopyItems_spec each copying_nil
    refine ⟨mid.next,later,?_,copying.copied⟩
    intro fuel fits
    obtain ⟨fuel,rfl⟩ : ∃ n, fuel = n + 1 := Nat.exists_eq_succ_of_ne_zero (Nat.ne_zero_of_lt fits)
    rw [DeepCopy,found]
    dsimp only [ListValue.DeepCopy]
    rw [Heap.alloc_address,runs fuel (Nat.le_of_succ_le_succ fits)]
    rfl

/-! ### The claim of a deep copy -/

/-- All runs with enough fuel return this. -/
def DeepCopies (heap : ValueHeap) (value copy : Nat) (later : ValueHeap) : Prop :=
  ∃ fuel, ∀ more, fuel ≤ more → DeepCopy more heap value = some (copy,later)

/-- The copy is the tree, the original still is, they have no node in common, and in
whatever run follows neither is changed by a Set or Remove on the other. -/
structure Faithful (later : ValueHeap) (value copy : Nat) (tree : Value) : Prop where
  copied : later.Denotes copy tree
  original : later.Denotes value tree
  apart : Disjoint (later.nodes value) (later.nodes copy)
  independent : ∀ edited, Relation.ReflTransGen (ValueHeap.Step value copy) later edited → ∀ next,
    (ValueHeap.Edits value copy edited next → edited.Unchanged next copy) ∧
      (ValueHeap.Edits copy value edited next → edited.Unchanged next value)

theorem DeepCopies.unique {other : Nat} {further : ValueHeap} (copies : DeepCopies heap value copy later)
    (copied : DeepCopies heap value other further) : copy = other ∧ later = further := by
  obtain ⟨fuel,runs⟩ := copies
  obtain ⟨more,again⟩ := copied
  have same := (runs (max fuel more) (le_max_left ..)).symm.trans (again (max fuel more) (le_max_right ..))
  exact Prod.mk.inj (Option.some.inj same)

/-- What the copy of any tree is: the emptied tree, apart from the original. -/
theorem deepCopied (denotes : heap.Denotes value tree) :
    ∃ copy later, DeepCopies heap value copy later ∧ later.Denotes copy tree.emptied ∧
      later.Denotes value tree ∧ later.Separate value copy := by
  obtain ⟨copy,later,copies,copied⟩ := DeepCopy_spec denotes ⟨le_rfl,fun _ _ => rfl⟩
  have kept := copied.confined.frame denotes.closed (Set.empty_disjoint _)
  have closed := copied.confined.closed
  have apart := denotes.closed.apart (Set.empty_disjoint _) later
  rw [Set.empty_union] at closed apart
  refine ⟨copy,later,⟨tree.depth + 1,?_⟩,copied.denotes,denotes.agree denotes.closed kept ValueHeap.mem_nodes,?_⟩
  · intro more enough
    obtain ⟨fuel,rfl⟩ : ∃ n, more = n + 1 := Nat.exists_eq_succ_of_ne_zero (Nat.ne_zero_of_lt enough)
    exact copies fuel (Nat.le_of_succ_le_succ enough)
  · exact ValueHeap.separate_of_closed (denotes.closed.agree copied.confined.grows kept) closed apart.symm
      ValueHeap.mem_nodes copied.new

/-- `DeepCopy` is faithful exactly to the trees without an entry in a dictionary. -/
theorem deepCopy_iff (denotes : heap.Denotes value tree) :
    (∃ copy later, DeepCopies heap value copy later ∧ Faithful later value copy tree) ↔ tree.Bare := by
  obtain ⟨copy,later,copies,copied,original,separate⟩ := deepCopied denotes
  rw [← tree.emptied_eq_iff]
  constructor
  · rintro ⟨other,further,again,faithful⟩
    obtain ⟨rfl,rfl⟩ := copies.unique again
    exact copied.unique faithful.copied
  · intro bare
    refine ⟨copy,later,copies,bare ▸ copied,original,separate.apart,?_⟩
    intro edited run next
    have apart := separate.run run
    exact ⟨fun edits => (apart.edits edits).2,fun edits => (apart.symm.edits edits).2⟩

/-- The list of the integer 42. -/
def answers : ValueHeap := ((Heap.empty.alloc (.fundamental (.integer 42))).2.alloc (.list [0])).2

theorem answers_copied : ∃ copy later, DeepCopies answers 1 copy later ∧
    Faithful later 1 copy (.list [.fundamental (.integer 42)]) :=
  (@deepCopy_iff answers 1 _ (.list rfl (.cons (.fundamental rfl) .nil))).mpr ⟨trivial,trivial⟩

/-- The dictionary of the integer 42 under `a`. -/
def entry : ValueHeap := ((Heap.empty.alloc (.fundamental (.integer 42))).2.alloc (.dictionary [([97],0)])).2

theorem entry_lost : entry.Denotes 1 (.dictionary [([97],.fundamental (.integer 42))]) ∧
    ¬∃ copy later, DeepCopies entry 1 copy later ∧
      Faithful later 1 copy (.dictionary [([97],.fundamental (.integer 42))]) := by
  refine ⟨.dictionary rfl rfl (.cons (.fundamental rfl) .nil),?_⟩
  rintro ⟨copy,later,⟨fuel,runs⟩,faithful⟩
  have returns := runs (fuel + 1) (Nat.le_succ _)
  rw [DeepCopy] at returns
  cases returns
  cases faithful.copied with
  | dictionary read keys => cases read; cases keys

end Migfm.Logic
