import Migfm.Logic.Edits

/-! `Set`, `Get` and `Remove` of base_values.cc along dotted paths: what a path
reaches afterwards, and what all other paths reach. -/
namespace Migfm.Logic
open Library

namespace ValueMap
variable {α : Type}

/-- Each key once, and in their order. -/
def Ordered (map : ValueMap α) : Prop := (map.map Prod.fst).Pairwise (· < ·)

theorem find_none {key : WString} {map : ValueMap α} (absent : key ∉ map.map Prod.fst) : map.find key = none := by
  induction map with
  | nil => rfl
  | cons first rest ih =>
    obtain ⟨other,later⟩ := List.ne_and_not_mem_of_not_mem_cons absent
    rw [find,if_neg other]
    exact ih later

theorem find_erase_self {key : WString} {map : ValueMap α} (ordered : map.Ordered) : (map.erase key).find key = none := by
  induction map with
  | nil => rfl
  | cons first rest ih =>
    obtain ⟨before,ordered⟩ := List.pairwise_cons.mp ordered
    rw [erase]
    split
    · rename_i same
      subst same
      exact find_none fun listed => lt_irrefl _ (before _ listed)
    · rename_i apart
      rw [find,if_neg apart]
      exact ih ordered

theorem find_erase_ne {key other : WString} (apart : other ≠ key) (map : ValueMap α) :
    (map.erase key).find other = map.find other := by
  induction map with
  | nil => rfl
  | cons first rest ih =>
    rw [erase]
    split
    · rename_i same
      rw [find,if_neg (same ▸ apart)]
    · rw [find,find,ih]

theorem Ordered.assign {key : WString} {map : ValueMap α} (ordered : map.Ordered) (value : α) :
    (map.assign key value).Ordered := by
  induction map with
  | nil => exact List.pairwise_singleton _ _
  | cons first rest ih =>
    obtain ⟨before,later⟩ := List.pairwise_cons.mp ordered
    rw [ValueMap.assign]
    split
    · rename_i same
      subst same
      exact ordered
    · rename_i apart
      split
      · rename_i less
        refine List.pairwise_cons.mpr ⟨?_,ordered⟩
        intro other listed
        rcases List.mem_cons.mp listed with rfl | listed
        · exact less
        · exact less.trans (before other listed)
      · rename_i less
        refine List.pairwise_cons.mpr ⟨?_,ih later⟩
        intro other listed
        obtain ⟨entry,member,rfl⟩ := List.mem_map.mp listed
        rcases mem_assign member with rfl | member
        · exact lt_of_le_of_ne (not_lt.mp less) (Ne.symm apart)
        · exact before _ (List.mem_map_of_mem member)

theorem Ordered.find_mem {entry : WString × α} {map : ValueMap α} (ordered : map.Ordered) (member : entry ∈ map) :
    map.find entry.1 = some entry.2 := by
  induction map with
  | nil => cases member
  | cons first rest ih =>
    obtain ⟨before,later⟩ := List.pairwise_cons.mp ordered
    rw [find]
    rcases List.mem_cons.mp member with rfl | member
    · exact if_pos rfl
    · rw [if_neg (before _ (List.mem_map_of_mem member)).ne']
      exact ih later member

theorem erase_sublist (key : WString) (map : ValueMap α) : (map.erase key).Sublist map := by
  induction map with
  | nil => exact .slnil
  | cons first rest ih =>
    rw [erase]
    split
    · exact List.sublist_cons_self ..
    · exact ih.cons_cons first

theorem Ordered.erase {map : ValueMap α} (ordered : map.Ordered) (key : WString) : (map.erase key).Ordered :=
  ordered.sublist ((erase_sublist key map).map Prod.fst)

end ValueMap

namespace DictionaryValue

/-- The maps of a heap are `std::map`s. -/
def Ordered (heap : ValueHeap) : Prop :=
  ∀ node dictionary, heap.cell node = some (.dictionary dictionary) → ValueMap.Ordered dictionary

def Get (heap : ValueHeap) (this : Nat) (path : WString) : Option Nat := GetAlong heap this (path.splitOn dot)

variable {heap mid later : ValueHeap} {this child value : Nat} {key : WString} {path : List WString}

/-! ### Children of a tree -/

theorem unchanged_nodes (tree : heap.Tree Cell.refs this) (same : heap.Unchanged later this) :
    later.nodes this = heap.nodes this :=
  Set.ext fun _ => tree.closed.reach_agree .refl same

/-- A dictionary over trees that have nothing in common. -/
theorem dictionary_tree {dictionary : ValueMap Nat} (read : heap.cell this = some (.dictionary dictionary))
    (ordered : dictionary.Ordered)
    (children : ∀ key child, dictionary.find key = some child → heap.Tree Cell.refs child ∧ this ∉ heap.nodes child)
    (apart : ∀ key child other sibling, dictionary.find key = some child → dictionary.find other = some sibling →
      key ≠ other → Disjoint (heap.nodes child) (heap.nodes sibling)) : heap.Tree Cell.refs this := by
  refine .node read ?_ ?_ ?_
  · intro child ref
    obtain ⟨entry,member,rfl⟩ := List.mem_map.mp ref
    exact (children _ _ (ordered.find_mem member)).1
  · refine List.pairwise_map.mpr ((List.pairwise_map.mp ordered).imp_of_mem ?_)
    intro first second one two less
    exact apart _ _ _ _ (ordered.find_mem one) (ordered.find_mem two) less.ne
  · intro child ref
    obtain ⟨entry,member,rfl⟩ := List.mem_map.mp ref
    exact (children _ _ (ordered.find_mem member)).2

theorem dictionary_congr (same : later.cell this = heap.cell this) : dictionary_ later this = dictionary_ heap this := by
  rw [dictionary_,dictionary_,same]

theorem GetWithoutPathExpansion_congr (same : later.cell this = heap.cell this) (key : WString) :
    GetWithoutPathExpansion later this key = GetWithoutPathExpansion heap this key := by
  rw [GetWithoutPathExpansion,GetWithoutPathExpansion,dictionary_congr same]

theorem GetAlong_cons (key : WString) {path : List WString} (more : path ≠ []) :
    GetAlong heap this (key::path) = (GetDictionaryWithoutPathExpansion heap this key).bind fun child =>
      GetAlong heap child path := by
  cases path with
  | nil => exact absurd rfl more
  | cons => rfl

theorem child_edge (found : GetWithoutPathExpansion heap this key = some child) : heap.Edge Cell.refs this child := by
  obtain ⟨dictionary,read,found⟩ := Option.bind_eq_some_iff.mp found
  exact ⟨_,dictionary_read read,List.mem_map_of_mem (ValueMap.mem_of_find found)⟩

theorem child_nodes (found : GetWithoutPathExpansion heap this key = some child) : heap.nodes child ⊆ heap.nodes this :=
  fun _ reaches => .head (child_edge found) reaches

section Children
variable (tree : heap.Tree Cell.refs this)
include tree

theorem child_tree (found : GetWithoutPathExpansion heap this key = some child) : heap.Tree Cell.refs child :=
  tree.reaches (.single (child_edge found))

theorem child_outside (found : GetWithoutPathExpansion heap this key = some child) : this ∉ heap.nodes child := by
  obtain ⟨cell,stored,ref⟩ := child_edge found
  cases tree with
  | node read children apart outside =>
    cases stored.symm.trans read
    exact outside child ref

theorem children_apart {other : WString} {sibling : Nat} (found : GetWithoutPathExpansion heap this key = some child)
    (beside : GetWithoutPathExpansion heap this other = some sibling) (differs : key ≠ other) :
    Disjoint (heap.nodes child) (heap.nodes sibling) := by
  obtain ⟨dictionary,stored,first⟩ := Option.bind_eq_some_iff.mp found
  obtain ⟨_,same,second⟩ := Option.bind_eq_some_iff.mp beside
  cases stored.symm.trans same
  cases tree with
  | node read children apart outside =>
    cases (dictionary_read stored).symm.trans read
    have : Std.Symm fun one two : WString × Nat => Disjoint (heap.nodes one.2) (heap.nodes two.2) :=
      ⟨fun _ _ disjoint => disjoint.symm⟩
    have entries := (List.pairwise_map.mp apart).forall (ValueMap.mem_of_find first) (ValueMap.mem_of_find second)
    exact entries fun same => differs (congrArg Prod.fst same)

/-- Where a tree stays, all its paths do. -/
theorem GetAlong_agree (same : heap.Unchanged later this) (path : List WString) :
    GetAlong later this path = GetAlong heap this path := by
  induction path generalizing this with
  | nil => rfl
  | cons key path ih =>
    have found := GetWithoutPathExpansion_congr (same this ValueHeap.mem_nodes) key
    by_cases more : path = []
    · subst more
      exact found
    rw [GetAlong_cons key more,GetAlong_cons key more,GetDictionaryWithoutPathExpansion,GetDictionaryWithoutPathExpansion,found]
    cases here : GetWithoutPathExpansion heap this key with
    | none => rfl
    | some child =>
      have below : heap.Unchanged later child := fun node reaches => same node (child_nodes here reaches)
      rw [Option.filter_some,Option.filter_some,dictionary_congr (below child ValueHeap.mem_nodes)]
      split
      · exact ih (child_tree tree here) below
      · rfl

end Children

/-! ### Other paths -/

/-- Neither path begins with the other. -/
def Apart (path other : List WString) : Prop := ¬path <+: other ∧ ¬other <+: path

/-- A path reaches the node it reached, and its tree is as it was. -/
def Same (heap later : ValueHeap) (this : Nat) (path : List WString) : Prop :=
  GetAlong later this path = GetAlong heap this path ∧ ∀ node ∈ GetAlong heap this path, heap.Unchanged later node

def Kept (heap later : ValueHeap) (this : Nat) (path : List WString) : Prop :=
  ∀ other, Apart path other → Same heap later this other

theorem unchanged_trans (tree : heap.Tree Cell.refs this) (first : heap.Unchanged mid this) (second : mid.Unchanged later this) :
    heap.Unchanged later this := by
  intro node reaches
  have still : node ∈ mid.nodes this := (unchanged_nodes tree first).symm ▸ reaches
  exact (second node still).trans (first node reaches)

theorem Same.trans (tree : heap.Tree Cell.refs this) (first : Same heap mid this path) (second : Same mid later this path) :
    Same heap later this path := by
  refine ⟨second.1.trans first.1,?_⟩
  intro node reached
  have inside : node ∈ heap.nodes this := GetAlong_mem tree.closed ValueHeap.mem_nodes reached
  exact unchanged_trans (tree.reaches inside) (first.2 node reached) (second.2 node (first.1.trans reached))

theorem same_of_unchanged (tree : heap.Tree Cell.refs this) (same : heap.Unchanged later this) (path : List WString) :
    Same heap later this path := by
  refine ⟨GetAlong_agree tree same path,?_⟩
  intro node reached target reaches
  have inside : node ∈ heap.nodes this := GetAlong_mem tree.closed ValueHeap.mem_nodes reached
  exact same target (Relation.ReflTransGen.trans inside reaches)

theorem same_cons {rest : List WString} (found : GetWithoutPathExpansion later this key = GetWithoutPathExpansion heap this key)
    (same : ∀ child ∈ GetWithoutPathExpansion heap this key, heap.Tree Cell.refs child ∧ heap.Unchanged later child) :
    Same heap later this (key::rest) := by
  by_cases more : rest = []
  · subst more
    exact ⟨found,fun node reached => (same node reached).2⟩
  rw [Same,GetAlong_cons key more,GetAlong_cons key more,GetDictionaryWithoutPathExpansion,GetDictionaryWithoutPathExpansion,found]
  cases here : GetWithoutPathExpansion heap this key with
  | none => exact ⟨rfl,fun node reached => by cases reached⟩
  | some child =>
    obtain ⟨tree,below⟩ := same child here
    rw [Option.filter_some,Option.filter_some,dictionary_congr (below child ValueHeap.mem_nodes)]
    split
    · exact same_of_unchanged tree below rest
    · exact ⟨rfl,fun node reached => by cases reached⟩

/-- What holds below a child holds from its parent. -/
theorem Kept.lift {region : Heap.Region} (kept : Kept heap later child path) (tree : heap.Tree Cell.refs this)
    (found : GetDictionaryWithoutPathExpansion heap this key = some child) (still : (dictionary_ later child).isSome)
    (confined : Heap.Confined Cell.refs (heap.nodes child ∪ region) heap later) (given : Disjoint region (heap.nodes this)) :
    GetDictionaryWithoutPathExpansion later this key = some child ∧ Kept heap later this (key::path) := by
  obtain ⟨here,before⟩ := Option.filter_eq_some_iff.mp found
  have same : later.cell this = heap.cell this := by
    refine confined.kept this tree.bounded ?_
    rintro (inside | listed)
    · exact child_outside tree here inside
    · exact Set.disjoint_left.mp given listed ValueHeap.mem_nodes
  have reads := GetWithoutPathExpansion_congr same
  have linked : GetDictionaryWithoutPathExpansion later this key = some child :=
    Option.filter_eq_some_iff.mpr ⟨(reads key).trans here,still⟩
  refine ⟨linked,?_⟩
  intro other apart
  cases other with
  | nil => exact absurd (List.nil_prefix) apart.2
  | cons first rest =>
    by_cases equal : first = key
    · subst equal
      have below : Apart path rest :=
        ⟨fun shorter => apart.1 (List.cons_prefix_cons.mpr ⟨rfl,shorter⟩),fun longer => apart.2 (List.cons_prefix_cons.mpr ⟨rfl,longer⟩)⟩
      have more : rest ≠ [] := by
        rintro rfl
        exact below.2 List.nil_prefix
      rw [Same,GetAlong_cons first more,GetAlong_cons first more,linked,found]
      exact kept rest below
    · refine same_cons (reads first) ?_
      intro sibling beside
      have outside := child_tree tree beside
      refine ⟨outside,confined.frame outside.closed (Set.disjoint_union_left.mpr ⟨?_,?_⟩)⟩
      · exact children_apart tree here beside (Ne.symm equal)
      · exact given.mono_right (child_nodes beside)

/-! ### Setting -/

/-- The entry of one key is another, and its old node is gone. -/
structure Replaced (heap later : ValueHeap) (this : Nat) (key : WString) (entries : ValueMap Nat) : Prop where
  next : later.next = heap.next
  read : later.cell this = some (.dictionary entries)
  same : ∀ node, node ≠ this → GetWithoutPathExpansion heap this key ≠ some node → later.cell node = heap.cell node
  cells : ∀ node, node ≠ this → later.cell node = none ∨ later.cell node = heap.cell node
  others : ∀ other, other ≠ key → entries.find other = GetWithoutPathExpansion heap this other

section Replaced
variable {entries : ValueMap Nat} (replaced : Replaced heap later this key entries) (tree : heap.Tree Cell.refs this)
include replaced

theorem Replaced.found (other : WString) : GetWithoutPathExpansion later this other = entries.find other := by
  rw [GetWithoutPathExpansion,dictionary_,replaced.read]
  rfl

theorem Replaced.unchanged {node : Nat} (outside : this ∉ heap.nodes node)
    (apart : ∀ old ∈ GetWithoutPathExpansion heap this key, old ∉ heap.nodes node) : heap.Unchanged later node := by
  intro target reaches
  refine replaced.same target ?_ ?_
  · rintro rfl
    exact outside reaches
  · exact fun old => apart target old reaches

theorem Replaced.ordered (maps : Ordered heap) (entries : ValueMap.Ordered entries) : Ordered later := by
  intro node dictionary read
  by_cases here : node = this
  · subst here
    cases replaced.read.symm.trans read
    exact entries
  · rcases replaced.cells node here with gone | same
    · cases gone.symm.trans read
    · exact maps node dictionary (same.symm.trans read)

include tree

theorem Replaced.sibling {other : WString} {sibling : Nat} (beside : GetWithoutPathExpansion heap this other = some sibling)
    (differs : other ≠ key) : heap.Unchanged later sibling := by
  refine replaced.unchanged (child_outside tree beside) ?_
  intro old found inside
  exact Set.disjoint_left.mp (children_apart tree found beside differs.symm) ValueHeap.mem_nodes inside

theorem Replaced.kept : Kept heap later this [key] := by
  intro other apart
  cases other with
  | nil => exact absurd List.nil_prefix apart.2
  | cons first rest =>
    have differs : first ≠ key := by
      rintro rfl
      exact apart.1 (List.cons_prefix_cons.mpr ⟨rfl,List.nil_prefix⟩)
    refine same_cons ((replaced.found first).trans (replaced.others first differs)) ?_
    exact fun sibling beside => ⟨child_tree tree beside,replaced.sibling tree beside differs⟩

end Replaced

theorem SetWithoutPathExpansion_replaced (tree : heap.Tree Cell.refs this) {dictionary : ValueMap Nat}
    (found : dictionary_ heap this = some dictionary) (key : WString) (value : Nat) :
    ∃ later, SetWithoutPathExpansion heap this key (some value) = some later ∧
      Replaced heap later this key (dictionary.assign key value) := by
  have read := dictionary_read found
  have gets (other : WString) : GetWithoutPathExpansion heap this other = dictionary.find other := by
    rw [GetWithoutPathExpansion,found]
    rfl
  rw [SetWithoutPathExpansion,found,Option.map_some]
  cases entry : dictionary.find key with
  | none =>
    refine ⟨heap.write this (.dictionary (dictionary.assign key value)),rfl,rfl,?_,?_,?_,?_⟩
    · rw [Heap.write_cell_self,read]
      rfl
    · exact fun node apart _ => Heap.write_cell_ne apart
    · exact fun node apart => .inr (Heap.write_cell_ne apart)
    · intro other differs
      rw [ValueMap.find_assign,if_neg differs,gets]
  | some old =>
    have outside : this ≠ old := fun same => child_outside tree ((gets key).trans entry) (same ▸ ValueHeap.mem_nodes)
    refine ⟨(heap.free old).write this (.dictionary (dictionary.assign key value)),rfl,rfl,?_,?_,?_,?_⟩
    · rw [Heap.write_cell_self,Heap.free_cell_ne outside,read]
      rfl
    · intro node apart other
      rw [Heap.write_cell_ne apart,Heap.free_cell_ne]
      rintro rfl
      exact other ((gets key).trans entry)
    · intro node apart
      rw [Heap.write_cell_ne apart]
      by_cases here : node = old
      · exact .inl (here ▸ Heap.free_cell_self)
      · exact .inr (Heap.free_cell_ne here)
    · intro other differs
      rw [ValueMap.find_assign,if_neg differs,gets]

/-- After `value` is set along a path: the path reaches it, all other paths reach what they did. -/
structure SetAt (heap later : ValueHeap) (this value : Nat) (path : List WString) : Prop where
  ordered : Ordered later
  tree : later.Tree Cell.refs this
  root : (dictionary_ later this).isSome
  reached : GetAlong later this path = some value
  whole : heap.Unchanged later value
  kept : Kept heap later this path

theorem SetWithoutPathExpansion_law (maps : Ordered heap) (tree : heap.Tree Cell.refs this)
    (root : (dictionary_ heap this).isSome) (key : WString) (given : heap.Tree Cell.refs value)
    (apart : Disjoint (heap.nodes value) (heap.nodes this)) :
    ∃ later, SetWithoutPathExpansion heap this key (some value) = some later ∧ SetAt heap later this value [key] ∧
      Replaced heap later this key (((dictionary_ heap this).getD []).assign key value) := by
  obtain ⟨dictionary,found⟩ := Option.isSome_iff_exists.mp root
  obtain ⟨later,outcome,replaced⟩ := SetWithoutPathExpansion_replaced tree found key value
  have entries : ValueMap.Ordered (dictionary.assign key value) := (maps this dictionary (dictionary_read found)).assign value
  have whole : heap.Unchanged later value := by
    refine replaced.unchanged (fun reaches => Set.disjoint_left.mp apart reaches ValueHeap.mem_nodes) ?_
    intro old entry reaches
    exact Set.disjoint_left.mp apart reaches (child_nodes entry ValueHeap.mem_nodes)
  have set (other : WString) : (dictionary.assign key value).find other =
      if other = key then some value else GetWithoutPathExpansion heap this other := by
    rw [ValueMap.find_assign,GetWithoutPathExpansion,found]
    rfl
  -- the nodes under each entry, before and after
  have each (other : WString) (child : Nat) (entry : (dictionary.assign key value).find other = some child) :
      heap.Tree Cell.refs child ∧ heap.Unchanged later child ∧ this ∉ heap.nodes child ∧
        (other = key ∧ child = value ∨ other ≠ key ∧ GetWithoutPathExpansion heap this other = some child) := by
    rw [set] at entry
    split at entry
    · rename_i same
      cases entry
      exact ⟨given,whole,fun reaches => Set.disjoint_left.mp apart reaches ValueHeap.mem_nodes,.inl ⟨same,rfl⟩⟩
    · rename_i differs
      exact ⟨child_tree tree entry,replaced.sibling tree entry differs,child_outside tree entry,.inr ⟨differs,entry⟩⟩
  refine ⟨later,outcome,⟨replaced.ordered maps entries,dictionary_tree replaced.read entries ?_ ?_,?_,?_,whole,replaced.kept tree⟩,?_⟩
  · intro other child entry
    obtain ⟨below,same,outside,-⟩ := each other child entry
    exact ⟨below.agree same,(unchanged_nodes below same).symm ▸ outside⟩
  · intro first child second sibling one two differs
    obtain ⟨below,same,-,which⟩ := each first child one
    obtain ⟨beside,still,-,other⟩ := each second sibling two
    rw [unchanged_nodes below same,unchanged_nodes beside still]
    rcases which with ⟨here,rfl⟩ | ⟨here,entry⟩
    · rcases other with ⟨there,rfl⟩ | ⟨there,entry⟩
      · exact absurd (here.trans there.symm) differs
      · exact apart.mono_right (child_nodes entry)
    · rcases other with ⟨there,rfl⟩ | ⟨there,also⟩
      · exact (apart.mono_right (child_nodes entry)).symm
      · exact children_apart tree entry also differs
  · rw [dictionary_,replaced.read]
    rfl
  · exact (replaced.found key).trans ((set key).trans (if_pos rfl))
  · rwa [found]

theorem leaf_nodes {cell : Cell} (read : heap.cell this = some cell) (leaf : cell.refs = []) {node : Nat}
    (reaches : node ∈ heap.nodes this) : node = this := by
  rcases Relation.ReflTransGen.cases_head reaches with same | ⟨_,⟨found,stored,ref⟩,_⟩
  · exact same.symm
  · cases stored.symm.trans read
    rw [leaf] at ref
    cases ref

theorem empty_tree (read : heap.cell this = some (.dictionary [])) : heap.Tree Cell.refs this :=
  dictionary_tree read .nil (fun _ _ found => by cases found) (fun _ _ _ _ found => by cases found)

theorem GetAlong_empty (empty : dictionary_ heap this = some []) (path : List WString) : GetAlong heap this path = none := by
  have nothing (key : WString) : GetWithoutPathExpansion heap this key = none := by
    rw [GetWithoutPathExpansion,empty]
    rfl
  cases path with
  | nil => rfl
  | cons key rest =>
    by_cases more : rest = []
    · subst more
      exact nothing key
    · rw [GetAlong_cons key more,GetDictionaryWithoutPathExpansion,nothing]
      rfl

/-- The new dictionary that is put in the place of what is none. -/
theorem created_law (maps : Ordered heap) (tree : heap.Tree Cell.refs this) (root : (dictionary_ heap this).isSome)
    (key : WString) (given : heap.Tree Cell.refs value) (apart : Disjoint (heap.nodes value) (heap.nodes this)) :
    ∃ linked, SetWithoutPathExpansion (heap.alloc (.dictionary [])).2 this key (some heap.next) = some linked ∧
      Ordered linked ∧ linked.Tree Cell.refs this ∧ GetDictionaryWithoutPathExpansion linked this key = some heap.next ∧
      linked.cell heap.next = some (.dictionary []) ∧ heap.Unchanged linked value ∧
      Disjoint (linked.nodes value) (linked.nodes this) ∧ Kept heap linked this [key] := by
  have empty : (heap.alloc (.dictionary [])).2.cell heap.next = some (.dictionary []) := Heap.alloc_cell_self
  have old {root : Nat} (tree : heap.Tree Cell.refs root) : heap.Unchanged (heap.alloc (.dictionary [])).2 root := by
    intro node reaches
    exact Heap.alloc_cell_ne (tree.closed.bounded node reaches).ne
  have still := old tree
  have also := old given
  have fresh : Disjoint (ValueHeap.nodes (heap.alloc (.dictionary [])).2 heap.next) (heap.nodes this ∪ heap.nodes value) := by
    refine Set.disjoint_left.mpr ?_
    intro node new member
    cases leaf_nodes empty rfl new
    rcases member with member | member
    · exact lt_irrefl _ (tree.closed.bounded _ member)
    · exact lt_irrefl _ (given.closed.bounded _ member)
  rw [Set.disjoint_union_right] at fresh
  have ordered : Ordered (heap.alloc (.dictionary [])).2 := by
    intro node dictionary read
    by_cases here : node = heap.next
    · subst here
      cases empty.symm.trans read
      exact .nil
    · exact maps node dictionary ((Heap.alloc_cell_ne here).symm.trans read)
  obtain ⟨linked,outcome,law,replaced⟩ := SetWithoutPathExpansion_law ordered (tree.agree still)
    ((congrArg Option.isSome (dictionary_congr (still this ValueHeap.mem_nodes))).trans root) key (empty_tree empty)
    ((unchanged_nodes tree still).symm ▸ fresh.1)
  have stored : linked.cell heap.next = some (.dictionary []) := (law.whole _ ValueHeap.mem_nodes).trans empty
  -- the value lies apart from all that was written
  have alone : ValueHeap.Unchanged (heap.alloc (.dictionary [])).2 linked value := by
    refine replaced.unchanged ?_ ?_
    · rw [unchanged_nodes given also]
      exact fun reaches => Set.disjoint_left.mp apart reaches ValueHeap.mem_nodes
    · intro entry found
      rw [unchanged_nodes given also]
      have inside := child_nodes found ValueHeap.mem_nodes
      rw [unchanged_nodes tree still] at inside
      exact fun reaches => Set.disjoint_left.mp apart reaches inside
  have whole := unchanged_trans given also alone
  have confined := SetWithoutPathExpansion_confined ((tree.agree still).closed.union (empty_tree empty).closed)
    (.inl ValueHeap.mem_nodes) (fun node same => Option.some.inj same ▸ .inr ValueHeap.mem_nodes) outcome
  refine ⟨linked,outcome,law.ordered,law.tree,?_,stored,whole,?_,?_⟩
  · refine Option.filter_eq_some_iff.mpr ⟨law.reached,?_⟩
    rw [dictionary_,stored]
    rfl
  · rw [unchanged_nodes given whole]
    refine Set.disjoint_left.mpr ?_
    intro node listed reaches
    rcases confined.closed.reaches (.inl (.inl ValueHeap.mem_nodes)) reaches with (inside | new) | new
    · exact Set.disjoint_left.mp apart listed ((Set.ext_iff.mp (unchanged_nodes tree still) node).mp inside)
    · exact Set.disjoint_left.mp fresh.2 new listed
    · rw [Heap.since_self replaced.next] at new
      exact new
  · intro other differs
    exact (same_of_unchanged tree still other).trans tree (law.kept other differs)

/-- `Set` over the keys between the dots, by induction along them. -/
theorem SetAlong_law (path : List WString) (named : path ≠ []) (maps : Ordered heap) (tree : heap.Tree Cell.refs this)
    (root : (dictionary_ heap this).isSome) (given : heap.Tree Cell.refs value)
    (apart : Disjoint (heap.nodes value) (heap.nodes this)) :
    ∃ later, SetAlong heap this value path = some later ∧ SetAt heap later this value path := by
  induction path generalizing heap this with
  | nil => exact absurd rfl named
  | cons key path ih =>
    by_cases more : path = []
    · subst more
      obtain ⟨later,outcome,law,-⟩ := SetWithoutPathExpansion_law maps tree root key given apart
      exact ⟨later,outcome,law⟩
    cases here : GetDictionaryWithoutPathExpansion heap this key with
    | some child =>
      obtain ⟨found,dictionary⟩ := Option.filter_eq_some_iff.mp here
      have below := child_tree tree found
      have within : Disjoint (heap.nodes value) (heap.nodes child) := apart.mono_right (child_nodes found)
      obtain ⟨later,outcome,law⟩ := ih more maps below dictionary given within
      have confined := SetAlong_confined (below.closed.union given.closed) (.inl ValueHeap.mem_nodes)
        (.inr ValueHeap.mem_nodes) outcome
      obtain ⟨linked,kept⟩ := law.kept.lift tree here law.root confined apart
      obtain ⟨cell,read,ref⟩ := child_edge found
      have same : later.cell this = heap.cell this := by
        refine confined.kept this tree.bounded ?_
        rintro (inside | listed)
        · exact child_outside tree found inside
        · exact Set.disjoint_left.mp apart listed ValueHeap.mem_nodes
      refine ⟨later,?_,law.ordered,tree.lift read ref law.tree apart confined,?_,?_,law.whole,kept⟩
      · rw [SetAlong,here]
        · exact outcome
        · exact more
      · exact (congrArg Option.isSome (dictionary_congr same)).trans root
      · rw [GetAlong_cons key more,linked]
        exact law.reached
    | none =>
      obtain ⟨linked,link,ordered,whole,found,empty,alone,elsewhere,first⟩ := created_law maps tree root key given apart
      have below := empty_tree empty
      have still := given.agree alone
      have dictionary : dictionary_ linked heap.next = some [] := by rw [dictionary_,empty]
      obtain ⟨entry,-⟩ := Option.filter_eq_some_iff.mp found
      obtain ⟨later,outcome,law⟩ := ih more ordered below (by rw [dictionary]; rfl) still
        (elsewhere.mono_right (child_nodes entry))
      have confined := SetAlong_confined (below.closed.union still.closed) (.inl ValueHeap.mem_nodes)
        (.inr ValueHeap.mem_nodes) outcome
      obtain ⟨reaches,kept⟩ := law.kept.lift whole found law.root confined elsewhere
      obtain ⟨cell,read,ref⟩ := child_edge entry
      have same : later.cell this = linked.cell this := by
        refine confined.kept this whole.bounded ?_
        rintro (inside | listed)
        · exact child_outside whole entry inside
        · exact Set.disjoint_left.mp elsewhere listed ValueHeap.mem_nodes
      refine ⟨later,?_,law.ordered,whole.lift read ref law.tree elsewhere confined,?_,?_,unchanged_trans given alone law.whole,?_⟩
      · rw [SetAlong,here]
        · dsimp only
          rw [Heap.alloc_address,link]
          exact outcome
        · exact more
      · obtain ⟨_,stored,_⟩ := Option.bind_eq_some_iff.mp entry
        rw [dictionary_congr same,stored]
        rfl
      · rw [GetAlong_cons key more,reaches]
        exact law.reached
      · intro other differs
        have moved := kept other differs
        cases other with
        | nil => exact absurd List.nil_prefix differs.2
        | cons next rest =>
          by_cases equal : next = key
          · -- below the new dictionary there was nothing, and is nothing else
            subst equal
            have beyond : rest ≠ [] := by
              rintro rfl
              exact differs.2 (List.cons_prefix_cons.mpr ⟨rfl,List.nil_prefix⟩)
            have before : GetAlong heap this (next::rest) = none := by
              rw [GetAlong_cons next beyond,here]
              rfl
            have after : GetAlong linked this (next::rest) = none := by
              rw [GetAlong_cons next beyond,found]
              exact GetAlong_empty dictionary rest
            refine ⟨moved.1.trans (after.trans before.symm),?_⟩
            rw [before]
            exact fun node reached => by cases reached
          · refine (first _ ⟨?_,?_⟩).trans tree moved
            · exact fun shorter => equal (List.cons_prefix_cons.mp shorter).1.symm
            · exact fun longer => equal (List.cons_prefix_cons.mp longer).1

/-! ### Removing -/

/-- After a path is removed: it reaches nothing, all other paths reach what they did. -/
structure RemovedAt (heap later : ValueHeap) (this : Nat) (path : List WString) : Prop where
  ordered : Ordered later
  tree : later.Tree Cell.refs this
  root : (dictionary_ later this).isSome
  gone : GetAlong later this path = none
  kept : Kept heap later this path

theorem kept_refl (heap : ValueHeap) (this : Nat) (path : List WString) : Kept heap heap this path :=
  fun _ _ => ⟨rfl,fun _ _ _ _ => rfl⟩

theorem RemoveWithoutPathExpansion_law (maps : Ordered heap) (tree : heap.Tree Cell.refs this)
    (root : (dictionary_ heap this).isSome) (key : WString) (out_value : Bool) :
    ∃ removed later, RemoveWithoutPathExpansion heap this key out_value = some (removed,later) ∧
      RemovedAt heap later this [key] := by
  obtain ⟨dictionary,found⟩ := Option.isSome_iff_exists.mp root
  have read := dictionary_read found
  have ordered := maps this dictionary read
  have gets (other : WString) : GetWithoutPathExpansion heap this other = dictionary.find other := by
    rw [GetWithoutPathExpansion,found]
    rfl
  rw [RemoveWithoutPathExpansion,found,Option.map_some]
  cases entry : dictionary.find key with
  | none => exact ⟨none,heap,rfl,maps,tree,root,(gets key).trans entry,kept_refl heap this [key]⟩
  | some old =>
    have outside : this ≠ old := fun same => child_outside tree ((gets key).trans entry) (same ▸ ValueHeap.mem_nodes)
    let released := if out_value then heap else heap.free old
    have stays (node : Nat) : released.cell node = none ∧ node = old ∨ released.cell node = heap.cell node := by
      rcases out_value with _ | _
      · by_cases here : node = old
        · exact .inl ⟨here ▸ Heap.free_cell_self,here⟩
        · exact .inr (Heap.free_cell_ne here)
      · exact .inr rfl
    have replaced : Replaced heap (released.write this (.dictionary (dictionary.erase key))) this key (dictionary.erase key) := by
      constructor
      · rcases out_value with _ | _
        · rfl
        · rfl
      · rw [Heap.write_cell_self,(stays this).resolve_left fun gone => outside gone.2,read]
        rfl
      · intro node apart other
        rw [Heap.write_cell_ne apart]
        refine (stays node).resolve_left ?_
        rintro ⟨-,rfl⟩
        exact other ((gets key).trans entry)
      · intro node apart
        rw [Heap.write_cell_ne apart]
        exact (stays node).imp_left And.left
      · intro other differs
        rw [ValueMap.find_erase_ne differs,gets]
    -- each entry that is left was one
    have each (other : WString) (child : Nat) (left : (dictionary.erase key).find other = some child) :
        other ≠ key ∧ GetWithoutPathExpansion heap this other = some child := by
      have differs : other ≠ key := by
        rintro rfl
        rw [ValueMap.find_erase_self ordered] at left
        cases left
      rw [ValueMap.find_erase_ne differs] at left
      exact ⟨differs,(gets other).trans left⟩
    refine ⟨some old,_,rfl,replaced.ordered maps (ordered.erase key),dictionary_tree replaced.read (ordered.erase key) ?_ ?_,?_,?_,
      replaced.kept tree⟩
    · intro other child left
      obtain ⟨differs,beside⟩ := each other child left
      have same := replaced.sibling tree beside differs
      have below := child_tree tree beside
      exact ⟨below.agree same,(unchanged_nodes below same).symm ▸ child_outside tree beside⟩
    · intro first child second sibling one two differs
      obtain ⟨here,beside⟩ := each first child one
      obtain ⟨there,also⟩ := each second sibling two
      rw [unchanged_nodes (child_tree tree beside) (replaced.sibling tree beside here),
        unchanged_nodes (child_tree tree also) (replaced.sibling tree also there)]
      exact children_apart tree beside also differs
    · rw [dictionary_,replaced.read]
      rfl
    · exact (replaced.found key).trans (ValueMap.find_erase_self ordered)

/-- Keys lead from dictionary to dictionary. -/
inductive Leads (heap : ValueHeap) : Nat → List WString → Nat → Prop
  | here {this : Nat} : Leads heap this [] this
  | step {this child current : Nat} {key : WString} {path : List WString}
      (found : GetDictionaryWithoutPathExpansion heap this key = some child) (leads : Leads heap child path current) :
      Leads heap this (key::path) current

theorem GetDictionary_cons (key : WString) (more : path ≠ []) :
    GetDictionary heap this (key::path) = (GetDictionaryWithoutPathExpansion heap this key).bind fun child =>
      GetDictionary heap child path := by
  rw [GetDictionary,GetAlong_cons key more]
  cases GetDictionaryWithoutPathExpansion heap this key with
  | none => rfl
  | some child => rfl

theorem leads_of_GetDictionary {current : Nat} (named : path ≠ []) (found : GetDictionary heap this path = some current) :
    Leads heap this path current := by
  induction path generalizing this with
  | nil => exact absurd rfl named
  | cons key path ih =>
    by_cases more : path = []
    · subst more
      exact .step found .here
    · rw [GetDictionary_cons key more] at found
      obtain ⟨child,here,below⟩ := Option.bind_eq_some_iff.mp found
      exact .step here (ih more below)

theorem GetAlong_last (named : path ≠ []) (last : WString) :
    GetAlong heap this (path ++ [last]) = (GetDictionary heap this path).bind fun current =>
      GetWithoutPathExpansion heap current last := by
  induction path generalizing this with
  | nil => exact absurd rfl named
  | cons key path ih =>
    rw [List.cons_append,GetAlong_cons key (by simp)]
    by_cases more : path = []
    · subst more
      rfl
    · rw [GetDictionary_cons key more,Option.bind_assoc]
      congr 1
      funext child
      exact ih more

theorem Leads.nodes {current : Nat} (leads : Leads heap this path current) : current ∈ heap.nodes this := by
  induction leads with
  | here => exact ValueHeap.mem_nodes
  | step found _ ih => exact child_nodes (Option.filter_eq_some_iff.mp found).1 ih

/-- What is removed from the dictionary at the end of a path is removed along it. -/
theorem Leads.removed {current : Nat} {last : WString} {out_value : Bool} {removed : Option Nat}
    (leads : Leads heap this path current) (tree : heap.Tree Cell.refs this)
    (outcome : RemoveWithoutPathExpansion heap current last out_value = some (removed,later))
    (law : RemovedAt heap later current [last]) : RemovedAt heap later this (path ++ [last]) := by
  induction leads with
  | here => exact law
  | @step this child current key path found leads ih =>
    obtain ⟨here,dictionary⟩ := Option.filter_eq_some_iff.mp found
    have below := child_tree tree here
    have lower := ih below outcome law
    have confined : Heap.Confined Cell.refs (heap.nodes child ∪ ∅) heap later := by
      rw [Set.union_empty]
      exact RemoveWithoutPathExpansion_confined below.closed leads.nodes outcome
    obtain ⟨linked,kept⟩ := lower.kept.lift tree found lower.root confined (Set.empty_disjoint _)
    obtain ⟨cell,read,ref⟩ := child_edge here
    have same : later.cell this = heap.cell this := by
      refine confined.kept this tree.bounded ?_
      rw [Set.union_empty]
      exact child_outside tree here
    obtain ⟨_,stored,_⟩ := Option.bind_eq_some_iff.mp here
    refine ⟨lower.ordered,tree.lift read ref lower.tree (Set.empty_disjoint _) confined,?_,?_,kept⟩
    · rw [dictionary_congr same,stored]
      rfl
    · rw [List.cons_append,GetAlong_cons key (by simp),linked]
      exact lower.gone

theorem Leads.root {current : Nat} (leads : Leads heap this path current) (root : (dictionary_ heap this).isSome) :
    (dictionary_ heap current).isSome := by
  induction leads with
  | here => exact root
  | step found _ ih => exact ih (Option.filter_eq_some_iff.mp found).2

theorem Remove_law (maps : Ordered heap) (tree : heap.Tree Cell.refs this) (root : (dictionary_ heap this).isSome)
    (path : WString) (out_value : Bool) :
    ∃ removed later, Remove heap this path out_value = some (removed,later) ∧
      RemovedAt heap later this (path.splitOn dot) := by
  obtain ⟨before,last,keys⟩ : ∃ before last, path.splitOn dot = before ++ [last] :=
    ⟨_,_,(List.dropLast_append_getLast (List.splitOn_ne_nil dot path)).symm⟩
  rw [Remove,keys]
  by_cases here : before = []
  · subst here
    exact RemoveWithoutPathExpansion_law maps tree root last out_value
  split
  · rename_i key single
    have length := congrArg List.length single
    rw [List.length_append] at length
    exact absurd (List.length_eq_zero_iff.mp (Nat.succ.inj length)) here
  rw [List.dropLast_concat,List.getLastD_concat]
  cases found : GetDictionary heap this before with
  | none =>
    refine ⟨none,heap,rfl,maps,tree,root,?_,kept_refl _ _ _⟩
    rw [GetAlong_last here,found]
    rfl
  | some current =>
    have leads := leads_of_GetDictionary here found
    have below := tree.reaches leads.nodes
    obtain ⟨removed,later,outcome,law⟩ := RemoveWithoutPathExpansion_law maps below (leads.root root) last out_value
    exact ⟨removed,later,outcome,leads.removed tree outcome law⟩

/-! ### The law of dotted paths -/

/-- Neither of two paths is the beginning of the other, key by key. -/
def Unrelated (path other : WString) : Prop := Apart (path.splitOn dot) (other.splitOn dot)

/-- Unrelated paths reach the nodes they reached, with their trees. -/
def Unmoved (heap later : ValueHeap) (this : Nat) (path : WString) : Prop :=
  ∀ other, Unrelated path other → Get later this other = Get heap this other ∧
    ∀ node ∈ Get heap this other, heap.Unchanged later node

/-- What `Set` puts at a path is what `Get` returns there, what `Remove` takes from a path
is gone, and neither moves an unrelated path; the dictionary stays a tree. -/
theorem dotted_path_law (maps : Ordered heap) (tree : heap.Tree Cell.refs this) (root : (dictionary_ heap this).isSome)
    (given : heap.Tree Cell.refs value) (apart : Disjoint (heap.nodes value) (heap.nodes this)) (path : WString) :
    (∃ later, Set heap this path (some value) = some later ∧ Get later this path = some value ∧
      heap.Unchanged later value ∧ Unmoved heap later this path ∧ Ordered later ∧ later.Tree Cell.refs this) ∧
    ∀ out_value, ∃ removed later, Remove heap this path out_value = some (removed,later) ∧ Get later this path = none ∧
      Unmoved heap later this path ∧ Ordered later ∧ later.Tree Cell.refs this := by
  constructor
  · obtain ⟨later,outcome,law⟩ := SetAlong_law (path.splitOn dot) (List.splitOn_ne_nil dot path) maps tree root given apart
    exact ⟨later,outcome,law.reached,law.whole,fun other differs => law.kept _ differs,law.ordered,law.tree⟩
  · intro out_value
    obtain ⟨removed,later,outcome,law⟩ := Remove_law maps tree root path out_value
    exact ⟨removed,later,outcome,law.gone,fun other differs => law.kept _ differs,law.ordered,law.tree⟩

/-- The integer 42 under `a`, and a null value to be set. -/
def document : ValueHeap :=
  (((Heap.empty.alloc (.fundamental (.integer 42))).2.alloc (.dictionary [([97],0)])).2.alloc .null).2

theorem leaf_tree {cell : Cell} (read : heap.cell this = some cell) (leaf : cell.refs = []) : heap.Tree Cell.refs this :=
  .node read (by simp [leaf]) (by simp [leaf]) (by simp [leaf])

/-- `a.b` is set where `a` is no dictionary. -/
theorem document_law :
    (∃ later, Set document 1 [97,46,98] (some 2) = some later ∧ Get later 1 [97,46,98] = some 2 ∧
      document.Unchanged later 2 ∧ Unmoved document later 1 [97,46,98] ∧ Ordered later ∧ later.Tree Cell.refs 1) ∧
    ∀ out_value, ∃ removed later, Remove document 1 [97,46,98] out_value = some (removed,later) ∧
      Get later 1 [97,46,98] = none ∧ Unmoved document later 1 [97,46,98] ∧ Ordered later ∧ later.Tree Cell.refs 1 := by
  have number : document.cell 0 = some (.fundamental (.integer 42)) := rfl
  have root : document.cell 1 = some (.dictionary [([97],0)]) := rfl
  have null : document.cell 2 = some .null := rfl
  have maps : Ordered document := by
    intro node dictionary read
    obtain _ | _ | _ | node := node
    · cases read
    · cases read
      exact List.pairwise_singleton _ _
    · cases read
    · cases read
  have child {key : WString} {child : Nat} (found : ValueMap.find key [([97],0)] = some child) : key = [97] ∧ child = 0 := by
    rw [ValueMap.find] at found
    split at found
    · rename_i same
      cases found
      exact ⟨same,rfl⟩
    · cases found
  have tree : document.Tree Cell.refs 1 := by
    refine dictionary_tree root (maps 1 _ root) ?_ ?_
    · intro key node found
      obtain ⟨-,rfl⟩ := child found
      exact ⟨leaf_tree number rfl,fun inside => Nat.one_ne_zero (leaf_nodes number rfl inside)⟩
    · intro key node other sibling one two differs
      exact absurd ((child one).1.trans (child two).1.symm) differs
  refine dotted_path_law maps tree rfl (leaf_tree null rfl) ?_ [97,46,98]
  refine Set.disjoint_left.mpr ?_
  intro node value inside
  cases leaf_nodes null rfl value
  -- nothing names the value
  rcases Relation.ReflTransGen.cases_tail inside with same | ⟨node,_,cell,read,ref⟩
  · cases same
  obtain _ | _ | _ | node := node
  · cases read
    cases ref
  · cases read
    cases List.mem_singleton.mp ref
  · cases read
    cases ref
  · cases read

end DictionaryValue
end Migfm.Logic
