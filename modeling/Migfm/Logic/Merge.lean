import Migfm.Logic.EmptyChildren

/-! `DictionaryValue::MergeDictionary` of base_values.cc against the merge in which the
right side wins. What it does not merge in turn it copies, and `DeepCopy` loses the
entries of a dictionary. -/
namespace Migfm.Logic
open Library

namespace ValueMap
variable {α β : Type} {key : WString}

theorem find_isSome {map : ValueMap α} : (map.find key).isSome ↔ key ∈ map.map Prod.fst := by
  constructor
  · intro some
    obtain ⟨value,found⟩ := Option.isSome_iff_exists.mp some
    exact List.mem_map_of_mem (mem_of_find found)
  · intro listed
    by_contra none
    induction map with
    | nil => cases listed
    | cons first rest ih =>
      rw [find] at none
      split at none
      · exact none rfl
      · rename_i apart
        exact ih ((List.mem_cons.mp listed).resolve_left apart) none

theorem Ordered.mem_iff {map : ValueMap α} (ordered : map.Ordered) {value : α} :
    (key,value) ∈ map ↔ map.find key = some value :=
  ⟨ordered.find_mem,mem_of_find⟩

/-- A map is what its keys find. -/
theorem Ordered.ext {map other : ValueMap α} (ordered : map.Ordered) (sorted : other.Ordered)
    (same : ∀ key, map.find key = other.find key) : map = other := by
  have before : map.Pairwise fun first second => first.1 < second.1 := List.pairwise_map.mp ordered
  have after : other.Pairwise fun first second => first.1 < second.1 := List.pairwise_map.mp sorted
  have apart (first second : WString × α) (less : first.1 < second.1) : first ≠ second := by
    rintro rfl
    exact lt_irrefl _ less
  refine List.Perm.eq_of_pairwise ?_ before after ?_
  · intro first second _ _ less more
    exact absurd (less.trans more) (lt_irrefl _)
  · refine (List.perm_ext_iff_of_nodup (before.imp fun {first second} => apart first second)
      (after.imp fun {first second} => apart first second)).mpr ?_
    intro entry
    rw [ordered.mem_iff,sorted.mem_iff,same]

theorem assign_same {map : ValueMap α} {value : α} (ordered : map.Ordered) (found : map.find key = some value) :
    map.assign key value = map := by
  refine (ordered.assign value).ext ordered ?_
  intro other
  rw [find_assign]
  split
  · rename_i same
    rw [same,found]
  · rfl

/-- Two maps with the same keys, and related values under each. -/
theorem rel_find {R : α → β → Prop} {map : ValueMap α} {other : ValueMap β} (keys : map.map Prod.fst = other.map Prod.fst)
    (related : List.Forall₂ R (map.map Prod.snd) (other.map Prod.snd)) (key : WString) :
    Option.Rel R (map.find key) (other.find key) := by
  induction map generalizing other with
  | nil =>
    cases List.map_eq_nil_iff.mp keys.symm
    exact .none
  | cons first rest ih =>
    obtain _ | ⟨second,others⟩ := other
    · cases keys
    obtain ⟨same,keys⟩ := List.cons.inj keys
    obtain _ | ⟨here,related⟩ := related
    rw [find,find,same]
    split
    · exact .some here
    · exact ih keys related

theorem rel_imp {R S : α → β → Prop} {first : Option α} {second : Option β} (related : Option.Rel R first second)
    (each : ∀ a ∈ first, ∀ b, R a b → S a b) : Option.Rel S first second := by
  cases related with
  | some here => exact .some (each _ rfl _ here)
  | none => exact .none

theorem rel_of_find {R : α → β → Prop} {map : ValueMap α} {other : ValueMap β} (ordered : map.Ordered) (sorted : other.Ordered)
    (related : ∀ key, Option.Rel R (map.find key) (other.find key)) :
    map.map Prod.fst = other.map Prod.fst ∧ List.Forall₂ R (map.map Prod.snd) (other.map Prod.snd) := by
  have keys : map.map Prod.fst = other.map Prod.fst := by
    refine List.Perm.eq_of_pairwise ?_ ordered sorted ?_
    · intro first second _ _ less more
      exact absurd (less.trans more) (lt_irrefl _)
    · refine (List.perm_ext_iff_of_nodup (ordered.imp fun less => less.ne) (sorted.imp fun less => less.ne)).mpr ?_
      intro key
      have here := related key
      rw [← find_isSome,← find_isSome]
      revert here
      generalize map.find key = one
      generalize other.find key = two
      rintro (_ | _)
      · rfl
      · rfl
  refine ⟨keys,List.forall₂_iff_get.mpr ⟨?_,?_⟩⟩
  · simpa using congrArg List.length keys
  · intro i left right
    have first : i < map.length := by simpa using left
    have second : i < other.length := by simpa using right
    have named : (map[i]).1 = (other[i]).1 := by
      simpa [first,second] using congrArg (·[i]?) keys
    have one := ordered.find_mem (List.getElem_mem first)
    have two := sorted.find_mem (List.getElem_mem second)
    have here := related (map[i]).1
    rw [one,named,two] at here
    cases here with
    | some here => simpa using here

end ValueMap

/-! ### The merge of two trees -/

mutual

/-- What a key holds after the merge, if the right side has `value` for it: a dictionary
on both sides is merged in turn, anything else is the copy of the right side's. -/
def Value.merge (copy : Value → Value) : Option Value → Value → Value
  | some (.dictionary mine),.dictionary theirs => .dictionary (mergeEntries copy mine theirs)
  | _,value => copy value

def mergeEntries (copy : Value → Value) : List (WString × Value) → List (WString × Value) → List (WString × Value)
  | mine,[] => mine
  | mine,(key,value)::theirs =>
    mergeEntries copy (ValueMap.assign key (Value.merge copy (ValueMap.find key mine) value) mine) theirs

end

/-- The merge in which the right side wins. -/
abbrev deepMerge (mine theirs : List (WString × Value)) : List (WString × Value) := mergeEntries id mine theirs

section Pure
variable {copy : Value → Value} {mine theirs : List (WString × Value)} {key : WString}

theorem mergeEntries_ordered (ordered : ValueMap.Ordered mine) (theirs : List (WString × Value)) :
    ValueMap.Ordered (mergeEntries copy mine theirs) := by
  induction theirs generalizing mine with
  | nil =>
    rw [mergeEntries]
    exact ordered
  | cons entry theirs ih =>
    rw [mergeEntries]
    exact ih (ordered.assign _)

/-- Each key of the right side holds what it is merged to, each other key what it held. -/
theorem mergeEntries_find (sorted : ValueMap.Ordered theirs) (key : WString) :
    ValueMap.find key (mergeEntries copy mine theirs) = match ValueMap.find key theirs with
      | none => ValueMap.find key mine
      | some value => some (Value.merge copy (ValueMap.find key mine) value) := by
  induction theirs generalizing mine with
  | nil => rw [mergeEntries,ValueMap.find]
  | cons entry theirs ih =>
    obtain ⟨name,value⟩ := entry
    obtain ⟨before,sorted⟩ := List.pairwise_cons.mp sorted
    rw [mergeEntries,ih sorted,ValueMap.find_assign,ValueMap.find]
    by_cases here : key = name
    · have absent : ValueMap.find key theirs = none := by
        subst here
        exact ValueMap.find_none fun listed => lt_irrefl _ (before _ listed)
      rw [absent,if_pos here,if_pos here,here]
    · rw [if_neg here,if_neg here]

theorem mergeEntries_eq_iff {other : Value → Value} (ordered : ValueMap.Ordered mine) (sorted : ValueMap.Ordered theirs) :
    mergeEntries copy mine theirs = mergeEntries other mine theirs ↔ ∀ entry ∈ theirs,
      Value.merge copy (ValueMap.find entry.1 mine) entry.2 = Value.merge other (ValueMap.find entry.1 mine) entry.2 := by
  constructor
  · intro same entry listed
    have found := congrArg (ValueMap.find entry.1) same
    rw [mergeEntries_find sorted,mergeEntries_find sorted,sorted.find_mem listed] at found
    exact Option.some.inj found
  · intro each
    refine (mergeEntries_ordered ordered theirs).ext (mergeEntries_ordered ordered theirs) ?_
    intro key
    rw [mergeEntries_find sorted,mergeEntries_find sorted]
    cases found : ValueMap.find key theirs with
    | none => rfl
    | some value => exact congrArg some (each _ (ValueMap.mem_of_find found))

/-- Merging the same again: each key is merged over what it was merged to. -/
theorem mergeEntries_same {other : Value → Value} (ordered : ValueMap.Ordered mine) (sorted : ValueMap.Ordered theirs)
    (each : ∀ entry ∈ theirs, Value.merge other (some (Value.merge copy (ValueMap.find entry.1 mine) entry.2)) entry.2 =
      Value.merge copy (ValueMap.find entry.1 mine) entry.2) :
    mergeEntries other (mergeEntries copy mine theirs) theirs = mergeEntries copy mine theirs := by
  have merged : ValueMap.Ordered (mergeEntries copy mine theirs) := mergeEntries_ordered ordered theirs
  refine (mergeEntries_ordered merged theirs).ext merged ?_
  intro key
  rw [mergeEntries_find sorted,mergeEntries_find sorted]
  cases found : ValueMap.find key theirs with
  | none => rfl
  | some value => exact congrArg some (each _ (ValueMap.mem_of_find found))

end Pure

mutual

/-- What is not merged in turn holds no dictionary with entries. -/
def Value.Spared : Option Value → Value → Prop
  | some (.dictionary mine),.dictionary theirs => SparedEntries mine theirs
  | _,value => value.Bare

def SparedEntries : List (WString × Value) → List (WString × Value) → Prop
  | _,[] => True
  | mine,(key,value)::theirs => Value.Spared (ValueMap.find key mine) value ∧ SparedEntries mine theirs

end

theorem SparedEntries.iff_forall {mine theirs : List (WString × Value)} :
    SparedEntries mine theirs ↔ ∀ entry ∈ theirs, Value.Spared (ValueMap.find entry.1 mine) entry.2 := by
  induction theirs with
  | nil => simp [SparedEntries]
  | cons entry theirs ih => rw [SparedEntries,ih,List.forall_mem_cons]

theorem sorted_of_find {entries : List (WString × Value)} (sorted : SortedEntries entries) {key : WString} :
    ∀ value ∈ ValueMap.find key entries, value.Sorted :=
  fun _ found => sorted.value (List.mem_map_of_mem (ValueMap.mem_of_find found))

/-- What is no pair of dictionaries is copied. -/
theorem Value.merge_other {copy : Value → Value} {mine : Option Value} {value : Value}
    (other : ∀ left right, mine = some (.dictionary left) → value ≠ .dictionary right) : Value.merge copy mine value = copy value := by
  rw [Value.merge]
  intro left right same
  exact other left right same

theorem Value.spared_other {mine : Option Value} {value : Value}
    (other : ∀ left right, mine = some (.dictionary left) → value ≠ .dictionary right) : Value.Spared mine value ↔ value.Bare := by
  rw [Value.Spared]
  intro left right same
  exact other left right same

theorem Value.merge_emptied_other {mine : Option Value} {value : Value}
    (other : ∀ left right, mine = some (.dictionary left) → value ≠ .dictionary right) :
    Value.merge Value.emptied mine value = Value.merge id mine value ↔ Value.Spared mine value := by
  rw [Value.merge_other other,Value.merge_other other,Value.spared_other other]
  exact value.emptied_eq_iff

mutual

theorem Value.merge_emptied_iff : ∀ (mine : Option Value) (value : Value), (∀ held ∈ mine, held.Sorted) → value.Sorted →
    (Value.merge Value.emptied mine value = Value.merge id mine value ↔ Value.Spared mine value)
  | mine,.dictionary theirs,held,sorted => by
    by_cases both : ∃ left, mine = some (.dictionary left)
    · obtain ⟨left,rfl⟩ := both
      have ordered := held _ rfl
      rw [Value.merge,Value.merge,Value.Spared,Value.dictionary.injEq,mergeEntries_eq_iff ordered.1 sorted.1,
        SparedEntries.iff_forall]
      exact forall₂_congr (mergeEntries_emptied left theirs ordered sorted.2)
    · exact Value.merge_emptied_other fun left _ same => absurd ⟨left,same⟩ both
  | _,.null,_,_ => Value.merge_emptied_other fun _ _ _ => by simp
  | _,.fundamental _,_,_ => Value.merge_emptied_other fun _ _ _ => by simp
  | _,.string _,_,_ => Value.merge_emptied_other fun _ _ _ => by simp
  | _,.binary _,_,_ => Value.merge_emptied_other fun _ _ _ => by simp
  | _,.list _,_,_ => Value.merge_emptied_other fun _ _ _ => by simp

theorem mergeEntries_emptied : ∀ mine theirs : List (WString × Value), (Value.dictionary mine).Sorted → SortedEntries theirs →
    ∀ entry ∈ theirs, (Value.merge Value.emptied (ValueMap.find entry.1 mine) entry.2 =
      Value.merge id (ValueMap.find entry.1 mine) entry.2 ↔ Value.Spared (ValueMap.find entry.1 mine) entry.2)
  | _,[],_,_,entry,listed => by cases listed
  | mine,(key,value)::theirs,ordered,sorted,entry,listed => by
    rcases List.mem_cons.mp listed with rfl | listed
    · exact Value.merge_emptied_iff (ValueMap.find key mine) value (sorted_of_find ordered.2) sorted.1
    · exact mergeEntries_emptied mine theirs ordered sorted.2 entry listed

end

/-- The merge is the one in which the right side wins exactly if nothing is lost in a copy. -/
theorem merged_iff {mine theirs : List (WString × Value)} (ordered : (Value.dictionary mine).Sorted)
    (sorted : (Value.dictionary theirs).Sorted) :
    mergeEntries Value.emptied mine theirs = deepMerge mine theirs ↔ SparedEntries mine theirs := by
  rw [mergeEntries_eq_iff ordered.1 sorted.1,SparedEntries.iff_forall]
  exact forall₂_congr (mergeEntries_emptied mine theirs ordered sorted.2)

/-- What was copied is copied again, over itself. -/
theorem Value.again_other {mine : Option Value} {value : Value}
    (other : ∀ left right, mine = some (.dictionary left) → value ≠ .dictionary right) (spared : Value.Spared mine value) :
    Value.merge Value.emptied (some (Value.merge id mine value)) value = Value.merge id mine value := by
  have bare := (Value.spared_other other).mp spared
  rw [Value.merge_other other,id]
  cases value with
  | dictionary theirs =>
    cases (bare : theirs = [])
    rw [Value.merge,mergeEntries]
  | null | fundamental _ | string _ | binary _ | list _ =>
    rw [Value.merge_other (by simp)]
    exact (Value.emptied_eq_iff _).mpr bare

mutual

/-- Merging once more what was merged changes nothing. -/
theorem Value.merge_again : ∀ (mine : Option Value) (value : Value), (∀ held ∈ mine, held.Sorted) → value.Sorted →
    Value.Spared mine value → Value.merge Value.emptied (some (Value.merge id mine value)) value = Value.merge id mine value
  | mine,.dictionary theirs,held,sorted,spared => by
    by_cases both : ∃ left, mine = some (.dictionary left)
    · obtain ⟨left,rfl⟩ := both
      have ordered := held _ rfl
      have each := mergeEntries_again left theirs ordered sorted.2 (SparedEntries.iff_forall.mp spared)
      rw [Value.merge,Value.merge]
      exact congrArg Value.dictionary (mergeEntries_same ordered.1 sorted.1 each)
    · exact Value.again_other (fun left _ same => absurd ⟨left,same⟩ both) spared
  | _,.null,_,_,spared => Value.again_other (fun _ _ _ => by simp) spared
  | _,.fundamental _,_,_,spared => Value.again_other (fun _ _ _ => by simp) spared
  | _,.string _,_,_,spared => Value.again_other (fun _ _ _ => by simp) spared
  | _,.binary _,_,_,spared => Value.again_other (fun _ _ _ => by simp) spared
  | _,.list _,_,_,spared => Value.again_other (fun _ _ _ => by simp) spared

theorem mergeEntries_again : ∀ mine theirs : List (WString × Value), (Value.dictionary mine).Sorted → SortedEntries theirs →
    (∀ entry ∈ theirs, Value.Spared (ValueMap.find entry.1 mine) entry.2) → ∀ entry ∈ theirs,
      Value.merge Value.emptied (some (Value.merge id (ValueMap.find entry.1 mine) entry.2)) entry.2 =
        Value.merge id (ValueMap.find entry.1 mine) entry.2
  | _,[],_,_,_,entry,listed => by cases listed
  | mine,(key,value)::theirs,ordered,sorted,spared,entry,listed => by
    rcases List.mem_cons.mp listed with rfl | listed
    · exact Value.merge_again (ValueMap.find key mine) value (sorted_of_find ordered.2) sorted.1 (spared _ List.mem_cons_self)
    · exact mergeEntries_again mine theirs ordered sorted.2 (fun other member => spared other (List.mem_cons_of_mem _ member))
        entry listed

end

/-! ### What a copy is made of -/

variable {heap mid later : ValueHeap} {this copy : Nat}

/-- `copy` is the root of a tree of new nodes, and all other nodes are as before. -/
structure Made (heap later : ValueHeap) (copy : Nat) : Prop where
  confined : heap.Confined Cell.refs ∅ later
  new : copy ∈ heap.Since later
  tree : later.Tree Cell.refs copy
  ordered : DictionaryValue.Ordered heap → DictionaryValue.Ordered later

theorem ordered_alloc {cell : Cell} (leaf : cell.refs = []) (maps : DictionaryValue.Ordered heap) :
    DictionaryValue.Ordered (heap.alloc cell).2 := by
  intro node dictionary read
  by_cases here : node = heap.next
  · subst here
    cases Heap.alloc_cell_self.symm.trans read
    cases List.map_eq_nil_iff.mp leaf
    exact .nil
  · exact maps node dictionary ((Heap.alloc_cell_ne here).symm.trans read)

theorem made_alloc {cell : Cell} (leaf : cell.refs = []) : Made heap (heap.alloc cell).2 heap.next :=
  ⟨Heap.confined_alloc .empty (by simp [leaf]),⟨le_rfl,Nat.lt_succ_self _⟩,DictionaryValue.leaf_tree Heap.alloc_cell_self leaf,
    ordered_alloc leaf⟩

theorem Made.nodes (made : Made heap later copy) : later.nodes copy ⊆ heap.Since later := by
  intro node reaches
  have closed := made.confined.closed
  rw [Set.empty_union] at closed
  exact closed.reaches made.new reaches

/-- The items copied so far, each a tree of its own. -/
structure Items (heap later : ValueHeap) (copies : List Nat) : Prop where
  filling : Filling heap later (.list copies)
  trees : ∀ copy ∈ copies, later.Tree Cell.refs copy
  apart : copies.Pairwise fun first second => Disjoint (later.nodes first) (later.nodes second)
  ordered : DictionaryValue.Ordered heap → DictionaryValue.Ordered later

theorem Items.nodes {copies : List Nat} (items : Items heap later copies) (member : copy ∈ copies) :
    later.nodes copy ⊆ Set.Ico (heap.next + 1) later.next :=
  fun _ reaches => items.filling.closed.reaches (items.filling.inside copy member) reaches

theorem Items.append {copies : List Nat} (items : Items heap mid copies) (made : Made mid later copy) :
    Items heap (later.write heap.next (.list (copies ++ [copy]))) (copies ++ [copy]) := by
  have grown := items.filling.grow made.confined
  have new : copy ∈ Set.Ico (heap.next + 1) later.next := ⟨items.filling.grows.trans_le made.new.1,made.new.2⟩
  have inside : ∀ child ∈ copies ++ [copy], child ∈ Set.Ico (heap.next + 1) later.next := by
    intro child ref
    rcases List.mem_append.mp ref with ref | ref
    · exact grown.inside child ref
    · cases List.mem_singleton.mp ref
      exact new
  -- neither the copy nor the write of the list touches the items before
  have kept {child : Nat} (member : child ∈ copies) : mid.Unchanged later child :=
    fun node reaches => made.confined.kept node (items.nodes member reaches).2 (Set.notMem_empty _)
  have below {child : Nat} (member : child ∈ copies ++ [copy]) : later.Tree Cell.refs child := by
    rcases List.mem_append.mp member with member | member
    · exact (items.trees child member).agree (kept member)
    · cases List.mem_singleton.mp member
      exact made.tree
  have written {child : Nat} (member : child ∈ copies ++ [copy]) :
      later.Unchanged (later.write heap.next (.list (copies ++ [copy]))) child :=
    fun node reaches => Heap.write_cell_ne (Nat.ne_of_gt (grown.closed.reaches (inside child member) reaches).1)
  refine ⟨grown.write inside,fun child member => (below member).agree (written member),?_,?_⟩
  · have before : (copies ++ [copy]).Pairwise fun first second => Disjoint (later.nodes first) (later.nodes second) := by
      refine List.pairwise_append.mpr ⟨items.apart.imp_of_mem ?_,List.pairwise_singleton _ _,?_⟩
      · intro first second one two disjoint
        rwa [DictionaryValue.unchanged_nodes (items.trees first one) (kept one),
          DictionaryValue.unchanged_nodes (items.trees second two) (kept two)]
      · intro first one second two
        cases List.mem_singleton.mp two
        rw [DictionaryValue.unchanged_nodes (items.trees first one) (kept one)]
        refine Set.disjoint_left.mpr ?_
        intro node old reaches
        exact Nat.not_lt.mpr (made.nodes reaches).1 (items.nodes one old).2
    refine before.imp_of_mem ?_
    intro first second one two disjoint
    rwa [DictionaryValue.unchanged_nodes (below one) (written one),DictionaryValue.unchanged_nodes (below two) (written two)]
  · intro maps node dictionary read
    by_cases here : node = heap.next
    · subst here
      rw [Heap.write_cell_self,grown.read] at read
      cases read
    · exact made.ordered (items.ordered maps) node dictionary ((Heap.write_cell_ne here).symm.trans read)

theorem Items.made {copies : List Nat} (items : Items heap later copies) : Made heap later heap.next := by
  refine ⟨items.filling.confined,⟨le_rfl,items.filling.grows⟩,.node items.filling.read items.trees items.apart ?_,items.ordered⟩
  intro child member reaches
  exact Nat.lt_irrefl _ (items.nodes member reaches).1

theorem items_nil : Items heap (heap.alloc (.list [])).2 [] :=
  ⟨filling_alloc rfl,by simp,.nil,ordered_alloc rfl⟩

theorem CopyItems_items {deepCopy : ValueHeap → Nat → Option (Nat × ValueHeap)}
    (copied : ∀ heap this, ∀ made ∈ deepCopy heap this, Made heap made.2 made.1) {list_ copies : List Nat}
    (items : Items heap mid copies) (outcome : ListValue.CopyItems deepCopy heap.next mid list_ = some later) :
    ∃ copies, Items heap later copies := by
  induction list_ generalizing mid copies with
  | nil =>
    cases outcome
    exact ⟨copies,items⟩
  | cons item list_ ih =>
    obtain ⟨⟨copy,further⟩,here,outcome⟩ := Option.bind_eq_some_iff.mp outcome
    obtain ⟨appended,append,outcome⟩ := Option.bind_eq_some_iff.mp outcome
    have made := copied mid item _ here
    rw [ListValue.Append,ListValue.list_,(items.filling.grow made.confined).read] at append
    cases append
    exact ih (items.append made) outcome

/-- The buffer comes first, then the node that names it. -/
theorem made_binary {bytes : List UInt8} (size : Nat) :
    Made heap ((heap.alloc (.buffer bytes)).2.alloc (.binary heap.next size)).2 (heap.next + 1) := by
  let buffered := (heap.alloc (.buffer bytes)).2
  have first : Made heap buffered heap.next := made_alloc rfl
  have loaded : (buffered.alloc (.binary heap.next size)).2.cell heap.next = some (.buffer bytes) :=
    (Heap.alloc_cell_ne (Nat.lt_succ_self _).ne).trans Heap.alloc_cell_self
  have read : (buffered.alloc (.binary heap.next size)).2.cell (heap.next + 1) = some (.binary heap.next size) :=
    Heap.alloc_cell_self
  refine ⟨first.confined.alloc ?_,⟨Nat.le_succ _,Nat.lt_succ_self _⟩,.node read ?_ (List.pairwise_singleton _ _) ?_,?_⟩
  · intro target ref
    cases List.mem_singleton.mp ref
    exact .inr ⟨le_rfl,Nat.lt_succ_self _⟩
  · intro child ref
    cases List.mem_singleton.mp ref
    exact DictionaryValue.leaf_tree loaded rfl
  · intro child ref reaches
    cases List.mem_singleton.mp ref
    exact Nat.succ_ne_self _ (DictionaryValue.leaf_nodes loaded rfl reaches)
  · intro maps node dictionary found
    by_cases here : node = heap.next + 1
    · subst here
      cases read.symm.trans found
    · exact first.ordered maps node dictionary ((Heap.alloc_cell_ne here).symm.trans found)

/-- Whatever `DeepCopy` returns is a tree of new nodes. -/
theorem DeepCopy_made (fuel : Nat) (heap : ValueHeap) (this : Nat) :
    ∀ made ∈ DeepCopy fuel heap this, Made heap made.2 made.1 := by
  induction fuel generalizing heap this with
  | zero => exact fun _ none => by cases none
  | succ fuel ih =>
    rintro ⟨copy,later⟩ copies
    rw [DeepCopy] at copies
    split at copies
    · cases copies
      exact made_alloc rfl
    · rename_i value _
      cases value <;> cases copies <;> exact made_alloc rfl
    · cases copies
      exact made_alloc rfl
    · rw [BinaryValue.DeepCopy,BinaryValue.CreateWithCopiedBuffer] at copies
      split at copies
      · split at copies
        · cases copies
          exact made_binary _
        · cases copies
      · cases copies
    · cases copies
      exact made_alloc rfl
    · obtain ⟨filled,outcome,same⟩ := Option.map_eq_some_iff.mp copies
      cases same
      obtain ⟨copies,items⟩ := CopyItems_items ih items_nil outcome
      exact items.made
    · cases copies

/-! ### `MergeDictionary` -/

namespace DictionaryValue

/-- One key of `dictionary`: if both sides hold dictionaries they are merged, otherwise
a copy is hooked up. -/
def MergeKey (merge : ValueHeap → Nat → Nat → Option ValueHeap) (deepCopy : ValueHeap → Nat → Option (Nat × ValueHeap))
    (this dictionary : Nat) (heap : ValueHeap) (key : WString) : Option ValueHeap :=
  match GetWithoutPathExpansion heap dictionary key with
  | none => some heap
  | some merge_value =>
    match if (dictionary_ heap merge_value).isSome then GetDictionaryWithoutPathExpansion heap this key else none with
    | some sub_dict => merge heap sub_dict merge_value
    | none => (deepCopy heap merge_value).bind fun (copy,copied) => SetWithoutPathExpansion copied this key (some copy)

def MergeKeys (merge : ValueHeap → Nat → Nat → Option ValueHeap) (deepCopy : ValueHeap → Nat → Option (Nat × ValueHeap))
    (this dictionary : Nat) : ValueHeap → List WString → Option ValueHeap
  | heap,[] => some heap
  | heap,key::keys => (MergeKey merge deepCopy this dictionary heap key).bind fun merged =>
      MergeKeys merge deepCopy this dictionary merged keys

/-- `MergeDictionary`, as deep as the fuel. -/
def MergeDictionary : Nat → ValueHeap → Nat → Nat → Option ValueHeap
  | 0,_,_,_ => none
  | fuel + 1,heap,this,dictionary => (dictionary_ heap dictionary).bind fun entries =>
      MergeKeys (MergeDictionary fuel) (Logic.DeepCopy fuel) this dictionary heap (entries.map Prod.fst)

variable {dictionary child value : Nat} {key : WString} {mine theirs entries merged : List (WString × Value)}

/-- The children of a dictionary, key by key. -/
theorem denotes_children (maps : Ordered heap) (denotes : heap.Denotes this (.dictionary entries)) :
    ∃ map, heap.cell this = some (.dictionary map) ∧ map.map Prod.fst = entries.map Prod.fst ∧ ValueMap.Ordered entries ∧
      ∀ key, Option.Rel heap.Denotes (map.find key) (ValueMap.find key entries) := by
  cases denotes with
  | @dictionary _ map _ read keys children =>
    refine ⟨map,read,keys,?_,ValueMap.rel_find keys children⟩
    rw [ValueMap.Ordered,← keys]
    exact maps this map read

theorem denotes_of_children {map : ValueMap Nat} (read : heap.cell this = some (.dictionary map)) (ordered : map.Ordered)
    (sorted : ValueMap.Ordered entries) (children : ∀ key, Option.Rel heap.Denotes (map.find key) (ValueMap.find key entries)) :
    heap.Denotes this (.dictionary entries) :=
  have related := ValueMap.rel_of_find ordered sorted children
  .dictionary read related.1 related.2

/-- `this` is the tree of what was merged, and nothing outside its nodes has changed. -/
structure MergedTo (heap later : ValueHeap) (this : Nat) (merged : List (WString × Value)) : Prop where
  confined : Heap.Confined Cell.refs (heap.nodes this) heap later
  tree : later.Tree Cell.refs this
  ordered : Ordered later
  denotes : later.Denotes this (.dictionary merged)

theorem MergedTo.trans (first : MergedTo heap mid this mine) (second : MergedTo mid later this merged) :
    MergedTo heap later this merged := by
  refine ⟨first.confined.trans (second.confined.mono first.confined.closed ?_),second.tree,second.ordered,second.denotes⟩
  exact fun _ reaches => first.confined.closed.reaches (.inl ValueHeap.mem_nodes) reaches

/-- A copy is hooked up. -/
theorem hooked (maps : Ordered heap) (tree : heap.Tree Cell.refs this) (denotes : heap.Denotes this (.dictionary mine))
    {source : Value} (given : heap.Denotes value source) (key : WString) :
    ∃ copy copied later, (∀ fuel, source.depth ≤ fuel → Logic.DeepCopy (fuel + 1) heap value = some (copy,copied)) ∧
      SetWithoutPathExpansion copied this key (some copy) = some later ∧
      MergedTo heap later this (ValueMap.assign key source.emptied mine) := by
  obtain ⟨copy,copied,copies,spec⟩ := DeepCopy_spec given ⟨le_rfl,fun _ _ => rfl⟩
  have made : Made heap copied copy := DeepCopy_made _ _ _ (copy,copied) (copies source.depth le_rfl)
  have still : heap.Unchanged copied this := fun node reaches =>
    made.confined.kept node (tree.closed.bounded node reaches) (Set.notMem_empty _)
  obtain ⟨map,read,keys,sorted,children⟩ := denotes_children maps denotes
  have root : dictionary_ copied this = some map := by rw [dictionary_,still this ValueHeap.mem_nodes,read]
  have apart : Disjoint (copied.nodes copy) (copied.nodes this) := by
    rw [unchanged_nodes tree still]
    refine Set.disjoint_left.mpr ?_
    intro node new reaches
    exact Nat.not_lt.mpr (made.nodes new).1 (tree.closed.bounded node reaches)
  obtain ⟨later,outcome,law,replaced⟩ := SetWithoutPathExpansion_law (made.ordered maps) (tree.agree still)
    (by rw [root]; rfl) key made.tree apart
  rw [root,Option.getD_some] at replaced
  have first : Heap.Confined Cell.refs (heap.nodes this) heap copied := made.confined.mono tree.closed (Set.empty_subset _)
  have second := SetWithoutPathExpansion_confined first.closed (.inl ValueHeap.mem_nodes)
    (fun node same => Option.some.inj same ▸ .inr made.new) outcome
  refine ⟨copy,copied,later,copies,outcome,first.trans second,law.tree,law.ordered,?_⟩
  refine denotes_of_children replaced.read ((maps this map read).assign copy) (sorted.assign _) ?_
  intro other
  rw [ValueMap.find_assign,ValueMap.find_assign]
  split
  · exact .some (spec.denotes.agree spec.denotes.closed law.whole ValueHeap.mem_nodes)
  · rename_i differs
    refine ValueMap.rel_imp (children other) ?_
    intro sibling found value denotes
    have before : GetWithoutPathExpansion heap this other = some sibling := by
      rw [GetWithoutPathExpansion,dictionary_,read]
      exact found
    have beside : GetWithoutPathExpansion copied this other = some sibling :=
      (GetWithoutPathExpansion_congr (still this ValueHeap.mem_nodes) other).trans before
    have below : heap.Unchanged copied sibling := fun node reaches => still node (child_nodes before reaches)
    have kept := unchanged_trans (child_tree tree before) below (replaced.sibling (tree.agree still) beside differs)
    exact denotes.agree denotes.closed kept ValueHeap.mem_nodes

/-- The dictionary under a key is merged in its place. -/
theorem lifted (maps : Ordered heap) (tree : heap.Tree Cell.refs this) (denotes : heap.Denotes this (.dictionary mine))
    (found : GetWithoutPathExpansion heap this key = some child) (law : MergedTo heap later child merged) :
    MergedTo heap later this (ValueMap.assign key (.dictionary merged) mine) := by
  obtain ⟨map,read,keys,sorted,children⟩ := denotes_children maps denotes
  have gets (other : WString) : GetWithoutPathExpansion heap this other = map.find other := by
    rw [GetWithoutPathExpansion,dictionary_,read]
    rfl
  obtain ⟨cell,stored,ref⟩ := child_edge found
  have confined : Heap.Confined Cell.refs (heap.nodes child ∪ ∅) heap later := by
    rw [Set.union_empty]
    exact law.confined
  have same : later.cell this = heap.cell this := law.confined.kept this tree.bounded (child_outside tree found)
  refine ⟨law.confined.mono tree.closed (child_nodes found),tree.lift stored ref law.tree (Set.empty_disjoint _) confined,
    law.ordered,denotes_of_children (same.trans read) (maps this map read) (sorted.assign _) ?_⟩
  intro other
  rw [ValueMap.find_assign]
  split
  · rename_i here
    subst here
    rw [← gets,found]
    exact .some law.denotes
  · rename_i differs
    refine ValueMap.rel_imp (children other) ?_
    intro sibling entry value denotes
    have beside := (gets other).trans entry
    have kept := law.confined.frame (child_tree tree beside).closed (children_apart tree found beside (Ne.symm differs))
    exact denotes.agree denotes.closed kept ValueHeap.mem_nodes

theorem dictionary_iff {node : Nat} {source : Value} (denotes : heap.Denotes node source) :
    (dictionary_ heap node).isSome ↔ ∃ entries, source = .dictionary entries := by
  cases denotes with
  | dictionary read =>
    rw [dictionary_,read]
    exact ⟨fun _ => ⟨_,rfl⟩,fun _ => rfl⟩
  | null read | fundamental read | string read | binary read | list read =>
    rw [dictionary_,read]
    constructor
    · intro some
      cases some
    · rintro ⟨_,same⟩
      cases same

/-- What is under a key of `this`, as a node and as a tree. -/
theorem GetDictionary_iff (maps : Ordered heap) (denotes : heap.Denotes this (.dictionary mine)) (key : WString) :
    (∀ left, ValueMap.find key mine = some (.dictionary left) →
      ∃ sub_dict, GetDictionaryWithoutPathExpansion heap this key = some sub_dict ∧ heap.Denotes sub_dict (.dictionary left)) ∧
    ((∀ left, ValueMap.find key mine ≠ some (.dictionary left)) → GetDictionaryWithoutPathExpansion heap this key = none) := by
  obtain ⟨map,read,-,-,children⟩ := denotes_children maps denotes
  have here := children key
  have gets : GetWithoutPathExpansion heap this key = map.find key := by
    rw [GetWithoutPathExpansion,dictionary_,read]
    rfl
  rw [GetDictionaryWithoutPathExpansion,gets]
  generalize map.find key = node at here
  generalize ValueMap.find key mine = held at here
  cases here with
  | none => exact ⟨fun _ same => (by cases same),fun _ => rfl⟩
  | @some node held denotes =>
    constructor
    · intro left same
      cases same
      exact ⟨node,by rw [Option.filter_some,(dictionary_iff denotes).mpr ⟨left,rfl⟩]; rfl,denotes⟩
    · intro other
      rw [Option.filter_some,if_neg]
      intro some
      obtain ⟨left,rfl⟩ := (dictionary_iff denotes).mp some
      exact other left rfl

theorem MergeKey_copied (maps : Ordered heap) (tree : heap.Tree Cell.refs this) (denotes : heap.Denotes this (.dictionary mine))
    {source : Value} (found : GetWithoutPathExpansion heap dictionary key = some value) (given : heap.Denotes value source)
    (other : ∀ left right, ValueMap.find key mine = some (.dictionary left) → source ≠ .dictionary right) :
    ∃ enough later, (∀ fuel, enough ≤ fuel →
        MergeKey (MergeDictionary fuel) (Logic.DeepCopy fuel) this dictionary heap key = some later) ∧
      MergedTo heap later this (ValueMap.assign key (Value.merge Value.emptied (ValueMap.find key mine) source) mine) := by
  obtain ⟨copy,copied,later,copies,set,law⟩ := hooked maps tree denotes given key
  refine ⟨source.depth + 1,later,?_,by rwa [Value.merge_other other]⟩
  intro fuel fits
  obtain ⟨fuel,rfl⟩ : ∃ n, fuel = n + 1 := Nat.exists_eq_succ_of_ne_zero (Nat.ne_zero_of_lt fits)
  have apart : (if (dictionary_ heap value).isSome then GetDictionaryWithoutPathExpansion heap this key else none) = none := by
    split
    · rename_i some
      obtain ⟨right,rfl⟩ := (dictionary_iff given).mp some
      exact (GetDictionary_iff maps denotes key).2 fun left same => other left right same rfl
    · rfl
  rw [MergeKey,found]
  dsimp only
  rw [apart]
  dsimp only
  rw [copies fuel (Nat.le_of_succ_le_succ fits)]
  exact set

mutual

theorem MergeKey_spec : ∀ (source : Value) (heap : ValueHeap) (this dictionary value : Nat) (key : WString)
    (mine : List (WString × Value)), Ordered heap → heap.Tree Cell.refs this → heap.Denotes this (.dictionary mine) →
    GetWithoutPathExpansion heap dictionary key = some value → heap.Denotes value source →
    Disjoint (heap.nodes value) (heap.nodes this) → ∃ enough later, (∀ fuel, enough ≤ fuel →
        MergeKey (MergeDictionary fuel) (Logic.DeepCopy fuel) this dictionary heap key = some later) ∧
      MergedTo heap later this (ValueMap.assign key (Value.merge Value.emptied (ValueMap.find key mine) source) mine)
  | .dictionary right,heap,this,dictionary,value,key,mine,maps,tree,denotes,found,given,apart => by
    by_cases both : ∃ left, ValueMap.find key mine = some (.dictionary left)
    · obtain ⟨left,held⟩ := both
      obtain ⟨sub_dict,below,sub⟩ := (GetDictionary_iff maps denotes key).1 left held
      have here := (Option.filter_eq_some_iff.mp below).1
      obtain ⟨map,read,keys,sorted,children⟩ := denotes_children maps given
      have entries : ∀ entry ∈ right, ∃ child, GetWithoutPathExpansion heap value entry.1 = some child ∧
          heap.Denotes child entry.2 := by
        intro entry listed
        have related := children entry.1
        rw [sorted.find_mem listed] at related
        generalize node : map.find entry.1 = child at related
        cases related with
        | @some child _ denotes =>
          refine ⟨child,?_,denotes⟩
          rw [GetWithoutPathExpansion,dictionary_,read]
          exact node
      obtain ⟨enough,later,runs,law⟩ := MergeKeys_spec right heap sub_dict value left maps (child_tree tree here) sub
        given.closed entries (apart.mono_right (child_nodes here))
      refine ⟨enough + 1,later,?_,?_⟩
      · intro fuel fits
        obtain ⟨fuel,rfl⟩ : ∃ n, fuel = n + 1 := Nat.exists_eq_succ_of_ne_zero (Nat.ne_zero_of_lt fits)
        have stored : dictionary_ heap value = some map := by rw [dictionary_,read]
        rw [MergeKey,found]
        dsimp only
        rw [stored,Option.isSome_some,if_pos rfl,below]
        dsimp only
        rw [MergeDictionary,stored,Option.bind_some,keys]
        exact runs fuel (Nat.le_of_succ_le_succ fits)
      · rw [held,Value.merge]
        exact lifted maps tree denotes here law
    · exact MergeKey_copied maps tree denotes found given fun left _ same => absurd ⟨left,same⟩ both
  | .null,_,_,_,_,_,_,maps,tree,denotes,found,given,_ => MergeKey_copied maps tree denotes found given fun _ _ _ => by simp
  | .fundamental _,_,_,_,_,_,_,maps,tree,denotes,found,given,_ =>
    MergeKey_copied maps tree denotes found given fun _ _ _ => by simp
  | .string _,_,_,_,_,_,_,maps,tree,denotes,found,given,_ => MergeKey_copied maps tree denotes found given fun _ _ _ => by simp
  | .binary _,_,_,_,_,_,_,maps,tree,denotes,found,given,_ => MergeKey_copied maps tree denotes found given fun _ _ _ => by simp
  | .list _,_,_,_,_,_,_,maps,tree,denotes,found,given,_ => MergeKey_copied maps tree denotes found given fun _ _ _ => by simp

/-- The loop over the keys of `dictionary`, none of whose nodes are nodes of `this`. -/
theorem MergeKeys_spec : ∀ (theirs : List (WString × Value)) (heap : ValueHeap) (this dictionary : Nat)
    (mine : List (WString × Value)), Ordered heap → heap.Tree Cell.refs this → heap.Denotes this (.dictionary mine) →
    heap.Closed Cell.refs (heap.nodes dictionary) →
    (∀ entry ∈ theirs, ∃ child, GetWithoutPathExpansion heap dictionary entry.1 = some child ∧ heap.Denotes child entry.2) →
    Disjoint (heap.nodes dictionary) (heap.nodes this) → ∃ enough later, (∀ fuel, enough ≤ fuel →
        MergeKeys (MergeDictionary fuel) (Logic.DeepCopy fuel) this dictionary heap (theirs.map Prod.fst) = some later) ∧
      MergedTo heap later this (mergeEntries Value.emptied mine theirs)
  | [],heap,this,dictionary,mine,maps,tree,denotes,_,_,_ => by
    refine ⟨0,heap,fun _ _ => rfl,?_⟩
    rw [mergeEntries]
    exact ⟨.refl tree.closed,tree,maps,denotes⟩
  | (key,source)::theirs,heap,this,dictionary,mine,maps,tree,denotes,closed,entries,apart => by
    obtain ⟨child,found,given⟩ := entries _ List.mem_cons_self
    obtain ⟨enough,mid,runs,law⟩ := MergeKey_spec source heap this dictionary child key mine maps tree denotes found given
      (apart.mono_left (child_nodes found))
    have kept : heap.Unchanged mid dictionary := law.confined.frame closed apart.symm
    have same : mid.nodes dictionary = heap.nodes dictionary := Set.ext fun _ => closed.reach_agree .refl kept
    have rest : ∀ entry ∈ theirs, ∃ child, GetWithoutPathExpansion mid dictionary entry.1 = some child ∧
        mid.Denotes child entry.2 := by
      intro entry listed
      obtain ⟨child,found,given⟩ := entries entry (List.mem_cons_of_mem _ listed)
      refine ⟨child,(GetWithoutPathExpansion_congr (kept dictionary ValueHeap.mem_nodes) entry.1).trans found,?_⟩
      exact given.agree given.closed (fun node reaches => kept node (child_nodes found reaches)) ValueHeap.mem_nodes
    have still : mid.Closed Cell.refs (mid.nodes dictionary) := by
      rw [same]
      exact closed.agree law.confined.grows kept
    have away : Disjoint (mid.nodes dictionary) (mid.nodes this) := by
      rw [same]
      refine (closed.apart apart.symm mid).symm.mono_right ?_
      exact fun _ reaches => law.confined.closed.reaches (.inl ValueHeap.mem_nodes) reaches
    obtain ⟨more,later,further,laws⟩ := MergeKeys_spec theirs mid this dictionary _ law.ordered law.tree law.denotes still rest away
    refine ⟨max enough more,later,?_,?_⟩
    · intro fuel fits
      rw [List.map_cons,MergeKeys,runs fuel ((le_max_left ..).trans fits)]
      exact further fuel ((le_max_right ..).trans fits)
    · rw [mergeEntries]
      exact law.trans laws

end

/-- All runs with enough fuel return this. -/
def Merges (heap : ValueHeap) (this dictionary : Nat) (later : ValueHeap) : Prop :=
  ∃ fuel, ∀ more, fuel ≤ more → MergeDictionary more heap this dictionary = some later

theorem Merges.unique {other : ValueHeap} (merges : Merges heap this dictionary later)
    (merged : Merges heap this dictionary other) : later = other := by
  obtain ⟨fuel,runs⟩ := merges
  obtain ⟨more,again⟩ := merged
  exact Option.some.inj ((runs (max fuel more) (le_max_left ..)).symm.trans (again (max fuel more) (le_max_right ..)))

theorem sorted_of_denotes (maps : Ordered heap) {node : Nat} {source : Value} (denotes : heap.Denotes node source) :
    source.Sorted := by
  induction denotes using ValueHeap.Denotes.rule with
  | null | fundamental | string | binary => trivial
  | @dictionary node map entries read keys children sorted =>
    refine ⟨keys ▸ maps node map read,SortedEntries.of_values ?_⟩
    intro value listed
    obtain ⟨i,bound,rfl⟩ := List.getElem_of_mem listed
    exact sorted i (children.length_eq ▸ bound) bound
  | @list node list_ items read children sorted =>
    refine SortedItems.of_values ?_
    intro value listed
    obtain ⟨i,bound,rfl⟩ := List.getElem_of_mem listed
    exact sorted i (children.length_eq ▸ bound) bound

section Law
variable (maps : Ordered heap) (tree : heap.Tree Cell.refs this) (denotes : heap.Denotes this (.dictionary mine))
  (given : heap.Denotes dictionary (.dictionary theirs)) (apart : Disjoint (heap.nodes dictionary) (heap.nodes this))
include maps tree denotes given apart

/-- What the merge of any two dictionaries is; the right one stays as it is and apart. -/
theorem merges : ∃ later, Merges heap this dictionary later ∧
    MergedTo heap later this (mergeEntries Value.emptied mine theirs) ∧ later.Denotes dictionary (.dictionary theirs) ∧
    Disjoint (later.nodes dictionary) (later.nodes this) := by
  obtain ⟨map,read,keys,sorted,children⟩ := denotes_children maps given
  have stored : dictionary_ heap dictionary = some map := by rw [dictionary_,read]
  have entries : ∀ entry ∈ theirs, ∃ child, GetWithoutPathExpansion heap dictionary entry.1 = some child ∧
      heap.Denotes child entry.2 := by
    intro entry listed
    have related := children entry.1
    rw [sorted.find_mem listed] at related
    generalize node : map.find entry.1 = child at related
    cases related with
    | @some child _ denotes =>
      refine ⟨child,?_,denotes⟩
      rw [GetWithoutPathExpansion,stored]
      exact node
  obtain ⟨enough,later,runs,law⟩ := MergeKeys_spec theirs heap this dictionary mine maps tree denotes given.closed entries apart
  have kept := law.confined.frame given.closed apart.symm
  have same : later.nodes dictionary = heap.nodes dictionary := Set.ext fun _ => given.closed.reach_agree .refl kept
  refine ⟨later,⟨enough + 1,?_⟩,law,given.agree given.closed kept ValueHeap.mem_nodes,?_⟩
  · intro more fits
    obtain ⟨fuel,rfl⟩ : ∃ n, more = n + 1 := Nat.exists_eq_succ_of_ne_zero (Nat.ne_zero_of_lt fits)
    rw [MergeDictionary,stored,Option.bind_some,keys]
    exact runs fuel (Nat.le_of_succ_le_succ fits)
  · rw [same]
    refine (given.closed.apart apart.symm later).symm.mono_right ?_
    exact fun _ reaches => law.confined.closed.reaches (.inl ValueHeap.mem_nodes) reaches

end Law

/-- After the merge `this` is the deep merge, the other dictionary is as it was, and the
same merge again changes nothing. -/
def RightBiased (heap : ValueHeap) (this dictionary : Nat) (mine theirs : List (WString × Value)) : Prop :=
  ∃ later, Merges heap this dictionary later ∧ later.Denotes this (.dictionary (deepMerge mine theirs)) ∧
    later.Denotes dictionary (.dictionary theirs) ∧
    ∃ final, Merges later this dictionary final ∧ final.Denotes this (.dictionary (deepMerge mine theirs))

theorem rightBiased_iff (maps : Ordered heap) (tree : heap.Tree Cell.refs this)
    (denotes : heap.Denotes this (.dictionary mine)) (given : heap.Denotes dictionary (.dictionary theirs))
    (apart : Disjoint (heap.nodes dictionary) (heap.nodes this)) :
    RightBiased heap this dictionary mine theirs ↔ SparedEntries mine theirs := by
  obtain ⟨later,runs,law,still,away⟩ := merges maps tree denotes given apart
  have ordered := sorted_of_denotes maps denotes
  have sorted := sorted_of_denotes maps given
  rw [← merged_iff ordered sorted]
  constructor
  · rintro ⟨other,again,merged,-⟩
    cases runs.unique again
    exact Value.dictionary.inj (law.denotes.unique merged)
  · intro same
    have spared := (merged_iff ordered sorted).mp same
    obtain ⟨final,further,twice,-,-⟩ := merges law.ordered law.tree law.denotes still away
    have each := mergeEntries_again mine theirs ordered sorted.2 (SparedEntries.iff_forall.mp spared)
    refine ⟨later,runs,same ▸ law.denotes,still,final,further,?_⟩
    have denotes := twice.denotes
    rw [same,mergeEntries_same ordered.1 sorted.1 each] at denotes
    exact denotes

/-- The integer 1, a dictionary of it, a dictionary of that, and an empty dictionary. -/
def nested : ValueHeap :=
  ((((Heap.empty.alloc (.fundamental (.integer 1))).2.alloc (.dictionary [([120],0)])).2.alloc (.dictionary [([100],1)])).2.alloc
    (.dictionary [])).2

theorem nested_ordered : Ordered nested := by
  intro node map read
  obtain _ | _ | _ | _ | node := node
  · cases read
  · cases read
    exact List.pairwise_singleton _ _
  · cases read
    exact List.pairwise_singleton _ _
  · cases read
    exact .nil
  · cases read

theorem nested_apart {root : Nat} (other : root ≠ 3) : Disjoint (nested.nodes root) (nested.nodes 3) := by
  have empty : nested.cell 3 = some (.dictionary []) := rfl
  refine Set.disjoint_left.mpr ?_
  intro node reaches inside
  cases leaf_nodes empty rfl inside
  rcases Relation.ReflTransGen.cases_tail reaches with same | ⟨node,_,cell,read,ref⟩
  · exact other same.symm
  obtain _ | _ | _ | _ | node := node
  · cases read
    cases ref
  · cases read
    cases List.mem_singleton.mp ref
  · cases read
    cases List.mem_singleton.mp ref
  · cases read
    cases ref
  · cases read

theorem nested_inner : nested.Denotes 1 (.dictionary [([120],.fundamental (.integer 1))]) :=
  have read : nested.cell 1 = some (.dictionary [([120],0)]) := rfl
  .dictionary read rfl (.cons (.fundamental rfl) .nil)

theorem nested_outer : nested.Denotes 2 (.dictionary [([100],.dictionary [([120],.fundamental (.integer 1))])]) :=
  have read : nested.cell 2 = some (.dictionary [([100],1)]) := rfl
  .dictionary read rfl (.cons nested_inner .nil)

theorem nested_empty : nested.Denotes 3 (.dictionary []) :=
  have read : nested.cell 3 = some (.dictionary []) := rfl
  .dictionary read rfl .nil

/-- Scalars are merged into the empty dictionary. -/
theorem scalars_merged : RightBiased nested 3 1 [] [([120],.fundamental (.integer 1))] :=
  (rightBiased_iff nested_ordered (empty_tree rfl) nested_empty nested_inner (nested_apart (by decide))).mpr
    ⟨trivial,trivial⟩

/-- A dictionary is hooked up without its entries. -/
theorem dictionary_lost : ¬∀ (heap : ValueHeap) (this dictionary : Nat) (mine theirs : List (WString × Value)), Ordered heap →
    heap.Tree Cell.refs this → heap.Denotes this (.dictionary mine) → heap.Denotes dictionary (.dictionary theirs) →
    Disjoint (heap.nodes dictionary) (heap.nodes this) → RightBiased heap this dictionary mine theirs := by
  intro law
  obtain ⟨later,runs,merged,-⟩ := law nested 3 2 _ _ nested_ordered (empty_tree rfl) nested_empty nested_outer (nested_apart (by decide))
  obtain ⟨other,again,spec,-⟩ := merges nested_ordered (empty_tree rfl) nested_empty nested_outer (nested_apart (by decide))
  cases runs.unique again
  have same := Value.dictionary.inj (spec.denotes.unique merged)
  cases same

end DictionaryValue

end Migfm.Logic
