import Migfm.Logic.DeepCopy

/-! `Equals` of the classes of base_values.cc against the equality of the trees,
and the operations of a list that rest on it. -/
namespace Migfm.Logic
open Library

/-- `true` where the value was appended. -/
def ListValue.AppendIfNotPresent (heap : ValueHeap) (this fuel : Nat) : Option Nat → Option (Bool × ValueHeap)
  | none => some (false,heap)
  | some in_value =>
    (list_ heap this).bind fun list_ =>
      (FindEqual (fun item => Logic.Equals heap fuel item in_value) list_ 0).map fun
        | some _ => (false,heap)
        | none => (true,heap.write this (.list (list_ ++ [in_value])))

namespace Value

/-- Two trees of the same structure and content; reals are compared as numbers. -/
inductive Same : Value → Value → Prop
  | null : Same .null .null
  | boolean (value : Bool) : Same (.fundamental (.boolean value)) (.fundamental (.boolean value))
  | integer (value : Int32) : Same (.fundamental (.integer value)) (.fundamental (.integer value))
  | bigInteger (value : Int64) : Same (.fundamental (.bigInteger value)) (.fundamental (.bigInteger value))
  | real {value other : Float} (same : (value == other) = true) :
      Same (.fundamental (.real value)) (.fundamental (.real other))
  | string (value : List UInt8) : Same (.string value) (.string value)
  | binary (bytes : List UInt8) : Same (.binary bytes) (.binary bytes)
  | dictionary {entries others : List (WString × Value)}
      (keys : ∀ key, key ∈ entries.map Prod.fst ↔ key ∈ others.map Prod.fst)
      (values : ∀ key value other, (key,value) ∈ entries → (key,other) ∈ others → Same value other) :
      Same (.dictionary entries) (.dictionary others)
  | list {items others : List Value} (length : items.length = others.length)
      (each : ∀ i (left : i < items.length) (right : i < others.length), Same items[i] others[i]) :
      Same (.list items) (.list others)

mutual

/-- No big integer stands outside the dictionaries. -/
def Small : Value → Prop
  | .fundamental (.bigInteger _) => False
  | .list items => SmallItems items
  | _ => True

def SmallItems : List Value → Prop
  | [] => True
  | value::items => value.Small ∧ SmallItems items

end

/-- The same trees when the entries of dictionaries are left out. -/
def Alike (value other : Value) : Prop := Same value.emptied other.emptied

/-! ### The two relations on lists -/

theorem same_list {items others : List Value} : Same (.list items) (.list others) ↔ List.Forall₂ Same items others := by
  constructor
  · intro same
    cases same with
    | list length each => exact List.forall₂_iff_get.mpr ⟨length,each⟩
  · intro same
    exact .list same.length_eq fun i left right => same.get left right

theorem alike_list {items others : List Value} : Alike (.list items) (.list others) ↔ List.Forall₂ Alike items others := by
  rw [Alike,emptied,emptied,same_list,emptiedItems_map,emptiedItems_map,List.forall₂_map_left_iff,
    List.forall₂_map_right_iff]
  rfl

theorem smallItems_iff {items : List Value} : SmallItems items ↔ ∀ item ∈ items, item.Small := by
  induction items with
  | nil => simp [SmallItems]
  | cons item items ih => simp [SmallItems,ih]

/-- The same trees are alike. -/
theorem Same.alike {value other : Value} (same : Same value other) : Alike value other := by
  induction same with
  | null => exact .null
  | boolean value => exact .boolean value
  | integer value => exact .integer value
  | bigInteger value => exact .bigInteger value
  | real same => exact .real same
  | string value => exact .string value
  | binary bytes => exact .binary bytes
  | dictionary => exact .dictionary (by simp) (by simp)
  | list length _ ih => exact alike_list.mpr (List.forall₂_iff_get.mpr ⟨length,ih⟩)

theorem Alike.binary_eq {bytes others : List UInt8} (alike : Alike (.binary bytes) (.binary others)) : bytes = others := by
  cases alike
  rfl

/-- Trees that are alike have their big integers in the same places. -/
theorem Alike.small {value other : Value} (alike : Alike value other) : value.Small ↔ other.Small := by
  generalize left : value.emptied = emptied
  generalize right : other.emptied = emptied'
  rw [Alike,left,right] at alike
  induction alike generalizing value other with
  | list length each ih =>
    cases value <;> cases left
    cases other <;> cases right
    rename_i items others
    simp only [emptiedItems_map,List.length_map,List.getElem_map] at length ih
    rw [Small,Small,smallItems_iff,smallItems_iff,List.forall_mem_iff_getElem,List.forall_mem_iff_getElem]
    constructor
    · intro small i bound
      exact (ih i (length ▸ bound) bound rfl rfl).mp (small i (length ▸ bound))
    · intro small i bound
      exact (ih i bound (length ▸ bound) rfl rfl).mpr (small i (length ▸ bound))
  | _ =>
    cases value <;> cases left
    all_goals cases other <;> cases right
    all_goals rfl

end Value

/-! ### What `Equals` returns -/

open Value

variable {heap : ValueHeap} {this other : Nat} {value tree : Value}

/-- All calls with enough fuel return this. -/
def Returns (heap : ValueHeap) (this other : Nat) (result : Bool) : Prop :=
  ∃ enough, ∀ fuel, enough ≤ fuel → Equals heap fuel this other = some result

theorem fundamental_equals {lhs rhs : FundamentalValue} :
    lhs.Equals rhs = true ↔ Same (.fundamental lhs) (.fundamental rhs) ∧ Small (.fundamental lhs) := by
  constructor
  · intro equal
    cases lhs <;> cases rhs <;> simp only [FundamentalValue.Equals,beq_iff_eq,Bool.false_eq_true] at equal
    · subst equal
      exact ⟨.boolean _,trivial⟩
    · subst equal
      exact ⟨.integer _,trivial⟩
    · exact ⟨.real equal,trivial⟩
  · rintro ⟨same,small⟩
    cases same with
    | boolean value | integer value => exact beq_self_eq_true value
    | bigInteger value => exact small.elim
    | real same => exact same

/-- The loop of `ListValue::Equals`, where each item's `Equals` is known. -/
theorem listEquals_spec {list_ other_list : List Nat} {items others : List Value}
    (each : List.Forall₂ (fun child item => ∀ {other tree}, heap.Denotes other tree →
      ∃ result, Returns heap child other result ∧ (result = true ↔ Alike item tree ∧ item.Small)) list_ items)
    (denoted : List.Forall₂ heap.Denotes other_list others) :
    ∃ result, (∃ enough, ∀ fuel, enough ≤ fuel → ListValue.Equals (Equals heap fuel) list_ other_list = some result) ∧
      (result = true ↔ List.Forall₂ (fun item tree => Alike item tree ∧ item.Small) items others) := by
  induction each generalizing other_list others with
  | nil =>
    cases denoted with
    | nil => exact ⟨true,⟨0,fun _ _ => rfl⟩,by simp⟩
    | cons => exact ⟨false,⟨0,fun _ _ => rfl⟩,by simp⟩
  | @cons child item list_ items first rest ih =>
    cases denoted with
    | nil => exact ⟨false,⟨0,fun _ _ => rfl⟩,by simp⟩
    | @cons rhs tree other_list others head tail =>
      obtain ⟨equal,⟨enough,returns⟩,told⟩ := first head
      obtain ⟨result,⟨more,loops⟩,spec⟩ := ih tail
      refine ⟨equal && result,⟨max enough more,?_⟩,?_⟩
      · intro fuel fits
        rw [ListValue.Equals,returns fuel (le_of_max_le_left fits),Option.bind_some]
        cases equal
        · rfl
        · exact loops fuel (le_of_max_le_right fits)
      · rw [Bool.and_eq_true,told,spec,List.forall₂_cons]

theorem returns_of_step {result : Bool} (step : ∀ fuel, Equals heap (fuel + 1) this other = some result) :
    Returns heap this other result := by
  refine ⟨1,?_⟩
  intro fuel fits
  obtain ⟨fuel,rfl⟩ := Nat.exists_eq_succ_of_ne_zero (Nat.ne_zero_of_lt fits)
  exact step fuel

theorem told {result : Bool} (step : ∀ fuel, Equals heap (fuel + 1) this other = some result)
    (spec : result = true ↔ Alike value tree ∧ value.Small) :
    ∃ result, Returns heap this other result ∧ (result = true ↔ Alike value tree ∧ value.Small) :=
  ⟨result,returns_of_step step,spec⟩

theorem told_apart (step : ∀ fuel, Equals heap (fuel + 1) this other = some false) (unlike : ¬Alike value tree) :
    ∃ result, Returns heap this other result ∧ (result = true ↔ Alike value tree ∧ value.Small) :=
  told step (by simp [unlike])

/-- Trees are told equal when they are alike and free of big integers outside dictionaries. -/
theorem Equals_spec (denotes : heap.Denotes this value) (denoted : heap.Denotes other tree) :
    ∃ result, Returns heap this other result ∧ (result = true ↔ Alike value tree ∧ value.Small) := by
  induction denotes using ValueHeap.Denotes.rule generalizing other tree with
  | null read =>
    cases denoted with
    | null found => exact told (fun fuel => by rw [Equals,read,found]) (iff_of_true rfl ⟨.null,trivial⟩)
    | _ found =>
      refine told_apart (fun fuel => by rw [Equals,read,found]) ?_
      intro alike
      cases alike
  | fundamental read =>
    cases denoted with
    | fundamental found => exact told (fun fuel => by rw [Equals,read,found]) fundamental_equals
    | _ found =>
      refine told_apart (fun fuel => by rw [Equals,read,found]) ?_
      intro alike
      cases alike
  | @string _ value_ read =>
    cases denoted with
    | @string _ other_value found =>
      refine told (fun fuel => by rw [Equals,read,found]) ?_
      rw [beq_iff_eq]
      constructor
      · rintro rfl
        exact ⟨.string value_,trivial⟩
      · rintro ⟨alike,_⟩
        cases alike
        rfl
    | _ found =>
      refine told_apart (fun fuel => by rw [Equals,read,found]) ?_
      intro alike
      cases alike
  | @binary _ buffer_ size_ bytes read content fits =>
    cases denoted with
    | @binary _ other_buffer other_size other_bytes found other_content other_fits =>
      by_cases sizes : other_size = size_
      · subst sizes
        refine told (fun fuel => by rw [Equals,read,found]; dsimp only; rw [if_pos rfl,content,other_content]) ?_
        rw [beq_iff_eq]
        constructor
        · intro equal
          rw [equal]
          exact ⟨.binary _,trivial⟩
        · rintro ⟨alike,_⟩
          exact alike.binary_eq
      · refine told_apart (fun fuel => by rw [Equals,read,found]; exact if_neg sizes) ?_
        intro alike
        have lengths := congrArg List.length alike.binary_eq
        rw [List.length_take,List.length_take,min_eq_left fits,min_eq_left other_fits] at lengths
        exact sizes lengths.symm
    | _ found =>
      refine told_apart (fun fuel => by rw [Equals,read,found]) ?_
      intro alike
      cases alike
  | dictionary read keys children _ =>
    cases denoted with
    | dictionary found =>
      exact told (fun fuel => by rw [Equals,read,found]) (iff_of_true rfl ⟨.dictionary (by simp) (by simp),trivial⟩)
    | _ found =>
      refine told_apart (fun fuel => by rw [Equals,read,found]) ?_
      intro alike
      cases alike
  | @list _ list_ items read children equals =>
    cases denoted with
    | @list _ other_list others found denoted =>
      have each : List.Forall₂ (fun child item => ∀ {other tree}, heap.Denotes other tree →
          ∃ result, Returns heap child other result ∧ (result = true ↔ Alike item tree ∧ item.Small)) list_ items :=
        List.forall₂_iff_get.mpr ⟨children.length_eq,fun i left right => equals i left right⟩
      obtain ⟨result,⟨enough,loops⟩,spec⟩ := listEquals_spec each denoted
      refine ⟨result,⟨enough + 1,?_⟩,?_⟩
      · intro fuel fits
        obtain ⟨fuel,rfl⟩ := Nat.exists_eq_succ_of_ne_zero (Nat.ne_zero_of_lt fits)
        rw [Equals,read,found]
        exact loops fuel (Nat.le_of_succ_le_succ fits)
      · rw [spec,alike_list,Value.Small,smallItems_iff,and_comm,← List.forall₂_and_left]
        simp only [and_comm]
    | _ found =>
      refine told_apart (fun fuel => by rw [Equals,read,found]) ?_
      intro alike
      cases alike

/-! ### The first equal item of a list -/

/-- Where the loop of `Remove` and `AppendIfNotPresent` stops: the first item that is
told equal to the tree, if there is one. -/
def Finds (items : List Value) (tree : Value) : Option Nat → Prop
  | none => ∀ item ∈ items, ¬(Alike item tree ∧ item.Small)
  | some index => ∃ before item after, items = before ++ item::after ∧ before.length = index ∧
      (∀ item ∈ before, ¬(Alike item tree ∧ item.Small)) ∧ Alike item tree ∧ item.Small

theorem FindEqual_spec {list_ : List Nat} {items : List Value} (children : List.Forall₂ heap.Denotes list_ items)
    (denoted : heap.Denotes other tree) (index : Nat) :
    ∃ found, Finds items tree found ∧ ∃ enough, ∀ fuel, enough ≤ fuel →
      ListValue.FindEqual (fun item => Equals heap fuel item other) list_ index =
        some (found.bind fun place => list_[place]?.map fun item => (index + place,item)) := by
  induction children generalizing index with
  | nil => exact ⟨none,by simp [Finds],0,fun _ _ => rfl⟩
  | @cons child item list_ items head tail ih =>
    obtain ⟨equal,⟨enough,returns⟩,told⟩ := Equals_spec head denoted
    by_cases here : Alike item tree ∧ item.Small
    · refine ⟨some 0,⟨[],item,items,rfl,rfl,by simp,here⟩,enough,?_⟩
      intro fuel fits
      rw [ListValue.FindEqual,returns fuel fits,told.mpr here]
      rfl
    · obtain ⟨found,stops,more,loops⟩ := ih (index + 1)
      refine ⟨found.map (· + 1),?_,max enough more,?_⟩
      · cases found with
        | none =>
          intro other member
          rcases List.mem_cons.mp member with rfl | member
          · exact here
          · exact stops other member
        | some place =>
          obtain ⟨before,first,after,rfl,rfl,unequal,same⟩ := stops
          refine ⟨item::before,first,after,rfl,rfl,?_,same⟩
          intro other member
          rcases List.mem_cons.mp member with rfl | member
          · exact here
          · exact unequal other member
      · intro fuel fits
        have unequal : equal = false := Bool.eq_false_iff.mpr fun equal => here (told.mp equal)
        rw [ListValue.FindEqual,returns fuel (le_of_max_le_left fits),unequal,Option.bind_some,if_neg Bool.false_ne_true,
          loops fuel (le_of_max_le_right fits)]
        cases found with
        | none => rfl
        | some place => simp [Nat.add_assoc,Nat.add_comm 1]

variable {items : List Value}

theorem list_read (denotes : heap.Denotes this (.list items)) :
    ∃ list_, ListValue.list_ heap this = some list_ ∧ List.Forall₂ heap.Denotes list_ items := by
  cases denotes with
  | list read children => exact ⟨_,by rw [ListValue.list_,read],children⟩

/-- A list is none of its own items. -/
theorem item_ne {list_ : List Nat} {item : Nat} (denotes : heap.Denotes this (.list items))
    (children : List.Forall₂ heap.Denotes list_ items) (member : item ∈ list_) : item ≠ this := by
  rintro rfl
  obtain ⟨i,bound,same⟩ := List.getElem_of_mem member
  have within : i < items.length := children.length_eq ▸ bound
  have child : heap.Denotes list_[i] items[i] := children.get bound within
  rw [same] at child
  have smaller := List.sizeOf_lt_of_mem (List.getElem_mem within)
  rw [child.unique denotes,Value.list.sizeOf_spec] at smaller
  omega

/-- With enough fuel `Remove` of a value returns `found` and takes that place out of the list. -/
def Removes (heap : ValueHeap) (this value : Nat) (found : Option Nat) : Prop :=
  ∃ later list_ enough, (∀ fuel, enough ≤ fuel → ListValue.RemoveValue heap this fuel value = some (found,later)) ∧
    ListValue.list_ heap this = some list_ ∧
    ListValue.list_ later this = some (match found with | none => list_ | some index => list_.eraseIdx index)

theorem RemoveValue_spec (denotes : heap.Denotes this (.list items)) (denoted : heap.Denotes other tree) :
    ∃ found, Removes heap this other found ∧ Finds items tree found := by
  obtain ⟨list_,read,children⟩ := list_read denotes
  obtain ⟨found,finds,enough,loops⟩ := FindEqual_spec children denoted 0
  cases found with
  | none =>
    refine ⟨none,⟨heap,list_,enough,?_,read,read⟩,finds⟩
    intro fuel fits
    rw [ListValue.RemoveValue,read,Option.bind_some,loops fuel fits]
    rfl
  | some index =>
    obtain ⟨before,first,after,split,place,_⟩ := id finds
    have bound : index < list_.length := by
      rw [children.length_eq,split,List.length_append,place]
      exact Nat.lt_add_of_pos_right (Nat.succ_pos _)
    have apart := item_ne denotes children (List.getElem_mem bound)
    refine ⟨some index,⟨(heap.free list_[index]).write this (.list (list_.eraseIdx index)),list_,enough,?_,read,?_⟩,finds⟩
    · intro fuel fits
      rw [ListValue.RemoveValue,read,Option.bind_some,loops fuel fits,Option.bind_some,List.getElem?_eq_getElem bound]
      simp
    · cases denotes with
      | list found => rw [ListValue.list_,Heap.write_cell_self,Heap.free_cell_ne apart.symm,found]; rfl

/-- With enough fuel `AppendIfNotPresent` returns `appended`, and the value is appended then. -/
def Appends (heap : ValueHeap) (this value : Nat) (appended : Bool) : Prop :=
  ∃ later list_ enough,
    (∀ fuel, enough ≤ fuel → ListValue.AppendIfNotPresent heap this fuel (some value) = some (appended,later)) ∧
    ListValue.list_ heap this = some list_ ∧
    ListValue.list_ later this = some (if appended then list_ ++ [value] else list_)

theorem AppendIfNotPresent_spec (denotes : heap.Denotes this (.list items)) (denoted : heap.Denotes other tree) :
    ∃ appended, Appends heap this other appended ∧
      (appended = true ↔ ∀ item ∈ items, ¬(Alike item tree ∧ item.Small)) := by
  obtain ⟨list_,read,children⟩ := list_read denotes
  obtain ⟨found,finds,enough,loops⟩ := FindEqual_spec children denoted 0
  cases found with
  | none =>
    refine ⟨true,⟨heap.write this (.list (list_ ++ [other])),list_,enough,?_,read,?_⟩,iff_of_true rfl finds⟩
    · intro fuel fits
      rw [ListValue.AppendIfNotPresent,read,Option.bind_some,loops fuel fits]
      rfl
    · cases denotes with
      | list found => rw [ListValue.list_,Heap.write_cell_self,found]; rfl
  | some index =>
    obtain ⟨before,item,after,rfl,rfl,_,same⟩ := finds
    refine ⟨false,⟨heap,list_,enough,?_,read,read⟩,iff_of_false Bool.false_ne_true ?_⟩
    · intro fuel fits
      have bound : before.length < list_.length := by
        rw [children.length_eq,List.length_append]
        exact Nat.lt_add_of_pos_right (Nat.succ_pos _)
      rw [ListValue.AppendIfNotPresent,read,Option.bind_some,loops fuel fits,Option.bind_some,List.getElem?_eq_getElem bound]
      rfl
    · intro unequal
      exact unequal item (List.mem_append_right _ List.mem_cons_self) same

/-! ### When the equality is structural -/

/-- `Remove` of a tree is to take out one item that is the same, and nothing where none is. -/
def RemovesSame (items : List Value) (tree : Value) : Option Nat → Prop
  | none => ∀ item ∈ items, ¬item.Same tree
  | some index => ∃ item, items[index]? = some item ∧ item.Same tree

/-- Trees that are the same outside dictionaries are the same exactly where no big
integer stands outside dictionaries. -/
def Value.Settled (value tree : Value) : Prop := value.Alike tree → (value.Same tree ↔ value.Small)

/-- An item is the same only as a tree without big integers, and the first item alike is the same. -/
def RemoveSettled (items : List Value) (tree : Value) : Prop :=
  ((∃ item ∈ items, item.Same tree) → tree.Small) ∧
    ∀ before item after, items = before ++ item::after → (∀ earlier ∈ before, ¬earlier.Alike tree) →
      item.Alike tree → tree.Small → item.Same tree

theorem settled_iff {result : Bool} (spec : result = true ↔ Alike value tree ∧ value.Small) :
    (result = true ↔ value.Same tree) ↔ value.Settled tree := by
  rw [spec]
  constructor
  · intro same alike
    rw [← same]
    exact and_iff_right alike
  · intro settled
    constructor
    · rintro ⟨alike,small⟩
      exact (settled alike).mpr small
    · intro same
      exact ⟨same.alike,(settled same.alike).mp same⟩

theorem removeSettled_iff {found : Option Nat} (finds : Finds items tree found) :
    RemovesSame items tree found ↔ RemoveSettled items tree := by
  cases found with
  | none =>
    constructor
    · intro unequal
      refine ⟨fun ⟨item,member,same⟩ => (unequal item member same).elim,?_⟩
      rintro before item after rfl _ alike small
      exact absurd ⟨alike,alike.small.mpr small⟩ (finds item (List.mem_append_right _ List.mem_cons_self))
    · rintro ⟨small,_⟩ item member same
      exact finds item member ⟨same.alike,same.alike.small.mpr (small ⟨item,member,same⟩)⟩
  | some index =>
    obtain ⟨before,item,after,rfl,rfl,unequal,alike,small⟩ := finds
    have tall := alike.small.mp small
    have here : (before ++ item::after)[before.length]? = some item := by simp
    rw [RemovesSame,here]
    constructor
    · rintro ⟨_,found,same⟩
      cases found
      refine ⟨fun _ => tall,?_⟩
      intro earlier first later split unlike near _
      -- of two first items alike neither stands before the other
      rcases List.append_eq_append_iff.mp split with ⟨between,rfl,rest⟩ | ⟨between,rfl,rest⟩
      · cases between with
        | nil =>
          cases rest
          exact same
        | cons =>
          cases rest
          exact absurd alike (unlike item (List.mem_append_right _ List.mem_cons_self))
      · cases between with
        | nil =>
          cases rest
          exact same
        | cons =>
          cases rest
          exact absurd ⟨near,near.small.mpr tall⟩ (unequal first (List.mem_append_right _ List.mem_cons_self))
    · rintro ⟨_,first⟩
      refine ⟨item,rfl,first before item after rfl ?_ alike tall⟩
      intro earlier member near
      exact unequal earlier member ⟨near,near.small.mpr tall⟩

theorem appendSettled_iff {appended : Bool} (spec : appended = true ↔ ∀ item ∈ items, ¬(Alike item tree ∧ item.Small)) :
    (appended = true → ∀ item ∈ items, ¬item.Same tree) ↔ ((∃ item ∈ items, item.Same tree) → tree.Small) := by
  rw [spec]
  constructor
  · rintro absent ⟨item,member,same⟩
    by_contra large
    refine absent ?_ item member same
    intro other _ ⟨alike,small⟩
    exact large (alike.small.mp small)
  · intro small unequal item member same
    exact unequal item member ⟨same.alike,same.alike.small.mpr (small ⟨item,member,same⟩)⟩

/-- `Equals`, `Remove` and `AppendIfNotPresent` always return, and go by the structure
of the trees exactly where dictionaries and big integers do not come between. -/
theorem equals_iff (denoted : heap.Denotes other tree) :
    (∀ this value, heap.Denotes this value →
      ∃ result, Returns heap this other result ∧ ((result = true ↔ value.Same tree) ↔ value.Settled tree)) ∧
    ∀ this items, heap.Denotes this (.list items) →
      (∃ found, Removes heap this other found ∧ (RemovesSame items tree found ↔ RemoveSettled items tree)) ∧
      ∃ appended, Appends heap this other appended ∧
        ((appended = true → ∀ item ∈ items, ¬item.Same tree) ↔ ((∃ item ∈ items, item.Same tree) → tree.Small)) := by
  constructor
  · intro this value denotes
    obtain ⟨result,returns,spec⟩ := Equals_spec denotes denoted
    exact ⟨result,returns,settled_iff spec⟩
  · intro this items denotes
    obtain ⟨found,removes,finds⟩ := RemoveValue_spec denotes denoted
    obtain ⟨appended,appends,spec⟩ := AppendIfNotPresent_spec denotes denoted
    exact ⟨⟨found,removes,removeSettled_iff finds⟩,appended,appends,appendSettled_iff spec⟩

theorem answers_equal : ∃ result, Returns answers 1 1 result ∧
    ((result = true ↔ Same (.list [.fundamental (.integer 42)]) (.list [.fundamental (.integer 42)])) ↔
      Value.Settled (.list [.fundamental (.integer 42)]) (.list [.fundamental (.integer 42)])) :=
  have denotes : answers.Denotes 1 (.list [.fundamental (.integer 42)]) := .list rfl (.cons (.fundamental rfl) .nil)
  (equals_iff denotes).1 1 _ denotes

/-- The big integer 7 and the list of it, and the dictionary of it under `a` and an empty one. -/
def sevens : ValueHeap :=
  let seven := (Heap.empty.alloc (.fundamental (.bigInteger 7))).2
  let listed := (seven.alloc (.list [0])).2
  ((listed.alloc (.dictionary [([97],0)])).2.alloc (.dictionary [])).2

theorem sevens_told : (Returns sevens 2 3 true ∧ sevens.Denotes 2 (.dictionary [([97],.fundamental (.bigInteger 7))]) ∧
      sevens.Denotes 3 (.dictionary []) ∧ ¬Same (.dictionary [([97],.fundamental (.bigInteger 7))]) (.dictionary [])) ∧
    (Returns sevens 0 0 false ∧ sevens.Denotes 0 (.fundamental (.bigInteger 7)) ∧
      Same (.fundamental (.bigInteger 7)) (.fundamental (.bigInteger 7))) ∧
    Removes sevens 1 0 none ∧ Appends sevens 1 0 true ∧ sevens.Denotes 1 (.list [.fundamental (.bigInteger 7)]) := by
  have seven : sevens.Denotes 0 (.fundamental (.bigInteger 7)) := .fundamental rfl
  refine ⟨⟨returns_of_step fun _ => rfl,.dictionary rfl rfl (.cons seven .nil),.dictionary rfl rfl .nil,?_⟩,
    ⟨returns_of_step fun _ => rfl,seven,.bigInteger 7⟩,?_,?_,.list rfl (.cons seven .nil)⟩
  · intro same
    cases same with
    | dictionary keys => simpa using keys [97]
  · refine ⟨sevens,[0],1,fun fuel fits => ?_,rfl,rfl⟩
    obtain ⟨fuel,rfl⟩ := Nat.exists_eq_succ_of_ne_zero (Nat.ne_zero_of_lt fits)
    rfl
  · refine ⟨sevens.write 1 (.list [0,0]),[0],1,fun fuel fits => ?_,rfl,rfl⟩
    obtain ⟨fuel,rfl⟩ := Nat.exists_eq_succ_of_ne_zero (Nat.ne_zero_of_lt fits)
    rfl

end Migfm.Logic
