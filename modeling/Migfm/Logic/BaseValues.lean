import Migfm.Library.Heap

/-! The value trees of logic/base_values.h: nodes on a heap that point at one
another, and the operations of base_values.cc that set and remove children. -/
namespace Migfm.Logic
open Library

/-- The `wchar_t`s of a `std::wstring`. -/
abbrev WString := List Nat

/-! ### `std::map<std::wstring, ...>` -/

abbrev ValueMap (α : Type) := List (WString × α)

namespace ValueMap
variable {α : Type}

/-- `dictionary_[key] = value`; the entries stand in the order of their keys. -/
def assign (key : WString) (value : α) : ValueMap α → ValueMap α
  | [] => [(key,value)]
  | entry::rest =>
    if key = entry.1 then (key,value)::rest
    else if key < entry.1 then (key,value)::entry::rest
    else entry::assign key value rest

def find (key : WString) : ValueMap α → Option α
  | [] => none
  | entry::rest => if key = entry.1 then some entry.2 else find key rest

def erase (key : WString) : ValueMap α → ValueMap α
  | [] => []
  | entry::rest => if key = entry.1 then rest else entry::erase key rest

theorem mem_assign {key : WString} {value : α} {map : ValueMap α} {entry : WString × α}
    (member : entry ∈ map.assign key value) : entry = (key,value) ∨ entry ∈ map := by
  induction map with
  | nil => exact .inl (List.mem_singleton.mp member)
  | cons first rest ih =>
    rw [assign] at member
    split at member
    · rcases List.mem_cons.mp member with same | later
      · exact .inl same
      · exact .inr (List.mem_cons_of_mem _ later)
    · split at member
      · exact List.mem_cons.mp member
      · rcases List.mem_cons.mp member with same | later
        · exact .inr (same ▸ List.mem_cons_self)
        · exact (ih later).imp_right (List.mem_cons_of_mem _)

/-- A key behind all the others is added at the end. -/
theorem find_assign (key other : WString) (value : α) (map : ValueMap α) :
    (map.assign key value).find other = if other = key then some value else map.find other := by
  induction map with
  | nil => rfl
  | cons entry rest ih =>
    rw [assign]
    split
    · rename_i same
      subst same
      rw [find,find]
      split <;> rfl
    · rename_i apart
      split
      · rfl
      · rw [find,find,ih]
        split
        · rename_i here
          rw [if_neg fun same => apart (same.symm.trans here)]
        · rfl

theorem assign_last {key : WString} {value : α} {map : ValueMap α} (before : ∀ entry ∈ map, entry.1 < key) :
    map.assign key value = map ++ [(key,value)] := by
  induction map with
  | nil => rfl
  | cons first rest ih =>
    have less := before first List.mem_cons_self
    rw [assign,if_neg less.ne',if_neg less.not_gt,ih fun entry member => before entry (List.mem_cons_of_mem _ member)]
    rfl

theorem assign_perm {key : WString} {map : ValueMap α} (fresh : key ∉ map.map Prod.fst) (value : α) :
    (map.assign key value).Perm ((key,value)::map) := by
  induction map with
  | nil => exact .refl _
  | cons first rest ih =>
    obtain ⟨other,later⟩ := List.ne_and_not_mem_of_not_mem_cons fresh
    rw [assign,if_neg other]
    split
    · exact .refl _
    · exact ((ih later).cons first).trans (.swap ..)

theorem mem_of_find {key : WString} {value : α} {map : ValueMap α} (found : map.find key = some value) :
    (key,value) ∈ map := by
  induction map with
  | nil => cases found
  | cons first rest ih =>
    rw [find] at found
    split at found
    · rename_i same
      cases found
      exact same ▸ List.mem_cons_self
    · exact List.mem_cons_of_mem _ (ih found)

theorem mem_of_mem_erase {key : WString} {map : ValueMap α} {entry : WString × α} (member : entry ∈ map.erase key) :
    entry ∈ map := by
  induction map with
  | nil => exact member
  | cons first rest ih =>
    rw [erase] at member
    split at member
    · exact List.mem_cons_of_mem _ member
    · rcases List.mem_cons.mp member with same | later
      · exact same ▸ List.mem_cons_self
      · exact List.mem_cons_of_mem _ (ih later)

end ValueMap

/-! ### Nodes and trees -/

inductive FundamentalValue
  | boolean (boolean_value_ : Bool)
  | integer (integer_value_ : Int32)
  | bigInteger (big_integer_value_ : Int64)
  | real (real_value_ : Float)

/-- What a node holds; the buffer of a `BinaryValue` is a cell of its own. -/
inductive Cell
  | null
  | fundamental (value : FundamentalValue)
  | string (value_ : List UInt8)
  | binary (buffer_ size_ : Nat)
  | dictionary (dictionary_ : ValueMap Nat)
  | list (list_ : List Nat)
  | buffer (bytes : List UInt8)

def Cell.refs : Cell → List Nat
  | .binary buffer_ _ => [buffer_]
  | .dictionary dictionary_ => dictionary_.map Prod.snd
  | .list list_ => list_
  | _ => []

/-- A tree of values without its addresses. -/
inductive Value
  | null
  | fundamental (value : FundamentalValue)
  | string (value : List UInt8)
  | binary (bytes : List UInt8)
  | dictionary (entries : List (WString × Value))
  | list (items : List Value)

abbrev ValueHeap := Heap Cell

namespace ValueHeap

/-- The node at an address is the root of a tree; the dictionary's keys and the
list's places are the tree's. -/
inductive Denotes (heap : ValueHeap) : Nat → Value → Prop
  | null {this : Nat} (read : heap.cell this = some .null) : Denotes heap this .null
  | fundamental {this : Nat} {value : FundamentalValue} (read : heap.cell this = some (.fundamental value)) :
      Denotes heap this (.fundamental value)
  | string {this : Nat} {value_ : List UInt8} (read : heap.cell this = some (.string value_)) :
      Denotes heap this (.string value_)
  | binary {this buffer_ size_ : Nat} {bytes : List UInt8} (read : heap.cell this = some (.binary buffer_ size_))
      (content : heap.cell buffer_ = some (.buffer bytes)) (fits : size_ ≤ bytes.length) :
      Denotes heap this (.binary (bytes.take size_))
  | dictionary {this : Nat} {dictionary_ : ValueMap Nat} {entries : List (WString × Value)}
      (read : heap.cell this = some (.dictionary dictionary_))
      (keys : dictionary_.map Prod.fst = entries.map Prod.fst)
      (children : List.Forall₂ (Denotes heap) (dictionary_.map Prod.snd) (entries.map Prod.snd)) :
      Denotes heap this (.dictionary entries)
  | list {this : Nat} {list_ : List Nat} {items : List Value} (read : heap.cell this = some (.list list_))
      (children : List.Forall₂ (Denotes heap) list_ items) : Denotes heap this (.list items)

variable {heap later : ValueHeap} {this child : Nat} {value : Value}

/-- The induction over a tree, with the hypothesis for each child. -/
theorem Denotes.rule {motive : ∀ {this value}, Denotes heap this value → Prop}
    (null : ∀ {this} (read : heap.cell this = some .null), motive (.null read))
    (fundamental : ∀ {this value} (read : heap.cell this = some (.fundamental value)), motive (.fundamental read))
    (string : ∀ {this value_} (read : heap.cell this = some (.string value_)), motive (.string read))
    (binary : ∀ {this buffer_ size_ bytes} (read : heap.cell this = some (.binary buffer_ size_))
      (content : heap.cell buffer_ = some (.buffer bytes)) (fits : size_ ≤ bytes.length),
      motive (.binary read content fits))
    (dictionary : ∀ {this} {dictionary_ : ValueMap Nat} {entries : List (WString × Value)}
      (read : heap.cell this = some (.dictionary dictionary_)) (keys : dictionary_.map Prod.fst = entries.map Prod.fst)
      (children : List.Forall₂ (Denotes heap) (dictionary_.map Prod.snd) (entries.map Prod.snd)),
      (∀ i left right, motive (children.get (i := i) left right)) → motive (.dictionary read keys children))
    (list : ∀ {this list_ items} (read : heap.cell this = some (.list list_))
      (children : List.Forall₂ (Denotes heap) list_ items),
      (∀ i left right, motive (children.get (i := i) left right)) → motive (.list read children))
    (denotes : Denotes heap this value) : motive denotes := by
  refine @Denotes.rec heap (fun _ _ denotes => motive denotes)
    (fun _ _ children => ∀ i left right, motive (children.get (i := i) left right)) ?_ ?_ ?_ ?_ ?_ ?_ ?_ ?_ this value denotes
  · exact null
  · exact fundamental
  · exact string
  · exact binary
  · exact dictionary
  · exact list
  · exact fun i left => absurd left (Nat.not_lt_zero i)
  · intro _ _ _ _ _ _ head tail i left right
    cases i with
    | zero => exact head
    | succ i => exact tail i (Nat.lt_of_succ_lt_succ left) (Nat.lt_of_succ_lt_succ right)

theorem Denotes.allocated (denotes : Denotes heap this value) : this < heap.next := by
  cases denotes with
  | null read => exact Heap.lt_next read
  | fundamental read => exact Heap.lt_next read
  | string read => exact Heap.lt_next read
  | binary read => exact Heap.lt_next read
  | dictionary read => exact Heap.lt_next read
  | list read => exact Heap.lt_next read

/-- What a node points at is its buffer or the root of a child. -/
theorem Denotes.edge (denotes : Denotes heap this value) (edge : heap.Edge Cell.refs this child) :
    (∃ bytes, heap.cell child = some (.buffer bytes)) ∨ ∃ value, Denotes heap child value := by
  obtain ⟨cell,read,ref⟩ := edge
  cases denotes with
  | null found | fundamental found | string found =>
    cases read.symm.trans found
    cases ref
  | binary found content fits =>
    cases read.symm.trans found
    cases List.mem_singleton.mp ref
    exact .inl ⟨_,content⟩
  | dictionary found keys children | list found children =>
    cases read.symm.trans found
    obtain ⟨i,bound,rfl⟩ := List.getElem_of_mem ref
    exact .inr ⟨_,children.get bound (children.length_eq ▸ bound)⟩

/-- Whatever is reached from the root of a tree is allocated. -/
theorem Denotes.bounded (denotes : Denotes heap this value) (reaches : heap.Reaches Cell.refs this child) :
    child < heap.next := by
  have live : (∃ bytes, heap.cell child = some (.buffer bytes)) ∨ ∃ value, Denotes heap child value := by
    induction reaches with
    | refl => exact .inr ⟨value,denotes⟩
    | tail _ edge live =>
      rcases live with ⟨bytes,read⟩ | ⟨value,denotes⟩
      · obtain ⟨cell,found,ref⟩ := edge
        cases read.symm.trans found
        cases ref
      · exact denotes.edge edge
  rcases live with ⟨bytes,read⟩ | ⟨value,denotes⟩
  · exact Heap.lt_next read
  · exact denotes.allocated

/-- A tree stays where the cells of a closed region around it stay. -/
theorem Denotes.agree {region : Heap.Region} (closed : heap.Closed Cell.refs region)
    (same : ∀ address ∈ region, later.cell address = heap.cell address) (denotes : Denotes heap this value)
    (member : this ∈ region) : Denotes later this value := by
  induction denotes using Denotes.rule with
  | null read => exact .null ((same _ member).trans read)
  | fundamental read => exact .fundamental ((same _ member).trans read)
  | string read => exact .string ((same _ member).trans read)
  | binary read content fits =>
    have inside := closed.inside _ member _ ⟨_,read,List.mem_singleton_self _⟩
    exact .binary ((same _ member).trans read) ((same _ inside).trans content) fits
  | dictionary read keys children kept =>
    refine .dictionary ((same _ member).trans read) keys (List.forall₂_iff_get.mpr ⟨children.length_eq,?_⟩)
    intro i left right
    exact kept i left right (closed.inside _ member _ ⟨_,read,List.get_mem ..⟩)
  | list read children kept =>
    refine .list ((same _ member).trans read) (List.forall₂_iff_get.mpr ⟨children.length_eq,?_⟩)
    intro i left right
    exact kept i left right (closed.inside _ member _ ⟨_,read,List.get_mem ..⟩)

theorem eq_of_children {children : List Nat} {values others : List Value}
    (denotes : List.Forall₂ (Denotes heap) children values) (denoted : List.Forall₂ (Denotes heap) children others)
    (unique : ∀ i (left : i < children.length) (right : i < values.length) {other : Value},
      Denotes heap (children.get ⟨i,left⟩) other → values.get ⟨i,right⟩ = other) : values = others := by
  refine List.ext_get (denotes.length_eq.symm.trans denoted.length_eq) ?_
  intro i left right
  have bound : i < children.length := denotes.length_eq ▸ left
  exact unique i bound left (denoted.get bound right)

theorem Denotes.unique {other : Value} (denotes : Denotes heap this value) (denoted : Denotes heap this other) :
    value = other := by
  induction denotes using Denotes.rule generalizing other with
  | null read =>
    cases denoted <;> rename_i found <;> cases read.symm.trans found
    rfl
  | fundamental read =>
    cases denoted <;> rename_i found <;> cases read.symm.trans found
    rfl
  | string read =>
    cases denoted <;> rename_i found <;> cases read.symm.trans found
    rfl
  | binary read content fits =>
    cases denoted <;> rename_i found <;> cases read.symm.trans found
    rename_i same _
    cases content.symm.trans same
    rfl
  | dictionary read keys children unique =>
    cases denoted <;> rename_i found <;> cases read.symm.trans found
    rename_i entries listed denoted
    have values : _ = entries.map Prod.snd := eq_of_children children denoted unique
    have named := keys.symm.trans listed
    congr 1
    exact List.ext_getElem (by simpa using congrArg List.length named) fun i left right =>
      Prod.ext (by simpa [left,right] using congrArg (·[i]?) named) (by simpa [left,right] using congrArg (·[i]?) values)
  | list read children unique =>
    cases denoted <;> rename_i found <;> cases read.symm.trans found
    rename_i denoted
    exact congrArg Value.list (eq_of_children children denoted unique)

end ValueHeap

/-! ### Setting and removing children

A pointer that may be NULL is an `Option`; an operation has no outcome where the
program would use a node for what it is not. `~Value` is not virtual, so
`delete` through a `Value*` releases the node alone. -/

namespace DictionaryValue
variable (heap : ValueHeap) (this : Nat)

def dictionary_ : Option (ValueMap Nat) :=
  match heap.cell this with
  | some (.dictionary dictionary_) => some dictionary_
  | _ => none

def GetWithoutPathExpansion (key : WString) : Option Nat :=
  (dictionary_ heap this).bind (ValueMap.find key)

/-- `GetDictionary` of a key without a dot is the same. -/
def GetDictionaryWithoutPathExpansion (key : WString) : Option Nat :=
  (GetWithoutPathExpansion heap this key).filter fun value => (dictionary_ heap value).isSome

def SetWithoutPathExpansion (key : WString) : Option Nat → Option ValueHeap
  | none => some heap
  | some in_value =>
    (dictionary_ heap this).map fun dictionary_ =>
      let deleted := match ValueMap.find key dictionary_ with
        | some old => heap.free old
        | none => heap
      deleted.write this (.dictionary (dictionary_.assign key in_value))

/-- The loop of `Set` over the keys between the dots: what is no dictionary on the
way is replaced by a new one. -/
def SetAlong (heap : ValueHeap) (this : Nat) (in_value : Nat) : List WString → Option ValueHeap
  | [] => none
  | [key] => SetWithoutPathExpansion heap this key (some in_value)
  | key::path =>
    match GetDictionaryWithoutPathExpansion heap this key with
    | some child_dictionary => SetAlong heap child_dictionary in_value path
    | none =>
      let (child_dictionary,created) := heap.alloc (.dictionary [])
      (SetWithoutPathExpansion created this key (some child_dictionary)).bind fun linked =>
        SetAlong linked child_dictionary in_value path

def dot : Nat := 46

def Set (path : WString) : Option Nat → Option ValueHeap
  | none => some heap
  | some in_value => SetAlong heap this in_value (path.splitOn dot)

def GetAlong (heap : ValueHeap) (this : Nat) : List WString → Option Nat
  | [] => none
  | [key] => GetWithoutPathExpansion heap this key
  | key::path => (GetDictionaryWithoutPathExpansion heap this key).bind fun child_dictionary =>
      GetAlong heap child_dictionary path

def GetDictionary (path : List WString) : Option Nat :=
  (GetAlong heap this path).filter fun value => (dictionary_ heap value).isSome

/-- With `out_value` the entry is the caller's, without it is deleted. -/
def RemoveWithoutPathExpansion (key : WString) (out_value : Bool) : Option (Option Nat × ValueHeap) :=
  (dictionary_ heap this).map fun dictionary_ =>
    match ValueMap.find key dictionary_ with
    | none => (none,heap)
    | some entry =>
      let released := if out_value then heap else heap.free entry
      (some entry,released.write this (.dictionary (dictionary_.erase key)))

/-- The path up to the last dot has to lead to a dictionary. -/
def Remove (path : WString) (out_value : Bool) : Option (Option Nat × ValueHeap) :=
  match path.splitOn dot with
  | [key] => RemoveWithoutPathExpansion heap this key out_value
  | keys =>
    match GetDictionary heap this keys.dropLast with
    | none => some (none,heap)
    | some current_dictionary => RemoveWithoutPathExpansion heap current_dictionary (keys.getLastD []) out_value

end DictionaryValue

/-- Big integers are equal to nothing. -/
def FundamentalValue.Equals : FundamentalValue → FundamentalValue → Bool
  | .boolean lhs,.boolean rhs => lhs == rhs
  | .integer lhs,.integer rhs => lhs == rhs
  | .real lhs,.real rhs => lhs == rhs
  | _,_ => false

def ListValue.Equals (equals : Nat → Nat → Option Bool) : List Nat → List Nat → Option Bool
  | [],[] => some true
  | lhs::list_,rhs::other_list => (equals lhs rhs).bind fun same =>
      if same then ListValue.Equals equals list_ other_list else some false
  | _,_ => some false

/-- The virtual `Equals`, as deep as the fuel; dictionaries are equal to one another. -/
def Equals (heap : ValueHeap) : Nat → Nat → Nat → Option Bool
  | 0,_,_ => none
  | fuel + 1,this,other =>
    match heap.cell this,heap.cell other with
    | some .null,some .null => some true
    | some (.fundamental lhs),some (.fundamental rhs) => some (lhs.Equals rhs)
    | some (.string lhs),some (.string rhs) => some (lhs == rhs)
    | some (.binary buffer_ size_),some (.binary other_buffer other_size) =>
      if other_size = size_ then
        match heap.cell buffer_,heap.cell other_buffer with
        | some (.buffer lhs),some (.buffer rhs) => some (lhs.take size_ == rhs.take size_)
        | _,_ => none
      else some false
    | some (.dictionary _),some (.dictionary _) => some true
    | some (.list list_),some (.list other_list) => ListValue.Equals (Equals heap fuel) list_ other_list
    | some _,some _ => some false
    | _,_ => none

namespace ListValue
variable (heap : ValueHeap) (this : Nat)

def list_ : Option (List Nat) :=
  match heap.cell this with
  | some (.list list_) => some list_
  | _ => none

def Append : Option Nat → Option ValueHeap
  | none => some heap
  | some in_value => (list_ heap this).map fun list_ => heap.write this (.list (list_ ++ [in_value]))

/-- The loop of `Set` that fills up with null values. -/
def AppendNulls (heap : ValueHeap) (this : Nat) : Nat → Option ValueHeap
  | 0 => some heap
  | n + 1 =>
    let (null,created) := heap.alloc .null
    (Append created this (some null)).bind fun appended => AppendNulls appended this n

def Set (index : Nat) : Option Nat → Option (Bool × ValueHeap)
  | none => some (false,heap)
  | some in_value =>
    (list_ heap this).bind fun list_ =>
      if _ : index < list_.length then
        some (true,(heap.free list_[index]).write this (.list (list_.set index in_value)))
      else
        (AppendNulls heap this (index - list_.length)).bind fun filled =>
          (Append filled this (some in_value)).map fun appended => (true,appended)

def Remove (index : Nat) (out_value : Bool) : Option (Option Nat × ValueHeap) :=
  (list_ heap this).map fun list_ =>
    if _ : index < list_.length then
      let released := if out_value then heap else heap.free list_[index]
      (some list_[index],released.write this (.list (list_.eraseIdx index)))
    else (none,heap)

def FindEqual (equals : Nat → Option Bool) : List Nat → Nat → Option (Option (Nat × Nat))
  | [],_ => some none
  | item::list_,index => (equals item).bind fun same =>
      if same then some (some (index,item)) else FindEqual equals list_ (index + 1)

/-- `Remove(const Value&)`, with the index it returns. -/
def RemoveValue (fuel value : Nat) : Option (Option Nat × ValueHeap) :=
  (list_ heap this).bind fun list_ =>
    (FindEqual (fun item => Logic.Equals heap fuel item value) list_ 0).map fun
      | none => (none,heap)
      | some (index,item) => (some index,(heap.free item).write this (.list (list_.eraseIdx index)))

end ListValue

end Migfm.Logic
