import Mathlib.Logic.Function.Basic
import Migfm.Library.Slots

/-! Intrusive lists: a ring of nodes around a head, linked in both directions. A node
that is not linked has no neighbours. -/
namespace Migfm.Library

structure Links (Node : Type) where
  next : Node → Option Node
  prev : Node → Option Node

namespace Links
variable {Node : Type}

section Edit
variable [DecidableEq Node]

def INIT_LIST_HEAD (links : Links Node) (head : Node) : Links Node :=
  ⟨Function.update links.next head (some head),Function.update links.prev head (some head)⟩

/-- `first` is followed by `second`. -/
def join (links : Links Node) (first second : Node) : Links Node :=
  ⟨Function.update links.next first (some second),Function.update links.prev second (some first)⟩

def list_add_tail (links : Links Node) (node head : Node) : Option (Links Node) :=
  (links.prev head).map fun last => (links.join node head).join last node

def list_del (links : Links Node) (entry : Node) : Option (Links Node) :=
  (links.prev entry).bind fun before => (links.next entry).map fun behind =>
    let links := links.join before behind
    ⟨Function.update links.next entry none,Function.update links.prev entry none⟩

end Edit

section Walk
variable [DecidableEq Node] {State : Type} (links : State → Links Node) (body : Node → State → Option State)

/-- `tmp` has been read from the list, and `n` from `tmp`, before the body runs. -/
def list_for_each_safe (head : Node) : Nat → Node → Node → State → Option State
  | 0,_,_,_ => none
  | fuel + 1,tmp,n,state =>
    if tmp = head then some state
    else
      (body tmp state).bind fun state => ((links state).next n).bind fun behind => list_for_each_safe head fuel n behind state

/-- The loop from the first node on. -/
def walk (head : Node) (fuel : Nat) (state : State) : Option State :=
  ((links state).next head).bind fun tmp => ((links state).next tmp).bind fun n => list_for_each_safe links body head fuel tmp n state

end Walk

/-! ### Rings -/

/-- The nodes from `first` to `last`, with those in between. -/
def Path (links : Links Node) : Node → List Node → Node → Prop
  | first,[],last => links.next first = some last ∧ links.prev last = some first
  | first,node::nodes,last => (links.next first = some node ∧ links.prev node = some first) ∧ Path links node nodes last

structure Ring (links : Links Node) (head : Node) (nodes : List Node) : Prop where
  path : links.Path head nodes head
  distinct : (head::nodes).Nodup

variable {links changed : Links Node} {head first last node : Node} {nodes more : List Node}

theorem path_append : links.Path first (nodes ++ node::more) last ↔ links.Path first nodes node ∧ links.Path node more last := by
  induction nodes generalizing first with
  | nil => exact Iff.rfl
  | cons inner nodes ih =>
    rw [List.cons_append,Path,Path,ih]
    exact and_assoc.symm

theorem Path.congr (path : links.Path first nodes last) (nexts : ∀ node ∈ first::nodes, changed.next node = links.next node)
    (prevs : ∀ node ∈ nodes ++ [last], changed.prev node = links.prev node) : changed.Path first nodes last := by
  induction nodes generalizing first with
  | nil => exact ⟨(nexts _ List.mem_cons_self).trans path.1,(prevs _ List.mem_cons_self).trans path.2⟩
  | cons inner nodes ih =>
    refine ⟨⟨(nexts _ List.mem_cons_self).trans path.1.1,(prevs _ List.mem_cons_self).trans path.1.2⟩,ih path.2 ?_ ?_⟩
    · exact fun node member => nexts node (List.mem_cons_of_mem _ member)
    · exact fun node member => prevs node (List.mem_cons_of_mem _ member)

/-- The node before the last one. -/
def before (first : Node) (nodes : List Node) : Node := nodes.getLastD first

theorem before_cons : before first (node::nodes) = before node nodes := by
  rw [before,before,List.getLastD_cons]

theorem before_mem : before first nodes ∈ first::nodes := by
  induction nodes generalizing first with
  | nil => exact List.mem_cons_self
  | cons inner nodes ih =>
    rw [before_cons]
    exact List.mem_cons_of_mem _ ih

theorem Path.prev_last (path : links.Path first nodes last) : links.prev last = some (before first nodes) := by
  induction nodes generalizing first with
  | nil => exact path.2
  | cons inner nodes ih =>
    rw [before_cons]
    exact ih path.2

/-- The last link of a path is turned to another node. -/
theorem Path.relink {target : Node} (path : links.Path first nodes last) (distinct : (first::nodes).Nodup)
    (nexts : ∀ node ∈ first::nodes, node ≠ before first nodes → changed.next node = links.next node)
    (prevs : ∀ node ∈ nodes, changed.prev node = links.prev node) (next : changed.next (before first nodes) = some target)
    (prev : changed.prev target = some (before first nodes)) : changed.Path first nodes target := by
  induction nodes generalizing first with
  | nil => exact ⟨next,prev⟩
  | cons inner nodes ih =>
    rw [before_cons] at nexts next prev
    obtain ⟨absent,distinct⟩ := List.nodup_cons.mp distinct
    have apart : first ≠ before inner nodes := fun same => absent (same ▸ before_mem)
    refine ⟨⟨(nexts _ List.mem_cons_self apart).trans path.1.1,(prevs _ List.mem_cons_self).trans path.1.2⟩,?_⟩
    exact ih path.2 distinct (fun node member => nexts node (List.mem_cons_of_mem _ member))
      (fun node member => prevs node (List.mem_cons_of_mem _ member)) next prev

theorem Path.next_first (path : links.Path first nodes last) : links.next first = some (nodes.headD last) := by
  cases nodes with
  | nil => exact path.1
  | cons inner nodes => exact path.1.1

/-- What is read from the first node of the last items. -/
theorem next_of_ring {Item : Type} {node : Item → Node} {done items : List Item} (ring : links.Ring head ((done ++ items).map node)) :
    ∃ n, links.next ((items.map node).headD head) = some n ∧ (items ≠ [] → n = (items.tail.map node).headD head) := by
  cases items with
  | nil => exact ⟨_,ring.path.next_first,fun some_ => absurd rfl some_⟩
  | cons item items =>
    have path := ring.path
    rw [List.map_append,List.map_cons] at path
    exact ⟨_,(path_append.mp path).2.next_first,fun _ => rfl⟩

section Operations
variable [DecidableEq Node]

theorem ring_init : (links.INIT_LIST_HEAD head).Ring head [] :=
  ⟨⟨Function.update_self ..,Function.update_self ..⟩,List.nodup_singleton _⟩

theorem Ring.add_tail (ring : links.Ring head nodes) (new : node ∉ head::nodes) :
    ∃ changed, links.list_add_tail node head = some changed ∧ changed.Ring head (nodes ++ [node]) := by
  obtain ⟨absent,distinct⟩ := List.nodup_cons.mp ring.distinct
  have other : ∀ inner ∈ head::nodes, inner ≠ node := fun inner member same => new (same ▸ member)
  have last : before head nodes ∈ head::nodes := before_mem
  refine ⟨(links.join node head).join (before head nodes) node,?_,?_,?_⟩
  · rw [list_add_tail,ring.path.prev_last]
    rfl
  · refine path_append.mpr ⟨ring.path.relink ring.distinct ?_ ?_ (Function.update_self ..) (Function.update_self ..),?_,?_⟩
    · intro inner member apart
      exact (Function.update_of_ne apart ..).trans (Function.update_of_ne (other inner member) ..)
    · intro inner member
      have apart : inner ≠ head := fun same => absent (same ▸ member)
      exact (Function.update_of_ne (other inner (List.mem_cons_of_mem _ member)) ..).trans (Function.update_of_ne apart ..)
    · exact (Function.update_of_ne (other _ last).symm ..).trans (Function.update_self ..)
    · exact (Function.update_of_ne (other head List.mem_cons_self) ..).trans (Function.update_self ..)
  · rw [← List.cons_append,List.nodup_append]
    exact ⟨ring.distinct,List.nodup_singleton _,fun inner member _ single => List.mem_singleton.mp single ▸ other inner member⟩

/-- The entry goes, the others keep their order. -/
theorem Ring.del {entry : Node} (ring : links.Ring head (nodes ++ entry::more)) :
    ∃ changed, links.list_del entry = some changed ∧ changed.Ring head (nodes ++ more) := by
  obtain ⟨front,back⟩ := path_append.mp ring.path
  have distinct := ring.distinct
  rw [← List.cons_append,List.nodup_append,List.nodup_cons (a := entry)] at distinct
  obtain ⟨inFront,⟨absent,inBack⟩,disjoint⟩ := distinct
  have gone : ∀ inner ∈ head::nodes, inner ≠ entry := fun inner member => disjoint inner member entry List.mem_cons_self
  have apart : ∀ inner ∈ head::nodes, ∀ later ∈ more, inner ≠ later := fun inner member later within =>
    disjoint inner member later (List.mem_cons_of_mem _ within)
  have last : before head nodes ∈ head::nodes := before_mem
  refine ⟨_,by rw [list_del,front.prev_last,back.next_first]; rfl,?_,?_⟩
  · have relinked (target : Node) (outside : target ∉ nodes) (still : target ≠ entry) (behind : more.headD head = target) :
        Links.Path ⟨Function.update (links.join (before head nodes) (more.headD head)).next entry none,
          Function.update (links.join (before head nodes) (more.headD head)).prev entry none⟩ head nodes target := by
      rw [behind]
      refine front.relink inFront ?_ ?_ ?_ ?_
      · intro inner member other
        exact (Function.update_of_ne (gone inner member) ..).trans (Function.update_of_ne other ..)
      · intro inner member
        have other : inner ≠ target := fun same => outside (same ▸ member)
        exact (Function.update_of_ne (gone inner (List.mem_cons_of_mem _ member)) ..).trans (Function.update_of_ne other ..)
      · exact (Function.update_of_ne (gone _ last) ..).trans (Function.update_self ..)
      · exact (Function.update_of_ne still ..).trans (Function.update_self ..)
    have outside := (List.nodup_cons.mp inFront).1
    have still := gone head List.mem_cons_self
    cases more with
    | nil =>
      rw [List.append_nil]
      exact relinked head outside still rfl
    | cons behind more =>
      obtain ⟨only,-⟩ := List.nodup_cons.mp inBack
      have kept : ∀ inner ∈ behind::more, inner ≠ entry := fun inner member same => absent (same ▸ member)
      have first : behind ∉ nodes := fun member => apart behind (List.mem_cons_of_mem _ member) behind List.mem_cons_self rfl
      refine path_append.mpr ⟨relinked behind first (kept behind List.mem_cons_self) rfl,back.2.congr ?_ ?_⟩
      · intro inner member
        exact (Function.update_of_ne (kept inner member) ..).trans (Function.update_of_ne (apart _ last inner member).symm ..)
      · intro inner member
        have other : inner ≠ entry ∧ inner ≠ behind := by
          obtain within | single := List.mem_append.mp member
          · exact ⟨kept inner (List.mem_cons_of_mem _ within),fun same => only (same ▸ within)⟩
          · rw [List.mem_singleton.mp single]
            exact ⟨still,apart head List.mem_cons_self behind List.mem_cons_self⟩
        exact (Function.update_of_ne other.1 ..).trans (Function.update_of_ne other.2 ..)
  · rw [← List.cons_append,List.nodup_append]
    exact ⟨inFront,inBack,apart⟩

section Pass
variable {State Item Word : Type} {links : State → Links Node} {body : Node → State → Option State} {node : Item → Node}
  (Holds : State → List Item → List Word → Prop) (keeps : Item → Option Item) (tells : Item → List Word)
  (ring : ∀ {state items words}, Holds state items words → (links state).Ring head (items.map node))
  (each : ∀ {state done item items words}, Holds state (done ++ item::items) words →
    ∃ next, body (node item) state = some next ∧ Holds next (done ++ ((keeps item).toList ++ items)) (words ++ tells item))
include ring each

theorem pass_rule {state : State} {done items : List Item} {words : List Word} (start : Holds state (done ++ items) words) {fuel : Nat}
    (enough : items.length < fuel) {n : Node} (saved : items ≠ [] → n = (items.tail.map node).headD head) :
    ∃ next, list_for_each_safe links body head fuel ((items.map node).headD head) n state = some next ∧
      Holds next (done ++ items.filterMap keeps) (words ++ items.flatMap tells) := by
  induction items generalizing state done words fuel n with
  | nil =>
    obtain ⟨fuel,rfl⟩ : ∃ less, fuel = less + 1 := ⟨fuel - 1,by omega⟩
    rw [List.flatMap_nil,List.append_nil]
    exact ⟨state,if_pos rfl,start⟩
  | cons item items ih =>
    obtain ⟨fuel,rfl⟩ : ∃ less, fuel = less + 1 := ⟨fuel - 1,by omega⟩
    have rings := (ring start).distinct
    rw [List.map_append,List.map_cons] at rings
    have apart : node item ≠ head := by
      intro same
      exact (List.nodup_cons.mp rings).1 (same ▸ List.mem_append_right _ List.mem_cons_self)
    obtain ⟨next,ran,holds⟩ := each start
    rw [← List.append_assoc] at holds
    -- the node that was saved is still linked
    obtain ⟨behind,found,follows⟩ := next_of_ring (ring holds)
    rw [List.map_cons,List.headD_cons,list_for_each_safe,if_neg apart,ran,Option.bind_some,saved (List.cons_ne_nil _ _),
      List.tail_cons,found,Option.bind_some]
    obtain ⟨final,ends,rests⟩ := ih holds (Nat.lt_of_succ_lt_succ enough) follows
    refine ⟨final,ends,?_⟩
    rw [Slots.filterMap_cons_toList,List.flatMap_cons,← List.append_assoc,← List.append_assoc]
    exact rests

/-- One pass of a loop whose body keeps or unlinks the item that it is at. -/
theorem walk_rule {state : State} {items : List Item} {words : List Word} (start : Holds state items words) {fuel : Nat}
    (enough : items.length < fuel) :
    ∃ next, walk links body head fuel state = some next ∧ Holds next (items.filterMap keeps) (words ++ items.flatMap tells) := by
  have whole : Holds state ([] ++ items) words := start
  obtain ⟨n,found,saved⟩ := next_of_ring (ring whole)
  obtain ⟨final,ends,rests⟩ := pass_rule Holds keeps tells ring each whole enough saved
  refine ⟨final,?_,rests⟩
  rw [walk,(ring start).path.next_first,Option.bind_some,found,Option.bind_some]
  exact ends

end Pass
end Operations

end Links
end Migfm.Library
