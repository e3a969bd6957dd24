import Migfm.Library.Heap
import Migfm.Library.Links
import Migfm.Library.Runs
import Migfm.Storage.RedisWarrper

/-! The timer of core/clock_task.c: tasks in an intrusive list that each signal walks
through, while tasks are unlinked and freed. -/
namespace Migfm.Chat.ClockTask
open Library
open Storage (c_str)

/-- What a `struct list_head*` points to. -/
inductive Node
  | time_task
  | task (address : Nat)
  deriving DecidableEq

structure time_task where
  id : List UInt8
  opcode : Int32
  time : Int
  current_time : Int
  ncount : Int

/-- What is seen of a task. -/
inductive Done
  | handed (address : Nat) (task : time_task)
  | freed (address : Nat)

def Done.address : Done → Nat
  | .handed address _ => address
  | .freed address => address

/-- `done` is what has been handed to the pool and freed, each with the number of the signal. -/
structure Clock where
  links : Links Node
  tasks : Heap time_task
  ticks : Nat
  done : List (Nat × Done)

def INT_MAX : Int := 2 ^ 31 - 1

/-- The copy that goes to the pool. -/
def time_addtask (task : time_task) : time_task := { task with id := c_str task.id }

/-- What a signal does to a task that is not freed, and the copy if it is due. -/
def time_task.struck (task : time_task) : time_task × Option time_task :=
  let task := { task with current_time := task.current_time + 1 }
  if task.time = task.current_time then
    let task := if task.ncount > -1 then { task with ncount := task.ncount - 1 } else task
    ({ task with current_time := 0 },some (time_addtask task))
  else (task,none)

namespace Clock

/-- The task is unlinked and freed. -/
def release (clock : Clock) (address : Nat) : Option Clock :=
  (clock.links.list_del (.task address)).map fun links =>
    { clock with links,tasks := clock.tasks.free address,done := clock.done ++ [(clock.ticks,.freed address)] }

def list_empty (clock : Clock) : Bool := clock.links.next .time_task = some .time_task

/-- A loop over the tasks. There are no more rounds than tasks that were ever added. -/
def list_for_each_safe (clock : Clock) (body : Node → Clock → Option Clock) : Option Clock :=
  if clock.list_empty then some clock else Links.walk Clock.links body .time_task (clock.tasks.next + 1) clock

/-- `none` is undefined: the task has been freed, or `current_time` overflows. -/
def strike : Node → Clock → Option Clock
  | .time_task,_ => none
  | .task address,clock =>
    (clock.tasks.cell address).bind fun task =>
      if task.current_time = INT_MAX then none
      else
        let (task,copy) := task.struck
        let clock := { clock with
          tasks := clock.tasks.write address task
          done := clock.done ++ copy.toList.map fun copy => (clock.ticks,Done.handed address copy) }
        if task.ncount = 0 then clock.release address else some clock

def on_time_msg (clock : Clock) : Option Clock := { clock with ticks := clock.ticks + 1 }.list_for_each_safe strike

/-- `strcmp` compares what is before the first zero. -/
def dismiss (id : List UInt8) (opcode : Int32) : Node → Clock → Option Clock
  | .time_task,_ => none
  | .task address,clock =>
    (clock.tasks.cell address).bind fun task =>
      if task.opcode = opcode ∧ c_str task.id = c_str id then clock.release address else some clock

def del_time_task (clock : Clock) (id : List UInt8) (opcode : Int32) : Option Clock := clock.list_for_each_safe (dismiss id opcode)

def add_time_task (clock : Clock) (id : List UInt8) (opcode time ncount : Int32) : Option Clock :=
  let (address,tasks) := clock.tasks.alloc ⟨c_str id,opcode,time.toInt,0,ncount.toInt⟩
  (clock.links.list_add_tail (.task address) .time_task).map fun links => { clock with links,tasks }

end Clock

inductive Event
  | on_time_msg
  | add_time_task (id : List UInt8) (opcode time ncount : Int32)
  | del_time_task (id : List UInt8) (opcode : Int32)

/-- A period of at least one second, and a count or none. -/
def Event.Legit : Event → Prop
  | .add_time_task _ _ time ncount => 1 ≤ time.toInt ∧ (1 ≤ ncount.toInt ∨ ncount = -1)
  | _ => True

def step (clock : Clock) : Event → Option Clock
  | .on_time_msg => clock.on_time_msg
  | .add_time_task id opcode time ncount => clock.add_time_task id opcode time ncount
  | .del_time_task id opcode => clock.del_time_task id opcode

def init_clock : Clock := ⟨Links.INIT_LIST_HEAD ⟨fun _ => none,fun _ => none⟩ .time_task,Heap.empty,0,[]⟩

/-! ### The list of the tasks -/

abbrev Item := Nat × time_task

/-- What a task says and what remains of it. -/
def Item.struck (now : Nat) (item : Item) : List (Nat × Done) :=
  item.2.struck.2.toList.map (fun copy => (now,Done.handed item.1 copy)) ++ if item.2.struck.1.ncount = 0 then [(now,.freed item.1)] else []

def Item.remains (item : Item) : Option Item := if item.2.struck.1.ncount = 0 then none else some (item.1,item.2.struck.1)

/-- `strcmp` and the operation code. -/
def Item.kept (id : List UInt8) (opcode : Int32) (item : Item) : Option Item :=
  if item.2.opcode = opcode ∧ c_str item.2.id = c_str id then none else some item

def Item.dismissed (now : Nat) (id : List UInt8) (opcode : Int32) (item : Item) : List (Nat × Done) :=
  if item.2.opcode = opcode ∧ c_str item.2.id = c_str id then [(now,.freed item.1)] else []

/-- A task between two signals. -/
def time_task.Counting (task : time_task) : Prop := 0 ≤ task.current_time ∧ task.current_time < task.time ∧ task.time ≤ INT_MAX

/-- The clock has the tasks of a list, in its order. -/
structure Holds (now next : Nat) (clock : Clock) (items : List Item) (done : List (Nat × Done)) : Prop where
  ring : clock.links.Ring .time_task (items.map fun item => .task item.1)
  cells : ∀ item ∈ items, clock.tasks.cell item.1 = some item.2
  only : ∀ address, (∀ item ∈ items, item.1 ≠ address) → clock.tasks.cell address = none
  counting : ∀ item ∈ items, item.2.Counting
  said : clock.done = done
  ticks : clock.ticks = now
  handed : clock.tasks.next = next

section Steps
variable {now next : Nat} {clock : Clock} {front back items : List Item} {item : Item} {words : List (Nat × Done)}

theorem forall_middle {P : Item → Prop} : (∀ other ∈ front ++ item::back, P other) ↔ P item ∧ ∀ other ∈ front ++ back, P other := by
  rw [List.forall_mem_append,List.forall_mem_cons,List.forall_mem_append]
  exact and_left_comm

theorem Holds.apart (holds : Holds now next clock (front ++ item::back) words) : ∀ other ∈ front ++ back, other.1 ≠ item.1 := by
  intro other member same
  have distinct := (List.nodup_cons.mp holds.ring.distinct).2
  rw [List.map_append,List.map_cons,List.nodup_middle,List.nodup_cons,← List.map_append] at distinct
  exact distinct.1 (List.mem_map.mpr ⟨other,member,congrArg Node.task same⟩)

theorem Holds.write (holds : Holds now next clock (front ++ item::back) words) {task : time_task} (counting : task.Counting)
    (more : List (Nat × Done)) :
    Holds now next { clock with tasks := clock.tasks.write item.1 task,done := clock.done ++ more } (front ++ (item.1,task)::back)
      (words ++ more) := by
  obtain ⟨held,cells⟩ := forall_middle.mp holds.cells
  refine ⟨?_,forall_middle.mpr ⟨?_,?_⟩,?_,forall_middle.mpr ⟨counting,(forall_middle.mp holds.counting).2⟩,
    congrArg (· ++ more) holds.said,holds.ticks,holds.handed⟩
  · have ring := holds.ring
    rw [List.map_append,List.map_cons] at ring ⊢
    exact ring
  · exact Heap.write_cell_self.trans (congrArg (Option.map fun _ => task) held)
  · intro other member
    exact (Heap.write_cell_ne (holds.apart other member)).trans (cells other member)
  · intro address absent
    obtain ⟨here,others⟩ := forall_middle.mp absent
    exact (Heap.write_cell_ne here.symm).trans (holds.only address (forall_middle.mpr ⟨here,others⟩))

theorem Holds.release (holds : Holds now next clock (front ++ item::back) words) :
    ∃ freed, clock.release item.1 = some freed ∧ Holds now next freed (front ++ back) (words ++ [(now,.freed item.1)]) := by
  have ring := holds.ring
  rw [List.map_append,List.map_cons] at ring
  obtain ⟨links,unlinked,rest⟩ := ring.del
  rw [← List.map_append] at rest
  obtain ⟨held,cells⟩ := forall_middle.mp holds.cells
  obtain rfl := holds.ticks
  refine ⟨{ clock with links,tasks := clock.tasks.free item.1,done := clock.done ++ [(clock.ticks,.freed item.1)] },
    by rw [Clock.release,unlinked]; rfl,rest,?_,?_,(forall_middle.mp holds.counting).2,congrArg (· ++ _) holds.said,rfl,holds.handed⟩
  · intro other member
    exact (Heap.free_cell_ne (holds.apart other member)).trans (cells other member)
  · intro address absent
    by_cases here : item.1 = address
    · exact here ▸ Heap.free_cell_self
    · exact (Heap.free_cell_ne (Ne.symm here)).trans (holds.only address (forall_middle.mpr ⟨here,absent⟩))

theorem time_task.Counting.struck {task : time_task} (counting : task.Counting) :
    task.current_time ≠ INT_MAX ∧ task.struck.1.Counting := by
  obtain ⟨natural,before,small⟩ := counting
  refine ⟨by omega,?_⟩
  rw [time_task.struck]
  dsimp only
  by_cases due : task.time = task.current_time + 1
  · rw [if_pos due]
    split
    · exact ⟨le_rfl,by dsimp only; omega,small⟩
    · exact ⟨le_rfl,by dsimp only; omega,small⟩
  · rw [if_neg due]
    exact ⟨by dsimp only; omega,by dsimp only; omega,small⟩

theorem Holds.strike (holds : Holds now next clock (front ++ item::back) words) :
    ∃ struck, Clock.strike (.task item.1) clock = some struck ∧
      Holds now next struck (front ++ (item.remains.toList ++ back)) (words ++ item.struck now) := by
  obtain ⟨held,-⟩ := forall_middle.mp holds.cells
  obtain ⟨apart,counting⟩ := (forall_middle.mp holds.counting).1.struck
  obtain rfl := holds.ticks
  have written := holds.write counting (item.2.struck.2.toList.map fun copy => (clock.ticks,Done.handed item.1 copy))
  rw [Clock.strike,held,Option.bind_some,if_neg apart]
  dsimp only
  rw [Item.struck,Item.remains]
  by_cases ended : item.2.struck.1.ncount = 0
  · rw [if_pos ended,if_pos ended,if_pos ended,← List.append_assoc words]
    exact written.release
  · rw [if_neg ended,if_neg ended,if_neg ended,List.append_nil]
    exact ⟨_,rfl,written⟩

theorem Holds.dismiss (holds : Holds now next clock (front ++ item::back) words) (id : List UInt8) (opcode : Int32) :
    ∃ after, Clock.dismiss id opcode (.task item.1) clock = some after ∧
      Holds now next after (front ++ ((item.kept id opcode).toList ++ back)) (words ++ item.dismissed now id opcode) := by
  obtain ⟨held,-⟩ := forall_middle.mp holds.cells
  rw [Clock.dismiss,held,Option.bind_some,Item.kept,Item.dismissed]
  by_cases named : item.2.opcode = opcode ∧ c_str item.2.id = c_str id
  · rw [if_pos named,if_pos named,if_pos named]
    exact holds.release
  · rw [if_neg named,if_neg named,if_neg named,List.append_nil]
    exact ⟨_,rfl,holds⟩

/-- There are no more items than addresses. -/
theorem Holds.length_le (holds : Holds now next clock items words) : items.length ≤ next := by
  have distinct : (items.map Prod.fst).Nodup := by
    have nodes : ((items.map Prod.fst).map Node.task).Nodup := by
      rw [List.map_map]
      exact (List.nodup_cons.mp holds.ring.distinct).2
    exact nodes.of_map
  have small : items.map Prod.fst ⊆ List.range next := by
    intro address member
    obtain ⟨item,listed,rfl⟩ := List.mem_map.mp member
    exact List.mem_range.mpr (holds.handed ▸ Heap.lt_next (holds.cells item listed))
  have fits := (List.subperm_of_subset distinct small).length_le
  rwa [List.length_map,List.length_range] at fits

theorem Holds.loop {body : Node → Clock → Option Clock} (keeps : Item → Option Item) (tells : Item → List (Nat × Done))
    (each : ∀ {clock front item back words}, Holds now next clock (front ++ item::back) words →
      ∃ after, body (.task item.1) clock = some after ∧ Holds now next after (front ++ ((keeps item).toList ++ back)) (words ++ tells item))
    (holds : Holds now next clock items words) :
    ∃ after, clock.list_for_each_safe body = some after ∧ Holds now next after (items.filterMap keeps) (words ++ items.flatMap tells) := by
  rw [Clock.list_for_each_safe]
  by_cases empty : clock.list_empty = true
  · have none_ : items = [] := by
      have first := holds.ring.path.next_first
      rw [of_decide_eq_true empty,Option.some_inj] at first
      cases items with
      | nil => rfl
      | cons item items => cases first
    subst none_
    rw [if_pos empty,List.flatMap_nil,List.append_nil]
    exact ⟨clock,rfl,holds⟩
  · rw [if_neg empty,holds.handed]
    exact Links.walk_rule (Holds now next) keeps tells (fun held => held.ring) each holds (Nat.lt_succ_of_le holds.length_le)

end Steps

/-! ### Runs -/

/-- The tasks without the links between them. -/
structure Book where
  items : List Item
  next : Nat
  ticks : Nat
  done : List (Nat × Done)

def Book.step (book : Book) : Event → Book
  | .on_time_msg =>
    { book with
      items := book.items.filterMap Item.remains
      ticks := book.ticks + 1
      done := book.done ++ book.items.flatMap (Item.struck (book.ticks + 1)) }
  | .add_time_task id opcode time ncount =>
    { book with items := book.items ++ [(book.next,⟨c_str id,opcode,time.toInt,0,ncount.toInt⟩)],next := book.next + 1 }
  | .del_time_task id opcode =>
    { book with
      items := book.items.filterMap (Item.kept id opcode)
      done := book.done ++ book.items.flatMap (Item.dismissed book.ticks id opcode) }

def Keeps (clock : Clock) (book : Book) : Prop := Holds book.ticks book.next clock book.items book.done

theorem keeps_init : Keeps init_clock ⟨[],0,0,[]⟩ :=
  ⟨Links.ring_init,fun _ none_ => absurd none_ List.not_mem_nil,fun _ _ => rfl,fun _ none_ => absurd none_ List.not_mem_nil,rfl,rfl,rfl⟩

section Run
variable {clock : Clock} {book : Book}

theorem Keeps.add (keeps : Keeps clock book) (id : List UInt8) (opcode : Int32) {time ncount : Int32} (period : 1 ≤ time.toInt) :
    ∃ after, clock.add_time_task id opcode time ncount = some after ∧
      Keeps after (book.step (.add_time_task id opcode time ncount)) := by
  have unlinked : Node.task clock.tasks.next ∉ Node.time_task::book.items.map fun item => .task item.1 := by
    rw [List.mem_cons,not_or]
    refine ⟨Node.noConfusion,fun member => ?_⟩
    obtain ⟨item,listed,same⟩ := List.mem_map.mp member
    exact absurd (Heap.lt_next (keeps.cells item listed)) (Node.task.inj same ▸ lt_irrefl _)
  obtain ⟨links,added,ring⟩ := keeps.ring.add_tail unlinked
  have address : clock.tasks.next = book.next := keeps.handed
  refine ⟨{ clock with links,tasks := (clock.tasks.alloc ⟨c_str id,opcode,time.toInt,0,ncount.toInt⟩).2 },?_,?_,?_,?_,?_,keeps.said,
    keeps.ticks,congrArg (· + 1) address⟩
  · exact congrArg (Option.map fun links => ({ clock with
      links
      tasks := (clock.tasks.alloc ⟨c_str id,opcode,time.toInt,0,ncount.toInt⟩).2 } : Clock)) added
  · rw [Book.step,List.map_append,← address]
    exact ring
  · rw [Book.step,List.forall_mem_append,List.forall_mem_singleton,← address]
    refine ⟨?_,Heap.alloc_cell_self⟩
    intro item listed
    have held := keeps.cells item listed
    exact (Heap.alloc_cell_ne (Nat.ne_of_lt (Heap.lt_next held))).trans held
  · intro absent elsewhere
    rw [Book.step,List.forall_mem_append,List.forall_mem_singleton,← address] at elsewhere
    exact (Heap.alloc_cell_ne elsewhere.2.symm).trans (keeps.only absent elsewhere.1)
  · rw [Book.step,List.forall_mem_append,List.forall_mem_singleton]
    exact ⟨keeps.counting,le_rfl,period,Int.le_sub_one_of_lt time.toInt_lt⟩

theorem Keeps.step (keeps : Keeps clock book) {event : Event} (legit : event.Legit) :
    ∃ after, step clock event = some after ∧ Keeps after (book.step event) := by
  cases event with
  | on_time_msg =>
    have ticked : Holds (book.ticks + 1) book.next { clock with ticks := clock.ticks + 1 } book.items book.done :=
      ⟨keeps.ring,keeps.cells,keeps.only,keeps.counting,keeps.said,congrArg (· + 1) keeps.ticks,keeps.handed⟩
    exact ticked.loop Item.remains (Item.struck (book.ticks + 1)) Holds.strike
  | add_time_task id opcode time ncount => exact keeps.add id opcode legit.1
  | del_time_task id opcode => exact Holds.loop (Item.kept id opcode) (Item.dismissed book.ticks id opcode) (fun holds => holds.dismiss id opcode) keeps

theorem Keeps.run (keeps : Keeps clock book) {events : List Event} (legit : ∀ event ∈ events, event.Legit) :
    ∃ after, Runs.run ClockTask.step clock events = some after ∧ Keeps after (events.foldl Book.step book) := by
  induction events generalizing clock book with
  | nil => exact ⟨clock,rfl,keeps⟩
  | cons event events ih =>
    obtain ⟨first,rest⟩ := List.forall_mem_cons.mp legit
    obtain ⟨next,stepped,still⟩ := keeps.step first
    obtain ⟨after,ran,kept⟩ := ih still rest
    exact ⟨after,Option.bind_eq_some_iff.mpr ⟨next,stepped,ran⟩,kept⟩

end Run

end Migfm.Chat.ClockTask
