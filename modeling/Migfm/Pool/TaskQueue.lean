import Migfm.Library.Ordered

/-! The queue of chat/core/base_threadpool.c: a ring of tasks by priority and, for
each segment of priorities, a pointer into it. No task is scheduled for a time, no
limit ends the memory and every thread can be created. -/
namespace Migfm.Pool
open Library.Ordered

/-- The functions that thread.c hands to the pool. -/
inductive Func
  | usr_trun
  | sys_trun
  | time_trun
  deriving DecidableEq

/-- The function of a task and what it is called with; addresses are numbers. -/
structure Work where
  func : Func
  flag : Int
  param : Nat
  deriving DecidableEq

/-- `call` and `push` are not in the source: which call filled the object, and by which entry. -/
structure Task where
  addr : Nat
  work : Work
  owner : Nat
  priority : Int
  call : Nat
  push : Bool
  deriving DecidableEq

def segment (priority : Int) : Nat := (priority % 256 / 64).toNat

def TASK_PRIORITY_SEG (task : Task) : Nat := segment task.priority

/-- The ring `tasks` starts behind its sentinel. `heap` is where the next new object comes to lie;
`calls` counts the objects filled. -/
structure Threadpool where
  thd_max : Nat
  idle_max : Nat
  idle_wait : Int
  thd_cnt : Nat
  idle_cnt : Nat
  task_cnt : Nat
  threshold : Nat
  tasks : List Task
  recycled_tasks : List Nat
  task_idx : Nat → Option Nat
  task_max : Nat
  heap : Nat
  calls : Nat

def thread_pool_construct (init_threads max_threads max_tasks : Nat) : Threadpool where
  thd_max := max_threads
  idle_max := init_threads
  idle_wait := 0
  thd_cnt := 0
  idle_cnt := 0
  task_cnt := 0
  threshold := init_threads / 2
  tasks := []
  recycled_tasks := []
  task_idx := fun _ => none
  task_max := max_tasks
  heap := 0
  calls := 0

/-- A pointer into the ring is the tasks from it on; the sentinel has none. -/
def pointed (tasks : List Task) (addr : Nat) : List Task := tasks.dropWhile fun task => task.addr != addr

/-- `BASE_RING_INSERT_BEFORE`. -/
def insertBefore (tasks loc : List Task) (task : Task) : List Task :=
  tasks.take (tasks.length - loc.length) ++ task :: loc

def task_new (me : Threadpool) (work : Work) (priority : Int) (push : Bool) (owner : Nat) : Task × Threadpool :=
  match me.recycled_tasks with
  | [] => (⟨me.heap,work,owner,priority,me.calls,push⟩,{me with heap := me.heap + 1, calls := me.calls + 1})
  | addr::rest => (⟨addr,work,owner,priority,me.calls,push⟩,{me with recycled_tasks := rest, calls := me.calls + 1})

/-- The loop `for (next = seg - 1; next >= 0; next--)`. -/
def nextLower (task_idx : Nat → Option Nat) : Nat → Option Nat
  | 0 => none
  | next + 1 => match task_idx next with
    | some addr => some addr
    | none => nextLower task_idx next

/-- `none` when the task is in the ring already. -/
def add_if_empty (me : Threadpool) (t : Task) : Option (List Task) × Threadpool :=
  let seg := TASK_PRIORITY_SEG t
  match me.task_idx seg with
  | some addr => (some ((pointed me.tasks addr).dropWhile fun t_next => decide (t.priority < t_next.priority)),me)
  | none =>
    let tasks := match nextLower me.task_idx seg with
      | some addr => insertBefore me.tasks (pointed me.tasks addr) t
      | none => me.tasks ++ [t]
    (none,{me with tasks := tasks, task_idx := Function.update me.task_idx seg (some t.addr)})

/-- The part of `add_task` that finds the place of the task in the ring. -/
def insertTask (me : Threadpool) (t : Task) : Threadpool :=
  match add_if_empty me t with
  | (none,me) => me
  | (some t_loc,me) =>
    if t.push then
      let t_loc := t_loc.dropWhile fun t_loc => decide (t.priority ≤ t_loc.priority)
      {me with tasks := insertBefore me.tasks t_loc t}
    else
      let task_idx := if t_loc.head?.map (·.addr) = me.task_idx (TASK_PRIORITY_SEG t)
        then Function.update me.task_idx (TASK_PRIORITY_SEG t) (some t.addr) else me.task_idx
      {me with tasks := insertBefore me.tasks t_loc t, task_idx := task_idx}

/-- The task and whether a thread is created for it; no outcome is `ERANGE`. -/
def add_task (me : Threadpool) (work : Work) (priority : Int) (push : Bool) (owner : Nat) : Option (Bool × Threadpool) :=
  if me.task_max ≠ 0 ∧ me.task_max ≤ me.task_cnt then none
  else
    let (t,me) := task_new me work priority push owner
    let me := insertTask me t
    let me := {me with task_cnt := me.task_cnt + 1}
    if me.thd_cnt = 0 ∨ (me.idle_cnt = 0 ∧ me.thd_cnt < me.thd_max ∧ me.threshold < me.task_cnt) then
      some (true,{me with thd_cnt := me.thd_cnt + 1})
    else some (false,me)

def base_threadpool_addtask (me : Threadpool) (work : Work) (priority : Int) (owner : Nat) : Option (Bool × Threadpool) :=
  add_task me work priority true owner

def base_threadpool_top (me : Threadpool) (work : Work) (priority : Int) (owner : Nat) : Option (Bool × Threadpool) :=
  add_task me work priority false owner

/-- A pointer of the index that names the task moves on to the next one, if that is of the segment. -/
def moveOn (task_idx : Nat → Option Nat) (task : Task) (rest : List Task) : Nat → Option Nat :=
  let seg := TASK_PRIORITY_SEG task
  if task_idx seg = some task.addr then
    Function.update task_idx seg (match rest with
      | next::_ => if TASK_PRIORITY_SEG next = seg then some next.addr else none
      | [] => none)
  else task_idx

def pop_task (me : Threadpool) : Option Task × Threadpool :=
  if me.task_cnt = 0 then (none,me)
  else match me.tasks with
    | task::rest =>
      (some task,{me with task_cnt := me.task_cnt - 1, task_idx := moveOn me.task_idx task rest, tasks := rest})
    | [] => (none,me)

/-- The loop of `remove_tasks` from a place in the ring on. -/
def removeFrom (owner : Nat) : List Task → Nat → (Nat → Option Nat) → List Task × Nat × (Nat → Option Nat)
  | [],task_cnt,task_idx => ([],task_cnt,task_idx)
  | t_loc::next,task_cnt,task_idx =>
    if t_loc.owner = owner then removeFrom owner next (task_cnt - 1) (moveOn task_idx t_loc next)
    else
      let (tasks,task_cnt,task_idx) := removeFrom owner next task_cnt task_idx
      (t_loc::tasks,task_cnt,task_idx)

def remove_tasks (me : Threadpool) (owner : Nat) : Threadpool :=
  let (tasks,task_cnt,task_idx) := removeFrom owner me.tasks me.task_cnt me.task_idx
  {me with tasks := tasks, task_cnt := task_cnt, task_idx := task_idx}

def base_threadpool_cancel_tasks (me : Threadpool) (owner : Nat) : Threadpool :=
  if 0 < me.task_cnt then remove_tasks me owner else me

end Migfm.Pool
