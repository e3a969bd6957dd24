import Migfm.Pool.Order
import Migfm.Library.Slots

/-! The workers of the pool of chat/core/thread.c. A step is what one thread does under the
lock of the pool; nobody stops the pool or changes its limits. -/
namespace Migfm.Pool
open Library.Ordered Library.Runs Library.Slots

inductive ThdState
  | TH_RUN
  | TH_PROBATION
  deriving DecidableEq

/-- Where a worker is outside the lock: not yet in `thread_pool_func`, in the function of a task, in
`base_wait_threadcond`, or back from `thread_pool_func`. -/
inductive Stage
  | created
  | running (task : Task)
  | waiting
  | gone
  deriving DecidableEq

structure Worker where
  stage : Stage
  state : ThdState
  deriving DecidableEq

/-- A section of `thread_pool_func`: from the first `pop_task` of the loop, or the one after a task,
to where the lock is given back. -/
def look (me : Threadpool) (state : ThdState) : Worker × Threadpool :=
  match pop_task me with
  | (some task,me) => (⟨.running task,state⟩,me)
  | (none,me) =>
    if (me.idle_max ≤ me.idle_cnt ∧ me.idle_wait = 0) ∨ state ≠ .TH_RUN then
      (⟨.gone,state⟩,{me with thd_cnt := me.thd_cnt - 1})
    else
      let me := {me with idle_cnt := me.idle_cnt + 1}
      (⟨.waiting,if me.idle_max < me.idle_cnt then .TH_PROBATION else state⟩,me)

/-- The section a worker comes to next. -/
def thread_pool_func (me : Threadpool) (worker : Worker) : Option (Worker × Threadpool) :=
  match worker.stage with
  | .created => some (look me .TH_RUN)
  | .running task => some (look {me with recycled_tasks := me.recycled_tasks ++ [task.addr]} worker.state)
  | .waiting => some (look {me with idle_cnt := me.idle_cnt - 1} worker.state)
  | .gone => none

/-- The pool and its workers in the order of their creation; what was added, and which worker called
the function of which task. -/
structure Server where
  thrp : Threadpool
  workers : List Worker
  added : List Task
  executed : List (Nat × Task)

def init_threadpool (max_worker : Nat) : Server := ⟨thread_pool_construct 0 max_worker 0,[],[],[]⟩

def addWork (srv : Server) (work : Work) : Option Server := do
  let (created,thrp) ← base_threadpool_addtask srv.thrp work 0 0
  return {srv with
    thrp := thrp
    workers := if created then srv.workers ++ [⟨.created,.TH_RUN⟩] else srv.workers
    added := srv.added ++ [(task_new srv.thrp work 0 true 0).1]}

def sys_addtask (srv : Server) (fd : Int) (data : Nat) : Option Server :=
  if data = 0 then some srv else addWork srv ⟨.sys_trun,fd,data⟩

/-- `new_task` is where the copy of the time task lies. -/
def time_addtask (srv : Server) (new_task : Nat) : Option Server := addWork srv ⟨.time_trun,0,new_task⟩

def Stage.call (worker : Nat) : Stage → List (Nat × Task)
  | .running task => [(worker,task)]
  | _ => []

inductive Event
  | sys_addtask (fd : Int) (data : Nat)
  | time_addtask (new_task : Nat)
  | worker (k : Nat)

def step (srv : Server) : Event → Option Server
  | .sys_addtask fd data => sys_addtask srv fd data
  | .time_addtask new_task => time_addtask srv new_task
  | .worker k => do
    let worker ← srv.workers[k]?
    let (worker,thrp) ← thread_pool_func srv.thrp worker
    return {srv with
      thrp := thrp
      workers := srv.workers.set k worker
      executed := srv.executed ++ worker.stage.call k}

def Worker.live (worker : Worker) : Bool := worker.stage != .gone

/-- The task whose function the worker is in. -/
def Worker.runs (worker : Worker) : Option Task :=
  match worker.stage with
  | .running task => some task
  | _ => none

/-- Worker `k` has not left. -/
def Live (srv : Server) (k : Nat) : Prop := ∃ worker, srv.workers[k]? = some worker ∧ worker.live = true

/-- Whatever happens next, worker `k` looks at the queue and finds it empty before it is gone. -/
def LooksBeforeLeaving (srv : Server) (k : Nat) : Prop :=
  ∀ events final, run step srv events = some final → ¬Live final k →
    ∃ first rest mid, events = first ++ .worker k::rest ∧ run step srv first = some mid ∧ Live mid k ∧ mid.thrp.tasks = []

/-- What is promised of the pool: nothing lost, nothing run twice. -/
structure Kept (srv : Server) : Prop where
  distinct : srv.added.Nodup
  once : (srv.executed.map (·.2)).Nodup
  kept : srv.added.Perm (srv.executed.map (·.2) ++ srv.thrp.tasks)
  unreused : ∀ worker ∈ srv.workers, ∀ task, worker.runs = some task → ∀ work priority push owner,
    (task_new srv.thrp work priority push owner).1.addr ≠ task.addr
  unqueued : ∀ task ∈ srv.thrp.tasks, ∀ work priority push owner, (task_new srv.thrp work priority push owner).1.addr ≠ task.addr
  apart : ((srv.workers.filterMap Worker.runs ++ srv.thrp.tasks).map (·.addr)).Nodup
  counted : srv.thrp.thd_cnt = srv.workers.countP Worker.live
  watched : srv.thrp.tasks ≠ [] → ∃ k, Live srv k ∧ LooksBeforeLeaving srv k

/-- The addresses of all task objects. -/
def objects (srv : Server) : List Nat :=
  (srv.workers.filterMap Worker.runs ++ srv.thrp.tasks).map (·.addr) ++ srv.thrp.recycled_tasks

structure Safe (srv : Server) : Prop where
  ordered : Ordered srv.thrp
  unlimited : srv.thrp.task_max = 0
  unidle : srv.thrp.idle_max ≤ srv.thrp.idle_cnt ∧ srv.thrp.idle_wait = 0
  busy : ∀ worker ∈ srv.workers, worker.stage ≠ .waiting
  apart : (objects srv).Nodup
  below : ∀ addr ∈ objects srv, addr < srv.thrp.heap
  called : ∀ task ∈ srv.added, task.call < srv.thrp.calls
  distinct : srv.added.Nodup
  kept : srv.added.Perm (srv.executed.map (·.2) ++ srv.thrp.tasks)
  counted : srv.thrp.thd_cnt = srv.workers.countP Worker.live
  watched : srv.thrp.tasks ≠ [] → srv.thrp.thd_cnt ≠ 0

theorem init_threadpool_safe (max_worker : Nat) : Safe (init_threadpool max_worker) := by
  refine ⟨⟨⟨List.Pairwise.nil,List.nodup_nil,?_⟩,fun seg => rfl,rfl⟩,rfl,⟨le_refl 0,rfl⟩,?_,List.nodup_nil,?_,?_,List.nodup_nil,
    List.Perm.refl [],rfl,fun some_ => absurd rfl some_⟩
  all_goals
    intro x member
    cases member

section Sections
variable {me me' : Threadpool} {worker worker' : Worker}

/-- The object of the task that a worker comes back from. -/
def release (me : Threadpool) (worker : Worker) : Threadpool :=
  {me with recycled_tasks := me.recycled_tasks ++ worker.runs.toList.map (·.addr)}

/-- Without idle threads a look at the queue ends in the next task or, when there is none, in leaving. -/
theorem look_cases (ordered : Ordered me) (unidle : me.idle_max ≤ me.idle_cnt ∧ me.idle_wait = 0) (state : ThdState) :
    (∃ task rest, me.tasks = task::rest ∧ look me state = (⟨.running task,state⟩,taken me task rest)) ∨
      (me.tasks = [] ∧ look me state = (⟨.gone,state⟩,{me with thd_cnt := me.thd_cnt - 1})) := by
  unfold look
  cases tasks : me.tasks with
  | nil =>
    right
    simp only [ordered.popped_none tasks,true_and]
    rw [if_pos (Or.inl unidle),← tasks]
  | cons task rest =>
    left
    simp only [(ordered.popped tasks).1]
    exact ⟨task,rest,rfl,rfl⟩

theorem thread_pool_func_cases (ordered : Ordered me) (unidle : me.idle_max ≤ me.idle_cnt ∧ me.idle_wait = 0)
    (busy : worker.stage ≠ .waiting) (outcome : thread_pool_func me worker = some (worker',me')) :
    worker.live = true ∧
      ((∃ task rest state, me.tasks = task::rest ∧ worker' = ⟨.running task,state⟩ ∧ me' = taken (release me worker) task rest) ∨
        (∃ state, me.tasks = [] ∧ worker' = ⟨.gone,state⟩ ∧ me' = {release me worker with thd_cnt := me.thd_cnt - 1})) := by
  obtain ⟨stage,state⟩ := worker
  have looks : ∀ state, some (look (release me ⟨stage,state⟩) state) = some (worker',me') →
      (∃ task rest state', me.tasks = task::rest ∧ worker' = ⟨.running task,state'⟩ ∧
        me' = taken (release me ⟨stage,state⟩) task rest) ∨
      (∃ state', me.tasks = [] ∧ worker' = ⟨.gone,state'⟩ ∧ me' = {release me ⟨stage,state⟩ with thd_cnt := me.thd_cnt - 1}) := by
    intro state looked
    have same : Ordered (release me ⟨stage,state⟩) := ordered.same rfl rfl rfl
    rcases look_cases same unidle state with ⟨task,rest,tasks,looks⟩ | ⟨none_,looks⟩
    · rw [looks] at looked
      cases looked
      exact .inl ⟨task,rest,state,tasks,rfl,rfl⟩
    · rw [looks] at looked
      cases looked
      exact .inr ⟨state,none_,rfl,rfl⟩
  cases stage with
  | created =>
    have unreleased : ∀ state, release me ⟨.created,state⟩ = me := by
      intro state
      simp [release,Worker.runs]
    rw [unreleased]
    refine ⟨rfl,?_⟩
    have cases_ := looks .TH_RUN
    rw [unreleased] at cases_
    exact cases_ outcome
  | running task => exact ⟨rfl,looks state outcome⟩
  | waiting => exact absurd rfl busy
  | gone => cases outcome

end Sections

variable {srv next : Server}

/-- What a section of a worker does to the objects: the one of its old task is given back and the one of
its next task is taken out of the ring. None gets lost and none comes twice. -/
theorem objects_worker {k : Nat} {worker : Worker} (worker' : Worker) (me : Threadpool) (executed : List (Nat × Task))
    (here : srv.workers[k]? = some worker) (moves : srv.thrp.tasks = worker'.runs.toList ++ me.tasks)
    (recycled : me.recycled_tasks = srv.thrp.recycled_tasks ++ worker.runs.toList.map (·.addr)) :
    (objects {srv with thrp := me, workers := srv.workers.set k worker', executed := executed}).Perm (objects srv) := by
  have before := ((perm_slot here).filterMap Worker.runs).map (·.addr)
  have after := ((perm_set here worker').filterMap Worker.runs).map (·.addr)
  rw [filterMap_cons_toList] at before after
  apply List.perm_iff_count.mpr
  intro addr
  have before := before.count_eq addr
  have after := after.count_eq addr
  unfold objects
  dsimp only
  rw [moves,recycled]
  simp only [List.map_append,List.count_append] at before after ⊢
  rw [before,after]
  omega

theorem Safe.worker (safe : Safe srv) {k : Nat} (outcome : step srv (.worker k) = some next) : Safe next := by
  simp only [step,Option.bind_eq_bind,Option.bind_eq_some_iff,Option.pure_def,Option.some.injEq,Prod.exists] at outcome
  obtain ⟨worker,here,worker',me,section_,rfl⟩ := outcome
  have member : worker ∈ srv.workers := List.mem_of_getElem? here
  obtain ⟨live,cases_⟩ := thread_pool_func_cases safe.ordered safe.unidle (safe.busy worker member) section_
  have released : Ordered (release srv.thrp worker) := safe.ordered.same rfl rfl rfl
  have counts := countP_set here worker' Worker.live
  rw [if_pos live] at counts
  rcases cases_ with ⟨task,rest,state,tasks,rfl,rfl⟩ | ⟨state,none_,rfl,rfl⟩
  · have same := objects_worker ⟨.running task,state⟩ (taken (release srv.thrp worker) task rest)
      (srv.executed ++ Stage.call k (.running task)) here tasks rfl
    refine ⟨(released.popped tasks).2,safe.unlimited,safe.unidle,?_,same.nodup_iff.mpr safe.apart,?_,safe.called,
      safe.distinct,?_,?_,?_⟩
    · intro other changed
      rcases List.mem_or_eq_of_mem_set changed with old | rfl
      · exact safe.busy other old
      · intro waits
        cases waits
    · intro addr used
      exact safe.below addr (same.mem_iff.mp used)
    · have kept := safe.kept
      rw [tasks] at kept
      change srv.added.Perm ((srv.executed ++ [(k,task)]).map (·.2) ++ rest)
      rw [List.map_append,List.append_assoc]
      exact kept
    · rw [if_pos (show Worker.live ⟨.running task,state⟩ = true from rfl)] at counts
      exact safe.counted.trans (Nat.succ_injective counts).symm
    · intro _
      apply safe.watched
      rw [tasks]
      exact List.cons_ne_nil _ _
  · have same := objects_worker ⟨.gone,state⟩ {release srv.thrp worker with thd_cnt := srv.thrp.thd_cnt - 1}
      (srv.executed ++ Stage.call k .gone) here rfl rfl
    refine ⟨safe.ordered.same rfl rfl rfl,safe.unlimited,safe.unidle,?_,same.nodup_iff.mpr safe.apart,?_,safe.called,
      safe.distinct,?_,?_,?_⟩
    · intro other changed
      rcases List.mem_or_eq_of_mem_set changed with old | rfl
      · exact safe.busy other old
      · intro waits
        cases waits
    · intro addr used
      exact safe.below addr (same.mem_iff.mp used)
    · dsimp only
      rw [List.map_append]
      exact (List.append_nil (srv.executed.map (·.2))).symm ▸ safe.kept
    · rw [if_neg (show ¬Worker.live ⟨.gone,state⟩ = true from Bool.false_ne_true)] at counts
      have counted := safe.counted
      change srv.thrp.thd_cnt - 1 = (srv.workers.set k ⟨.gone,state⟩).countP Worker.live
      omega
    · intro some_
      exact absurd none_ some_

section Adding
variable (work : Work) (priority : Int) (push : Bool) (owner : Nat)

/-- A new object, or the first of those given back. -/
theorem task_new_object (me : Threadpool) :
    (me.recycled_tasks = [] ∧ (task_new me work priority push owner).1.addr = me.heap ∧
        (task_new me work priority push owner).2.heap = me.heap + 1) ∨
      ∃ rest, me.recycled_tasks = (task_new me work priority push owner).1.addr::rest ∧
        (task_new me work priority push owner).2.heap = me.heap := by
  unfold task_new
  cases me.recycled_tasks with
  | nil => exact .inl ⟨rfl,rfl,rfl⟩
  | cons addr rest => exact .inr ⟨rest,rfl,rfl⟩

/-- No object that is queued or in use is filled again. -/
theorem Safe.unused (safe : Safe srv) {task : Task} (used : task ∈ srv.workers.filterMap Worker.runs ++ srv.thrp.tasks) :
    (task_new srv.thrp work priority push owner).1.addr ≠ task.addr := by
  have held : task.addr ∈ (srv.workers.filterMap Worker.runs ++ srv.thrp.tasks).map (·.addr) := List.mem_map_of_mem used
  rcases task_new_object work priority push owner srv.thrp with ⟨_,fresh,_⟩ | ⟨rest,recycled,_⟩
  · rw [fresh]
    exact (safe.below task.addr (List.mem_append_left _ held)).ne'
  · intro same
    have apart := (List.nodup_append.mp safe.apart).2.2 task.addr held
    rw [recycled] at apart
    exact apart _ List.mem_cons_self same.symm

/-- What an entry of the pool leaves, when no thread or one is created. -/
def afterAdding (srv : Server) (work : Work) (created : Bool) : Server := {srv with
  thrp := addTask srv.thrp work 0 true 0 created.toNat
  workers := if created then srv.workers ++ [⟨.created,.TH_RUN⟩] else srv.workers
  added := srv.added ++ [(task_new srv.thrp work 0 true 0).1]}

theorem addWork_cases (safe : Safe srv) : ∃ created, addWork srv work = some (afterAdding srv work created) ∧
    (created = false → srv.thrp.thd_cnt ≠ 0) := by
  unfold addWork base_threadpool_addtask
  rcases add_task_eq srv.thrp work 0 true 0 safe.unlimited with ⟨_,adds⟩ | ⟨not_created,adds⟩
  · refine ⟨true,?_,fun no => by cases no⟩
    rw [adds]
    rfl
  · refine ⟨false,?_,?_⟩
    · rw [adds]
      rfl
    · intro _ none_
      exact not_created (.inl none_)

theorem Safe.new (safe : Safe srv) :
    New (task_new srv.thrp work 0 true 0).2 (task_new srv.thrp work 0 true 0).1 := by
  apply task_new_new
  · intro x queued
    exact (safe.unused work 0 true 0 (List.mem_append_right _ queued)).symm
  · intro x queued
    exact safe.called x (safe.kept.mem_iff.mpr (List.mem_append_right _ queued))
  · decide

theorem afterAdding_runs (srv : Server) (work : Work) (created : Bool) :
    (afterAdding srv work created).workers.filterMap Worker.runs = srv.workers.filterMap Worker.runs := by
  cases created with
  | false => rfl
  | true =>
    change (srv.workers ++ [(⟨.created,.TH_RUN⟩ : Worker)]).filterMap Worker.runs = _
    rw [List.filterMap_append]
    exact List.append_nil _

theorem afterAdding_tasks (safe : Safe srv) (created : Bool) :
    (afterAdding srv work created).thrp.tasks.Perm ((task_new srv.thrp work 0 true 0).1::srv.thrp.tasks) := by
  change (addTask srv.thrp work 0 true 0 created.toNat).tasks.Perm _
  rw [addTask_tasks safe.ordered (safe.new work)]
  exact place_perm _ _ _

/-- The objects after an addition are those before it, or one more from the heap. -/
theorem objects_adding (safe : Safe srv) (created : Bool) :
    (objects (afterAdding srv work created)).Perm (objects srv) ∧
        (afterAdding srv work created).thrp.heap = srv.thrp.heap ∨
      (objects (afterAdding srv work created)).Perm (srv.thrp.heap::objects srv) ∧
        (afterAdding srv work created).thrp.heap = srv.thrp.heap + 1 := by
  have tasks := (afterAdding_tasks work safe created).map (·.addr)
  have runs := afterAdding_runs srv work created
  rcases task_new_object work 0 true 0 srv.thrp with ⟨none_,fresh,grown⟩ | ⟨rest,recycled,heap⟩
  · refine .inr ⟨?_,grown⟩
    apply List.perm_iff_count.mpr
    intro addr
    have tasks := tasks.count_eq addr
    unfold objects
    rw [runs,show (afterAdding srv work created).thrp.recycled_tasks = srv.thrp.recycled_tasks.tail from rfl,none_]
    rw [List.map_cons,fresh] at tasks
    simp only [List.map_append,List.count_append,List.count_cons] at tasks ⊢
    rw [tasks]
    simp only [List.tail_nil,List.count_nil]
    omega
  · refine .inl ⟨?_,heap⟩
    apply List.perm_iff_count.mpr
    intro addr
    have tasks := tasks.count_eq addr
    unfold objects
    rw [runs,show (afterAdding srv work created).thrp.recycled_tasks = srv.thrp.recycled_tasks.tail from rfl,recycled]
    rw [List.map_cons] at tasks
    simp only [List.map_append,List.count_append,List.count_cons,List.tail_cons] at tasks ⊢
    rw [tasks]
    omega

theorem Safe.adding (safe : Safe srv) {created : Bool} (watched : created = false → srv.thrp.thd_cnt ≠ 0) :
    Safe (afterAdding srv work created) := by
  have made := task_new_fields srv.thrp work 0 true 0
  have settled : Settled srv.thrp 0 := by
    intro addr names first points
    have queued : first ∈ srv.thrp.tasks := (List.dropWhile_sublist _).subset (List.mem_of_mem_head? points)
    exact (safe.ordered.priorities first queued).1
  refine ⟨safe.ordered.addTask (safe.new work) (fun _ => settled) _,safe.unlimited,safe.unidle,?_,?_,?_,?_,?_,?_,?_,?_⟩
  · intro worker member
    cases created with
    | false => exact safe.busy worker member
    | true =>
      rcases List.mem_append.mp member with old | last
      · exact safe.busy worker old
      · rw [List.mem_singleton.mp last]
        intro waits
        cases waits
  · rcases objects_adding work safe created with ⟨same,_⟩ | ⟨more,_⟩
    · exact same.nodup_iff.mpr safe.apart
    · rw [more.nodup_iff,List.nodup_cons]
      refine ⟨?_,safe.apart⟩
      intro used
      exact absurd (safe.below _ used) (lt_irrefl _)
  · intro addr used
    rcases objects_adding work safe created with ⟨same,heap⟩ | ⟨more,heap⟩
    · rw [heap]
      exact safe.below addr (same.mem_iff.mp used)
    · rw [heap]
      rcases List.mem_cons.mp (more.mem_iff.mp used) with rfl | old
      · exact Nat.lt_succ_self _
      · exact Nat.lt_succ_of_lt (safe.below addr old)
  · intro task member
    change task.call < srv.thrp.calls + 1
    rcases List.mem_append.mp member with old | last
    · exact Nat.lt_succ_of_lt (safe.called task old)
    · rw [List.mem_singleton.mp last,made]
      exact Nat.lt_succ_self _
  · change (srv.added ++ [_]).Nodup
    rw [List.nodup_append]
    refine ⟨safe.distinct,List.nodup_singleton _,?_⟩
    intro task old other last same
    have called := safe.called task old
    rw [same,List.mem_singleton.mp last,made] at called
    exact absurd called (lt_irrefl _)
  · change (srv.added ++ [_]).Perm (srv.executed.map (fun call : Nat × Task => call.2) ++ (afterAdding srv work created).thrp.tasks)
    refine (safe.kept.append_right _).trans ?_
    rw [List.append_assoc]
    apply List.Perm.append_left
    exact List.perm_append_comm.trans (afterAdding_tasks work safe created).symm
  · change srv.thrp.thd_cnt + created.toNat = _
    cases created with
    | false => exact safe.counted
    | true =>
      change srv.thrp.thd_cnt + 1 = (srv.workers ++ [(⟨.created,.TH_RUN⟩ : Worker)]).countP Worker.live
      rw [List.countP_append,safe.counted]
      rfl
  · intro _
    change srv.thrp.thd_cnt + created.toNat ≠ 0
    cases created with
    | false => exact watched rfl
    | true => exact Nat.succ_ne_zero _

end Adding

/-- What one step does to the pool and to a worker that is there. -/
theorem Safe.step (safe : Safe srv) {event : Event} (outcome : step srv event = some next) : Safe next := by
  have adding : ∀ work, addWork srv work = some next → Safe next := by
    intro work adds
    obtain ⟨created,outcome,watched⟩ := addWork_cases work safe
    rw [outcome] at adds
    cases adds
    exact safe.adding work watched
  cases event with
  | sys_addtask fd data =>
    change sys_addtask srv fd data = some next at outcome
    unfold sys_addtask at outcome
    split at outcome
    · cases outcome
      exact safe
    · exact adding _ outcome
  | time_addtask new_task => exact adding _ outcome
  | worker k => exact safe.worker outcome

/-- A worker leaves in a section of its own only, and only when that finds the queue empty. -/
theorem Safe.leaves (safe : Safe srv) {event : Event} (outcome : Pool.step srv event = some next) {k : Nat} (live : Live srv k)
    (left : ¬Live next k) : event = .worker k ∧ srv.thrp.tasks = [] := by
  obtain ⟨worker,here,alive⟩ := live
  have adding : ∀ work, addWork srv work = some next → Live next k := by
    intro work adds
    obtain ⟨created,outcome,-⟩ := addWork_cases work safe
    rw [outcome] at adds
    cases adds
    refine ⟨worker,?_,alive⟩
    cases created with
    | false => exact here
    | true =>
      change (srv.workers ++ [(⟨.created,.TH_RUN⟩ : Worker)])[k]? = some worker
      obtain ⟨inside,-⟩ := List.getElem?_eq_some_iff.mp here
      rw [List.getElem?_append_left inside]
      exact here
  cases event with
  | sys_addtask fd data =>
    change sys_addtask srv fd data = some next at outcome
    unfold sys_addtask at outcome
    split at outcome
    · cases outcome
      exact absurd ⟨worker,here,alive⟩ left
    · exact absurd (adding _ outcome) left
  | time_addtask new_task => exact absurd (adding _ outcome) left
  | worker j =>
    simp only [Pool.step,Option.bind_eq_bind,Option.bind_eq_some_iff,Option.pure_def,Option.some.injEq,Prod.exists] at outcome
    obtain ⟨mover,at_j,worker',me,section_,rfl⟩ := outcome
    have inside := (List.getElem?_eq_some_iff.mp here).1
    by_cases same : j = k
    · subst same
      obtain ⟨-,cases_⟩ := thread_pool_func_cases safe.ordered safe.unidle (safe.busy mover (List.mem_of_getElem? at_j)) section_
      rcases cases_ with ⟨task,rest,state,-,rfl,-⟩ | ⟨state,none_,-,-⟩
      · exact absurd ⟨⟨.running task,state⟩,List.getElem?_set_self inside,rfl⟩ left
      · exact ⟨rfl,none_⟩
    · apply absurd _ left
      refine ⟨worker,?_,alive⟩
      dsimp only
      rw [List.getElem?_set_ne same]
      exact here

theorem Safe.looks (safe : Safe srv) {k : Nat} (live : Live srv k) : LooksBeforeLeaving srv k := by
  intro events final ends left
  induction events generalizing srv with
  | nil =>
    cases ends
    exact absurd live left
  | cons event events ih =>
    obtain ⟨next,outcome,rest⟩ := Option.bind_eq_some_iff.mp ends
    by_cases still : Live next k
    · obtain ⟨first,later,mid,rfl,reaches,alive,none_⟩ := ih (safe.step outcome) still rest
      exact ⟨event::first,later,mid,rfl,Option.bind_eq_some_iff.mpr ⟨next,outcome,reaches⟩,alive,none_⟩
    · obtain ⟨rfl,none_⟩ := safe.leaves outcome live still
      exact ⟨[],events,srv,rfl,rfl,live,none_⟩

theorem Safe.holds (safe : Safe srv) : Kept srv := by
  have used : (srv.executed.map (·.2)).Nodup := by
    have all := safe.kept.nodup_iff.mp safe.distinct
    exact (List.nodup_append.mp all).1
  refine ⟨safe.distinct,used,safe.kept,?_,?_,(List.nodup_append.mp safe.apart).1,safe.counted,?_⟩
  · intro worker member task runs work priority push owner
    apply safe.unused work priority push owner
    exact List.mem_append_left _ (List.mem_filterMap.mpr ⟨worker,member,runs⟩)
  · intro task queued work priority push owner
    exact safe.unused work priority push owner (List.mem_append_right _ queued)
  · intro some_
    have positive := safe.watched some_
    rw [safe.counted] at positive
    obtain ⟨worker,member,alive⟩ := List.countP_pos_iff.mp (Nat.pos_of_ne_zero positive)
    obtain ⟨k,inside,rfl⟩ := List.getElem_of_mem member
    have live : Live srv k := ⟨srv.workers[k],List.getElem?_eq_getElem inside,alive⟩
    exact ⟨k,live,safe.looks live⟩

end Migfm.Pool
