import Migfm.Pool.Order

/-! Sequences of calls of the pool's queue, one at a time. -/
namespace Migfm.Pool
open Library.Ordered Library.Runs

inductive Call
  | addtask (work : Work) (priority : Int) (owner : Nat)
  | top (work : Work) (priority : Int) (owner : Nat)
  | pop
  | cancel (owner : Nat)

def Call.Small : Call → Prop
  | .addtask _ priority _ => 0 ≤ priority ∧ priority ≤ 255
  | .top _ priority _ => 0 ≤ priority ∧ priority ≤ 255
  | _ => True

/-- The pool and what became of the tasks. -/
structure History where
  pool : Threadpool
  added : List Task
  popped : List Task
  cancelled : List Task

namespace History

def start (init_threads max_threads : Nat) : History := ⟨thread_pool_construct init_threads max_threads 0,[],[],[]⟩

def step (history : History) : Call → Option History
  | .addtask work priority owner => do
    let (_,pool) ← base_threadpool_addtask history.pool work priority owner
    return {history with pool := pool, added := history.added ++ [(task_new history.pool work priority true owner).1]}
  | .top work priority owner => do
    let (_,pool) ← base_threadpool_top history.pool work priority owner
    return {history with pool := pool, added := history.added ++ [(task_new history.pool work priority false owner).1]}
  | .pop => match pop_task history.pool with
    | (some task,pool) => some {history with pool := pool, popped := history.popped ++ [task]}
    | (none,pool) => some {history with pool := pool}
  | .cancel owner => some {history with
      pool := base_threadpool_cancel_tasks history.pool owner
      cancelled := history.cancelled ++ history.pool.tasks.filter fun task => task.owner == owner}

/-- A push finds its segment empty or its first task of at least the same priority. -/
def Clear (history : History) : Call → Prop
  | .addtask _ priority _ => Settled history.pool priority
  | _ => True

/-- What is promised of the queue. `drained`: as many pops as tasks are counted take all of them. -/
structure Right (history : History) : Prop where
  distinct : history.added.Nodup
  once : history.added.Perm (history.popped ++ history.cancelled ++ history.pool.tasks)
  next : history.pool.tasks ≠ [] → ∃ task after, pop_task history.pool = (some task,after) ∧ task ∈ history.pool.tasks ∧
    ∀ other ∈ history.pool.tasks, other ≠ task → Before task other
  drained : ∃ after, run step history (List.replicate history.pool.task_cnt .pop) = some after ∧ after.pool.tasks = [] ∧
    after.added = history.added ∧ after.cancelled = history.cancelled ∧ history.added.Perm (after.popped ++ after.cancelled)
  counted : history.pool.task_cnt = history.pool.tasks.length
  indexed : ∀ seg, history.pool.task_idx seg = none ∨
    ∃ task, firstOf history.pool.tasks seg = some task ∧ history.pool.task_idx seg = some task.addr

structure Sound (history : History) : Prop where
  ordered : Ordered history.pool
  unlimited : history.pool.task_max = 0
  unrecycled : history.pool.recycled_tasks = []
  below : ∀ task ∈ history.added, task.addr < history.pool.heap ∧ task.call < history.pool.calls
  distinct : history.added.Nodup
  once : history.added.Perm (history.popped ++ history.cancelled ++ history.pool.tasks)

variable {history : History}

theorem start_sound (init_threads max_threads : Nat) : Sound (start init_threads max_threads) := by
  refine ⟨⟨⟨List.Pairwise.nil,List.nodup_nil,?_⟩,fun seg => rfl,rfl⟩,rfl,rfl,?_,List.nodup_nil,List.Perm.refl []⟩
  · intro task member
    cases member
  · intro task member
    cases member

theorem Sound.queued (sound : Sound history) {task : Task} (queued : task ∈ history.pool.tasks) : task ∈ history.added :=
  sound.once.mem_iff.mpr (List.mem_append_right _ queued)

section Adding
variable (sound : Sound history) (work : Work) (priority : Int) (push : Bool) (owner : Nat)
include sound

theorem Sound.made : (task_new history.pool work priority push owner).1 =
    ⟨history.pool.heap,work,owner,priority,history.pool.calls,push⟩ ∧
      (task_new history.pool work priority push owner).2.heap = history.pool.heap + 1 := by
  unfold task_new
  rw [sound.unrecycled]
  exact ⟨rfl,rfl⟩

theorem Sound.new (small : 0 ≤ priority ∧ priority ≤ 255) :
    New (task_new history.pool work priority push owner).2 (task_new history.pool work priority push owner).1 := by
  apply task_new_new
  · intro x queued
    rw [(sound.made work priority push owner).1]
    exact (sound.below x (sound.queued queued)).1.ne
  · intro x queued
    exact (sound.below x (sound.queued queued)).2
  · exact small

/-- An entry of the pool adds its task, whether or not a thread is created. -/
theorem Sound.adds : ∃ created pool, add_task history.pool work priority push owner = some (created,pool) ∧
    ∃ threads, pool = addTask history.pool work priority push owner threads := by
  rcases add_task_eq history.pool work priority push owner sound.unlimited with ⟨_,adds⟩ | ⟨_,adds⟩
  · exact ⟨true,_,adds,1,rfl⟩
  · exact ⟨false,_,adds,0,rfl⟩

theorem Sound.addTask (small : 0 ≤ priority ∧ priority ≤ 255) (settled : push → Settled history.pool priority) (threads : Nat) :
    Sound {history with
      pool := addTask history.pool work priority push owner threads
      added := history.added ++ [(task_new history.pool work priority push owner).1]} := by
  have new := sound.new work priority push owner small
  obtain ⟨made,heap⟩ := sound.made work priority push owner
  refine ⟨sound.ordered.addTask new settled threads,sound.unlimited,?_,?_,?_,?_⟩
  · change history.pool.recycled_tasks.tail = []
    rw [sound.unrecycled]
    rfl
  · intro task member
    change task.addr < (task_new history.pool work priority push owner).2.heap ∧ task.call < history.pool.calls + 1
    rw [heap]
    rcases List.mem_append.mp member with old | last
    · have below := sound.below task old
      omega
    · rw [List.mem_singleton.mp last,made]
      dsimp only
      omega
  · rw [List.nodup_append]
    refine ⟨sound.distinct,List.nodup_singleton _,?_⟩
    intro task old other last same
    have below := (sound.below task old).1
    rw [same,List.mem_singleton.mp last,made] at below
    exact absurd below (lt_irrefl _)
  · dsimp only
    rw [addTask_tasks sound.ordered new]
    have placed := place_perm (ahead (task_new history.pool work priority push owner).1)
      (task_new history.pool work priority push owner).1 history.pool.tasks
    have grown := sound.once.append_right [(task_new history.pool work priority push owner).1]
    refine grown.trans ?_
    rw [List.append_assoc]
    apply List.Perm.append_left
    exact (List.perm_append_comm).trans placed.symm

end Adding

theorem Sound.pops (sound : Sound history) {task : Task} {rest : List Task} (tasks : history.pool.tasks = task::rest) :
    pop_task history.pool = (some task,taken history.pool task rest) ∧
      Sound {history with pool := taken history.pool task rest, popped := history.popped ++ [task]} := by
  obtain ⟨pops,ordered⟩ := sound.ordered.popped tasks
  refine ⟨pops,ordered,sound.unlimited,sound.unrecycled,sound.below,sound.distinct,?_⟩
  have once := sound.once
  rw [tasks] at once
  change history.added.Perm (history.popped ++ [task] ++ history.cancelled ++ rest)
  refine once.trans ?_
  rw [List.append_assoc,List.append_assoc,List.append_assoc]
  apply List.Perm.append_left
  exact List.perm_middle

theorem Sound.cancels (sound : Sound history) (owner : Nat) : Sound {history with
    pool := base_threadpool_cancel_tasks history.pool owner
    cancelled := history.cancelled ++ history.pool.tasks.filter fun task => task.owner == owner} := by
  obtain ⟨left,ordered⟩ := sound.ordered.cancelled owner
  have frame : base_threadpool_cancel_tasks history.pool owner = {history.pool with
      tasks := (base_threadpool_cancel_tasks history.pool owner).tasks
      task_cnt := (base_threadpool_cancel_tasks history.pool owner).task_cnt
      task_idx := (base_threadpool_cancel_tasks history.pool owner).task_idx} := by
    unfold base_threadpool_cancel_tasks
    split <;> rfl
  refine ⟨ordered,?_,?_,?_,sound.distinct,?_⟩
  · rw [frame]
    exact sound.unlimited
  · rw [frame]
    exact sound.unrecycled
  · dsimp only
    rw [frame]
    exact sound.below
  · dsimp only
    rw [left,List.append_assoc,List.append_assoc]
    have parts := List.filter_append_perm (fun task => task.owner == owner) history.pool.tasks
    refine sound.once.trans ?_
    rw [List.append_assoc]
    apply List.Perm.append_left
    apply List.Perm.append_left
    exact parts.symm

/-- Every call has an outcome, and a clear one keeps the queue sound. -/
theorem Sound.step (sound : Sound history) {call : Call} (small : call.Small) :
    ∃ next, step history call = some next ∧ (Clear history call → Sound next) := by
  cases call with
  | addtask work priority owner =>
    obtain ⟨created,pool,adds,threads,rfl⟩ := sound.adds work priority true owner
    refine ⟨{history with
      pool := Pool.addTask history.pool work priority true owner threads
      added := history.added ++ [(task_new history.pool work priority true owner).1]},?_,?_⟩
    · simp only [History.step,base_threadpool_addtask,adds,Option.bind_eq_bind,Option.bind_some,Option.pure_def]
    · intro clear
      exact sound.addTask work priority true owner small (fun _ => clear) threads
  | top work priority owner =>
    obtain ⟨created,pool,adds,threads,rfl⟩ := sound.adds work priority false owner
    refine ⟨{history with
      pool := Pool.addTask history.pool work priority false owner threads
      added := history.added ++ [(task_new history.pool work priority false owner).1]},?_,?_⟩
    · simp only [History.step,base_threadpool_top,adds,Option.bind_eq_bind,Option.bind_some,Option.pure_def]
    · intro _
      exact sound.addTask work priority false owner small (fun topped => by cases topped) threads
  | pop =>
    cases tasks : history.pool.tasks with
    | nil =>
      refine ⟨history,?_,fun _ => sound⟩
      simp only [History.step,sound.ordered.popped_none tasks]
    | cons task rest =>
      obtain ⟨pops,sound⟩ := sound.pops tasks
      refine ⟨{history with pool := taken history.pool task rest, popped := history.popped ++ [task]},?_,fun _ => sound⟩
      simp only [History.step,pops]
  | cancel owner => exact ⟨_,rfl,fun _ => sound.cancels owner⟩

theorem Sound.drained (sound : Sound history) {count : Nat} (counted : history.pool.tasks.length = count) :
    ∃ after, run History.step history (List.replicate count .pop) = some after ∧ after.pool.tasks = [] ∧
      after.added = history.added ∧ after.cancelled = history.cancelled ∧ Sound after := by
  induction count generalizing history with
  | zero => exact ⟨history,rfl,List.eq_nil_of_length_eq_zero counted,rfl,rfl,sound⟩
  | succ count ih =>
    obtain ⟨task,rest,tasks⟩ := List.exists_cons_of_length_eq_add_one counted
    obtain ⟨pops,popped⟩ := sound.pops tasks
    rw [tasks,List.length_cons] at counted
    obtain ⟨after,ends,empty,added,cancelled,final⟩ := ih popped (Nat.succ_injective counted)
    refine ⟨after,?_,empty,added,cancelled,final⟩
    rw [List.replicate_succ]
    unfold run
    simp only [History.step,pops,Option.bind_some]
    exact ends

theorem Sound.right (sound : Sound history) : Right history := by
  refine ⟨sound.distinct,sound.once,?_,?_,sound.ordered.counted,?_⟩
  · intro some_
    obtain ⟨task,rest,tasks⟩ := List.exists_cons_of_ne_nil some_
    have sorted := sound.ordered.sorted
    rw [tasks] at sorted ⊢
    refine ⟨task,_,(sound.pops tasks).1,List.mem_cons_self,?_⟩
    intro other member apart
    rcases List.mem_cons.mp member with same | later
    · exact absurd same apart
    · exact (List.pairwise_cons.mp sorted).1 other later
  · obtain ⟨after,ends,empty,added,cancelled,final⟩ := sound.drained sound.ordered.counted.symm
    have once := final.once
    rw [empty,List.append_nil,added] at once
    exact ⟨after,ends,empty,added,cancelled,once⟩
  · intro seg
    rw [sound.ordered.indexed]
    cases firstOf history.pool.tasks seg with
    | none => exact .inl rfl
    | some task => exact .inr ⟨task,rfl,rfl⟩

/-- A push that is not clear leaves the pointer of its segment behind. -/
theorem Sound.clear_of_right (sound : Sound history) {call : Call} (small : call.Small) {next : History}
    (outcome : History.step history call = some next) (right : Right next) : Clear history call := by
  cases call with
  | addtask work priority owner =>
    by_contra unclear
    have new := sound.new work priority true owner small
    have made := task_new_fields history.pool work priority true owner
    have frame := task_new_frame history.pool work priority true owner
    obtain ⟨created,pool,adds,threads,rfl⟩ := sound.adds work priority true owner
    simp only [History.step,base_threadpool_addtask,adds,Option.bind_eq_bind,Option.bind_some,Option.pure_def,
      Option.some.injEq] at outcome
    subst outcome
    have unsettled : ¬Settled (task_new history.pool work priority true owner).2
        (task_new history.pool work priority true owner).1.priority := by
      rw [made,frame]
      exact unclear
    have pushed : (task_new history.pool work priority true owner).1.push = true := by rw [made]
    obtain ⟨addr,names,first,apart⟩ := sound.ordered.task_new.unsettled new pushed unsettled
    rcases right.indexed (TASK_PRIORITY_SEG (task_new history.pool work priority true owner).1) with null | ⟨task,held,named⟩
    · cases names.symm.trans null
    · cases held.symm.trans first
      cases names.symm.trans named
      exact apart rfl
  | _ => trivial

/-- The queue keeps its promise in a whole sequence of calls exactly when every push is clear. -/
theorem Sound.right_iff (sound : Sound history) {calls : List Call} (small : ∀ call ∈ calls, call.Small) :
    (∀ first rest, calls = first ++ rest → ∃ final, run History.step history first = some final ∧ Right final) ↔
      Along History.step Clear history calls := by
  induction calls generalizing history with
  | nil =>
    refine iff_of_true ?_ trivial
    intro first rest whole
    obtain ⟨rfl,-⟩ := List.nil_eq_append_iff.mp whole
    exact ⟨history,rfl,sound.right⟩
  | cons call calls ih =>
    obtain ⟨this,others⟩ := List.forall_mem_cons.mp small
    obtain ⟨next,outcome,keeps⟩ := sound.step this
    have one : ∀ events, run History.step history (call::events) = run History.step next events := by
      intro events
      unfold run
      rw [outcome,Option.bind_some]
      cases events <;> rfl
    constructor
    · intro all
      obtain ⟨reached,ends,right⟩ := all [call] calls rfl
      rw [one] at ends
      cases ends
      have clear := sound.clear_of_right this outcome right
      refine ⟨clear,?_⟩
      intro state happens
      rw [outcome] at happens
      cases happens
      apply (ih (keeps clear) others).mp
      intro first rest whole
      obtain ⟨final,ends,right⟩ := all (call::first) rest (by rw [whole,List.cons_append])
      rw [one] at ends
      exact ⟨final,ends,right⟩
    · intro along first rest whole
      rcases List.cons_eq_append_iff.mp whole with ⟨rfl,-⟩ | ⟨first,rfl,whole⟩
      · exact ⟨history,rfl,sound.right⟩
      · rw [one]
        exact (ih (keeps along.1) others).mpr (along.2 next outcome) first rest (List.cons.inj whole).2

end History

open History in
/-- The queue's order in every sequence of calls, and exactly in which. -/
theorem queue_right_iff (init_threads max_threads : Nat) (calls : List Call) (small : ∀ call ∈ calls, call.Small) :
    (∀ first rest, calls = first ++ rest → ∃ final, run step (start init_threads max_threads) first = some final ∧ Right final) ↔
      Along step Clear (start init_threads max_threads) calls :=
  (start_sound init_threads max_threads).right_iff small

open History in
theorem queue_right_falling : ∃ final,
    run step (start 0 4) [.addtask ⟨.sys_trun,0,1⟩ 20 0,.addtask ⟨.sys_trun,0,1⟩ 10 0,.pop] = some final ∧ Right final := by
  have small : ∀ call ∈ [Call.addtask ⟨.sys_trun,0,1⟩ 20 0,.addtask ⟨.sys_trun,0,1⟩ 10 0,.pop], call.Small := by simp [Call.Small]
  refine (queue_right_iff 0 4 _ small).mpr ⟨?_,?_⟩ _ [] (List.append_nil _).symm
  · intro addr names
    cases names
  · rintro _ ⟨⟩
    refine ⟨?_,fun next _ => ⟨trivial,fun _ _ => trivial⟩⟩
    rintro addr ⟨⟩ task ⟨⟩
    change (10 : Int) ≤ 20
    decide

open History in
/-- A push of a higher priority than its segment holds leaves the pointer on the second task, and
the next push starts its search there: 20 is taken while 30 is queued. -/
theorem not_queue_right : ¬∀ (init_threads max_threads : Nat) (calls : List Call), (∀ call ∈ calls, call.Small) →
    ∃ final, run step (start init_threads max_threads) calls = some final ∧ Right final := by
  intro all
  have small : ∀ call ∈ [Call.addtask ⟨.sys_trun,0,1⟩ 10 0,.addtask ⟨.sys_trun,0,1⟩ 20 0,.addtask ⟨.sys_trun,0,1⟩ 30 0], call.Small := by
    simp [Call.Small]
  obtain ⟨final,ends,right⟩ := all 0 4 _ small
  cases ends
  obtain ⟨task,after,pops,-,best⟩ := right.next (List.cons_ne_nil _ _)
  cases pops
  have before := best ⟨2,⟨.sys_trun,0,1⟩,0,30,2,true⟩ (by decide) (by decide)
  exact absurd before.priority (by decide)

end Migfm.Pool
