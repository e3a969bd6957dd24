import Migfm.Pool.TaskQueue
import Migfm.Library.Runs

/-! The order in which the tasks of the pool are taken. -/
namespace Migfm.Pool
open Library.Ordered Library.Runs

/-- By priority; among equals the topped ones first, the last of them in front, then the pushed
ones as they came. -/
def Before (x y : Task) : Prop :=
  y.priority < x.priority ∨
    (x.priority = y.priority ∧ if x.push then y.push ∧ x.call < y.call else y.push ∨ y.call < x.call)

theorem Before.priority {x y : Task} (before : Before x y) : y.priority ≤ x.priority := by
  rcases before with less | ⟨same,_⟩
  · exact less.le
  · exact same.ge

/-- The first task of the segment. -/
def firstOf (tasks : List Task) (seg : Nat) : Option Task := tasks.find? fun task => TASK_PRIORITY_SEG task == seg

structure Ranked (tasks : List Task) : Prop where
  sorted : tasks.Pairwise Before
  distinct : (tasks.map (·.addr)).Nodup
  priorities : ∀ task ∈ tasks, 0 ≤ task.priority ∧ task.priority ≤ 255

structure Ordered (me : Threadpool) : Prop extends Ranked me.tasks where
  indexed : ∀ seg, me.task_idx seg = (firstOf me.tasks seg).map (·.addr)
  counted : me.task_cnt = me.tasks.length

/-- A task that an entry of the pool has just filled. -/
structure New (me : Threadpool) (t : Task) : Prop where
  apart : ∀ x ∈ me.tasks, x.addr ≠ t.addr
  newest : ∀ x ∈ me.tasks, x.call < t.call
  priority : 0 ≤ t.priority ∧ t.priority ≤ 255

theorem segment_mono {p q : Int} (lower : 0 ≤ p) (le : p ≤ q) (upper : q ≤ 255) : segment p ≤ segment q := by
  unfold segment
  omega

theorem priority_of_segment {x t : Task} (x_small : 0 ≤ x.priority ∧ x.priority ≤ 255) (t_small : 0 ≤ t.priority ∧ t.priority ≤ 255)
    (higher : TASK_PRIORITY_SEG t < TASK_PRIORITY_SEG x) : t.priority < x.priority := by
  by_contra not_less
  have le := segment_mono x_small.1 (not_lt.mp not_less) t_small.2
  exact absurd higher (not_lt.mpr le)

theorem firstOf_cut {tasks : List Task} {seg : Nat} {task : Task} (first : firstOf tasks seg = some task) :
    TASK_PRIORITY_SEG task = seg ∧ ∃ before after, tasks = before ++ task::after ∧ ∀ x ∈ before, TASK_PRIORITY_SEG x ≠ seg := by
  obtain ⟨same,before,after,whole,others⟩ := List.find?_eq_some_iff_append.mp first
  refine ⟨by simpa using same,before,after,whole,?_⟩
  intro x member
  simpa using others x member

theorem firstOf_none {tasks : List Task} {seg : Nat} : firstOf tasks seg = none ↔ ∀ x ∈ tasks, TASK_PRIORITY_SEG x ≠ seg := by
  unfold firstOf
  simp

theorem pointed_cut {before after : List Task} {task : Task} (distinct : ((before ++ task::after).map (·.addr)).Nodup) :
    pointed (before ++ task::after) task.addr = task::after := by
  unfold pointed
  rw [dropWhile_suffix]
  · simp
  · intro x member
    rw [List.map_append,List.map_cons,List.nodup_append] at distinct
    have apart := distinct.2.2 x.addr (List.mem_map_of_mem member) task.addr (List.mem_cons_self)
    simpa using apart

/-- In front of the first task of a segment stand tasks of higher segments. -/
theorem Ordered.higher {me : Threadpool} (ordered : Ordered me) {before after : List Task} {task : Task}
    (whole : me.tasks = before ++ task::after) {x : Task} (member : x ∈ before) : TASK_PRIORITY_SEG task ≤ TASK_PRIORITY_SEG x := by
  have sorted := ordered.sorted
  rw [whole] at sorted
  have first := (List.pairwise_append.mp sorted).2.2 x member task List.mem_cons_self
  have task_small := ordered.priorities task (by simp [whole])
  have x_small := ordered.priorities x (by simp [whole,member])
  exact segment_mono task_small.1 first.priority x_small.2

/-- What the tasks that stay in front of the new one have. -/
def ahead (t x : Task) : Bool := if t.push then decide (t.priority ≤ x.priority) else decide (t.priority < x.priority)

theorem ahead_of_segment {x t : Task} (x_small : 0 ≤ x.priority ∧ x.priority ≤ 255) (t_small : 0 ≤ t.priority ∧ t.priority ≤ 255)
    (higher : TASK_PRIORITY_SEG t < TASK_PRIORITY_SEG x) : ahead t x = true := by
  have less := priority_of_segment x_small t_small higher
  unfold ahead
  split <;> simp [less,less.le]

theorem not_ahead_of_segment {x t : Task} (x_small : 0 ≤ x.priority ∧ x.priority ≤ 255) (t_small : 0 ≤ t.priority ∧ t.priority ≤ 255)
    (lower : TASK_PRIORITY_SEG x < TASK_PRIORITY_SEG t) : ahead t x = false := by
  have less := priority_of_segment t_small x_small lower
  unfold ahead
  split <;> simp [less,less.le]

theorem ahead_closed (t : Task) (x y : Task) (before : Before x y) (holds : ahead t y = true) : ahead t x = true := by
  have le := before.priority
  unfold ahead at holds ⊢
  split at holds <;> simp_all <;> omega

theorem insertBefore_cut (ahead : Task → Bool) (tasks : List Task) (t : Task) :
    insertBefore tasks (tasks.dropWhile ahead) t = place ahead t tasks := by
  unfold insertBefore place
  rw [take_cut]

theorem nextLower_some {task_idx : Nat → Option Nat} {seg addr : Nat} (found : nextLower task_idx seg = some addr) :
    ∃ next, next < seg ∧ task_idx next = some addr ∧ ∀ between, next < between → between < seg → task_idx between = none := by
  induction seg with
  | zero => cases found
  | succ seg ih =>
    unfold nextLower at found
    split at found
    · next here =>
      cases found
      refine ⟨seg,Nat.lt_succ_self seg,here,?_⟩
      intro between above below
      omega
    · next nothing =>
      obtain ⟨next,less,here,others⟩ := ih found
      refine ⟨next,Nat.lt_succ_of_lt less,here,?_⟩
      intro between above below
      rcases Nat.lt_succ_iff_lt_or_eq.mp below with lower | rfl
      · exact others between above lower
      · exact nothing

theorem nextLower_none {task_idx : Nat → Option Nat} {seg : Nat} (nothing : nextLower task_idx seg = none) :
    ∀ lower < seg, task_idx lower = none := by
  induction seg with
  | zero =>
    intro lower less
    cases less
  | succ seg ih =>
    unfold nextLower at nothing
    split at nothing
    · cases nothing
    · next here =>
      intro lower less
      rcases Nat.lt_succ_iff_lt_or_eq.mp less with lower | rfl
      · exact ih nothing _ lower
      · exact here

/-- A pointer of the index leads to the first task of its segment. -/
theorem Ordered.leads {me : Threadpool} (ordered : Ordered me) {seg addr : Nat} (names : me.task_idx seg = some addr) :
    ∃ task before after, firstOf me.tasks seg = some task ∧ task.addr = addr ∧ TASK_PRIORITY_SEG task = seg ∧
      me.tasks = before ++ task::after ∧ (∀ x ∈ before, seg < TASK_PRIORITY_SEG x) ∧ pointed me.tasks addr = task::after := by
  rw [ordered.indexed] at names
  obtain ⟨task,first,rfl⟩ := Option.map_eq_some_iff.mp names
  obtain ⟨same,before,after,whole,others⟩ := firstOf_cut first
  have distinct := ordered.distinct
  rw [whole] at distinct
  refine ⟨task,before,after,first,rfl,same,whole,?_,?_⟩
  · intro x member
    have le := ordered.higher whole member
    have apart := others x member
    omega
  · rw [whole]
    exact pointed_cut distinct

/-- A pointer of the index is null only where no task of the segment is queued. -/
theorem Ordered.absent {me : Threadpool} (ordered : Ordered me) {seg : Nat} (null : me.task_idx seg = none) :
    ∀ x ∈ me.tasks, TASK_PRIORITY_SEG x ≠ seg := by
  rw [ordered.indexed,Option.map_eq_none_iff] at null
  exact firstOf_none.mp null

/-- Where the task goes when its segment is empty. -/
theorem Ordered.place_empty {me : Threadpool} (ordered : Ordered me) {t : Task} (new : New me t)
    (null : me.task_idx (TASK_PRIORITY_SEG t) = none) :
    (match nextLower me.task_idx (TASK_PRIORITY_SEG t) with
      | some addr => insertBefore me.tasks (pointed me.tasks addr) t
      | none => me.tasks ++ [t]) = place (ahead t) t me.tasks := by
  split
  · next addr found =>
    obtain ⟨next,less,names,between⟩ := nextLower_some found
    obtain ⟨task,before,after,-,-,same,whole,above,points⟩ := ordered.leads names
    have front : ∀ x ∈ before, ahead t x = true := by
      intro x member
      have queued : x ∈ me.tasks := by simp [whole,member]
      apply ahead_of_segment (ordered.priorities x queued) new.priority
      by_contra not_higher
      have apart := ordered.absent null x queued
      have nothing := ordered.absent (between _ (above x member) (by omega)) x queued
      exact nothing rfl
    have stops : ahead t task = false := by
      apply not_ahead_of_segment (ordered.priorities task (by simp [whole])) new.priority
      rw [same]
      exact less
    have cut : me.tasks.dropWhile (ahead t) = task::after := by
      rw [whole,dropWhile_suffix front,List.dropWhile_cons_of_neg (by simp [stops])]
    rw [points,← cut,insertBefore_cut]
  · next nothing =>
    have front : ∀ x ∈ me.tasks, ahead t x = true := by
      intro x queued
      apply ahead_of_segment (ordered.priorities x queued) new.priority
      by_contra not_higher
      have apart := ordered.absent null x queued
      exact ordered.absent (nextLower_none nothing _ (by omega)) x queued rfl
    unfold place
    rw [List.takeWhile_eq_self_iff.mpr front,List.dropWhile_eq_nil_iff.mpr front]

/-- The search from the first task of the segment finds the place that a search of the whole ring finds. -/
theorem Ordered.search {me : Threadpool} (ordered : Ordered me) {t : Task} (new : New me t) {addr : Nat}
    (names : me.task_idx (TASK_PRIORITY_SEG t) = some addr) :
    (pointed me.tasks addr).dropWhile (fun x => decide (t.priority < x.priority)) =
      me.tasks.dropWhile fun x => decide (t.priority < x.priority) := by
  obtain ⟨task,before,after,-,-,same,whole,above,points⟩ := ordered.leads names
  rw [points,whole,dropWhile_suffix]
  intro x member
  exact decide_eq_true (priority_of_segment (ordered.priorities x (by simp [whole,member])) new.priority (above x member))

/-- The task goes to its place in the whole ring, whatever the index says afterwards. -/
theorem Ordered.insertTask_tasks {me : Threadpool} (ordered : Ordered me) {t : Task} (new : New me t) :
    (insertTask me t).tasks = place (ahead t) t me.tasks := by
  unfold insertTask add_if_empty
  cases names : me.task_idx (TASK_PRIORITY_SEG t) with
  | none =>
    simp only [names]
    exact ordered.place_empty new names
  | some addr =>
    simp only [names]
    rw [ordered.search new names]
    cases pushed : t.push with
    | true =>
      have same : ahead t = fun x => decide (t.priority ≤ x.priority) := by
        funext x
        simp [ahead,pushed]
      rw [if_pos rfl,dropWhile_dropWhile,← same,insertBefore_cut]
      intro x less
      simp only [decide_eq_true_eq] at less ⊢
      exact less.le
    | false =>
      have same : ahead t = fun x => decide (t.priority < x.priority) := by
        funext x
        simp [ahead,pushed]
      rw [if_neg Bool.false_ne_true,← same,insertBefore_cut]

theorem firstOf_place_other {tasks : List Task} {t : Task} {seg : Nat} (other : TASK_PRIORITY_SEG t ≠ seg) (front : Task → Bool) :
    firstOf (place front t tasks) seg = firstOf tasks seg := by
  have whole : tasks.takeWhile front ++ tasks.dropWhile front = tasks := List.takeWhile_append_dropWhile
  unfold firstOf place
  rw [List.find?_append,List.find?_cons_of_neg (by simpa using other),← List.find?_append,whole]

/-- The new task is the first of its segment exactly when none of the segment stays in front of it. -/
theorem firstOf_place {tasks : List Task} {t : Task} {front : Task → Bool} :
    firstOf (place front t tasks) (TASK_PRIORITY_SEG t) =
      (firstOf (tasks.takeWhile front) (TASK_PRIORITY_SEG t)).or (some t) := by
  unfold firstOf place
  rw [List.find?_append,List.find?_cons_of_pos (by simp)]

/-- The first of the segment, when it stays in front. -/
theorem firstOf_place_kept {tasks before after : List Task} {t task : Task} {front : Task → Bool}
    (whole : tasks = before ++ task::after) (same : TASK_PRIORITY_SEG task = TASK_PRIORITY_SEG t)
    (others : ∀ x ∈ before, TASK_PRIORITY_SEG x ≠ TASK_PRIORITY_SEG t) (all : ∀ x ∈ before, front x = true)
    (stays : front task = true) : firstOf (place front t tasks) (TASK_PRIORITY_SEG t) = some task := by
  have kept : firstOf (tasks.takeWhile front) (TASK_PRIORITY_SEG t) = some task := by
    rw [whole,List.takeWhile_append_of_pos all,List.takeWhile_cons_of_pos stays]
    unfold firstOf
    rw [List.find?_append,List.find?_eq_none.mpr (by simpa using others),List.find?_cons_of_pos (by simp [same])]
    rfl
  rw [firstOf_place,kept]
  rfl

theorem firstOf_place_new {tasks : List Task} {t : Task} {front : Task → Bool}
    (none_ : ∀ x ∈ tasks.takeWhile front, TASK_PRIORITY_SEG x ≠ TASK_PRIORITY_SEG t) :
    firstOf (place front t tasks) (TASK_PRIORITY_SEG t) = some t := by
  rw [firstOf_place,firstOf_none.mpr none_]
  rfl

/-- The first of the segment is cut off with all that follows it. -/
theorem takeWhile_others {tasks before after : List Task} {task : Task} {seg : Nat} {front : Task → Bool}
    (whole : tasks = before ++ task::after) (others : ∀ x ∈ before, TASK_PRIORITY_SEG x ≠ seg) (goes : front task = false) :
    ∀ x ∈ tasks.takeWhile front, TASK_PRIORITY_SEG x ≠ seg := by
  intro x member
  rw [whole,List.takeWhile_append,List.takeWhile_cons_of_neg (by simp [goes])] at member
  split at member
  · rw [List.append_nil] at member
    exact others x member
  · exact others x ((List.takeWhile_sublist front).subset member)

/-- The segment of the task is empty, or its pointer names a task of at least the same priority. -/
def Settled (me : Threadpool) (priority : Int) : Prop :=
  ∀ addr, me.task_idx (segment priority) = some addr → ∀ first, (pointed me.tasks addr).head? = some first → priority ≤ first.priority

theorem Ordered.insertTask_idx_other {me : Threadpool} {t : Task} {seg : Nat} (other : TASK_PRIORITY_SEG t ≠ seg) :
    (insertTask me t).task_idx seg = me.task_idx seg := by
  unfold insertTask add_if_empty
  cases names : me.task_idx (TASK_PRIORITY_SEG t) with
  | none =>
    simp only [names]
    exact Function.update_of_ne (Ne.symm other) _ _
  | some addr =>
    simp only [names]
    split
    · rfl
    · dsimp only
      split
      · exact Function.update_of_ne (Ne.symm other) _ _
      · rfl

/-- The pointer of the segment after an insertion. Only a push leaves it as it is in every case. -/
theorem Ordered.insertTask_idx {me : Threadpool} (ordered : Ordered me) {t : Task} (new : New me t)
    (settled : t.push → Settled me t.priority) :
    (insertTask me t).task_idx (TASK_PRIORITY_SEG t) =
      (firstOf (place (ahead t) t me.tasks) (TASK_PRIORITY_SEG t)).map (·.addr) := by
  unfold insertTask add_if_empty
  cases names : me.task_idx (TASK_PRIORITY_SEG t) with
  | none =>
    have none_ : ∀ x ∈ me.tasks.takeWhile (ahead t), TASK_PRIORITY_SEG x ≠ TASK_PRIORITY_SEG t := by
      intro x member
      exact ordered.absent names x ((List.takeWhile_sublist _).subset member)
    simp only [names]
    rw [firstOf_place_new none_,Function.update_self]
    rfl
  | some addr =>
    obtain ⟨task,before,after,first,named,same,whole,above,points⟩ := ordered.leads names
    have task_queued : task ∈ me.tasks := by simp [whole]
    have others : ∀ x ∈ before, TASK_PRIORITY_SEG x ≠ TASK_PRIORITY_SEG t := fun x member => (above x member).ne'
    have front : ∀ x ∈ before, ahead t x = true := fun x member =>
      ahead_of_segment (ordered.priorities x (by simp [whole,member])) new.priority (above x member)
    simp only [names]
    cases pushed : t.push with
    | true =>
      have le : t.priority ≤ task.priority := settled pushed addr names task (by rw [points]; rfl)
      have stays : ahead t task = true := by simp [ahead,pushed,le]
      rw [if_pos rfl,firstOf_place_kept whole same others front stays]
      exact names.trans (congrArg some named.symm)
    | false =>
      rw [if_neg Bool.false_ne_true,points]
      by_cases stays : t.priority < task.priority
      · have ahead_task : ahead t task = true := by simp [ahead,pushed,stays]
        rw [firstOf_place_kept whole same others front ahead_task,List.dropWhile_cons_of_pos (by simpa using stays)]
        have unnamed : ((after.dropWhile fun x => decide (t.priority < x.priority)).head?.map (·.addr)) ≠ some addr := by
          intro found
          obtain ⟨x,head,at_addr⟩ := Option.map_eq_some_iff.mp found
          have later : x ∈ after := (List.dropWhile_sublist _).subset (List.mem_of_mem_head? head)
          have distinct := ordered.distinct
          rw [whole,List.map_append,List.map_cons,List.nodup_append] at distinct
          apply (List.nodup_cons.mp distinct.2.1).1
          rw [named,← at_addr]
          exact List.mem_map_of_mem later
        rw [if_neg unnamed,names,← named]
        rfl
      · have goes : ahead t task = false := by simp [ahead,pushed,stays]
        rw [firstOf_place_new (takeWhile_others whole others goes),List.dropWhile_cons_of_neg (by simpa using stays)]
        rw [List.head?_cons,Option.map_some,named,if_pos rfl]
        exact Function.update_self _ _ _

/-- Only the ring and its index change. -/
theorem insertTask_frame (me : Threadpool) (t : Task) :
    insertTask me t = {me with tasks := (insertTask me t).tasks, task_idx := (insertTask me t).task_idx} := by
  unfold insertTask add_if_empty
  cases names : me.task_idx (TASK_PRIORITY_SEG t) with
  | none => simp only [names]
  | some addr =>
    simp only [names]
    split <;> rfl

/-- The insertion of a new task and the count of it. -/
theorem Ordered.inserted {me after : Threadpool} (ordered : Ordered me) {t : Task} (new : New me t)
    (settled : t.push → Settled me t.priority) (tasks : after.tasks = (insertTask me t).tasks)
    (idx : after.task_idx = (insertTask me t).task_idx) (cnt : after.task_cnt = me.task_cnt + 1) : Ordered after := by
  rw [ordered.insertTask_tasks new] at tasks
  refine ⟨⟨?_,?_,?_⟩,?_,?_⟩
  · rw [tasks]
    apply place_pairwise ordered.sorted (ahead_closed t)
    · intro x queued holds
      have newer := new.newest x queued
      unfold ahead at holds
      split at holds
      · next pushed =>
        rcases lt_or_eq_of_le (of_decide_eq_true holds) with less | same
        · exact .inl less
        · refine .inr ⟨same.symm,?_⟩
          split
          · exact ⟨pushed,newer⟩
          · exact .inl pushed
      · exact .inl (of_decide_eq_true holds)
    · intro x queued fails
      have newer := new.newest x queued
      unfold ahead at fails
      split at fails
      · exact .inl (not_le.mp (of_decide_eq_false fails))
      · next topped =>
        rcases lt_or_eq_of_le (not_lt.mp (of_decide_eq_false fails)) with less | same
        · exact .inl less
        · refine .inr ⟨same.symm,?_⟩
          rw [if_neg topped]
          exact .inr newer
  · rw [tasks,((place_perm _ _ _).map _).nodup_iff,List.map_cons]
    apply List.nodup_cons.mpr
    refine ⟨?_,ordered.distinct⟩
    intro member
    obtain ⟨x,queued,same⟩ := List.mem_map.mp member
    exact new.apart x queued same
  · intro task member
    rw [tasks] at member
    rcases mem_place.mp member with rfl | queued
    · exact new.priority
    · exact ordered.priorities task queued
  · intro seg
    rw [tasks,idx]
    by_cases same : TASK_PRIORITY_SEG t = seg
    · subst same
      exact ordered.insertTask_idx new settled
    · rw [firstOf_place_other same,Ordered.insertTask_idx_other same,ordered.indexed]
  · rw [tasks,cnt,(place_perm _ _ _).length_eq,List.length_cons,ordered.counted]

/-- After a push in front of the first task of its segment the pointer does not name the first. -/
theorem Ordered.unsettled {me : Threadpool} (ordered : Ordered me) {t : Task} (new : New me t) (pushed : t.push = true)
    (unsettled : ¬Settled me t.priority) : ∃ addr, (insertTask me t).task_idx (TASK_PRIORITY_SEG t) = some addr ∧
      firstOf (insertTask me t).tasks (TASK_PRIORITY_SEG t) = some t ∧ addr ≠ t.addr := by
  unfold Settled at unsettled
  push Not at unsettled
  obtain ⟨addr,names,x,points,less⟩ := unsettled
  obtain ⟨task,before,after,first,named,same,whole,above,leads⟩ := ordered.leads names
  rw [leads] at points
  cases points
  refine ⟨addr,?_,?_,?_⟩
  · change me.task_idx (TASK_PRIORITY_SEG t) = some addr at names
    unfold insertTask add_if_empty
    simp only [names,pushed]
    exact names
  · rw [ordered.insertTask_tasks new]
    apply firstOf_place_new
    apply takeWhile_others whole (fun x member => (above x member).ne')
    simp [ahead,pushed,less]
  · rw [← named]
    exact new.apart _ (by simp [whole])

theorem Ranked.sublist {tasks fewer : List Task} (ranked : Ranked tasks) (sub : fewer.Sublist tasks) : Ranked fewer :=
  ⟨ranked.sorted.sublist sub,ranked.distinct.sublist (sub.map _),fun task member => ranked.priorities task (sub.subset member)⟩

/-- Behind a task, the next one is the first of the segment or the segment is at its end. -/
theorem Ranked.next {task : Task} {rest : List Task} (ranked : Ranked (task::rest)) :
    (firstOf rest (TASK_PRIORITY_SEG task)).map (·.addr) = match rest with
      | next::_ => if TASK_PRIORITY_SEG next = TASK_PRIORITY_SEG task then some next.addr else none
      | [] => none := by
  cases rest with
  | nil => rfl
  | cons next later =>
    have small := ranked.priorities
    obtain ⟨before,sorted⟩ := List.pairwise_cons.mp ranked.sorted
    have behind := (List.pairwise_cons.mp sorted).1
    dsimp only
    split
    · next same =>
      unfold firstOf
      rw [List.find?_cons_of_pos (by simpa using same)]
      rfl
    · next other =>
      have lower := segment_mono (small next (by simp)).1 (before next (by simp)).priority (small task (by simp)).2
      rw [Option.map_eq_none_iff]
      apply firstOf_none.mpr
      intro x member
      rcases List.mem_cons.mp member with rfl | member
      · exact other
      · have last := segment_mono (small x (by simp [member])).1 (behind x member).priority (small next (by simp)).2
        unfold TASK_PRIORITY_SEG at other ⊢
        omega

/-- The index when a task goes out of the ring. -/
theorem moveOn_indexed {task_idx : Nat → Option Nat} (kept : List Task) {rest : List Task} {task : Task} (ranked : Ranked (kept ++ task::rest))
    (indexed : ∀ seg, task_idx seg = (firstOf (kept ++ task::rest) seg).map (·.addr)) (seg : Nat) :
    moveOn task_idx task rest seg = (firstOf (kept ++ rest) seg).map (·.addr) := by
  unfold moveOn
  by_cases same : TASK_PRIORITY_SEG task = seg
  · subst same
    cases held : firstOf kept (TASK_PRIORITY_SEG task) with
    | some x =>
      have before : ∀ more, firstOf (kept ++ more) (TASK_PRIORITY_SEG task) = some x := by
        intro more
        unfold firstOf at held ⊢
        rw [List.find?_append,held]
        rfl
      have apart : x.addr ≠ task.addr := by
        have distinct := ranked.distinct
        rw [List.map_append,List.map_cons,List.nodup_append] at distinct
        exact distinct.2.2 x.addr (List.mem_map_of_mem (List.mem_of_find?_eq_some held)) task.addr List.mem_cons_self
      rw [indexed,before,before,Option.map_some,if_neg (by simpa using apart),indexed,before]
      rfl
    | none =>
      have skipped : ∀ more, firstOf (kept ++ more) (TASK_PRIORITY_SEG task) = firstOf more (TASK_PRIORITY_SEG task) := by
        intro more
        unfold firstOf at held ⊢
        rw [List.find?_append,held]
        rfl
      have named : task_idx (TASK_PRIORITY_SEG task) = some task.addr := by
        rw [indexed,skipped]
        unfold firstOf
        rw [List.find?_cons_of_pos (by simp)]
        rfl
      have behind := (ranked.sublist (List.sublist_append_right kept _)).next
      rw [if_pos named,Function.update_self,skipped]
      cases rest with
      | nil => exact behind.symm
      | cons next later => exact behind.symm
  · have skipped : firstOf (kept ++ task::rest) seg = firstOf (kept ++ rest) seg := by
      unfold firstOf
      rw [List.find?_append,List.find?_append,List.find?_cons_of_neg (by simpa using same)]
    rw [← skipped,← indexed]
    split
    · exact Function.update_of_ne (Ne.symm same) _ _
    · rfl

/-- The pool without its first task. -/
def taken (me : Threadpool) (task : Task) (rest : List Task) : Threadpool :=
  {me with task_cnt := me.task_cnt - 1, task_idx := moveOn me.task_idx task rest, tasks := rest}

/-- A pop takes the first task of the ring. -/
theorem Ordered.popped {me : Threadpool} (ordered : Ordered me) {task : Task} {rest : List Task} (tasks : me.tasks = task::rest) :
    pop_task me = (some task,taken me task rest) ∧ Ordered (taken me task rest) := by
  have counted := ordered.counted
  rw [tasks,List.length_cons] at counted
  constructor
  · unfold pop_task
    rw [if_neg (by omega)]
    simp only [tasks]
    rfl
  · have ranked := ordered.toRanked
    have indexed := ordered.indexed
    rw [tasks] at ranked indexed
    refine ⟨ranked.sublist (List.sublist_cons_self task rest),?_,?_⟩
    · intro seg
      exact moveOn_indexed [] ranked indexed seg
    · change me.task_cnt - 1 = rest.length
      omega

theorem Ordered.popped_none {me : Threadpool} (ordered : Ordered me) (tasks : me.tasks = []) : pop_task me = (none,me) := by
  have counted := ordered.counted
  rw [tasks] at counted
  unfold pop_task
  exact if_pos counted

theorem removeFrom_tasks (owner : Nat) (tasks : List Task) (task_cnt : Nat) (task_idx : Nat → Option Nat) :
    (removeFrom owner tasks task_cnt task_idx).1 = tasks.filter fun task => task.owner != owner := by
  induction tasks generalizing task_cnt task_idx with
  | nil => rfl
  | cons task rest ih =>
    unfold removeFrom
    by_cases same : task.owner = owner
    · rw [if_pos same,List.filter_cons_of_neg (by simpa using same)]
      exact ih _ _
    · rw [if_neg same,List.filter_cons_of_pos (by simpa using same)]
      exact congrArg (task :: ·) (ih _ _)

theorem removeFrom_cnt (owner before : Nat) {tasks : List Task} {task_cnt : Nat} (task_idx : Nat → Option Nat) 
    (counted : task_cnt = before + tasks.length) :
    (removeFrom owner tasks task_cnt task_idx).2.1 = before + (removeFrom owner tasks task_cnt task_idx).1.length := by
  induction tasks generalizing before task_cnt task_idx with
  | nil => exact counted
  | cons task rest ih =>
    rw [List.length_cons] at counted
    unfold removeFrom
    by_cases same : task.owner = owner
    · rw [if_pos same]
      exact ih before _ (by omega)
    · rw [if_neg same]
      have counts := ih (before + 1) task_idx (show task_cnt = (before + 1) + rest.length by omega)
      dsimp only
      rw [counts,List.length_cons]
      omega

/-- The loop keeps the index right for what it has passed and what is still to come. -/
theorem removeFrom_indexed {owner : Nat} (kept : List Task) {tasks : List Task} (task_cnt : Nat) {task_idx : Nat → Option Nat}
    (ranked : Ranked (kept ++ tasks)) (indexed : ∀ seg, task_idx seg = (firstOf (kept ++ tasks) seg).map (·.addr)) (seg : Nat) :
    (removeFrom owner tasks task_cnt task_idx).2.2 seg =
      (firstOf (kept ++ (removeFrom owner tasks task_cnt task_idx).1) seg).map (·.addr) := by
  induction tasks generalizing kept task_cnt task_idx with
  | nil => exact indexed seg
  | cons task rest ih =>
    unfold removeFrom
    by_cases same : task.owner = owner
    · rw [if_pos same]
      apply ih kept _ (ranked.sublist (List.Sublist.append_left (List.sublist_cons_self task rest) kept))
      exact moveOn_indexed kept ranked indexed
    · rw [if_neg same]
      have shifted : ∀ more, kept ++ task::more = (kept ++ [task]) ++ more := by simp
      rw [shifted] at ranked
      have indexed' : ∀ seg, task_idx seg = (firstOf ((kept ++ [task]) ++ rest) seg).map (·.addr) := by
        intro seg
        rw [← shifted]
        exact indexed seg
      have keeps := ih (kept ++ [task]) task_cnt ranked indexed'
      rw [← shifted] at keeps
      exact keeps

/-- A cancellation takes out the tasks of the owner. -/
theorem Ordered.cancelled {me : Threadpool} (ordered : Ordered me) (owner : Nat) :
    (base_threadpool_cancel_tasks me owner).tasks = me.tasks.filter (fun task => task.owner != owner) ∧
      Ordered (base_threadpool_cancel_tasks me owner) := by
  unfold base_threadpool_cancel_tasks
  split
  · have tasks := removeFrom_tasks owner me.tasks me.task_cnt me.task_idx
    refine ⟨tasks,?_,?_,?_⟩
    · unfold remove_tasks
      dsimp only
      rw [tasks]
      exact ordered.toRanked.sublist List.filter_sublist
    · exact removeFrom_indexed [] me.task_cnt ordered.toRanked ordered.indexed
    · have counts := removeFrom_cnt owner 0 me.task_idx (ordered.counted.trans (Nat.zero_add _).symm)
      rw [Nat.zero_add] at counts
      exact counts
  · next none_ =>
    have counted := ordered.counted
    have empty : me.tasks = [] := List.eq_nil_of_length_eq_zero (by omega)
    rw [empty]
    exact ⟨rfl,ordered⟩

/-- The order depends on the ring, its index and its count only. -/
theorem Ordered.same {me other : Threadpool} (ordered : Ordered me) (tasks : other.tasks = me.tasks)
    (idx : other.task_idx = me.task_idx) (cnt : other.task_cnt = me.task_cnt) : Ordered other := by
  refine ⟨?_,?_,?_⟩
  · rw [tasks]
    exact ordered.toRanked
  · rw [tasks,idx]
    exact ordered.indexed
  · rw [tasks,cnt]
    exact ordered.counted

theorem task_new_fields (me : Threadpool) (work : Work) (priority : Int) (push : Bool) (owner : Nat) :
    (task_new me work priority push owner).1 =
      ⟨(task_new me work priority push owner).1.addr,work,owner,priority,me.calls,push⟩ := by
  unfold task_new
  split <;> rfl

/-- Only the source of new objects changes. -/
theorem task_new_frame (me : Threadpool) (work : Work) (priority : Int) (push : Bool) (owner : Nat) :
    (task_new me work priority push owner).2 = {me with
      recycled_tasks := me.recycled_tasks.tail
      heap := (task_new me work priority push owner).2.heap
      calls := me.calls + 1} := by
  unfold task_new
  split
  · next none_ => simp only [none_,List.tail_nil]
  · next some_ => simp only [some_,List.tail_cons]

section Adding
variable (me : Threadpool) (work : Work) (priority : Int) (push : Bool) (owner : Nat)

/-- A thread is created. -/
def Creates : Prop := me.thd_cnt = 0 ∨ (me.idle_cnt = 0 ∧ me.thd_cnt < me.thd_max ∧ me.threshold < me.task_cnt + 1)

/-- The pool after a task was added and `created` threads were. -/
def addTask (created : Nat) : Threadpool where
  thd_max := me.thd_max
  idle_max := me.idle_max
  idle_wait := me.idle_wait
  thd_cnt := me.thd_cnt + created
  idle_cnt := me.idle_cnt
  task_cnt := me.task_cnt + 1
  threshold := me.threshold
  tasks := (insertTask (task_new me work priority push owner).2 (task_new me work priority push owner).1).tasks
  recycled_tasks := me.recycled_tasks.tail
  task_idx := (insertTask (task_new me work priority push owner).2 (task_new me work priority push owner).1).task_idx
  task_max := me.task_max
  heap := (task_new me work priority push owner).2.heap
  calls := me.calls + 1

theorem insert_new_frame : insertTask (task_new me work priority push owner).2 (task_new me work priority push owner).1 =
    {addTask me work priority push owner 0 with task_cnt := me.task_cnt} := by
  have created := task_new_frame me work priority push owner
  have frame := insertTask_frame (task_new me work priority push owner).2 (task_new me work priority push owner).1
  rw [frame,addTask]
  generalize insertTask (task_new me work priority push owner).2 (task_new me work priority push owner).1 = after
  rw [created]
  rfl

theorem add_task_eq (unlimited : me.task_max = 0) :
    (Creates me ∧ add_task me work priority push owner = some (true,addTask me work priority push owner 1)) ∨
      (¬Creates me ∧ add_task me work priority push owner = some (false,addTask me work priority push owner 0)) := by
  unfold add_task
  rw [if_neg (by simp [unlimited])]
  dsimp only
  rw [insert_new_frame]
  by_cases creates : Creates me
  · exact .inl ⟨creates,if_pos creates⟩
  · exact .inr ⟨creates,if_neg creates⟩

variable {me work priority push owner}

theorem task_new_new (unused : ∀ x ∈ me.tasks, x.addr ≠ (task_new me work priority push owner).1.addr)
    (older : ∀ x ∈ me.tasks, x.call < me.calls) (small : 0 ≤ priority ∧ priority ≤ 255) :
    New (task_new me work priority push owner).2 (task_new me work priority push owner).1 := by
  rw [task_new_frame]
  refine ⟨unused,?_,?_⟩
  · rw [task_new_fields]
    exact older
  · rw [task_new_fields]
    exact small

theorem Ordered.task_new (ordered : Ordered me) : Ordered (task_new me work priority push owner).2 := by
  rw [task_new_frame]
  exact ordered.same rfl rfl rfl

theorem addTask_tasks (ordered : Ordered me)
    (new : New (task_new me work priority push owner).2 (task_new me work priority push owner).1) (created : Nat) :
    (addTask me work priority push owner created).tasks =
      place (ahead (task_new me work priority push owner).1) (task_new me work priority push owner).1 me.tasks := by
  have placed := ordered.task_new.insertTask_tasks new
  have tasks : (Pool.task_new me work priority push owner).2.tasks = me.tasks := by rw [task_new_frame]
  rw [tasks] at placed
  exact placed

theorem Ordered.addTask (ordered : Ordered me)
    (new : New (Pool.task_new me work priority push owner).2 (Pool.task_new me work priority push owner).1)
    (settled : push → Settled me priority) (created : Nat) : Ordered (addTask me work priority push owner created) := by
  apply ordered.task_new.inserted new
  · rw [task_new_fields,task_new_frame]
    exact settled
  · rfl
  · rfl
  · rw [task_new_frame]
    rfl

end Adding

end Migfm.Pool
