import Migfm.Chat.ClockTask

/-! When a task of the timer is handed over and when it is freed, whatever the other
tasks are. -/
namespace Migfm.Chat.ClockTask
open Library
open Storage (c_str)

/-! ### One task among the others -/

section Among
variable {α : Type} {key : α → Nat} {a : Nat} {items : List Item}

theorem filter_flatMap_of {tells : Item → List α} (own : ∀ item, ∀ word ∈ tells item, key word = item.1) :
    (items.flatMap tells).filter (fun word => key word = a) = (items.filter fun item => item.1 = a).flatMap tells := by
  induction items with
  | nil => rfl
  | cons item items ih =>
    rw [List.flatMap_cons,List.filter_append,ih,List.filter_cons]
    by_cases mine : item.1 = a
    · rw [if_pos (decide_eq_true mine),List.flatMap_cons,List.filter_eq_self.mpr]
      exact fun word member => decide_eq_true ((own item word member).trans mine)
    · rw [if_neg (mt of_decide_eq_true mine),List.filter_eq_nil_iff.mpr,List.nil_append]
      exact fun word member same => mine ((own item word member).symm.trans (of_decide_eq_true same))

theorem filter_filterMap_of {keeps : Item → Option Item} (own : ∀ item rest, keeps item = some rest → rest.1 = item.1) :
    (items.filterMap keeps).filter (fun item => item.1 = a) = (items.filter fun item => item.1 = a).filterMap keeps := by
  induction items with
  | nil => rfl
  | cons item items ih =>
    rw [Slots.filterMap_cons_toList,List.filter_append,ih,List.filter_cons]
    by_cases mine : item.1 = a
    · rw [if_pos (decide_eq_true mine),Slots.filterMap_cons_toList,List.filter_eq_self.mpr]
      exact fun rest member => decide_eq_true ((own item rest (Option.mem_toList.mp member)).trans mine)
    · rw [if_neg (mt of_decide_eq_true mine),List.filter_eq_nil_iff.mpr,List.nil_append]
      exact fun rest member same => mine ((own item rest (Option.mem_toList.mp member)).symm.trans (of_decide_eq_true same))

theorem filterMap_toList (item : Option Item) (keeps : Item → Option Item) : item.toList.filterMap keeps = (item.bind keeps).toList := by
  cases item with
  | none => rfl
  | some item => exact (Slots.filterMap_cons_toList ..).trans (List.append_nil _)

end Among

/-- What an event leaves of a task, and what is said about it. -/
def fate (now : Nat) (item : Item) : Event → Option Item × List (Nat × Done)
  | .on_time_msg => (item.remains,item.struck (now + 1))
  | .add_time_task _ _ _ _ => (some item,[])
  | .del_time_task id opcode => (item.kept id opcode,item.dismissed now id opcode)

/-- The task of an address, if it is still there, and what has been said about it. -/
structure Tracks (a : Nat) (item : Option Item) (log : List (Nat × Done)) (book : Book) : Prop where
  mine : book.items.filter (fun item => item.1 = a) = item.toList
  log : book.done.filter (fun done => done.2.address = a) = log
  old : a < book.next

section Track
variable {a : Nat} {log : List (Nat × Done)} {book : Book}

theorem struck_own (now : Nat) (item : Item) : ∀ word ∈ item.struck now, word.2.address = item.1 := by
  intro word member
  rw [Item.struck] at member
  obtain handed | freed := List.mem_append.mp member
  · obtain ⟨copy,-,rfl⟩ := List.mem_map.mp handed
    rfl
  · split at freed
    · rw [List.mem_singleton.mp freed]
      rfl
    · cases freed

theorem remains_own (item rest : Item) (left : item.remains = some rest) : rest.1 = item.1 := by
  rw [Item.remains] at left
  split at left
  · cases left
  · cases left
    rfl

theorem dismissed_own (now : Nat) (id : List UInt8) (opcode : Int32) (item : Item) :
    ∀ word ∈ item.dismissed now id opcode, word.2.address = item.1 := by
  intro word member
  rw [Item.dismissed] at member
  split at member
  · rw [List.mem_singleton.mp member]
    rfl
  · cases member

theorem kept_own (id : List UInt8) (opcode : Int32) (item rest : Item) (left : item.kept id opcode = some rest) : rest.1 = item.1 := by
  rw [Item.kept] at left
  split at left
  · cases left
  · cases left
    rfl

/-- Nothing is said about a task that is gone. -/
theorem Tracks.step {item : Option Item} (tracks : Tracks a item log book) (event : Event) :
    Tracks a (item.bind fun item => (fate book.ticks item event).1) (log ++ item.toList.flatMap fun item => (fate book.ticks item event).2)
      (book.step event) := by
  cases event with
  | on_time_msg =>
    refine ⟨?_,?_,tracks.old⟩
    · rw [Book.step,filter_filterMap_of remains_own,tracks.mine]
      exact filterMap_toList item _
    · rw [Book.step,List.filter_append,filter_flatMap_of (struck_own _),tracks.mine,tracks.log]
      rfl
  | add_time_task id opcode time ncount =>
    refine ⟨?_,?_,Nat.lt_succ_of_lt tracks.old⟩
    · have other : [(book.next,(⟨c_str id,opcode,time.toInt,0,ncount.toInt⟩ : time_task))].filter (fun item => item.1 = a) = [] := by
        rw [List.filter_cons_of_neg,List.filter_nil]
        exact mt of_decide_eq_true (Nat.ne_of_gt tracks.old)
      rw [Book.step,List.filter_append,other,List.append_nil,tracks.mine]
      cases item <;> rfl
    · rw [Book.step,tracks.log]
      cases item <;> exact (List.append_nil _).symm
  | del_time_task id opcode =>
    refine ⟨?_,?_,tracks.old⟩
    · rw [Book.step,filter_filterMap_of (kept_own id opcode),tracks.mine]
      exact filterMap_toList item _
    · rw [Book.step,List.filter_append,filter_flatMap_of (dismissed_own _ id opcode),tracks.mine,tracks.log]
      rfl

end Track

/-! ### The schedule -/

section Struck
variable {task : time_task}

theorem time_task.struck_early (early : task.time ≠ task.current_time + 1) :
    task.struck = ({ task with current_time := task.current_time + 1 },none) := if_neg early

theorem time_task.struck_endless (due : task.time = task.current_time + 1) (endless : ¬task.ncount > -1) :
    task.struck = ({ task with current_time := 0 },some (time_addtask { task with current_time := task.current_time + 1 })) := by
  rw [time_task.struck]
  dsimp only
  rw [if_pos due,if_neg endless]

theorem time_task.struck_counted (due : task.time = task.current_time + 1) (counted : task.ncount > -1) :
    task.struck = ({ task with current_time := 0,ncount := task.ncount - 1 },
      some (time_addtask { task with current_time := task.current_time + 1,ncount := task.ncount - 1 })) := by
  rw [time_task.struck]
  dsimp only
  rw [if_pos due,if_pos counted]

end Struck

def Event.strikes : Event → Bool
  | .on_time_msg => true
  | _ => false

/-- What is asked for: `period` signals apart, and `count` times, or without end if it is -1. -/
structure Order where
  id : List UInt8
  opcode : Int32
  period : Nat
  count : Int

namespace Order
variable (order : Order)

/-- The deletion of the task's id and operation code. -/
def named : Event → Bool
  | .del_time_task id opcode => order.opcode = opcode ∧ c_str order.id = c_str id
  | _ => false

/-- How often the task has been handed over after so many signals. -/
def times (age : Nat) : Nat := if order.count = -1 then age / order.period else min (age / order.period) order.count.toNat

/-- The last time has come. -/
def Spent (age : Nat) : Prop := order.count ≠ -1 ∧ order.count.toNat * order.period ≤ age

instance (age : Nat) : Decidable (order.Spent age) := inferInstanceAs (Decidable (_ ∧ _))

/-- What is left of the count. -/
def left (times : Nat) : Int := if order.count = -1 then -1 else order.count - times

/-- The copy that is handed over for the time of this number. -/
def copy (times : Nat) : time_task := ⟨c_str order.id,order.opcode,order.period,order.period,order.left times⟩

/-- The task at an age. -/
def aged (age : Nat) : time_task := ⟨c_str order.id,order.opcode,order.period,(age % order.period : Nat),order.left (age / order.period)⟩

/-- How many signals come before the deletion. -/
def age (events : List Event) : Nat := (events.takeWhile fun event => !order.named event).countP Event.strikes

/-- What has been said about the task that was added at the time `start`. -/
def log (a start : Nat) (events : List Event) : List (Nat × Done) :=
  ((List.range (order.times (order.age events))).map fun k => (start + (k + 1) * order.period,Done.handed a (order.copy (k + 1)))) ++
    if order.Spent (order.age events) then [(start + order.count.toNat * order.period,.freed a)]
    else if events.any order.named then [(start + order.age events,.freed a)]
    else []

/-- It has not been freed. -/
def Stands (events : List Event) : Prop := ¬order.Spent (order.age events) ∧ events.any order.named = false

instance (events : List Event) : Decidable (order.Stands events) := inferInstanceAs (Decidable (_ ∧ _))

def Legit : Prop := 0 < order.period ∧ (1 ≤ order.count ∨ order.count = -1)

variable {order}

theorem aged_zero : order.aged 0 = ⟨c_str order.id,order.opcode,order.period,0,order.count⟩ := by
  have whole : order.left 0 = order.count := by
    rw [left]
    split
    · rename_i endless
      exact endless.symm
    · exact Int.sub_zero _
  rw [aged,Nat.zero_mod,Nat.zero_div,whole]
  rfl

/-- The signal after an age is a multiple of the period, or it is not. -/
theorem turn {period : Nat} (positive : 0 < period) (age : Nat) :
    (age % period + 1 = period ∧ period ∣ age + 1 ∧ (age + 1) / period = age / period + 1 ∧ (age + 1) % period = 0) ∨
      (age % period + 1 < period ∧ ¬period ∣ age + 1 ∧ (age + 1) / period = age / period ∧ (age + 1) % period = age % period + 1) := by
  have parts : age + 1 = (age % period + 1) + period * (age / period) := by
    rw [Nat.add_right_comm,Nat.mod_add_div]
  obtain full | short : age % period + 1 = period ∨ age % period + 1 < period := by
    have small := Nat.mod_lt age positive
    omega
  · have multiple : age + 1 = period * (age / period + 1) := by rw [parts,full,Nat.mul_succ,Nat.add_comm]
    refine .inl ⟨full,⟨_,multiple⟩,?_,?_⟩
    · conv_lhs => rw [multiple]
      exact Nat.mul_div_cancel_left _ positive
    · exact Nat.mod_eq_zero_of_dvd ⟨_,multiple⟩
  · have rest : (age + 1) % period = age % period + 1 := by
      conv_lhs => rw [parts]
      rw [Nat.add_mul_mod_self_left,Nat.mod_eq_of_lt short]
    refine .inr ⟨short,fun multiple => ?_,?_,rest⟩
    · rw [Nat.mod_eq_zero_of_dvd multiple] at rest
      cases rest
    · conv_lhs => rw [parts]
      rw [Nat.add_mul_div_left _ _ positive,Nat.div_eq_of_lt short,Nat.zero_add]

/-- A task that is not spent has a time left, or no count. -/
theorem Legit.left (legit : order.Legit) {age : Nat} (standing : ¬order.Spent age) :
    order.count = -1 ∨ (order.count ≠ -1 ∧ (age / order.period : Nat) < order.count) := by
  by_cases endless : order.count = -1
  · exact .inl endless
  · have before : age < order.count.toNat * order.period := by
      by_contra beyond
      exact standing ⟨endless,Nat.le_of_not_lt beyond⟩
    have count := legit.2.resolve_right endless
    have less := Nat.div_lt_of_lt_mul (Nat.mul_comm .. ▸ before)
    exact .inr ⟨endless,by omega⟩

/-- One signal at an age. -/
theorem struck_aged (legit : order.Legit) {age : Nat} (standing : ¬order.Spent age) :
    (order.aged age).struck =
      (order.aged (age + 1),if order.period ∣ age + 1 then some (order.copy ((age + 1) / order.period)) else none) := by
  have same : c_str (c_str order.id) = c_str order.id := Storage.c_str_eq (Storage.c_str_clean _)
  obtain ⟨full,multiple,quotient,rest⟩ | ⟨short,apart,quotient,rest⟩ := turn legit.1 age
  · have due : (order.period : Int) = (age % order.period : Nat) + 1 := by omega
    rw [if_pos multiple,aged,aged,copy,quotient,rest]
    obtain endless | ⟨counted,less⟩ := legit.left standing
    · have none_ (times : Nat) : order.left times = -1 := if_pos endless
      rw [none_,none_,time_task.struck_endless due (lt_irrefl _),time_addtask,same,due]
      rfl
    · have one : order.left (age / order.period) - 1 = order.left (age / order.period + 1) := by
        simp only [Order.left,if_neg counted]
        push_cast
        omega
      have some_ : order.left (age / order.period) > -1 := by
        simp only [Order.left,if_neg counted]
        omega
      rw [time_task.struck_counted due some_,time_addtask,same,← one,due]
      rfl
  · have early : (order.period : Int) ≠ (age % order.period : Nat) + 1 := by omega
    rw [if_neg apart,aged,aged,quotient,rest,time_task.struck_early early]
    rfl

/-- The count comes down to zero with the last time. -/
theorem ncount_eq_zero (legit : order.Legit) {age : Nat} (standing : ¬order.Spent age) :
    (order.aged (age + 1)).ncount = 0 ↔ order.Spent (age + 1) := by
  rw [aged,Order.left,Spent]
  obtain endless | ⟨counted,less⟩ := legit.left standing
  · rw [if_pos endless]
    exact iff_of_false (by decide : (-1 : Int) ≠ 0) fun spent => spent.1 endless
  · have through : order.count.toNat * order.period ≤ age + 1 ↔ order.count.toNat ≤ (age + 1) / order.period :=
      (Nat.le_div_iff_mul_le legit.1).symm
    have quotient : (age + 1) / order.period ≤ age / order.period + 1 := by
      obtain ⟨-,-,same,-⟩ | ⟨-,-,same,-⟩ := turn legit.1 age
      · exact same.le
      · omega
    rw [if_neg counted,through]
    generalize age / order.period = before at less quotient
    generalize (age + 1) / order.period = after at quotient ⊢
    dsimp only
    omega

theorem times_succ (legit : order.Legit) {age : Nat} (standing : ¬order.Spent age) :
    order.times (age + 1) = order.times age + if order.period ∣ age + 1 then 1 else 0 := by
  have quotient : (age + 1) / order.period = age / order.period + if order.period ∣ age + 1 then 1 else 0 := Nat.succ_div
  rw [times,times,quotient]
  obtain endless | ⟨counted,less⟩ := legit.left standing
  · rw [if_pos endless,if_pos endless]
  · rw [if_neg counted,if_neg counted]
    split
    · omega
    · omega

/-- A task is handed over for the time of the number it has reached. -/
theorem times_eq (legit : order.Legit) {age : Nat} (standing : ¬order.Spent age) : order.times age = age / order.period := by
  rw [times]
  obtain endless | ⟨counted,less⟩ := legit.left standing
  · exact if_pos endless
  · rw [if_neg counted]
    omega

theorem Spent.mono {age later : Nat} (spent : order.Spent age) (le : age ≤ later) : order.Spent later := ⟨spent.1,spent.2.trans le⟩

/-- When the last time has come, no other comes. -/
theorem Spent.times (legit : order.Legit) {age : Nat} (spent : order.Spent age) : order.times age = order.count.toNat := by
  have through : order.count.toNat ≤ age / order.period := (Nat.le_div_iff_mul_le legit.1).mpr spent.2
  rw [Order.times,if_neg spent.1]
  omega

section Events
variable {events : List Event}

theorem age_gone (gone : events.any order.named = true) (event : Event) : order.age (events ++ [event]) = order.age events := by
  obtain ⟨deletion,listed,named⟩ := List.any_eq_true.mp gone
  have stops : (events.takeWhile fun event => !order.named event).length ≠ events.length := by
    intro whole
    have same := (List.takeWhile_prefix fun event => !order.named event).eq_of_length whole
    have kept := List.takeWhile_eq_self_iff.mp same deletion listed
    rw [named] at kept
    cases kept
  rw [age,List.takeWhile_append,if_neg stops]
  rfl

theorem age_there (there : events.any order.named = false) (event : Event) :
    order.age (events ++ [event]) = order.age events + if event.strikes then 1 else 0 := by
  have all : ∀ event ∈ events, (!order.named event) = true := by
    intro event listed
    rw [Bool.not_eq_true',← Bool.not_eq_true]
    exact List.any_eq_false.mp there event listed
  rw [age,age,List.takeWhile_append_of_pos all,List.takeWhile_eq_self_iff.mpr all,List.countP_append]
  congr 1
  cases event with
  | on_time_msg => rfl
  | add_time_task id opcode time ncount => rfl
  | del_time_task id opcode =>
    rw [List.takeWhile_cons]
    split
    · rfl
    · rfl

theorem named_kept (age now a : Nat) (id : List UInt8) (opcode : Int32) :
    Item.kept id opcode (a,order.aged age) = (if order.named (.del_time_task id opcode) then none else some (a,order.aged age)) ∧
      Item.dismissed now id opcode (a,order.aged age) = if order.named (.del_time_task id opcode) then [(now,.freed a)] else [] := by
  have same : c_str (c_str order.id) = c_str order.id := Storage.c_str_eq (Storage.c_str_clean _)
  rw [Item.kept,Item.dismissed,named,aged]
  dsimp only
  rw [same]
  simp only [decide_eq_true_eq,and_self]

/-- A task that is gone stays gone, and nothing more is said. -/
theorem log_gone (legit : order.Legit) (gone : ¬order.Stands events) (event : Event) (a start : Nat) :
    ¬order.Stands (events ++ [event]) ∧ order.log a start (events ++ [event]) = order.log a start events := by
  by_cases deleted : events.any order.named = true
  · have still : (events ++ [event]).any order.named = true := by rw [List.any_append,deleted,Bool.true_or]
    refine ⟨fun stands => Bool.false_ne_true (stands.2.symm.trans still),?_⟩
    rw [log,log,age_gone deleted,deleted,still]
  · have there := eq_false_of_ne_true deleted
    have spent : order.Spent (order.age events) := by
      by_contra standing
      exact gone ⟨standing,there⟩
    have later : order.Spent (order.age (events ++ [event])) := spent.mono (age_there there event ▸ Nat.le_add_right ..)
    refine ⟨fun stands => stands.1 later,?_⟩
    rw [log,log,spent.times legit,later.times legit,if_pos spent,if_pos later]

/-- What a signal says about a task that stands. -/
theorem log_strike (legit : order.Legit) (stands : order.Stands events) (a start : Nat) :
    order.log a start (events ++ [.on_time_msg]) =
      order.log a start events ++ Item.struck (start + order.age events + 1) (a,order.aged (order.age events)) := by
  have count : order.age (events ++ [.on_time_msg]) = order.age events + 1 := age_there stands.2 _
  have there : (events ++ [Event.on_time_msg]).any order.named = false := by
    rw [List.any_append,stands.2]
    rfl
  rw [log,log,count,there,stands.2,if_neg stands.1,if_neg Bool.false_ne_true,if_neg Bool.false_ne_true,List.append_nil,Item.struck]
  simp only [struck_aged legit stands.1,ncount_eq_zero legit stands.1,times_succ legit stands.1]
  have reached := times_eq legit stands.1
  rw [← List.append_assoc]
  congr 1
  · obtain ⟨-,multiple,quotient,-⟩ | ⟨-,apart,-,-⟩ := turn legit.1 (order.age events)
    · have whole : (order.age events / order.period + 1) * order.period = order.age events + 1 := by
        rw [← quotient]
        exact Nat.div_mul_cancel multiple
      rw [if_pos multiple,if_pos multiple,List.range_succ,List.map_append,quotient,reached,List.map_singleton,whole]
      rfl
    · rw [if_neg apart,if_neg apart]
      exact (List.append_nil _).symm
  · by_cases spent : order.Spent (order.age events + 1)
    · have last : order.count.toNat * order.period = order.age events + 1 := by
        have before : ¬order.count.toNat * order.period ≤ order.age events := fun through => stands.1 ⟨spent.1,through⟩
        have after := spent.2
        omega
      rw [if_pos spent,if_pos spent,last]
      rfl
    · rw [if_neg spent,if_neg spent]

theorem tracks_run (legit : order.Legit) {a : Nat} {book : Book} (tracks : Tracks a (some (a,order.aged 0)) [] book) :
    Tracks a (if order.Stands events then some (a,order.aged (order.age events)) else none) (order.log a book.ticks events)
        (events.foldl Book.step book) ∧
      (order.Stands events → (events.foldl Book.step book).ticks = book.ticks + order.age events) := by
  induction events using List.reverseRecOn with
  | nil =>
    have fresh : order.Stands [] := by
      refine ⟨fun spent => ?_,rfl⟩
      have positive := legit.1
      have count := legit.2.resolve_right spent.1
      exact absurd spent.2 (Nat.not_le.mpr (Nat.mul_pos (by omega) positive))
    have none_ : order.times (order.age []) = 0 := (times_eq legit fresh.1).trans (Nat.zero_div _)
    refine ⟨?_,fun _ => rfl⟩
    rw [if_pos fresh,log,none_,if_neg fresh.1]
    exact tracks
  | append_singleton events event ih =>
    obtain ⟨tracked,ticks⟩ := ih
    rw [List.foldl_append,List.foldl_cons,List.foldl_nil]
    by_cases stands : order.Stands events
    · have stepped := tracked.step event
      rw [if_pos stands,ticks stands] at stepped
      have count := age_there stands.2 event
      have names : (events ++ [event]).any order.named = order.named event := by
        rw [List.any_append,stands.2,Bool.false_or,List.any_cons,List.any_nil,Bool.or_false]
      simp only [Option.bind_some,Option.toList_some,List.flatMap_cons,List.flatMap_nil,List.append_nil] at stepped
      cases event with
      | on_time_msg =>
        have left : Item.remains (a,order.aged (order.age events)) =
            if order.Stands (events ++ [.on_time_msg]) then some (a,order.aged (order.age (events ++ [.on_time_msg]))) else none := by
          have still : order.Stands (events ++ [.on_time_msg]) ↔ ¬order.Spent (order.age events + 1) := by
            rw [Stands,count,names]
            exact and_iff_left rfl
          rw [Item.remains]
          simp only [struck_aged legit stands.1,ncount_eq_zero legit stands.1,still,count,ite_not]
          rfl
        rw [log_strike legit stands,← left]
        refine ⟨stepped,fun _ => ?_⟩
        rw [Book.step,ticks stands,count]
        rfl
      | add_time_task id opcode time ncount =>
        have same : order.age (events ++ [.add_time_task id opcode time ncount]) = order.age events := count
        have still : order.Stands (events ++ [.add_time_task id opcode time ncount]) := by
          rw [Stands,same,names]
          exact ⟨stands.1,rfl⟩
        have log_ : order.log a book.ticks (events ++ [.add_time_task id opcode time ncount]) = order.log a book.ticks events := by
          rw [log,log,same,names,stands.2]
          rfl
        rw [if_pos still,same,log_]
        rw [fate,List.append_nil] at stepped
        exact ⟨stepped,fun _ => ticks stands⟩
      | del_time_task id opcode =>
        have same : order.age (events ++ [.del_time_task id opcode]) = order.age events := count
        obtain ⟨kept,dismissed⟩ := @named_kept order (order.age events) (book.ticks + order.age events) a id opcode
        rw [fate,kept,dismissed] at stepped
        cases named : order.named (.del_time_task id opcode) with
        | true =>
          rw [named] at names stepped
          have gone : ¬order.Stands (events ++ [.del_time_task id opcode]) := fun still => Bool.false_ne_true (still.2.symm.trans names)
          rw [if_neg gone,log,same,names,if_neg stands.1]
          rw [log,stands.2,if_neg stands.1] at stepped
          refine ⟨?_,fun still => absurd still gone⟩
          simpa using stepped
        | false =>
          rw [named] at names stepped
          have still : order.Stands (events ++ [.del_time_task id opcode]) := by
            rw [Stands,same,names]
            exact ⟨stands.1,rfl⟩
          have log_ : order.log a book.ticks (events ++ [.del_time_task id opcode]) = order.log a book.ticks events := by
            rw [log,log,same,names,stands.2]
          rw [if_pos still,same,log_]
          simp only [Bool.false_eq_true,if_false,List.append_nil] at stepped
          exact ⟨stepped,fun _ => ticks stands⟩
    · obtain ⟨gone,same⟩ := log_gone legit stands event a book.ticks
      have stepped := tracked.step event
      rw [if_neg stands] at stepped
      rw [if_neg gone,same]
      refine ⟨?_,fun still => absurd still gone⟩
      simpa using stepped

end Events

end Order

/-! ### Every run -/

/-- Only addresses that have been handed out are used. -/
structure Book.Known (book : Book) : Prop where
  items : ∀ item ∈ book.items, item.1 < book.next
  done : ∀ done ∈ book.done, done.2.address < book.next

section Known
variable {book : Book}

theorem Book.Known.pass (known : book.Known) {keeps : Item → Option Item} {tells : Item → List (Nat × Done)} (ticks : Nat)
    (own : ∀ item rest, keeps item = some rest → rest.1 = item.1) (own' : ∀ item, ∀ word ∈ tells item, word.2.address = item.1) :
    Book.Known ⟨book.items.filterMap keeps,book.next,ticks,book.done ++ book.items.flatMap tells⟩ := by
  constructor
  · intro rest member
    obtain ⟨item,listed,kept⟩ := List.mem_filterMap.mp member
    rw [own item rest kept]
    exact known.items item listed
  · intro word member
    obtain before | now := List.mem_append.mp member
    · exact known.done word before
    · obtain ⟨item,listed,told⟩ := List.mem_flatMap.mp now
      rw [own' item word told]
      exact known.items item listed

theorem Book.Known.step (known : book.Known) (event : Event) : (book.step event).Known := by
  cases event with
  | on_time_msg => exact known.pass _ remains_own (struck_own _)
  | add_time_task id opcode time ncount =>
    constructor
    · rw [Book.step,List.forall_mem_append,List.forall_mem_singleton]
      exact ⟨fun item listed => Nat.lt_succ_of_lt (known.items item listed),Nat.lt_succ_self _⟩
    · exact fun done listed => Nat.lt_succ_of_lt (known.done done listed)
  | del_time_task id opcode => exact known.pass _ (kept_own id opcode) (dismissed_own _ id opcode)

theorem Book.Known.run (known : book.Known) (events : List Event) : (events.foldl Book.step book).Known := by
  induction events generalizing book with
  | nil => exact known
  | cons event events ih => exact ih (known.step event)

/-- The task that has just been added. -/
theorem Book.Known.tracks (known : book.Known) (id : List UInt8) (opcode : Int32) {time ncount : Int32} (period : 1 ≤ time.toInt) :
    Tracks book.next (some (book.next,Order.aged ⟨id,opcode,time.toInt.toNat,ncount.toInt⟩ 0)) []
      (book.step (.add_time_task id opcode time ncount)) := by
  have whole : (time.toInt.toNat : Int) = time.toInt := Int.toNat_of_nonneg (by omega)
  have others : book.items.filter (fun item => item.1 = book.next) = [] := by
    rw [List.filter_eq_nil_iff]
    exact fun item listed same => Nat.ne_of_lt (known.items item listed) (of_decide_eq_true same)
  refine ⟨?_,?_,Nat.lt_succ_self _⟩
  · rw [Book.step,List.filter_append,others,Order.aged_zero,whole,List.filter_cons,if_pos (decide_eq_true rfl)]
    rfl
  · rw [Book.step,List.filter_eq_nil_iff]
    exact fun done listed same => Nat.ne_of_lt (known.done done listed) (of_decide_eq_true same)

end Known

/-- A task that is followed is allocated and linked, or neither. -/
theorem Keeps.cell {clock : Clock} {book : Book} {a : Nat} {item : Option Item} {log : List (Nat × Done)} (keeps : Keeps clock book)
    (tracks : Tracks a item log book) :
    clock.tasks.cell a = item.map Prod.snd ∧ (.task a ∈ book.items.map (fun item => Node.task item.1) ↔ item.isSome) := by
  have mine := tracks.mine
  cases item with
  | none =>
    have absent : ∀ item ∈ book.items, item.1 ≠ a := by
      intro item listed same
      exact List.filter_eq_nil_iff.mp mine item listed (decide_eq_true same)
    refine ⟨keeps.only a absent,iff_of_false ?_ Bool.false_ne_true⟩
    intro member
    obtain ⟨item,listed,same⟩ := List.mem_map.mp member
    exact absent item listed (Node.task.inj same)
  | some item =>
    have held : item ∈ book.items.filter fun item => item.1 = a := mine ▸ List.mem_singleton_self item
    obtain ⟨listed,same⟩ := List.mem_filter.mp held
    have key : item.1 = a := of_decide_eq_true same
    exact ⟨key ▸ keeps.cells item listed,iff_of_true (List.mem_map.mpr ⟨item,listed,congrArg Node.task key⟩) rfl⟩

section Run
variable {before after : List Event} {id : List UInt8} {opcode time ncount : Int32}

/-- What has been said about a task, and whether it is linked and allocated, at any moment after it was added. -/
theorem on_schedule (legit : ∀ event ∈ before ++ .add_time_task id opcode time ncount::after, event.Legit) :
    ∃ clock final, Runs.run step init_clock before = some clock ∧
      Runs.run step init_clock (before ++ .add_time_task id opcode time ncount::after) = some final ∧
      let order : Order := ⟨id,opcode,time.toInt.toNat,ncount.toInt⟩
      final.done.filter (fun done => done.2.address = clock.tasks.next) = order.log clock.tasks.next clock.ticks after ∧
        final.tasks.cell clock.tasks.next = (if order.Stands after then some (order.aged (order.age after)) else none) ∧
        ∃ nodes, final.links.Ring .time_task nodes ∧ (.task clock.tasks.next ∈ nodes ↔ order.Stands after) := by
  obtain ⟨first,rest⟩ := List.forall_mem_append.mp legit
  obtain ⟨added,later⟩ := List.forall_mem_cons.mp rest
  obtain ⟨clock,ran,keeps⟩ := keeps_init.run first
  obtain ⟨final,ended,kept⟩ := keeps_init.run legit
  have known : Book.Known ⟨[],0,0,[]⟩ := ⟨fun _ none_ => absurd none_ List.not_mem_nil,fun _ none_ => absurd none_ List.not_mem_nil⟩
  have asked : Order.Legit ⟨id,opcode,time.toInt.toNat,ncount.toInt⟩ := by
    refine ⟨by have period := added.1; dsimp only; omega,added.2.imp_right fun endless => ?_⟩
    rw [endless]
    rfl
  have known := known.run before
  rw [List.foldl_append,List.foldl_cons] at kept
  generalize before.foldl Book.step ⟨[],0,0,[]⟩ = book at keeps kept known
  have address : clock.tasks.next = book.next := keeps.handed
  have start : clock.ticks = book.ticks := keeps.ticks
  obtain ⟨tracked,-⟩ := @Order.tracks_run ⟨id,opcode,time.toInt.toNat,ncount.toInt⟩ after asked _ _ (known.tracks id opcode added.1)
  obtain ⟨cell,linked⟩ := kept.cell tracked
  refine ⟨clock,final,ran,ended,?_⟩
  dsimp only
  rw [address,start]
  refine ⟨(congrArg _ kept.said).trans tracked.log,cell.trans ?_,_,kept.ring,linked.trans ?_⟩
  · split <;> rfl
  · split
    · rename_i stands
      exact iff_of_true rfl stands
    · rename_i gone
      exact iff_of_false Bool.false_ne_true gone

end Run

/-- Once after two signals. -/
theorem once_after_two : ∃ final, Runs.run step init_clock [.add_time_task [97] 1 2 1,.on_time_msg,.on_time_msg,.on_time_msg] = some final ∧
    final.done.filter (fun done => done.2.address = 0) = [(2,.handed 0 ⟨[97],1,2,2,0⟩),(2,.freed 0)] := by
  have legit : ∀ event ∈ [] ++ Event.add_time_task [97] 1 2 1::[.on_time_msg,.on_time_msg,.on_time_msg], event.Legit := by
    simp [Event.Legit]
  obtain ⟨clock,final,start,ends,log,-⟩ := on_schedule legit
  obtain rfl := Option.some.inj start
  exact ⟨final,ends,log⟩

end Migfm.Chat.ClockTask
