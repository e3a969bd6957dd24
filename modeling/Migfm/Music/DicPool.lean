import Migfm.Library.Runs
import Migfm.Library.Slots

/-! The redis connections of master/music/dic_comm.cc, with `_DIC_POOL_`. An
`AutoDicCommEngine` takes one when it is made and gives back what it has when it goes. -/
namespace Migfm.Music.DicPool
open Library.Runs Library.Slots

/-- The pointer of an engine; `none` is `NULL`. -/
abbrev Engine := Option Nat

/-- An `AutoDicCommEngine`: `RedisConnectionPop` has seen a pool that is not empty and waits for the
lock, it is there, or its destructor has run. -/
inductive AutoDicCommEngine
  | popping
  | made (engine_ : Engine)
  | gone
  deriving DecidableEq

/-- `undefined`: `front` and `pop_front` were called on an empty list. -/
structure RedisComm where
  dic_conn_pool_ : List Engine
  engines : List AutoDicCommEngine
  undefined : Bool
  deriving DecidableEq

/-- `connected` says which of the attempts to connect succeed. -/
def Init (dic_conn_num : Int) (connected : Nat → Bool) : RedisComm where
  dic_conn_pool_ := ((List.range (dic_conn_num + 1).toNat).filter connected).map some
  engines := []
  undefined := false

inductive Event
  | construct
  | pop (k : Nat)
  | destruct (k : Nat)

namespace RedisComm

/-- The constructor up to the emptiness test of `RedisConnectionPop`. -/
def testPool (redis : RedisComm) : RedisComm :=
  let engine := if redis.dic_conn_pool_.length ≤ 0 then .made none else .popping
  {redis with engines := redis.engines ++ [engine]}

/-- What `RedisConnectionPop` does under the lock. -/
def RedisConnectionPop (redis : RedisComm) (k : Nat) : Option RedisComm :=
  match redis.engines[k]? with
  | some .popping => match redis.dic_conn_pool_ with
    | [] => some {redis with engines := redis.engines.set k (.made none), undefined := true}
    | engine::rest => some {redis with dic_conn_pool_ := rest, engines := redis.engines.set k (.made engine)}
  | _ => none

/-- The destructor. -/
def RedisConnectionPush (redis : RedisComm) (k : Nat) : Option RedisComm :=
  match redis.engines[k]? with
  | some (.made engine_) => some {redis with
      dic_conn_pool_ := redis.dic_conn_pool_ ++ [engine_]
      engines := redis.engines.set k .gone}
  | _ => none

end RedisComm

def step (redis : RedisComm) : Event → Option RedisComm
  | .construct => some redis.testPool
  | .pop k => redis.RedisConnectionPop k
  | .destruct k => redis.RedisConnectionPush k

def AutoDicCommEngine.holds : AutoDicCommEngine → Option Engine
  | .made engine_ => some engine_
  | _ => none

/-- What the engines that are there have got. -/
def RedisComm.held (redis : RedisComm) : List Engine := redis.engines.filterMap AutoDicCommEngine.holds

/-- The constructors between their test and their pop. -/
def RedisComm.pending (redis : RedisComm) : Nat := redis.engines.countP (· = .popping)

/-- What is promised of the pool: `init` is what `Init` put into it. -/
structure Right (init : List Engine) (redis : RedisComm) : Prop where
  once : ∀ engine ∈ init, redis.dic_conn_pool_.count engine + redis.held.count engine = 1
  nonnull : none ∉ redis.dic_conn_pool_
  distinct : redis.dic_conn_pool_.Nodup
  defined : redis.undefined = false

/-- A constructor finds more connections than constructors are on their way to them. -/
def Spare (redis : RedisComm) : Event → Prop
  | .construct => redis.pending < redis.dic_conn_pool_.length
  | _ => True

structure Sound (init : List Engine) (redis : RedisComm) : Prop where
  kept : (redis.dic_conn_pool_ ++ redis.held).Perm init
  enough : redis.pending ≤ redis.dic_conn_pool_.length
  defined : redis.undefined = false

/-- What `Init` can put into the pool. -/
structure Fresh (init : List Engine) : Prop where
  nonnull : none ∉ init
  distinct : init.Nodup

theorem Init_fresh (dic_conn_num : Int) (connected : Nat → Bool) : Fresh (Init dic_conn_num connected).dic_conn_pool_ := by
  constructor
  · intro member
    obtain ⟨_,_,null⟩ := List.mem_map.mp member
    cases null
  · apply List.Nodup.map
    · exact Option.some_injective Nat
    · exact List.nodup_range.filter _

theorem Init_sound (dic_conn_num : Int) (connected : Nat → Bool) :
    Sound (Init dic_conn_num connected).dic_conn_pool_ (Init dic_conn_num connected) := by
  refine ⟨?_,Nat.zero_le _,rfl⟩
  rw [show (Init dic_conn_num connected).held = [] from rfl,List.append_nil]

variable {init : List Engine} {redis next : RedisComm}

theorem Sound.right (fresh : Fresh init) (sound : Sound init redis) : Right init redis := by
  have distinct := sound.kept.nodup_iff.mpr fresh.distinct
  refine ⟨?_,?_,(List.nodup_append.mp distinct).1,sound.defined⟩
  · intro engine member
    rw [← List.count_append,sound.kept.count_eq]
    exact List.count_eq_one_of_mem fresh.distinct member
  · intro null
    exact fresh.nonnull (sound.kept.mem_iff.mp (List.mem_append_left _ null))

theorem pop_cases {k : Nat} (outcome : redis.RedisConnectionPop k = some next) : redis.engines[k]? = some .popping ∧
    ((redis.dic_conn_pool_ = [] ∧ next = {redis with engines := redis.engines.set k (.made none), undefined := true}) ∨
      ∃ engine rest, redis.dic_conn_pool_ = engine::rest ∧
        next = {redis with dic_conn_pool_ := rest, engines := redis.engines.set k (.made engine)}) := by
  unfold RedisComm.RedisConnectionPop at outcome
  split at outcome
  · next here =>
    refine ⟨here,?_⟩
    split at outcome
    · next empty =>
      cases outcome
      exact .inl ⟨empty,rfl⟩
    · next engine rest pool =>
      cases outcome
      exact .inr ⟨engine,rest,pool,rfl⟩
  · cases outcome

theorem push_cases {k : Nat} (outcome : redis.RedisConnectionPush k = some next) :
    ∃ engine_, redis.engines[k]? = some (.made engine_) ∧ next = {redis with
      dic_conn_pool_ := redis.dic_conn_pool_ ++ [engine_]
      engines := redis.engines.set k .gone} := by
  unfold RedisComm.RedisConnectionPush at outcome
  split at outcome
  · next engine_ here =>
    cases outcome
    exact ⟨engine_,here,rfl⟩
  · cases outcome

theorem Sound.step (sound : Sound init redis) {event : Event} (spare : Spare redis event)
    (outcome : step redis event = some next) : Sound init next := by
  cases event with
  | construct =>
    have some_ : ¬redis.dic_conn_pool_.length ≤ 0 := by
      have less : redis.pending < redis.dic_conn_pool_.length := spare
      omega
    simp only [DicPool.step,RedisComm.testPool,if_neg some_,Option.some.injEq] at outcome
    subst outcome
    refine ⟨?_,?_,sound.defined⟩
    · have same : (redis.engines ++ [AutoDicCommEngine.popping]).filterMap AutoDicCommEngine.holds = redis.held := by
        rw [List.filterMap_append]
        exact List.append_nil _
      change (redis.dic_conn_pool_ ++ (redis.engines ++ [AutoDicCommEngine.popping]).filterMap AutoDicCommEngine.holds).Perm init
      rw [same]
      exact sound.kept
    · change (redis.engines ++ [AutoDicCommEngine.popping]).countP _ ≤ _
      rw [List.countP_append]
      exact spare
  | pop k =>
    obtain ⟨here,⟨empty,-⟩ | ⟨engine,rest,pool,rfl⟩⟩ := pop_cases outcome
    · have counts := countP_set here .gone fun engine => decide (engine = .popping)
      have enough := sound.enough
      rw [empty] at enough
      simp only [RedisComm.pending,List.length_nil,Nat.le_zero,List.countP_eq_zero] at enough
      exact absurd (enough _ (List.mem_of_getElem? here)) (by simp)
    · refine ⟨?_,?_,sound.defined⟩
      · apply List.Perm.trans _ sound.kept
        apply List.perm_iff_count.mpr
        intro other
        have counts := count_set here (.made engine) AutoDicCommEngine.holds other
        simp only [AutoDicCommEngine.holds,Option.toList_none,Option.toList_some,List.count_nil] at counts
        rw [pool,List.count_append,List.count_append,← List.singleton_append,List.count_append]
        unfold RedisComm.held
        dsimp only
        omega
      · have counts := countP_set here (.made engine) fun engine => decide (engine = .popping)
        have enough := sound.enough
        rw [pool,List.length_cons] at enough
        simp only [decide_true,if_true,reduceCtorEq,decide_false,Bool.false_eq_true,if_false] at counts
        change (redis.engines.set k (.made engine)).countP _ ≤ rest.length
        unfold RedisComm.pending at enough
        omega
  | destruct k =>
    obtain ⟨engine_,here,rfl⟩ := push_cases outcome
    refine ⟨?_,?_,sound.defined⟩
    · apply List.Perm.trans _ sound.kept
      apply List.perm_iff_count.mpr
      intro other
      have counts := count_set here .gone AutoDicCommEngine.holds other
      simp only [AutoDicCommEngine.holds,Option.toList_none,Option.toList_some,List.count_nil] at counts
      rw [List.count_append,List.count_append,List.count_append]
      unfold RedisComm.held
      dsimp only
      omega
    · have counts := countP_set here .gone fun engine => decide (engine = .popping)
      have enough := sound.enough
      simp only [reduceCtorEq,decide_false,Bool.false_eq_true,if_false] at counts
      change (redis.engines.set k .gone).countP _ ≤ (redis.dic_conn_pool_ ++ [engine_]).length
      rw [List.length_append]
      unfold RedisComm.pending at enough
      omega

/-- What the engines that are there can still do. -/
def Finishing : Event → Prop
  | .construct => False
  | _ => True

theorem along_finishing (redis : RedisComm) {later : List Event} (finishing : ∀ event ∈ later, Finishing event) :
    Along step Spare redis later := by
  induction later generalizing redis with
  | nil => exact trivial
  | cons event later ih =>
    obtain ⟨this,others⟩ := List.forall_mem_cons.mp finishing
    refine ⟨?_,fun next _ => ih next others⟩
    cases event with
    | construct => cases this
    | pop k => exact trivial
    | destruct k => exact trivial

theorem popper (some_ : 0 < redis.pending) : ∃ k : Nat, redis.engines[k]? = some .popping := by
  obtain ⟨engine,member,popping⟩ := List.countP_pos_iff.mp some_
  rw [of_decide_eq_true popping] at member
  exact List.mem_iff_getElem?.mp member

/-- More constructors on their way than connections: once each has popped, one has popped an empty list. -/
theorem overdrawn (many : redis.dic_conn_pool_.length < redis.pending) :
    ∃ later final, (∀ event ∈ later, Finishing event) ∧ run step redis later = some final ∧ final.undefined = true := by
  induction pool : redis.dic_conn_pool_ generalizing redis with
  | nil =>
    obtain ⟨k,here⟩ := popper (Nat.zero_lt_of_lt many)
    refine ⟨[.pop k],{redis with engines := redis.engines.set k (.made none), undefined := true},?_,?_,rfl⟩
    · exact List.forall_mem_singleton.mpr trivial
    · simp only [run,step,RedisComm.RedisConnectionPop,here,pool,Option.bind_some]
  | cons engine rest ih =>
    obtain ⟨k,here⟩ := popper (Nat.zero_lt_of_lt many)
    have fewer := countP_set here (.made engine) fun engine => decide (engine = .popping)
    simp only [decide_true,if_true,reduceCtorEq,decide_false,Bool.false_eq_true,if_false] at fewer
    rw [pool,List.length_cons] at many
    unfold RedisComm.pending at many
    let next : RedisComm := {redis with dic_conn_pool_ := rest, engines := redis.engines.set k (.made engine)}
    have still : next.dic_conn_pool_.length < next.pending := by
      change rest.length < (redis.engines.set k (.made engine)).countP fun engine => decide (engine = .popping)
      omega
    obtain ⟨later,final,others,ends,undefined⟩ := ih still rfl
    refine ⟨.pop k::later,final,List.forall_mem_cons.mpr ⟨trivial,others⟩,?_,undefined⟩
    simp only [run,step,RedisComm.RedisConnectionPop,here,pool,Option.bind_some]
    exact ends

/-- A test that is not spare lets the pool go wrong without another constructor. -/
theorem Sound.unspared (sound : Sound init redis) (short : ¬Spare redis .construct) :
    ∃ later final, (∀ event ∈ later, Finishing event) ∧ run DicPool.step redis.testPool later = some final ∧ ¬Right init final := by
  have enough := sound.enough
  unfold Spare at short
  by_cases empty : redis.dic_conn_pool_.length ≤ 0
  · have here : redis.testPool.engines[redis.engines.length]? = some (.made none) := by
      simp only [RedisComm.testPool,if_pos empty]
      exact List.getElem?_concat_length
    refine ⟨[.destruct redis.engines.length],{redis.testPool with
      dic_conn_pool_ := redis.testPool.dic_conn_pool_ ++ [none]
      engines := redis.testPool.engines.set redis.engines.length .gone},?_,?_,?_⟩
    · exact List.forall_mem_singleton.mpr trivial
    · simp only [run,DicPool.step,RedisComm.RedisConnectionPush,here,Option.bind_some]
    · intro right
      exact right.nonnull (List.mem_append_right _ List.mem_cons_self)
  · have many : redis.testPool.dic_conn_pool_.length < redis.testPool.pending := by
      have more : redis.testPool.pending = redis.pending + 1 := by
        simp only [RedisComm.testPool,if_neg empty,RedisComm.pending,List.countP_append]
        rfl
      rw [more]
      change redis.dic_conn_pool_.length < _
      omega
    obtain ⟨later,final,finishing,ends,undefined⟩ := overdrawn many
    refine ⟨later,final,finishing,ends,?_⟩
    intro right
    rw [right.defined] at undefined
    cases undefined

/-- From every state of the run, and however the engines that are there finish, the pool is right. -/
theorem Sound.right_iff (fresh : Fresh init) (sound : Sound init redis) (events : List Event) :
    (∀ first rest, events = first ++ rest → ∀ later, (∀ event ∈ later, Finishing event) → ∀ final,
        run DicPool.step redis (first ++ later) = some final → Right init final) ↔
      Along DicPool.step Spare redis events := by
  have stepwise : ∀ {state event next}, Sound init state → Spare state event → DicPool.step state event = some next →
      Sound init next := fun sound spare outcome => sound.step spare outcome
  constructor
  · intro all
    induction events generalizing redis with
    | nil => exact trivial
    | cons event events ih =>
      have spare : Spare redis event := by
        cases event with
        | construct =>
          by_contra short
          obtain ⟨later,final,finishing,ends,wrong⟩ := sound.unspared short
          exact wrong (all [.construct] events rfl later finishing final ends)
        | pop k => exact trivial
        | destruct k => exact trivial
      refine ⟨spare,?_⟩
      intro next outcome
      apply ih (sound.step spare outcome)
      intro first rest whole later finishing final ends
      refine all (event::first) rest (by rw [whole,List.cons_append]) later finishing final ?_
      exact Option.bind_eq_some_iff.mpr ⟨next,outcome,ends⟩
  · rintro along first rest rfl later finishing final ends
    have whole := along.parts.1.append (fun next _ => along_finishing next finishing)
    exact (run_invariant stepwise sound whole ends).right fresh

/-- For every number of connections and every run: the pool is right in each state, and stays so
while its engines finish, exactly when every constructor finds a connection to spare. -/
theorem pool_right_iff (dic_conn_num : Int) (connected : Nat → Bool) (events : List Event) :
    (∀ first rest, events = first ++ rest → ∀ later, (∀ event ∈ later, Finishing event) → ∀ final,
        run step (Init dic_conn_num connected) (first ++ later) = some final →
          Right (Init dic_conn_num connected).dic_conn_pool_ final) ↔
      Along step Spare (Init dic_conn_num connected) events :=
  (Init_sound dic_conn_num connected).right_iff (Init_fresh dic_conn_num connected) events

/-- Two connections and three constructors that pass the test before any of them pops: the last one pops
an empty list. -/
theorem not_pool_right : ¬∀ (dic_conn_num : Int) (connected : Nat → Bool) (events : List Event) (final : RedisComm),
    run step (Init dic_conn_num connected) events = some final → Right (Init dic_conn_num connected).dic_conn_pool_ final := by
  intro all
  have right := all 1 (fun _ => true) [.construct,.construct,.construct,.pop 0,.pop 1,.pop 2] _ rfl
  exact absurd right.defined (by decide)

end Migfm.Music.DicPool
