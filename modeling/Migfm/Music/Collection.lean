import Migfm.Library.Aside
import Migfm.Library.Runs
import Migfm.Music.WholeManager

/-! Calls of any number of threads on the collections. A thread does one redis command
or one block under the lock at a time. -/
namespace Migfm.Music
open Basic Library
open Logic (MusicInfo)

/-- What a call does next. -/
inductive Call
  | setRedis (uid : Int64) (music : MusicInfo)
  | setCache (uid : Int64) (music : MusicInfo)
  | delRedis (uid songid : Int64)
  | delCache (uid songid : Int64)
  | getCache (uid : Int64)
  | getRedis (uid : Int64)
  | getFill (uid : Int64) (music_list : MUSICINFO_MAP)

structure State where
  redis : Redis
  cache : MusicCache
  calls : Nat → Option Call

/-- `songid` is what is not initialized where the thread reads an entry. -/
inductive Event
  | SetCollectSong (thread : Nat) (uid : Int64) (music : MusicInfo)
  | DelCollectSong (thread : Nat) (uid songid : Int64)
  | GetCollectList (thread : Nat) (uid : Int64)
  | next (thread : Nat) (songid : Int64)

namespace State

def start (redis : Redis) (loaded : Loaded) : State := ⟨redis,⟨loaded,∅⟩,fun _ => none⟩

def call (s : State) (thread : Nat) (call : Call) : Option State :=
  match s.calls thread with
  | none => some { s with calls := Function.update s.calls thread (some call) }
  | some _ => none

def next (s : State) (thread : Nat) (songid : Int64) : Option State :=
  match s.calls thread with
  | none => none
  | some (.setRedis uid music) => some { s with
      redis := Function.update s.redis uid ((s.redis uid).set music)
      calls := Function.update s.calls thread (some (.setCache uid music)) }
  | some (.setCache uid music) => some { s with
      cache := s.cache.SetMusicPreference uid music
      calls := Function.update s.calls thread none }
  | some (.delRedis uid songid) => some { s with
      redis := Function.update s.redis uid ((s.redis uid).del songid)
      calls := Function.update s.calls thread (some (.delCache uid songid)) }
  | some (.delCache uid songid) => some { s with
      cache := s.cache.DelCollectSong uid songid
      calls := Function.update s.calls thread none }
  | some (.getCache uid) =>
    let found := match MapGet s.cache.collect_map_ uid with
      | none => false
      | some music_list => !music_list.isEmpty
    let call := if found then none else some (.getRedis uid)
    some { s with calls := Function.update s.calls thread call }
  | some (.getRedis uid) =>
    let list := (s.redis uid).values
    let call := if list.isEmpty then none else some (.getFill uid (music_list songid list))
    some { s with calls := Function.update s.calls thread call }
  -- what `GetMusicInfo` does later, it does to records
  | some (.getFill uid music_list) => some { s with
      cache := { s.cache with collect_map_ := MapAdd s.cache.collect_map_ uid music_list }
      calls := Function.update s.calls thread none }

def step (s : State) : Event → Option State
  | .SetCollectSong thread uid music => s.call thread (.setRedis uid music)
  | .DelCollectSong thread uid songid => s.call thread (.delRedis uid songid)
  | .GetCollectList thread uid => s.call thread (.getCache uid)
  | .next thread songid => s.next thread songid

/-- A list that is not empty is what redis has. -/
def Agrees (s : State) : Prop :=
  ∀ uid list, MapGet s.cache.collect_map_ uid = some list → list.isEmpty = false →
    ∀ id, id ∈ list ↔ id ∈ (s.redis uid).entries

end State

/-! ### Pending writes -/

def Call.pending : Call → Option ((Int64 × Int64) × Bool)
  | .setCache uid music => some ((uid,music.id_),true)
  | .delCache uid songid => some ((uid,songid),false)
  | _ => none

/-- The part of a user that a list copies. -/
def part (uid : Int64) (list : MUSICINFO_MAP) (place : Int64 × Int64) : Option Bool :=
  if place.1 = uid then some (list.contains place.2) else none

namespace State

def pending (s : State) (thread : Nat) : Option ((Int64 × Int64) × Bool) := (s.calls thread).bind Call.pending

/-- Nothing of what the thread's next step brings to the cache is overtaken. -/
def Timely (s : State) : Event → Prop
  | .next thread songid =>
    match s.calls thread with
    | none => True
    | some (.getRedis uid) => 0 ∈ (s.redis uid).entries → songid = 0
    | some call => ∀ place value, call.pending = some (place,value) →
      ((s.cache.collected place = none ∨ value = stored s.redis place) ∧
        ∀ other uid list, s.calls other = some (.getFill uid list) →
          ∀ held, part uid list place = some held → held = stored s.redis place) ∨
      Aside.Due (Function.update s.pending thread none) (stored s.redis) place
  | _ => True

/-- The cache and the lists that are about to be filled in fit what redis has. -/
structure Fit (s : State) : Prop where
  cache : Aside.Fits s.pending (stored s.redis) s.cache.collected
  fill : ∀ thread uid list, s.calls thread = some (.getFill uid list) → Aside.Fits s.pending (stored s.redis) (part uid list)

theorem pending_update (s : State) (redis : Redis) (cache : MusicCache) (thread : Nat) (call : Option Call) :
    State.pending ⟨redis,cache,Function.update s.calls thread call⟩ =
      Function.update s.pending thread (call.bind Call.pending) := by
  funext other
  rw [pending,Function.update_apply]
  dsimp only
  rw [Function.update_apply]
  split
  · rfl
  · rfl

section Steps
variable {s : State} {thread : Nat} {place : Int64 × Int64} {value : Bool}

/-- The lists of the other threads. -/
theorem fill_other {call : Option Call} {other : Nat} {uid : Int64} {list : MUSICINFO_MAP}
    (held : Function.update s.calls thread call other = some (.getFill uid list)) :
    call = some (.getFill uid list) ∨ s.calls other = some (.getFill uid list) := by
  rw [Function.update_apply] at held
  split at held
  · exact .inl held
  · exact .inr held

theorem Fit.quiet (fit : Fit s) (idle : s.pending thread = none) {call : Option Call} (after : call.bind Call.pending = none)
    (filled : ∀ uid list, call = some (.getFill uid list) → Aside.Fits s.pending (stored s.redis) (part uid list)) :
    Fit { s with calls := Function.update s.calls thread call } := by
  constructor
  · rw [pending_update,after]
    exact fit.cache.idle idle
  · intro other uid list held
    rw [pending_update,after]
    rcases fill_other held with own | other
    · exact (filled uid list own).idle idle
    · exact (fit.fill _ uid list other).idle idle

theorem Fit.write (fit : Fit s) (idle : s.pending thread = none) {redis : Redis}
    (reaches : stored redis = Function.update (stored s.redis) place value) {call : Call}
    (after : call.pending = some (place,value)) :
    Fit { s with redis,calls := Function.update s.calls thread (some call) } := by
  constructor
  · rw [pending_update,Option.bind_some,after,reaches]
    exact fit.cache.written idle place value
  · intro other uid list held
    rw [pending_update,Option.bind_some,after,reaches]
    rcases fill_other held with own | other
    · rw [Option.some.injEq] at own
      rw [own] at after
      cases after
    · exact (fit.fill _ uid list other).written idle place value

theorem Fit.retire (fit : Fit s) (writes : s.pending thread = some (place,value)) {cache : MusicCache}
    (reaches : ∀ other, cache.collected other =
      if other = place then (s.cache.collected other).map fun _ => value else s.cache.collected other)
    (timely : ((s.cache.collected place = none ∨ value = stored s.redis place) ∧
      ∀ other uid list, s.calls other = some (.getFill uid list) →
        ∀ held, part uid list place = some held → held = stored s.redis place) ∨
      Aside.Due (Function.update s.pending thread none) (stored s.redis) place) :
    Fit { s with cache,calls := Function.update s.calls thread none } := by
  constructor
  · rw [pending_update,Option.bind_none]
    exact fit.cache.brought writes reaches (timely.imp_left And.left)
  · intro other uid list held
    rw [pending_update,Option.bind_none]
    rcases fill_other held with own | other
    · cases own
    · exact (fit.fill _ uid list other).retired writes (timely.imp_left fun lists held => lists.2 _ uid list other held)

end Steps

theorem Fit.step {s next : State} {event : Event} (fit : Fit s) (timely : s.Timely event) (outcome : s.step event = some next) :
    Fit next := by
  have call {thread : Nat} {call : Call} (none_ : call.pending = none) (first : ∀ uid list, call ≠ .getFill uid list)
      (outcome : s.call thread call = some next) : Fit next := by
    rw [State.call] at outcome
    split at outcome
    · rename_i idle
      cases outcome
      exact fit.quiet (by rw [pending,idle]; rfl) none_ fun uid list same => absurd (Option.some.inj same) (first uid list)
    · cases outcome
  cases event with
  | SetCollectSong thread uid music => exact call rfl (by simp) outcome
  | DelCollectSong thread uid songid => exact call rfl (by simp) outcome
  | GetCollectList thread uid => exact call rfl (by simp) outcome
  | next thread songid =>
    rw [State.step,State.next] at outcome
    rw [Timely] at timely
    split at outcome
    all_goals rename_i current
    all_goals try rw [current] at timely
    · cases outcome
    · cases outcome
      exact fit.write (by rw [pending,current]; rfl) stored_set rfl
    · cases outcome
      exact fit.retire (by rw [pending,current]; rfl) collected_set (timely _ _ rfl)
    · cases outcome
      exact fit.write (by rw [pending,current]; rfl) stored_del rfl
    · cases outcome
      exact fit.retire (by rw [pending,current]; rfl) collected_del (timely _ _ rfl)
    · cases outcome
      refine fit.quiet (by rw [pending,current]; rfl) ?_ ?_
      · split_ifs
        all_goals rfl
      · intro uid list same
        split_ifs at same
        cases same
    · cases outcome
      refine fit.quiet (by rw [pending,current]; rfl) ?_ ?_
      · split_ifs
        all_goals rfl
      · intro uid list same
        split_ifs at same
        · cases same
          refine Aside.Fits.of_read fun place held found => ?_
          rw [part] at found
          split at found
          · rename_i user
            rw [← Option.some.inj found,stored,user,Bool.eq_iff_iff,Std.ExtTreeMap.contains_iff_mem,mem_read timely,
              Std.ExtTreeMap.contains_iff_mem]
          · cases found
    · rename_i uid list
      cases outcome
      have idle : s.pending thread = none := by rw [pending,current]; rfl
      constructor
      · rw [pending_update]
        refine Aside.Fits.idle ?_ idle
        intro place held found
        rw [collected_update] at found
        split at found
        · rename_i user
          exact fit.fill thread uid list current place held (by rw [part,if_pos user]; exact found)
        · exact fit.cache place held found
      · intro other user list' held
        rw [pending_update]
        rcases fill_other held with own | other
        · cases own
        · exact (fit.fill _ user list' other).idle idle

theorem start_fit (redis : Redis) (loaded : Loaded) : Fit (start redis loaded) where
  cache := Aside.Fits.of_read fun place value found => by
    rw [start,MusicCache.collected,Std.ExtTreeMap.getElem?_empty] at found
    cases found
  fill _ _ _ held := nomatch held

/-- At rest the lists have the songs that redis has. -/
theorem Fit.agrees {s : State} (fit : Fit s) (quiet : ∀ thread, s.calls thread = none) : Agrees s := by
  intro uid list found _ id
  have same : list.contains id = stored s.redis (uid,id) := fit.cache.right (fun thread => by rw [pending,quiet]; rfl)
    (by rw [MusicCache.collected,show s.cache.collect_map_[uid]? = some list from found]; rfl)
  rw [← Std.ExtTreeMap.contains_iff_mem,same,stored,Std.ExtTreeMap.contains_iff_mem]

end State

/-- No user, no song. -/
def State.fresh : State := .start (fun _ => .empty) ⟨∅,nofun⟩

/-- A song is collected, then listed. -/
def listed : List Event :=
  [.SetCollectSong 0 1 { id_ := 5 },.next 0 0,.next 0 0,.GetCollectList 1 1,.next 1 0,.next 1 0,.next 1 0]

/-- A list is read, its song is deleted, then the list is filled in. -/
def overtaken : List Event :=
  [.SetCollectSong 0 1 { id_ := 5 },.next 0 0,.next 0 0,.GetCollectList 1 1,.next 1 0,.next 1 0,
    .DelCollectSong 0 1 5,.next 0 0,.next 0 0,.next 1 0]

end Migfm.Music
