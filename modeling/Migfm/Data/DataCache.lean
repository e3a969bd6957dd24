import Migfm.Basic.Template
import Migfm.Data.StorageOperation
import Migfm.Library.Runs

/-! The users of data/data_cache_manager.cc and the calls of any number of threads on
them. A thread does one block under the lock or one storage call at a time. -/
namespace Migfm.Data
open Basic Library
open Logic (UserInfo)

/-- Where a `GetUserInfo` is. -/
inductive Call
  | getCache (uid : Int64)
  | getStorage (uid : Int64)
  | getFill (uid : Int64) (info : UserInfo)
  | returned (uid : Int64) (info : UserInfo)

/-- What the call has found of the user is the answer. -/
def Call.agrees (holds : Option UserInfo) (uid : Int64) (answer : Option UserInfo) : Call → Prop
  | .getCache _ => True
  | .getStorage user => user = uid → answer = holds
  | .getFill user info => user = uid → answer = some info
  | .returned user info => user = uid → answer = some info

structure State where
  storage : Storage
  userinfo_map_ : Map UserInfo
  calls : Nat → Option Call

/-- `SetUserInfo` and `DelUserInfo` are one block each. -/
inductive Event
  | SetUserInfo (uid : Int64) (info : UserInfo)
  | DelUserInfo (uid : Int64)
  | GetUserInfo (thread : Nat) (uid : Int64)
  | next (thread : Nat)

def Event.writes (uid : Int64) : Event → Prop
  | .SetUserInfo user _ => user = uid
  | .DelUserInfo user => user = uid
  | _ => False

namespace State

def start (storage : Storage) : State := ⟨storage,∅,fun _ => none⟩

def GetUserInfo (s : State) (thread : Nat) (uid : Int64) : Option State :=
  let state := some { s with calls := Function.update s.calls thread (some (.getCache uid)) }
  match s.calls thread with
  | none => state
  | some (.returned _ _) => state
  | _ => none

def next (s : State) (thread : Nat) : Option State :=
  match s.calls thread with
  | some (.getCache uid) =>
    let call := match MapGet s.userinfo_map_ uid with
      | some info => Call.returned uid info
      | none => .getStorage uid
    some { s with calls := Function.update s.calls thread (some call) }
  -- whether it succeeds is not looked at
  | some (.getStorage uid) => some { s with
      storage := (s.storage.GetUserInfo uid).1
      calls := Function.update s.calls thread (some (.getFill uid (s.storage.GetUserInfo uid).2)) }
  | some (.getFill uid info) => some { s with
      userinfo_map_ := MapAdd s.userinfo_map_ uid info
      calls := Function.update s.calls thread (some (.returned uid info)) }
  | _ => none

def step (s : State) : Event → Option State
  | .SetUserInfo uid info => some { s with userinfo_map_ := MapAdd s.userinfo_map_ uid info }
  | .DelUserInfo uid => some { s with userinfo_map_ := (MapDel s.userinfo_map_ uid).1 }
  | .GetUserInfo thread uid => s.GetUserInfo thread uid
  | .next thread => s.next thread

/-- The storage is asked for users that it knows, and no fill overwrites another
record. -/
def Timely (s : State) : Event → Prop
  | .next thread =>
    match s.calls thread with
    | some (.getStorage uid) => s.storage.Known uid
    | some (.getFill uid info) => ∀ found, MapGet s.userinfo_map_ uid = some found → found = info
    | _ => True
  | _ => True

/-! ### What is handed out -/

/-- What a call that starts now finds: the cached record, else that of the storage. -/
def answer (s : State) (uid : Int64) : Option UserInfo := (MapGet s.userinfo_map_ uid).or (s.storage.holds uid)

/-- What is about to be filled in is that of the storage. -/
def Sound (s : State) : Prop :=
  ∀ thread uid info, s.calls thread = some (.getFill uid info) → s.storage.holds uid = some info

/-- A call for the user is on its way to the answer. -/
def Reads (s : State) (thread : Nat) (uid : Int64) (answer : Option UserInfo) : Prop :=
  ∀ call, s.calls thread = some call → call.agrees (s.storage.holds uid) uid answer

section Steps
variable {s after : State} {event : Event} {thread : Nat} {uid : Int64} {info : UserInfo}

/-- What one step does. -/
inductive Does (s : State) : Event → State → Prop
  | set (uid : Int64) (info : UserInfo) :
    Does s (.SetUserInfo uid info) { s with userinfo_map_ := MapAdd s.userinfo_map_ uid info }
  | del (uid : Int64) : Does s (.DelUserInfo uid) { s with userinfo_map_ := (MapDel s.userinfo_map_ uid).1 }
  | call (thread : Nat) (uid : Int64) :
    Does s (.GetUserInfo thread uid) { s with calls := Function.update s.calls thread (some (.getCache uid)) }
  | hit (thread : Nat) (uid : Int64) (info : UserInfo) (found : MapGet s.userinfo_map_ uid = some info) :
    Does s (.next thread) { s with calls := Function.update s.calls thread (some (.returned uid info)) }
  | miss (thread : Nat) (uid : Int64) (none_ : MapGet s.userinfo_map_ uid = none) :
    Does s (.next thread) { s with calls := Function.update s.calls thread (some (.getStorage uid)) }
  | read (thread : Nat) (uid : Int64) (at_ : s.calls thread = some (.getStorage uid)) :
    Does s (.next thread) { s with
      storage := (s.storage.GetUserInfo uid).1
      calls := Function.update s.calls thread (some (.getFill uid (s.storage.GetUserInfo uid).2)) }
  | fill (thread : Nat) (uid : Int64) (info : UserInfo) (at_ : s.calls thread = some (.getFill uid info)) :
    Does s (.next thread) { s with
      userinfo_map_ := MapAdd s.userinfo_map_ uid info
      calls := Function.update s.calls thread (some (.returned uid info)) }

theorem step_does (outcome : s.step event = some after) : Does s event after := by
  cases event with
  | SetUserInfo uid info =>
    cases outcome
    exact .set uid info
  | DelUserInfo uid =>
    cases outcome
    exact .del uid
  | GetUserInfo thread uid =>
    rw [step,GetUserInfo] at outcome
    split at outcome
    · cases outcome
      exact .call thread uid
    · cases outcome
      exact .call thread uid
    · cases outcome
  | next thread =>
    rw [step,next] at outcome
    split at outcome
    · rename_i uid at_
      cases outcome
      split
      · rename_i info found
        exact .hit thread uid info found
      · rename_i none_
        exact .miss thread uid none_
    · rename_i uid at_
      cases outcome
      exact .read thread uid at_
    · rename_i uid info at_
      cases outcome
      exact .fill thread uid info at_
    · cases outcome

/-- The known users stay what they are. -/
theorem holds_kept (timely : s.Timely event) (does : Does s event after) : after.storage.holds = s.storage.holds := by
  cases does with
  | read thread uid at_ =>
    rw [Timely,at_] at timely
    exact (Storage.GetUserInfo_known timely).1
  | _ => rfl

/-- A call is that of the thread's step or stands where it stood. -/
theorem held_update {other : Nat} {call now : Call} (held : Function.update s.calls other (some now) thread = some call) :
    (thread = other ∧ call = now) ∨ s.calls thread = some call := by
  rw [Function.update_apply] at held
  split at held
  · rename_i own
    exact .inl ⟨own,(Option.some.inj held).symm⟩
  · exact .inr held

theorem Sound.step (sound : Sound s) (timely : s.Timely event) (does : Does s event after) : Sound after := by
  intro other user found held
  rw [holds_kept timely does]
  cases does with
  | set uid info => exact sound other user found held
  | del uid => exact sound other user found held
  | read thread uid at_ =>
    rw [Timely,at_] at timely
    rcases held_update held with ⟨_,now⟩ | held
    · cases now
      exact (Storage.GetUserInfo_known timely).2
    · exact sound other user found held
  | _ =>
    rcases held_update held with ⟨_,now⟩ | held
    · cases now
    · exact sound other user found held

/-- Only a write of the user changes what a call finds. -/
theorem answer_kept (sound : Sound s) (timely : s.Timely event) (does : Does s event after) (other : ¬ event.writes uid) :
    after.answer uid = s.answer uid := by
  rw [answer,answer,holds_kept timely does]
  cases does with
  | set user info =>
    rw [MapGet,MapAdd_get,if_neg (Ne.symm other)]
    rfl
  | del user =>
    rw [MapGet,MapDel_get,if_neg (Ne.symm other)]
    rfl
  | fill thread user info at_ =>
    rw [Timely,at_] at timely
    rw [MapGet,MapAdd_get]
    split
    · rename_i same
      subst same
      -- what is overwritten is the same record, and else it is that of the storage
      cases found : MapGet s.userinfo_map_ uid with
      | some old => rw [timely old found]
      | none => exact (sound thread uid info at_).symm
    · rfl
  | _ => rfl

theorem Reads.step {answer : Option UserInfo} (reads : s.Reads thread uid answer) (now : s.answer uid = answer)
    (timely : s.Timely event) (does : Does s event after) : after.Reads thread uid answer := by
  intro call held
  rw [holds_kept timely does]
  cases does with
  | set user info => exact reads call held
  | del user => exact reads call held
  | call other user =>
    rcases held_update held with ⟨_,rfl⟩ | held
    · exact trivial
    · exact reads call held
  | hit other user info found =>
    rcases held_update held with ⟨_,rfl⟩ | held
    · rintro rfl
      rw [← now,State.answer,found]
      rfl
    · exact reads call held
  | miss other user none_ =>
    rcases held_update held with ⟨_,rfl⟩ | held
    · rintro rfl
      rw [← now,State.answer,none_]
      rfl
    · exact reads call held
  | read other user at_ =>
    rw [Timely,at_] at timely
    rcases held_update held with ⟨rfl,rfl⟩ | held
    · have due : user = uid → answer = s.storage.holds uid := reads _ at_
      rintro rfl
      rw [due rfl,(Storage.GetUserInfo_known timely).2]
    · exact reads call held
  | fill other user info at_ =>
    rcases held_update held with ⟨rfl,rfl⟩ | held
    · exact reads (.getFill user info) at_
    · exact reads call held

end Steps

/-! ### Runs -/

/-- A state between writes of a user. -/
structure Settled (s : State) (uid : Int64) (answer : Option UserInfo) : Prop where
  sound : s.Sound
  now : s.answer uid = answer

section Runs
variable {s final : State} {event : Event} {events : List Event} {thread : Nat} {uid : Int64} {answer : Option UserInfo}

theorem Settled.step {after : State} (settled : s.Settled uid answer) (meets : s.Timely event ∧ ¬ event.writes uid)
    (outcome : s.step event = some after) : after.Settled uid answer where
  sound := settled.sound.step meets.1 (step_does outcome)
  now := (answer_kept settled.sound meets.1 (step_does outcome) meets.2).trans settled.now

theorem Settled.run (settled : s.Settled uid answer) (along : Runs.Along State.step Timely s events)
    (others : ∀ event ∈ events, ¬ event.writes uid) (ends : Runs.run State.step s events = some final) :
    final.Settled uid answer :=
  Runs.run_invariant Settled.step settled (along.events others) ends

theorem Reads.run (settled : s.Settled uid answer) (reads : s.Reads thread uid answer)
    (along : Runs.Along State.step Timely s events) (others : ∀ event ∈ events, ¬ event.writes uid)
    (ends : Runs.run State.step s events = some final) : final.Reads thread uid answer := by
  have kept {s : State} {event : Event} {next : State} (inv : s.Settled uid answer ∧ s.Reads thread uid answer)
      (meets : s.Timely event ∧ ¬ event.writes uid) (outcome : s.step event = some next) :
      next.Settled uid answer ∧ next.Reads thread uid answer :=
    ⟨inv.1.step meets outcome,inv.2.step inv.1.now meets.1 (step_does outcome)⟩
  exact (Runs.run_invariant kept ⟨settled,reads⟩ (along.events others) ends).2

theorem Sound.run (sound : s.Sound) (along : Runs.Along State.step Timely s events)
    (ends : Runs.run State.step s events = some final) : final.Sound :=
  Runs.run_invariant (fun sound meets outcome => sound.step meets (step_does outcome)) sound along ends

theorem holds_run (along : Runs.Along State.step Timely s events) (ends : Runs.run State.step s events = some final) :
    final.storage.holds = s.storage.holds := by
  have kept {state : State} {event : Event} {next : State} (same : state.storage.holds = s.storage.holds)
      (meets : state.Timely event) (outcome : state.step event = some next) : next.storage.holds = s.storage.holds :=
    (holds_kept meets (step_does outcome)).trans same
  exact Runs.run_invariant kept rfl along ends

theorem start_sound (storage : Storage) : (start storage).Sound := fun _ _ _ held => nomatch held

/-- What a write leaves for the calls after it. -/
def leaves (s : State) : Event → Int64 → Option UserInfo
  | .SetUserInfo _ info,_ => some info
  | _,uid => s.storage.holds uid

theorem Settled.of_write {after : State} (sound : s.Sound) (meets : s.Timely event) (writes : event.writes uid)
    (outcome : s.step event = some after) : after.Settled uid (s.leaves event uid) where
  sound := sound.step meets (step_does outcome)
  now := by
    cases event with
    | SetUserInfo user info =>
      obtain rfl : user = uid := writes
      cases outcome
      rw [State.answer,MapGet,MapAdd_get,if_pos rfl]
      rfl
    | DelUserInfo user =>
      obtain rfl : user = uid := writes
      cases outcome
      rw [State.answer,MapGet,MapDel_get,if_pos rfl]
      rfl
    | _ => exact writes.elim

/-- A user that the storage does not know and nobody sets is not cached. -/
theorem unknown_run (unknown : s.storage.holds uid = none) (settled : s.Settled uid none)
    (along : Runs.Along State.step Timely s events) (unset : ∀ info, .SetUserInfo uid info ∉ events)
    (ends : Runs.run State.step s events = some final) : MapGet final.userinfo_map_ uid = none := by
  have each : ∀ event ∈ events, ∀ info, event ≠ .SetUserInfo uid info := fun _ member info same => unset info (same ▸ member)
  have kept {s : State} {event : Event} {next : State} (inv : s.Settled uid none ∧ s.storage.holds uid = none)
      (meets : s.Timely event ∧ ∀ info, event ≠ .SetUserInfo uid info) (outcome : s.step event = some next) :
      next.Settled uid none ∧ next.storage.holds uid = none := by
    refine ⟨?_,(congrFun (holds_kept meets.1 (step_does outcome)) uid).trans inv.2⟩
    by_cases writes : event.writes uid
    · have written := Settled.of_write inv.1.sound meets.1 writes outcome
      cases event with
      | SetUserInfo user info => exact absurd (congrArg (Event.SetUserInfo · info) writes) (meets.2 info)
      | DelUserInfo user => exact inv.2 ▸ written
      | _ => exact writes.elim
    · exact inv.1.step ⟨meets.1,writes⟩ outcome
  have inv := Runs.run_invariant kept ⟨settled,unknown⟩ (along.events each) ends
  exact (Option.or_eq_none_iff.mp inv.1.now).1

end Runs

/-- A call that starts after a write of its user, with no other write of the user since,
returns what that write left; an unknown user is not cached, where nobody sets it. -/
structure Fresh (storage : Storage) (events : List Event) (final : State) : Prop where
  returns : ∀ {earlier between after write thread uid info},
    events = earlier ++ write :: (between ++ .GetUserInfo thread uid :: after) → write.writes uid →
    (∀ event ∈ between ++ .GetUserInfo thread uid :: after, ¬ event.writes uid) →
    final.calls thread = some (.returned uid info) → final.leaves write uid = some info
  unknown : ∀ {uid}, storage.holds uid = none → (∀ info, .SetUserInfo uid info ∉ events) →
    MapGet final.userinfo_map_ uid = none

end State

/-- User 7 is in the database, with sex 1. -/
def seven : Storage where
  mem _ := none
  db uid := if uid = 7 then [⟨some [55],some [49],none,some [97],none,some [50],none,none,none,none⟩] else []

/-- The user is read, set, then read again. -/
def inTurn : List Event :=
  [.GetUserInfo 0 7,.next 0,.next 0,.next 0,.SetUserInfo 7 { uid_ := 7,sex_ := 2 },.GetUserInfo 1 7,.next 1]

/-- The user is set between a miss and its fill. -/
def overtaken : List Event :=
  [.GetUserInfo 0 7,.next 0,.next 0,.SetUserInfo 7 { uid_ := 7,sex_ := 2 },.next 0,.GetUserInfo 1 7,.next 1]

/-- No storage knows the user. -/
def stranger : List Event := [.GetUserInfo 0 9,.next 0,.next 0,.next 0]

end Migfm.Data
