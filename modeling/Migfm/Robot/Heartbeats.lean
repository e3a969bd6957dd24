import Migfm.Robot.Close

/-! The heartbeats of robot/robot/robot_cache_manager.cc: `CheckRobotConnect`,
`CheckSchedulerConnect` and `ChecAssistantConnect`, between the events of the
server. A check takes no time, and what `SendMessage` answers is given with it. -/
namespace Migfm.Robot.Heartbeats
open Basic Library.Runs

/-- A robot or assistant by its `Data`, a scheduler by its socket. -/
inductive Who
  | robot (robot : RobotBasicInfo)
  | scheduler (socket : Int32)
  deriving DecidableEq

/-- The fields of a `Data` that only the checks read. -/
structure Beats where
  send_last_time : Int64
  send_error_count : Nat

/-- What has happened, the last first. -/
inductive Entry
  | made (who : Who)
  | login (socket : Int32)
  | beat (who : Who) (socket : Int32) (time : Int64) (sent : Bool)
  | shut (socket : Int32)

structure State where
  server : RobotServer
  beats : Who → Beats
  log : List Entry

def State.start (server : RobotServer) (now : Int64) : State := ⟨server,fun _ => ⟨now,0⟩,[]⟩

/-! ### The checks -/

/-- A heartbeat. `sendrobotmssage` sets the time of the last send and `sendschdulermessage` does not. -/
def State.send (now : Int64) (stamps : Bool) (who : Who) (socket : Int32) (answer : Bool) (state : State) : State :=
  let beats := state.beats who
  let r := 0 < socket && answer
  { state with
    beats := Function.update state.beats who
      { send_last_time := if stamps then now else beats.send_last_time
        send_error_count := if r then beats.send_error_count else beats.send_error_count + 1 }
    log := .beat who socket now r::state.log }

/-- One connection of a check. -/
def State.visit (now : Int64) (stamps : Bool) (who : Who) (socket : Int32) (recv_last_time : Int64) (answer : Bool)
    (state : State) : State :=
  let beats := state.beats who
  if beats.send_error_count > 3 then { state with log := .shut socket::state.log }
  else if now.toInt - recv_last_time.toInt > 20 ∧ now.toInt - beats.send_last_time.toInt > 20 then
    state.send now stamps who socket answer
  else state

def visitRobot (now : Int64) (sends : Int64 → Bool) (state : State) (entry : Int64 × RobotBasicInfo) : State :=
  let data := state.server.data entry.2
  state.visit now true (.robot entry.2) data.socket data.recv_last_time (sends entry.1)

def State.CheckRobotConnect (state : State) (platform_id now : Int64) (sends : Int64 → Bool) : State :=
  match state.server.GetPlatformCache platform_id with
  | none => state
  | some pc => pc.used_robot_infos_.toList.foldl (visitRobot now sends) state

/-- The `recv_last_time` and `send_last_time` of a scheduler are never set. -/
def visitScheduler (now : Int64) (sends : Int32 → Bool) (state : State) (entry : Int32 × SchedulerInfo) : State :=
  state.visit now false (.scheduler entry.1) entry.2.socket 0 (sends entry.1)

def State.CheckSchedulerConnect (state : State) (platform_id now : Int64) (sends : Int32 → Bool) : State :=
  match state.server.GetPlatformCache platform_id with
  | none => state
  | some pc => pc.schduler_infos_.toList.foldl (visitScheduler now sends) state

/-- An assistant that is not found under its socket is passed over. -/
def visitAssistant (now : Int64) (sends : Int64 → Bool) (state : State) (entry : Int64 × RobotBasicInfo) : State :=
  match MapGetInt state.server.pc.robot_socket_ (state.server.data entry.2).socket.toInt64 with
  | none => state
  | some _ => visitRobot now sends state entry

def State.ChecAssistantConnect (state : State) (platform_id now : Int64) (sends : Int64 → Bool) : State :=
  match state.server.GetPlatformCache platform_id with
  | none => state
  | some pc => pc.assistant_.toList.foldl (visitAssistant now sends) state

/-! ### Events -/

/-- What an event adds: a new `Data` with the time it starts with, and who logs in on which socket. -/
structure Arrival where
  made : Option (Who × Int64)
  login : Option (Who × Int32)

def arrival (server : RobotServer) : Robot.Event → Arrival
  | .robotLogin socket platform_id uid robot_id now =>
    match server.RobotLoginSucess platform_id robot_id socket uid now with
    | some (_,robot_info) => ⟨none,some (.robot robot_info,socket)⟩
    | none => ⟨some (.robot server.fresh,now),none⟩
  | .schedulerLogin socket platform_id _ =>
    match server.GetPlatformCache platform_id with
    | none => ⟨none,none⟩
    | some _ => ⟨some (.scheduler socket,0),some (.scheduler socket,socket)⟩
  | .assistantLogin socket platform_id assistant_id =>
    match server.GetPlatformCache platform_id with
    | none => ⟨none,none⟩
    | some pc => ⟨none,(MapGetInt pc.assistant_ assistant_id).map fun assistant => (.robot assistant,socket)⟩
  | _ => ⟨none,none⟩

def State.arrive (state : State) (arrival : Arrival) : State :=
  let state := match arrival.made with
    | none => state
    | some (who,time) => { state with beats := Function.update state.beats who ⟨time,0⟩,log := .made who::state.log }
  match arrival.login with
  | none => state
  | some (_,socket) => { state with log := .login socket::state.log }

inductive Event
  | of (event : Robot.Event)
  | checkRobots (platform_id now : Int64) (sends : Int64 → Bool)
  | checkSchedulers (platform_id now : Int64) (sends : Int32 → Bool)
  | checkAssistants (platform_id now : Int64) (sends : Int64 → Bool)

def step (state : State) : Event → Option State
  | .of event => (Robot.step state.server event).map fun server => { state.arrive (arrival state.server event) with server }
  | .checkRobots platform_id now sends => some (state.CheckRobotConnect platform_id now sends)
  | .checkSchedulers platform_id now sends => some (state.CheckSchedulerConnect platform_id now sends)
  | .checkAssistants platform_id now sends => some (state.ChecAssistantConnect platform_id now sends)

/-! ### What the checks are for -/

/-- The heartbeats that failed on a socket since the last login there. -/
def failures (socket : Int32) : List Entry → Nat
  | [] => 0
  | .login other::log => if other = socket then 0 else failures socket log
  | .beat _ other _ sent::log => failures socket log + if other = socket ∧ sent = false then 1 else 0
  | _::log => failures socket log

/-- The heartbeats of somebody that failed. -/
def counted (who : Who) : List Entry → Nat
  | [] => 0
  | .made other::log => if other = who then 0 else counted who log
  | .beat other _ _ sent::log => counted who log + if other = who ∧ sent = false then 1 else 0
  | _::log => counted who log

def lastBeat (who : Who) : List Entry → Option Int64
  | [] => none
  | .made other::log => if other = who then none else lastBeat who log
  | .beat other _ time _::log => if other = who then some time else lastBeat who log
  | _::log => lastBeat who log

/-- A socket is shut down after more than three failures on it, and a heartbeat is sent more than 20 seconds after the
one before. -/
def Entry.Right (log : List Entry) : Entry → Prop
  | .shut socket => 3 < failures socket log
  | .beat who _ time _ => ∀ last ∈ lastBeat who log, 20 < time.toInt - last.toInt
  | _ => True

def Right : List Entry → Prop
  | [] => True
  | entry::log => entry.Right log ∧ Right log

/-- The heartbeats of somebody are sent more than 20 seconds apart. -/
def Spaced (who : Who) : List Entry → Prop
  | [] => True
  | .beat other _ time _::log =>
    (other = who → ∀ last ∈ lastBeat who log, 20 < time.toInt - last.toInt) ∧ Spaced who log
  | _::log => Spaced who log

/-- Every heartbeat that failed is counted once, and no other. -/
def State.Counted (state : State) : Prop := ∀ who, (state.beats who).send_error_count = counted who state.log

/-- Who is checked on a socket. -/
def On (server : RobotServer) (who : Who) (socket : Int32) : Prop :=
  match who with
  | .robot robot => (server.data robot).socket = socket ∧
    ((∃ uid : Int64, server.pc.used_robot_infos_[uid]? = some robot) ∨ ∃ uid : Int64, server.pc.assistant_[uid]? = some robot)
  | .scheduler key => ∃ info, server.pc.schduler_infos_[key]? = some info ∧ info.socket = socket

/-- The condition on a step. When somebody logs in on a socket, nobody there has a heartbeat that failed, and no
scheduler gets one within 20 seconds of its last. -/
def Spares (state : State) : Event → Prop
  | .of event => ∀ who socket, (arrival state.server event).login = some (who,socket) →
    ∀ other, other = who ∨ On state.server other socket → (∀ time, (arrival state.server event).made ≠ some (other,time)) →
      (state.beats other).send_error_count = 0
  | .checkSchedulers platform_id now _ => platform_id = 10000 →
    ∀ key ∈ state.server.pc.schduler_infos_, (state.beats (.scheduler key)).send_error_count ≤ 3 →
      ∀ last ∈ lastBeat (.scheduler key) state.log, 20 < now.toInt - last.toInt
  | _ => True

/-! ### Invariants -/

/-- What holds of every run. -/
structure State.Sound (state : State) : Prop where
  counted : state.Counted
  stamped : ∀ robot, ∀ last ∈ lastBeat (.robot robot) state.log, last = (state.beats (.robot robot)).send_last_time
  spaced : ∀ robot, Spaced (.robot robot) state.log

/-- What the condition adds. -/
structure State.Inv (state : State) : Prop extends state.Sound where
  right : Right state.log
  known : ∀ who socket, On state.server who socket → (state.beats who).send_error_count ≤ failures socket state.log
  keyed : state.server.Keyed

section Visits
variable {state : State} {now recv_last_time : Int64} {stamps answer : Bool} {who : Who} {socket : Int32}

theorem visit_cases (state : State) (now recv_last_time : Int64) (stamps answer : Bool) (who : Who) (socket : Int32) :
    (3 < (state.beats who).send_error_count ∧
      state.visit now stamps who socket recv_last_time answer = { state with log := .shut socket::state.log }) ∨
    ((state.beats who).send_error_count ≤ 3 ∧ 20 < now.toInt - (state.beats who).send_last_time.toInt ∧
      state.visit now stamps who socket recv_last_time answer = state.send now stamps who socket answer) ∨
    state.visit now stamps who socket recv_last_time answer = state := by
  rw [State.visit]
  split_ifs with many due
  · exact .inl ⟨many,rfl⟩
  · exact .inr (.inl ⟨not_lt.mp many,due.2,rfl⟩)
  · exact .inr (.inr rfl)

theorem visit_server : (state.visit now stamps who socket recv_last_time answer).server = state.server := by
  rcases visit_cases state now recv_last_time stamps answer who socket with ⟨_,same⟩ | ⟨_,_,same⟩ | same <;> rw [same]
  rfl

/-- What is left alone by a visit to somebody else. -/
theorem visit_other (state : State) (now recv_last_time : Int64) (stamps answer : Bool) (socket : Int32) {other : Who}
    (apart : other ≠ who) :
    (state.visit now stamps who socket recv_last_time answer).beats other = state.beats other ∧
      lastBeat other (state.visit now stamps who socket recv_last_time answer).log = lastBeat other state.log := by
  rcases visit_cases state now recv_last_time stamps answer who socket with ⟨_,same⟩ | ⟨_,_,same⟩ | same <;> rw [same]
  · exact ⟨rfl,rfl⟩
  · exact ⟨Function.update_of_ne apart ..,if_neg apart.symm⟩
  · exact ⟨rfl,rfl⟩

theorem send_self : (state.send now stamps who socket answer).beats who =
    { send_last_time := if stamps then now else (state.beats who).send_last_time
      send_error_count := if 0 < socket && answer then (state.beats who).send_error_count
        else (state.beats who).send_error_count + 1 } := Function.update_self ..

theorem send_other {other : Who} (apart : other ≠ who) :
    (state.send now stamps who socket answer).beats other = state.beats other := Function.update_of_ne apart ..

theorem On.unique {server : RobotServer} {other : Int32} (on : On server who socket) (there : On server who other) : socket = other := by
  cases who with
  | robot robot => exact on.1.symm.trans there.1
  | scheduler key =>
    obtain ⟨info,found,rfl⟩ := on
    obtain ⟨same,found',rfl⟩ := there
    rw [Option.some_inj.mp (found.symm.trans found')]

theorem State.Sound.send (sound : state.Sound) (stamp : ∀ robot, who = .robot robot → stamps = true)
    (due : 20 < now.toInt - (state.beats who).send_last_time.toInt) : (state.send now stamps who socket answer).Sound := by
  refine ⟨?_,?_,?_⟩
  · intro other
    have here := sound.counted other
    rw [State.send,Heartbeats.counted,← State.send]
    by_cases same : other = who
    · subst same
      rw [send_self,here]
      cases 0 < socket && answer <;> simp
    · rw [send_other same,here,if_neg fun both => same both.1.symm]
      rfl
  · intro robot last found
    rw [State.send,lastBeat] at found
    by_cases same : Who.robot robot = who
    · rw [if_pos same.symm,Option.mem_some_iff] at found
      rw [same,send_self,stamp robot same.symm,← found]
      rfl
    · rw [if_neg fun other => same other.symm] at found
      rw [send_other same]
      exact sound.stamped robot last found
  · intro robot
    refine ⟨?_,sound.spaced robot⟩
    rintro rfl last found
    rw [sound.stamped robot last found]
    exact due

theorem State.Sound.visit (sound : state.Sound) (stamp : ∀ robot, who = .robot robot → stamps = true) :
    (state.visit now stamps who socket recv_last_time answer).Sound := by
  rcases visit_cases state now recv_last_time stamps answer who socket with ⟨_,same⟩ | ⟨_,due,same⟩ | same <;> rw [same]
  · exact ⟨sound.counted,sound.stamped,sound.spaced⟩
  · exact sound.send stamp due
  · exact sound

theorem State.Inv.send (inv : state.Inv) (on : On state.server who socket) (stamp : ∀ robot, who = .robot robot → stamps = true)
    (due : 20 < now.toInt - (state.beats who).send_last_time.toInt)
    (spaced : ∀ last ∈ lastBeat who state.log, 20 < now.toInt - last.toInt) :
    (state.send now stamps who socket answer).Inv := by
  refine ⟨inv.toSound.send stamp due,⟨spaced,inv.right⟩,?_,inv.keyed⟩
  intro other place on_
  have here := inv.known other place on_
  rw [State.send,failures,← State.send]
  by_cases same : other = who
  · subst same
    cases on.unique on_
    rw [send_self]
    cases 0 < socket && answer with
    | false => simpa using here
    | true => simpa using here
  · rw [send_other same]
    exact Nat.le_add_right_of_le here

/-- A visit keeps the invariant where a heartbeat that is due comes long enough after the last one. -/
theorem State.Inv.visit (inv : state.Inv) (on : On state.server who socket) (stamp : ∀ robot, who = .robot robot → stamps = true)
    (spaced : (state.beats who).send_error_count ≤ 3 → 20 < now.toInt - (state.beats who).send_last_time.toInt →
      ∀ last ∈ lastBeat who state.log, 20 < now.toInt - last.toInt) :
    (state.visit now stamps who socket recv_last_time answer).Inv := by
  rcases visit_cases state now recv_last_time stamps answer who socket with ⟨many,same⟩ | ⟨few,due,same⟩ | same <;> rw [same]
  · exact ⟨⟨inv.counted,inv.stamped,inv.spaced⟩,⟨lt_of_lt_of_le many (inv.known who socket on),inv.right⟩,inv.known,inv.keyed⟩
  · exact inv.send on stamp due (spaced few due)
  · exact inv

end Visits

/-! ### Checks -/

section Checks
variable {state : State} {platform_id now : Int64}

theorem visitRobot_server (sends : Int64 → Bool) (entry : Int64 × RobotBasicInfo) :
    (visitRobot now sends state entry).server = state.server := visit_server

theorem State.Inv.visitRobot (inv : state.Inv) (sends : Int64 → Bool) {entry : Int64 × RobotBasicInfo}
    (on : On state.server (.robot entry.2) (state.server.data entry.2).socket) : (visitRobot now sends state entry).Inv := by
  refine inv.visit on (fun _ _ => rfl) ?_
  intro _ due last found
  rw [inv.stamped _ last found]
  exact due

theorem State.Inv.visitRobots (inv : state.Inv) (sends : Int64 → Bool) {entries : List (Int64 × RobotBasicInfo)}
    (on : ∀ entry ∈ entries, On state.server (.robot entry.2) (state.server.data entry.2).socket) :
    (entries.foldl (Heartbeats.visitRobot now sends) state).Inv := by
  induction entries generalizing state with
  | nil => exact inv
  | cons entry entries ih =>
    obtain ⟨here,others⟩ := List.forall_mem_cons.mp on
    refine ih (inv.visitRobot sends here) ?_
    rw [visitRobot_server]
    exact others

theorem visitAssistant_cases (state : State) (sends : Int64 → Bool) (entry : Int64 × RobotBasicInfo) :
    visitAssistant now sends state entry = state ∨ visitAssistant now sends state entry = visitRobot now sends state entry := by
  rw [visitAssistant]
  split
  · exact .inl rfl
  · exact .inr rfl

theorem State.Inv.visitAssistants (inv : state.Inv) (sends : Int64 → Bool) {entries : List (Int64 × RobotBasicInfo)}
    (on : ∀ entry ∈ entries, On state.server (.robot entry.2) (state.server.data entry.2).socket) :
    (entries.foldl (visitAssistant now sends) state).Inv := by
  induction entries generalizing state with
  | nil => exact inv
  | cons entry entries ih =>
    obtain ⟨here,others⟩ := List.forall_mem_cons.mp on
    rw [List.foldl_cons]
    rcases visitAssistant_cases state sends entry with same | same <;> rw [same]
    · exact ih inv others
    · refine ih (inv.visitRobot sends here) ?_
      rw [visitRobot_server]
      exact others

/-- Schedulers under different keys are visited apart from each other. -/
theorem State.Inv.visitSchedulers (inv : state.Inv) (sends : Int32 → Bool) {entries : List (Int32 × SchedulerInfo)}
    (distinct : (entries.map Prod.fst).Nodup) (on : ∀ entry ∈ entries, On state.server (.scheduler entry.1) entry.2.socket)
    (spaced : ∀ entry ∈ entries, (state.beats (.scheduler entry.1)).send_error_count ≤ 3 →
      ∀ last ∈ lastBeat (.scheduler entry.1) state.log, 20 < now.toInt - last.toInt) :
    (entries.foldl (visitScheduler now sends) state).Inv := by
  induction entries generalizing state with
  | nil => exact inv
  | cons entry entries ih =>
    obtain ⟨here,others⟩ := List.forall_mem_cons.mp on
    obtain ⟨due,rest⟩ := List.forall_mem_cons.mp spaced
    obtain ⟨apart,distinct⟩ := List.nodup_cons.mp distinct
    have visited : (visitScheduler now sends state entry).Inv := inv.visit here (fun robot same => by cases same) fun few _ => due few
    have same : (visitScheduler now sends state entry).server = state.server := visit_server
    refine ih visited distinct ?_ ?_
    · rw [same]
      exact others
    · intro other member
      have differ : Who.scheduler other.1 ≠ .scheduler entry.1 := by
        intro equal
        have keys : other.1 = entry.1 := Who.scheduler.inj equal
        exact apart (keys ▸ List.mem_map_of_mem member)
      obtain ⟨beats,last⟩ := visit_other state now 0 false (sends entry.1) entry.2.socket differ
      rw [visitScheduler,beats,last]
      exact rest other member

end Checks

/-! ### Events of the server -/

/-- Nobody is taken to another socket. -/
structure Still (server next : RobotServer) : Prop where
  used : next.pc.used_robot_infos_ = server.pc.used_robot_infos_
  assistant : next.pc.assistant_ = server.pc.assistant_
  scheduler : next.pc.schduler_infos_ = server.pc.schduler_infos_
  socket : ∀ robot, (next.data robot).socket = (server.data robot).socket

/-- Where an event leaves somebody: on the socket of before, new, or on the socket of the login. -/
def Moved (server next : RobotServer) (arrival : Arrival) : Prop :=
  ∀ who socket, On next who socket →
    On server who socket ∨ (∃ time, arrival.made = some (who,time)) ∨ arrival.login = some (who,socket)

section Steps
variable {server between next : RobotServer} {who : Who} {platform_id uid now : Int64} {position : Nat → Position}

theorem Still.refl (server : RobotServer) : Still server server := ⟨rfl,rfl,rfl,fun _ => rfl⟩

theorem Still.trans (first : Still server between) (second : Still between next) : Still server next where
  used := second.used.trans first.used
  assistant := second.assistant.trans first.assistant
  scheduler := second.scheduler.trans first.scheduler
  socket robot := (second.socket robot).trans (first.socket robot)

theorem Still.setData (server : RobotServer) {robot : RobotBasicInfo} {data : Data} (same : data.socket = (server.data robot).socket) :
    Still server (server.setData robot data) := by
  refine ⟨rfl,rfl,rfl,fun other => ?_⟩
  rw [RobotServer.setData_data]
  split
  · rename_i here
    rw [here,same]
  · rfl

theorem Still.moved (still : Still server next) (arrival : Arrival) : Moved server next arrival := by
  intro who socket on
  refine .inl ?_
  cases who with
  | robot robot => rwa [On,still.used,still.assistant,still.socket] at on
  | scheduler key => rwa [On,still.scheduler] at on

theorem GetRobots_still (i : Nat) (server : RobotServer) : Still server (RobotServer.GetRobots position i server).1 := by
  induction i generalizing server with
  | zero => exact .refl server
  | succ i ih =>
    rw [RobotServer.GetRobots]
    cases taken : server.GetRobot (position i) with
    | none => exact .refl server
    | some outcome =>
      refine Still.trans ?_ (ih outcome.1)
      rw [RobotServer.GetRobot] at taken
      split at taken
      · cases taken
      · rename_i uid robot first
        cases taken
        have moved : Still server (server.setData robot { server.data robot with position := position i }) := .setData server rfl
        exact ⟨moved.used,moved.assistant,moved.scheduler,moved.socket⟩

theorem moveRobots_still (robots : List RobotBasicInfo) (server : RobotServer) :
    Still server (RobotServer.moveRobots position now server robots) := by
  induction robots generalizing server with
  | nil => exact .refl server
  | cons robot robots ih =>
    have moved : Still server (server.setData robot
        { server.data robot with position := position robots.length,follower_user_last_time := now }) := .setData server rfl
    exact moved.trans (ih _)

theorem GetPlatformCache_some {pc : PlatformCache} (found : server.GetPlatformCache platform_id = some pc) :
    platform_id = 10000 ∧ pc = server.pc := by
  rw [RobotServer.GetPlatformCache] at found
  split at found
  · rename_i same
    cases found
    exact ⟨same,rfl⟩
  · cases found

theorem OnUserLogin_still : Still server (server.OnUserLogin platform_id uid position now) := by
  have handed : Still server (server.GetIdleRobot platform_id uid position now).1 := by
    rw [RobotServer.GetIdleRobot]
    split
    · exact .refl server
    · split
      · exact moveRobots_still ..
      · exact GetRobots_still ..
  rw [RobotServer.OnUserLogin]
  split
  rename_i login
  rw [login] at handed
  split_ifs
  · exact handed
  · rw [RobotServer.SetUserInfoLogin]
    split
    · exact handed
    · rename_i found
      obtain ⟨_,rfl⟩ := GetPlatformCache_some found
      exact ⟨handed.used,handed.assistant,handed.scheduler,handed.socket⟩

theorem CheckUserFollowAllRobots_still {robots : List RobotBasicInfo}
    (checked : RobotServer.CheckUserFollowAllRobots uid server robots = some next) : Still server next := by
  induction robots generalizing server with
  | nil =>
    cases checked
    exact .refl _
  | cons robot robots ih =>
    obtain ⟨between,first,rest⟩ := Option.bind_eq_some_iff.mp checked
    refine Still.trans ?_ (ih rest)
    simp only [RobotServer.CheckUserFollowAllRobot] at first
    split at first
    · cases first
      exact .refl _
    · split at first
      · cases first
      · cases first
        exact ⟨rfl,rfl,rfl,fun _ => rfl⟩

theorem currentSong_still (outcome : Robot.step server (.currentSong platform_id uid) = some next) : Still server next := by
  obtain ⟨⟨_,map⟩,asked,rfl⟩ := Option.map_eq_some_iff.mp outcome
  rw [RobotServer.GetUserFollowAllRobot] at asked
  split at asked
  · cases asked
    exact .refl _
  · split at asked
    · cases asked
      exact .refl _
    · obtain ⟨checked,done,same⟩ := Option.map_eq_some_iff.mp asked
      cases same
      exact CheckUserFollowAllRobots_still done

theorem moved_login (robot : RobotBasicInfo) (data : Data) (updated : next.data = Function.update server.data robot data)
    (used : ∀ (id : Int64) other, next.pc.used_robot_infos_[id]? = some other →
      other = robot ∨ ∃ id : Int64, server.pc.used_robot_infos_[id]? = some other)
    (assistant : next.pc.assistant_ = server.pc.assistant_) (scheduler : next.pc.schduler_infos_ = server.pc.schduler_infos_)
    (made : Option (Who × Int64)) : Moved server next ⟨made,some (.robot robot,data.socket)⟩ := by
  intro who place on
  cases who with
  | robot other =>
    obtain ⟨here,listed⟩ := on
    rw [updated] at here
    by_cases same : other = robot
    · subst same
      rw [Function.update_self] at here
      rw [here]
      exact .inr (.inr rfl)
    · rw [Function.update_of_ne same] at here
      rw [assistant] at listed
      refine .inl ⟨here,listed.imp_left ?_⟩
      intro found
      obtain ⟨id,found⟩ := found
      exact (used id other found).resolve_left same
  | scheduler key =>
    rw [On,scheduler] at on
    exact .inl on

theorem robotLogin_moved (server : RobotServer) (socket : Int32) (platform_id uid robot_id now : Int64) :
    Moved server (server.OnRobotLogin socket platform_id uid robot_id now)
      (arrival server (.robotLogin socket platform_id uid robot_id now)) := by
  rw [RobotServer.OnRobotLogin,arrival]
  cases login : server.RobotLoginSucess platform_id robot_id socket uid now with
  | none =>
    intro who place on
    by_cases new : who = .robot server.fresh
    · exact .inr (.inl ⟨now,by rw [new]⟩)
    · refine .inl ?_
      cases who with
      | robot robot =>
        have other : robot ≠ server.fresh := fun same => new (congrArg Who.robot same)
        obtain ⟨here,listed⟩ := on
        refine ⟨?_,listed⟩
        rw [← here]
        exact congrArg Data.socket (Function.update_of_ne other ..).symm
      | scheduler key => exact on
  | some outcome =>
    obtain ⟨pc,platform,login⟩ := Option.bind_eq_some_iff.mp login
    obtain ⟨robot_info,_,login⟩ := Option.bind_eq_some_iff.mp login
    obtain ⟨_,rfl⟩ := GetPlatformCache_some platform
    cases login
    refine moved_login robot_info { server.data robot_info with
      socket,follow_map := (server.data robot_info).follow_map.insert uid uid,recv_last_time := now,follower_user_last_time := now }
      ?_ ?_ ?_ ?_ none
    · rfl
    · intro id robot found
      have stored := MapAdd_get server.pc.used_robot_infos_ robot_id id robot_info
      have found := stored.symm.trans found
      split at found
      · cases found
        exact .inl rfl
      · exact .inr ⟨id,found⟩
    · rfl
    · rfl

theorem assistantLogin_moved (server : RobotServer) (platform_id assistant_id : Int64) (socket : Int32) :
    Moved server (server.SetAssistantLogin platform_id assistant_id socket)
      (arrival server (.assistantLogin socket platform_id assistant_id)) := by
  rw [RobotServer.SetAssistantLogin,arrival]
  cases platform : server.GetPlatformCache platform_id with
  | none => exact (Still.refl server).moved _
  | some pc =>
    obtain ⟨_,rfl⟩ := GetPlatformCache_some platform
    dsimp only
    cases found : MapGetInt server.pc.assistant_ assistant_id with
    | none => exact (Still.refl server).moved _
    | some assistant =>
      refine moved_login assistant { server.data assistant with socket } ?_ ?_ ?_ ?_ none
      · rfl
      · exact fun id other found => .inr ⟨id,found⟩
      · rfl
      · rfl

theorem schedulerLogin_moved (server : RobotServer) (socket : Int32) (platform_id : Int64) (machine_id : List UInt8) :
    Moved server (server.SetScheduler platform_id {platform_id,socket,machine_id})
      (arrival server (.schedulerLogin socket platform_id machine_id)) := by
  rw [RobotServer.SetScheduler,arrival]
  cases platform : server.GetPlatformCache platform_id with
  | none => exact (Still.refl server).moved _
  | some pc =>
    obtain ⟨_,rfl⟩ := GetPlatformCache_some platform
    intro who place on
    cases who with
    | robot robot => exact .inl on
    | scheduler key =>
      obtain ⟨info,found,here⟩ := on
      simp only [Std.ExtTreeMap.getElem?_insert,Std.compare_eq_iff_eq] at found
      split at found
      · rename_i same
        exact .inr (.inl ⟨0,by rw [same]⟩)
      · exact .inl ⟨info,found,here⟩

theorem close_moved (server : RobotServer) (socket : Int32) (arrival : Arrival) :
    Moved server (server.OnRobotManagerClose socket) arrival := by
  have shut := server.OnRobotManagerClose_shut socket
  intro who place on
  refine .inl ?_
  cases who with
  | robot robot =>
    obtain ⟨here,listed⟩ := on
    rw [shut.data] at here
    rw [shut.assistant] at listed
    refine ⟨here,listed.imp_left ?_⟩
    intro found
    obtain ⟨id,found⟩ := found
    rw [shut.used] at found
    split at found
    · cases found
    · exact ⟨id,found⟩
  | scheduler key =>
    obtain ⟨info,found,here⟩ := on
    rw [shut.scheduler,Std.ExtTreeMap.getElem?_erase] at found
    split at found
    · cases found
    · exact ⟨info,found,here⟩

theorem step_moved {event : Robot.Event} (outcome : Robot.step server event = some next) : Moved server next (arrival server event) := by
  cases event with
  | userLogin platform_id uid position now =>
    cases outcome
    exact OnUserLogin_still.moved _
  | robotLogin socket platform_id uid robot_id now =>
    cases outcome
    exact robotLogin_moved server socket platform_id uid robot_id now
  | currentSong platform_id uid => exact (currentSong_still outcome).moved _
  | schedulerLogin socket platform_id machine_id =>
    cases outcome
    exact schedulerLogin_moved server socket platform_id machine_id
  | assistantLogin socket platform_id assistant_id =>
    cases outcome
    exact assistantLogin_moved server platform_id assistant_id socket
  | close socket =>
    cases outcome
    exact close_moved server socket _

end Steps

/-! ### Runs -/

section Run
variable {state next : State} {news : Option (Who × Int64)} {who : Who}

theorem State.Sound.made (sound : state.Sound) (who : Who) (time : Int64) :
    State.Sound { state with beats := Function.update state.beats who ⟨time,0⟩,log := .made who::state.log } := by
  refine ⟨?_,?_,sound.spaced⟩
  · intro other
    change (Function.update state.beats who ⟨time,0⟩ other).send_error_count = if who = other then 0 else Heartbeats.counted other state.log
    by_cases same : who = other
    · rw [if_pos same,← same,Function.update_self]
    · rw [if_neg same,Function.update_of_ne (Ne.symm same)]
      exact sound.counted other
  · intro robot last found
    change last ∈ if who = .robot robot then none else lastBeat (.robot robot) state.log at found
    change last = (Function.update state.beats who ⟨time,0⟩ (.robot robot)).send_last_time
    by_cases same : who = .robot robot
    · rw [if_pos same] at found
      cases found
    · rw [if_neg same] at found
      rw [Function.update_of_ne (Ne.symm same)]
      exact sound.stamped robot last found

theorem State.Sound.arrive (sound : state.Sound) (arrival : Arrival) : (state.arrive arrival).Sound := by
  obtain ⟨made,login⟩ := arrival
  have start : (state.arrive ⟨made,none⟩).Sound := by
    cases made with
    | none => exact sound
    | some made => exact sound.made made.1 made.2
  cases login with
  | none => exact start
  | some login => exact ⟨start.counted,start.stamped,start.spaced⟩

theorem State.Sound.step (sound : state.Sound) {event : Event} (outcome : Heartbeats.step state event = some next) : next.Sound := by
  cases event with
  | of event =>
    obtain ⟨server,_,rfl⟩ := Option.map_eq_some_iff.mp outcome
    have arrived := sound.arrive (arrival state.server event)
    exact ⟨arrived.counted,arrived.stamped,arrived.spaced⟩
  | checkRobots platform_id now sends =>
    cases outcome
    rw [State.CheckRobotConnect]
    split
    · exact sound
    · exact List.foldlRecOn _ _ sound fun _ sound _ _ => sound.visit fun _ _ => rfl
  | checkSchedulers platform_id now sends =>
    cases outcome
    rw [State.CheckSchedulerConnect]
    split
    · exact sound
    · exact List.foldlRecOn _ _ sound fun _ sound _ _ => sound.visit fun _ same => by cases same
  | checkAssistants platform_id now sends =>
    cases outcome
    rw [State.ChecAssistantConnect]
    split
    · exact sound
    · refine List.foldlRecOn _ _ sound fun state sound entry _ => ?_
      rcases visitAssistant_cases state sends entry with same | same <;> rw [same]
      · exact sound
      · exact sound.visit fun _ _ => rfl

theorem State.Inv.made (inv : state.Inv) (who : Who) (time : Int64) :
    State.Inv { state with beats := Function.update state.beats who ⟨time,0⟩,log := .made who::state.log } := by
  refine ⟨inv.toSound.made who time,⟨trivial,inv.right⟩,?_,inv.keyed⟩
  intro other socket on
  change (Function.update state.beats who ⟨time,0⟩ other).send_error_count ≤ failures socket state.log
  by_cases same : who = other
  · rw [← same,Function.update_self]
    exact Nat.zero_le _
  · rw [Function.update_of_ne (Ne.symm same)]
    exact inv.known other socket on

/-- A login is a new start for a socket where nobody has failed. -/
theorem State.Inv.login (inv : state.Inv) {socket : Int32} (clear : ∀ who, On state.server who socket → (state.beats who).send_error_count = 0) :
    State.Inv { state with log := .login socket::state.log } := by
  refine ⟨⟨inv.counted,inv.stamped,inv.spaced⟩,⟨trivial,inv.right⟩,?_,inv.keyed⟩
  intro who other on
  change (state.beats who).send_error_count ≤ if socket = other then 0 else failures other state.log
  split_ifs with same
  · rw [clear who (same ▸ on)]
  · exact inv.known who other on

theorem State.Inv.serve (inv : state.Inv) {server : RobotServer} (keyed : server.Keyed)
    (known : ∀ who socket, On server who socket → (state.beats who).send_error_count ≤ failures socket state.log) :
    State.Inv { state with server } := ⟨⟨inv.counted,inv.stamped,inv.spaced⟩,inv.right,known,keyed⟩

theorem State.Inv.arriveMade (inv : state.Inv) (made : Option (Who × Int64)) : (state.arrive ⟨made,none⟩).Inv := by
  cases made with
  | none => exact inv
  | some made => exact inv.made made.1 made.2

theorem arriveMade_server (state : State) (news : Option (Who × Int64)) : (state.arrive ⟨news,none⟩).server = state.server := by
  cases news <;> rfl

/-- Who has just been made, or had no failure before, has none. -/
theorem arriveMade_clear (clear : (∀ time, news ≠ some (who,time)) → (state.beats who).send_error_count = 0) :
    ((state.arrive ⟨news,none⟩).beats who).send_error_count = 0 := by
  cases news with
  | none => exact clear (fun time same => by cases same)
  | some made =>
    change (Function.update state.beats made.1 ⟨made.2,0⟩ who).send_error_count = 0
    by_cases same : who = made.1
    · rw [same,Function.update_self]
    · rw [Function.update_of_ne same]
      exact clear fun time other => same (congrArg Prod.fst (Option.some_inj.mp other)).symm

theorem State.Inv.event (inv : state.Inv) {event : Robot.Event} {server : RobotServer} (outcome : Robot.step state.server event = some server)
    (spares : Spares state (.of event)) : State.Inv { state.arrive (arrival state.server event) with server } := by
  have moved := step_moved outcome
  have keyed := RobotServer.step_keyed inv.keyed outcome
  rw [Spares] at spares
  generalize arrival state.server event = arrival at moved spares ⊢
  obtain ⟨made,login⟩ := arrival
  have start := inv.arriveMade made
  have same := arriveMade_server state made
  cases login with
  | none =>
    refine start.serve keyed ?_
    intro who socket on
    obtain old | new | here := moved who socket on
    · exact start.known who socket (by rwa [same])
    · obtain ⟨time,new⟩ := new
      rw [arriveMade_clear fun other => absurd new (other time)]
      exact Nat.zero_le _
    · cases here
  | some login =>
    obtain ⟨who,socket⟩ := login
    have clear := spares who socket rfl
    refine State.Inv.serve (start.login fun other on => ?_) keyed ?_
    · rw [same] at on
      exact arriveMade_clear (clear other (.inr on))
    · intro other place on
      change _ ≤ if socket = place then 0 else failures place _
      obtain old | new | here := moved other place on
      · split_ifs with there
        · exact (arriveMade_clear (clear other (.inr (there ▸ old)))).le
        · exact start.known other place (by rwa [same])
      · obtain ⟨time,new⟩ := new
        rw [arriveMade_clear fun other => absurd new (other time)]
        exact Nat.zero_le _
      · cases here
        rw [arriveMade_clear (clear who (.inl rfl))]
        exact Nat.zero_le _

theorem State.Inv.step (inv : state.Inv) {event : Event} (spares : Spares state event) (outcome : Heartbeats.step state event = some next) :
    next.Inv := by
  cases event with
  | of event =>
    obtain ⟨server,moves,rfl⟩ := Option.map_eq_some_iff.mp outcome
    exact inv.event moves spares
  | checkRobots platform_id now sends =>
    cases outcome
    rw [State.CheckRobotConnect]
    split
    · exact inv
    · rename_i pc found
      obtain ⟨_,rfl⟩ := GetPlatformCache_some found
      refine inv.visitRobots sends ?_
      intro entry member
      exact ⟨rfl,.inl ⟨entry.1,Std.ExtTreeMap.mem_toList_iff_getElem?_eq_some.mp member⟩⟩
  | checkSchedulers platform_id now sends =>
    cases outcome
    rw [State.CheckSchedulerConnect]
    split
    · exact inv
    · rename_i pc found
      obtain ⟨same,rfl⟩ := GetPlatformCache_some found
      refine inv.visitSchedulers sends ?_ ?_ ?_
      · rw [Std.ExtTreeMap.map_fst_toList_eq_keys]
        exact Std.ExtTreeMap.nodup_keys
      · intro entry member
        exact ⟨entry.2,Std.ExtTreeMap.mem_toList_iff_getElem?_eq_some.mp member,rfl⟩
      · intro entry member
        exact spares same entry.1 (Std.ExtTreeMap.mem_iff_isSome_getElem?.mpr
          (Option.isSome_of_mem (Std.ExtTreeMap.mem_toList_iff_getElem?_eq_some.mp member)))
  | checkAssistants platform_id now sends =>
    cases outcome
    rw [State.ChecAssistantConnect]
    split
    · exact inv
    · rename_i pc found
      obtain ⟨_,rfl⟩ := GetPlatformCache_some found
      refine inv.visitAssistants sends ?_
      intro entry member
      exact ⟨rfl,.inr ⟨entry.1,Std.ExtTreeMap.mem_toList_iff_getElem?_eq_some.mp member⟩⟩

end Run

theorem start_sound (server : RobotServer) (now : Int64) : (State.start server now).Sound := by
  refine ⟨fun _ => rfl,?_,fun _ => trivial⟩
  intro robot last found
  cases found

theorem start_inv (data : RobotBasicInfo → Data) (now : Int64) (uids assistants : List Int64) :
    (State.start (.start data now uids assistants) now).Inv := by
  refine ⟨start_sound _ now,trivial,fun _ _ _ => Nat.zero_le _,?_⟩
  intro key info found
  rw [State.start,RobotServer.start,RobotServer.loads_schedulers] at found
  simp [PlatformCache.empty] at found

/-- Robot 5 follows user 7 on socket 3. -/
def follows : List Event :=
  [.of (.userLogin 10000 7 (fun _ => ⟨0,0⟩) 0),.of (.robotLogin 3 10000 7 5 0)]

/-- No heartbeat gets through to the robot. -/
def deaf : List Event := [21,42,63,84].map fun now => .checkRobots 10000 now fun _ => false

def robotStart : State := .start (.start (fun _ => .new 0 0) 0 [5] []) 0

/-- The robot comes back on socket 6 and is shut down there. A scheduler gets two heartbeats within one second. -/
theorem beats_wrong :
    (∃ final, run step robotStart (follows ++ deaf ++
        [.of (.close 3),.of (.userLogin 10000 7 (fun _ => ⟨0,0⟩) 85),.of (.robotLogin 6 10000 7 5 86),.checkRobots 10000 87 fun _ => true]) =
          some final ∧ ¬Right final.log) ∧
      ∃ final, run step robotStart [.of (.schedulerLogin 9 10000 []),.checkSchedulers 10000 100 fun _ => true,
        .checkSchedulers 10000 101 fun _ => true] = some final ∧ ¬Right final.log := by
  refine ⟨⟨_,rfl,?_⟩,⟨_,rfl,?_⟩⟩
  · intro right
    have many : 3 < 0 := right.1
    exact absurd many (by decide)
  · intro right
    exact absurd (right.1 100 rfl) (by decide)

end Migfm.Robot.Heartbeats
