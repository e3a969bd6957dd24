import Migfm.Robot.Follow

/-! What is left of a socket that closes. A scheduler is gone, but an assistant
stays with its socket, and a robot in use goes only with the socket that it logged
in on last. -/
namespace Migfm.Robot
open Basic Library.Runs

namespace RobotServer

/-- After the close no registry refers to the socket, and what refers to another one stays as it was. -/
structure Closed (server next : RobotServer) (socket : Int32) : Prop where
  scheduler : (∀ (key : Int32) info, next.pc.schduler_infos_[key]? = some info → key ≠ socket ∧ info.socket ≠ socket) ∧
    ∀ key, key ≠ socket → next.pc.schduler_infos_[key]? = server.pc.schduler_infos_[key]?
  robot_socket : socket.toInt64 ∉ next.pc.robot_socket_ ∧
    ∀ key, key ≠ socket.toInt64 → next.pc.robot_socket_[key]? = server.pc.robot_socket_[key]?
  socket_robot : next.socket_robot_map_ socket = none ∧
    ∀ other, other ≠ socket → next.socket_robot_map_ other = server.socket_robot_map_ other
  assistant : (∀ (id : Int64) assistant, next.pc.assistant_[id]? = some assistant → (next.data assistant).socket ≠ socket) ∧
    ∀ (id : Int64) assistant, server.pc.assistant_[id]? = some assistant → (server.data assistant).socket ≠ socket →
      next.pc.assistant_[id]? = some assistant ∧ (next.data assistant).socket = (server.data assistant).socket
  used : (∀ (id : Int64) robot, next.pc.used_robot_infos_[id]? = some robot → (next.data robot).socket ≠ socket) ∧
    ∀ (id : Int64) robot, server.pc.used_robot_infos_[id]? = some robot → (server.data robot).socket ≠ socket →
      next.pc.used_robot_infos_[id]? = some robot ∧ (next.data robot).socket = (server.data robot).socket

/-- The robot id that the close takes out of use. -/
def dropped (server : RobotServer) (socket : Int32) : Option Int64 :=
  (server.GetRobotInfo socket).bind fun robot =>
    if (server.data robot).follow_map.size = 0 then none else some (server.data robot).uid

/-- The condition on the state. No assistant has logged in on the socket, and the
robots in use that record it are the one that it records with its users. -/
structure Disposable (server : RobotServer) (socket : Int32) : Prop where
  robot_socket : socket = 0 ∨ (socket.toInt64 ∉ server.pc.robot_socket_ ∧ 0 ∉ server.pc.robot_socket_)
  assistant : ∀ (id : Int64) assistant, server.pc.assistant_[id]? = some assistant → (server.data assistant).socket ≠ socket
  used : ∀ (id : Int64) robot, server.pc.used_robot_infos_[id]? = some robot →
    ((server.data robot).socket = socket ↔ server.dropped socket = some id)

/-! ### What a close does -/

section Close
variable (server : RobotServer) (socket : Int32)

theorem clearFollow_rest (robot_uid : Int64) (uids : List Int64) (pc : PlatformCache) :
    (uids.foldl (clearFollow robot_uid) pc).schduler_infos_ = pc.schduler_infos_ ∧
      (uids.foldl (clearFollow robot_uid) pc).assistant_ = pc.assistant_ ∧
      (uids.foldl (clearFollow robot_uid) pc).robot_socket_ = pc.robot_socket_ ∧
      (uids.foldl (clearFollow robot_uid) pc).used_robot_infos_ = pc.used_robot_infos_ := by
  induction uids generalizing pc with
  | nil => exact ⟨rfl,rfl,rfl,rfl⟩
  | cons uid uids ih =>
    have one : (clearFollow robot_uid pc uid).schduler_infos_ = pc.schduler_infos_ ∧
        (clearFollow robot_uid pc uid).assistant_ = pc.assistant_ ∧
        (clearFollow robot_uid pc uid).robot_socket_ = pc.robot_socket_ ∧
        (clearFollow robot_uid pc uid).used_robot_infos_ = pc.used_robot_infos_ := by
      simp only [clearFollow]
      split
      · exact ⟨rfl,rfl,rfl,rfl⟩
      · split
        · exact ⟨rfl,rfl,rfl,rfl⟩
        · exact ⟨rfl,rfl,rfl,rfl⟩
    obtain ⟨scheduler,assistant,robot_socket,used⟩ := ih (clearFollow robot_uid pc uid)
    exact ⟨scheduler.trans one.1,assistant.trans one.2.1,robot_socket.trans one.2.2.1,used.trans one.2.2.2⟩

/-- All that a closing robot changes. -/
structure Cleared (next : RobotServer) : Prop where
  data : next.data = server.data
  scheduler : next.pc.schduler_infos_ = server.pc.schduler_infos_
  assistant : next.pc.assistant_ = server.pc.assistant_
  robot_socket : next.pc.robot_socket_ = server.pc.robot_socket_
  used : ∀ id : Int64, next.pc.used_robot_infos_[id]? =
    if server.dropped socket = some id then none else server.pc.used_robot_infos_[id]?
  socket_robot : ∀ other, next.socket_robot_map_ other = if other = socket then none else server.socket_robot_map_ other

theorem OnClearRobotConnection_cleared : server.Cleared socket (server.OnClearRobotConnection socket) := by
  unfold OnClearRobotConnection
  cases found : server.GetRobotInfo socket with
  | none =>
    dsimp only
    refine ⟨rfl,rfl,rfl,rfl,?_,?_⟩
    · intro id
      rw [dropped,found,Option.bind_none,if_neg (Option.some_ne_none id).symm]
    · intro other
      split
      · rename_i same
        rw [same]
        exact found
      · rfl
  | some robot =>
    have map (next : RobotServer) (same : next.socket_robot_map_ = server.socket_robot_map_) (other : Int32) :
        (next.DelRobotInfo socket).socket_robot_map_ other =
          if other = socket then none else server.socket_robot_map_ other := by
      rw [DelRobotInfo,same]
      exact Function.update_apply ..
    simp only [ClearRobot,GetPlatformCache,if_true,Nat.le_zero_eq]
    by_cases nobody : (server.data robot).follow_map.size = 0
    · rw [if_pos nobody]
      refine ⟨rfl,rfl,rfl,rfl,?_,map server rfl⟩
      intro id
      rw [dropped,found,Option.bind_some,if_pos nobody,if_neg (Option.some_ne_none id).symm]
      rfl
    · rw [if_neg nobody]
      obtain ⟨scheduler,assistant,robot_socket,used⟩ :=
        clearFollow_rest (server.data robot).uid (server.data robot).follow_map.keys server.pc
      refine ⟨rfl,scheduler,assistant,robot_socket,?_,map _ rfl⟩
      intro id
      rw [dropped,found,Option.bind_some,if_neg nobody]
      simp only [DelRobotInfo,MapDel_get,used,Option.some.injEq,@eq_comm _ id]

/-- All that a close changes. -/
structure Shut (next : RobotServer) : Prop where
  data : next.data = server.data
  scheduler : next.pc.schduler_infos_ = server.pc.schduler_infos_.erase socket
  assistant : next.pc.assistant_ = server.pc.assistant_
  robot_socket : next.pc.robot_socket_ = (MapDel server.pc.robot_socket_ 0).1
  used : ∀ id : Int64, next.pc.used_robot_infos_[id]? =
    if server.dropped socket = some id then none else server.pc.used_robot_infos_[id]?
  socket_robot : ∀ other, next.socket_robot_map_ other = if other = socket then none else server.socket_robot_map_ other

theorem OnRobotManagerClose_shut : server.Shut socket (server.OnRobotManagerClose socket) := by
  have cleared := server.OnClearRobotConnection_cleared socket
  refine ⟨cleared.data,?_,cleared.assistant,?_,cleared.used,cleared.socket_robot⟩
  · exact congrArg (fun schedulers : SchedulerMap => schedulers.erase socket) cleared.scheduler
  · exact congrArg (fun robots : RobotInfosMap => (MapDel robots 0).1) cleared.robot_socket

end Close

/-- A scheduler is stored under its socket. -/
def Keyed (server : RobotServer) : Prop :=
  ∀ (key : Int32) info, server.pc.schduler_infos_[key]? = some info → info.socket = key

theorem closed_of_shut {server next : RobotServer} {socket : Int32} (keyed : server.Keyed)
    (shut : server.Shut socket next) : server.Closed next socket ↔ server.Disposable socket := by
  have erased (key : Int32) : next.pc.schduler_infos_[key]? =
      if key = socket then none else server.pc.schduler_infos_[key]? := by
    rw [shut.scheduler,Std.ExtTreeMap.getElem?_erase]
    simp only [Std.compare_eq_iff_eq,@eq_comm _ socket]
  have scheduler : (∀ (key : Int32) info, next.pc.schduler_infos_[key]? = some info → key ≠ socket ∧ info.socket ≠ socket) ∧
      ∀ key, key ≠ socket → next.pc.schduler_infos_[key]? = server.pc.schduler_infos_[key]? := by
    simp only [erased]
    refine ⟨?_,fun key apart => if_neg apart⟩
    intro key info found
    split at found
    · cases found
    · rename_i apart
      refine ⟨apart,?_⟩
      rw [keyed key info found]
      exact apart
  have zero : socket.toInt64 = 0 ↔ socket = 0 := by
    rw [← Int64.toInt_inj,← Int32.toInt_inj,Int32.toInt_toInt64]
    rfl
  constructor
  · intro closed
    refine ⟨?_,?_,?_⟩
    · obtain ⟨gone,others⟩ := closed.robot_socket
      rw [shut.robot_socket] at gone others
      by_cases same : socket = 0
      · exact .inl same
      · right
        have apart : socket.toInt64 ≠ 0 := fun equal => same (zero.mp equal)
        refine ⟨fun member => gone ((MapDel_mem ..).mpr ⟨apart,member⟩),?_⟩
        have first := others 0 (Ne.symm apart)
        rw [MapDel_get,if_pos rfl] at first
        intro member
        rw [Std.ExtTreeMap.mem_iff_isSome_getElem?,← first] at member
        cases member
    · intro id assistant found
      rw [← shut.data]
      refine closed.assistant.1 id assistant ?_
      rw [shut.assistant]
      exact found
    · intro id robot found
      have kept := shut.used id
      constructor
      · intro records
        by_contra other
        rw [if_neg other,found] at kept
        refine closed.used.1 id robot kept ?_
        rw [shut.data]
        exact records
      · intro drops
        by_contra other
        have still := (closed.used.2 id robot found other).1
        rw [kept,if_pos drops] at still
        cases still
  · intro disposable
    refine ⟨scheduler,?_,?_,⟨?_,?_⟩,⟨?_,?_⟩⟩
    · rw [shut.robot_socket]
      rcases disposable.robot_socket with same | ⟨absent,absent'⟩
      · subst same
        refine ⟨fun member => ((MapDel_mem ..).mp member).1 rfl,?_⟩
        intro key apart
        rw [MapDel_get]
        exact if_neg apart
      · refine ⟨fun member => absent ((MapDel_mem ..).mp member).2,?_⟩
        intro key _
        rw [MapDel_get]
        split
        · rename_i same
          rw [same,Std.ExtTreeMap.getElem?_eq_none absent']
        · rfl
    · refine ⟨?_,?_⟩
      · rw [shut.socket_robot,if_pos rfl]
      · intro other apart
        rw [shut.socket_robot,if_neg apart]
    · intro id assistant found
      rw [shut.data]
      rw [shut.assistant] at found
      exact disposable.assistant id assistant found
    · intro id assistant found _
      rw [shut.data,shut.assistant]
      exact ⟨found,rfl⟩
    · intro id robot found
      rw [shut.used] at found
      split at found
      · cases found
      · rename_i other
        rw [shut.data]
        exact fun records => other ((disposable.used id robot found).mp records)
    · intro id robot found apart
      rw [shut.used,shut.data]
      refine ⟨?_,rfl⟩
      rw [if_neg fun drops => apart ((disposable.used id robot found).mpr drops)]
      exact found

/-! ### Reachable states -/

section Keyed
variable {server next : RobotServer}

theorem Keyed.same (keyed : server.Keyed) (same : next.pc.schduler_infos_ = server.pc.schduler_infos_) : next.Keyed := by
  intro key info found
  rw [same] at found
  exact keyed key info found

theorem GetRobots_schedulers (position : Nat → Position) (i : Nat) (server : RobotServer) :
    (GetRobots position i server).1.pc.schduler_infos_ = server.pc.schduler_infos_ := by
  induction i generalizing server with
  | zero => rfl
  | succ i ih =>
    unfold GetRobots
    cases taken : server.GetRobot (position i) with
    | none => rfl
    | some outcome =>
      have one : outcome.1.pc.schduler_infos_ = server.pc.schduler_infos_ := by
        unfold GetRobot at taken
        split at taken
        · cases taken
        · cases taken
          rfl
      exact (ih outcome.1).trans one

theorem moveRobots_schedulers (position : Nat → Position) (now : Int64) (robots : List RobotBasicInfo)
    (server : RobotServer) : (moveRobots position now server robots).pc = server.pc := by
  induction robots generalizing server with
  | nil => rfl
  | cons robot robots ih => exact ih _

theorem OnUserLogin_schedulers (server : RobotServer) (platform_id uid : Int64) (position : Nat → Position) (now : Int64) :
    (server.OnUserLogin platform_id uid position now).pc.schduler_infos_ = server.pc.schduler_infos_ := by
  have handed : (server.GetIdleRobot platform_id uid position now).1.pc.schduler_infos_ = server.pc.schduler_infos_ := by
    unfold GetIdleRobot
    split
    · rfl
    · split
      · exact congrArg PlatformCache.schduler_infos_ (moveRobots_schedulers ..)
      · exact GetRobots_schedulers ..
  simp only [OnUserLogin]
  split
  · exact handed
  · unfold SetUserInfoLogin GetPlatformCache
    split
    · exact handed
    · rename_i found
      split at found
      · cases found
        exact handed
      · cases found

theorem OnRobotLogin_schedulers (server : RobotServer) (socket : Int32) (platform_id uid robot_id now : Int64) :
    (server.OnRobotLogin socket platform_id uid robot_id now).pc.schduler_infos_ = server.pc.schduler_infos_ := by
  unfold OnRobotLogin
  split
  · rename_i login
    obtain ⟨pc,platform,login⟩ := Option.bind_eq_some_iff.mp login
    obtain ⟨robot_info,_,login⟩ := Option.bind_eq_some_iff.mp login
    unfold GetPlatformCache at platform
    split at platform
    · cases platform
      cases login
      rfl
    · cases platform
  · rfl

theorem CheckUserFollowAllRobots_schedulers (uid : Int64) {robots : List RobotBasicInfo}
    (checked : CheckUserFollowAllRobots uid server robots = some next) :
    next.pc.schduler_infos_ = server.pc.schduler_infos_ := by
  induction robots generalizing server with
  | nil =>
    cases checked
    rfl
  | cons robot robots ih =>
    obtain ⟨between,first,rest⟩ := Option.bind_eq_some_iff.mp checked
    refine (ih rest).trans ?_
    simp only [CheckUserFollowAllRobot] at first
    split at first
    · cases first
      rfl
    · split at first
      · cases first
      · cases first
        rfl

theorem currentSong_schedulers {platform_id uid : Int64}
    (outcome : step server (.currentSong platform_id uid) = some next) :
    next.pc.schduler_infos_ = server.pc.schduler_infos_ := by
  obtain ⟨⟨_,map⟩,asked,rfl⟩ := Option.map_eq_some_iff.mp outcome
  unfold GetUserFollowAllRobot at asked
  split at asked
  · cases asked
    rfl
  · split at asked
    · cases asked
      rfl
    · obtain ⟨checked,done,same⟩ := Option.map_eq_some_iff.mp asked
      cases same
      exact CheckUserFollowAllRobots_schedulers uid done

theorem SetAssistantLogin_schedulers (server : RobotServer) (platform_id assistant_id : Int64) (socket : Int32) :
    (server.SetAssistantLogin platform_id assistant_id socket).pc.schduler_infos_ = server.pc.schduler_infos_ := by
  unfold SetAssistantLogin GetPlatformCache
  split
  · rfl
  · rename_i platform
    split at platform
    · cases platform
      split
      · rfl
      · rfl
    · cases platform

theorem step_keyed {event : Event} (keyed : server.Keyed) (outcome : step server event = some next) : next.Keyed := by
  cases event with
  | userLogin platform_id uid position now =>
    cases outcome
    exact keyed.same (OnUserLogin_schedulers ..)
  | robotLogin socket platform_id uid robot_id now =>
    cases outcome
    exact keyed.same (OnRobotLogin_schedulers ..)
  | currentSong platform_id uid => exact keyed.same (currentSong_schedulers outcome)
  | schedulerLogin socket platform_id machine_id =>
    cases outcome
    unfold SetScheduler GetPlatformCache
    split
    · exact keyed
    · rename_i platform
      split at platform
      · cases platform
        intro key info found
        simp only [Std.ExtTreeMap.getElem?_insert,Std.compare_eq_iff_eq] at found
        split at found
        · rename_i same
          cases found
          exact same
        · exact keyed key info found
      · cases platform
  | assistantLogin socket platform_id assistant_id =>
    cases outcome
    exact keyed.same (SetAssistantLogin_schedulers ..)
  | close socket =>
    cases outcome
    intro key info found
    rw [(server.OnRobotManagerClose_shut socket).scheduler,Std.ExtTreeMap.getElem?_erase] at found
    split at found
    · cases found
    · exact keyed key info found

theorem loads_schedulers (now : Int64) (uids assistants : List Int64) (server : RobotServer) :
    (assistants.foldl (loadAssistant now) (uids.foldl (loadRobot now) server)).pc.schduler_infos_ =
      server.pc.schduler_infos_ := by
  have robots (server : RobotServer) : (uids.foldl (loadRobot now) server).pc.schduler_infos_ = server.pc.schduler_infos_ := by
    induction uids generalizing server with
    | nil => rfl
    | cons uid uids ih => exact ih _
  refine Eq.trans ?_ (robots server)
  generalize uids.foldl (loadRobot now) server = loaded
  induction assistants generalizing loaded with
  | nil => rfl
  | cons uid assistants ih => exact ih _

end Keyed

end RobotServer

/-- In every reachable state, a close leaves nothing of the socket behind and
spares the other ones exactly if the socket is disposable. -/
theorem closed_iff {data : RobotBasicInfo → Data} {now : Int64} {uids assistants : List Int64} {events : List Event}
    {server : RobotServer} (reached : run step (.start data now uids assistants) events = some server) (socket : Int32) :
    server.Closed (server.OnRobotManagerClose socket) socket ↔ server.Disposable socket := by
  have start : (RobotServer.start data now uids assistants).Keyed := by
    intro key info found
    rw [RobotServer.start,RobotServer.loads_schedulers] at found
    simp [PlatformCache.empty] at found
  have keyed : server.Keyed := run_keeps RobotServer.step_keyed start reached
  exact RobotServer.closed_of_shut keyed (server.OnRobotManagerClose_shut socket)

/-- Robot 5 is in use on socket 3. -/
def robotEvents : List Event := [.userLogin 10000 7 (fun _ => ⟨0,0⟩) 0,.robotLogin 3 10000 7 5 0]

def robotInUse : RobotServer := (run step (.start (fun _ => .new 0 0) 0 [5] []) robotEvents).get rfl

theorem robot_closed : run step (.start (fun _ => .new 0 0) 0 [5] []) robotEvents = some robotInUse ∧
    robotInUse.Closed (robotInUse.OnRobotManagerClose 3) 3 := by
  have reached : run step (.start (fun _ => .new 0 0) 0 [5] []) robotEvents = some robotInUse := rfl
  refine ⟨reached,(closed_iff reached 3).mpr ⟨.inr ⟨nofun,nofun⟩,?_,?_⟩⟩
  · intro id assistant found
    cases found
  · intro id robot found
    have stored := MapAdd_get (∅ : RobotInfosMap) 5 id 0
    rw [Std.ExtTreeMap.getElem?_empty] at stored
    have found := stored.symm.trans found
    split at found
    · rename_i same
      cases found
      rw [same]
      exact iff_of_true rfl rfl
    · cases found

/-- The assistant is on socket 4. -/
def assistantIn : RobotServer :=
  (run step (.start (fun _ => .new 0 0) 0 [] [10000]) [.assistantLogin 4 10000 10000]).get rfl

theorem assistant_left :
    run step (.start (fun _ => .new 0 0) 0 [] [10000]) [.assistantLogin 4 10000 10000] = some assistantIn ∧
      ¬assistantIn.Closed (assistantIn.OnRobotManagerClose 4) 4 := by
  refine ⟨rfl,?_⟩
  intro closed
  exact closed.assistant.1 10000 0 rfl rfl

end Migfm.Robot
