import Migfm.Robot.Partition

/-! Which robots follow which user. The follow sets agree with what the robots
themselves record as long as no robot that follows somebody is cleared and every
login is by ids that pass through `int`. -/
namespace Migfm.Robot
open Basic Library.Runs

/-- The methods of the cache. A robot is cleared by the handle that its table has. -/
inductive Call
  | getIdleRobot (platform_id uid : Int64) (position : Nat → Position) (now : Int64)
  | robotLoginSucess (platform_id robot_uid : Int64) (socket : Int32) (uid now : Int64)
  | getUserFollowAllRobot (platform_id uid : Int64)
  | clearRobot (platform_id robot_uid : Int64)

def PlatformCache.robot (pc : PlatformCache) (robot_uid : Int64) : Option RobotBasicInfo :=
  (pc.idle_robot_infos_[robot_uid]?).or ((pc.temp_robot_infos_[robot_uid]?).or pc.used_robot_infos_[robot_uid]?)

def call (server : RobotServer) : Call → Option RobotServer
  | .getIdleRobot platform_id uid position now => some (server.GetIdleRobot platform_id uid position now).1
  | .robotLoginSucess platform_id robot_uid socket uid now =>
    some ((server.RobotLoginSucess platform_id robot_uid socket uid now).elim server Prod.fst)
  | .getUserFollowAllRobot platform_id uid => (server.GetUserFollowAllRobot platform_id uid).map Prod.fst
  | .clearRobot platform_id robot_uid => (server.pc.robot robot_uid).map fun robot => server.ClearRobot platform_id robot

namespace RobotServer
variable (server : RobotServer)

def Stores (uid robot_uid : Int64) : Prop := robot_uid ∈ (server.pc.user_follow_infos_[uid]?).getD ∅

def Follows (robot_uid uid : Int64) : Prop :=
  ∃ robot, server.pc.used_robot_infos_[robot_uid]? = some robot ∧ uid ∈ (server.data robot).follow_map

structure Consistent : Prop where
  follow : ∀ uid robot_uid, server.Stores uid robot_uid ↔ server.Follows robot_uid uid
  filled : ∀ (uid : Int64) robotinfos, server.pc.user_follow_infos_[uid]? = some robotinfos → robotinfos.size ≠ 0

/-- What a call is to reach: a cleared robot is rid of its users, and a robot that
is handed out is not idle. -/
def Reaches (next : RobotServer) : Call → Prop
  | .clearRobot platform_id robot_uid => platform_id = 10000 → (∀ uid, ¬next.Stores uid robot_uid) ∧
    ∀ robot, server.pc.robot robot_uid = some robot → (next.data robot).follow_map.size = 0
  | .getIdleRobot platform_id uid position now =>
    ∀ robot ∈ (server.GetIdleRobot platform_id uid position now).2, (next.data robot).uid ∉ next.pc.idle_robot_infos_
  | _ => True

/-- The condition on a call. A robot logs in by an id that passes through `int` for
a user whose set is the one found under the narrowed id; a robot that is cleared
follows nobody. -/
def Mindful : Call → Prop
  | .robotLoginSucess platform_id robot_uid _ uid _ => platform_id = 10000 →
    narrow robot_uid ∈ server.pc.temp_robot_infos_ ∨ narrow robot_uid ∈ server.pc.used_robot_infos_ →
      narrow robot_uid = robot_uid ∧
        ∀ other, other ≠ robot_uid → (server.Stores (narrow uid) other ↔ server.Stores uid other)
  | .clearRobot platform_id robot_uid => platform_id = 10000 →
    ∀ robot, server.pc.robot robot_uid = some robot → (server.data robot).follow_map.size = 0
  | _ => True

/-! ### The invariant -/

/-- A stored robot is the one in use under its id, and no other one follows anybody. -/
structure Following (loaded : Set Int64) : Prop where
  inv : server.Inv loaded
  partition : server.Partition loaded
  consistent : server.Consistent
  used : ∀ id, id ∈ server.pc.used_robot_infos_ → narrow id = id
  stored : ∀ (uid : Int64) (robotinfos : RobotInfosMap) (id : Int64) robot,
    server.pc.user_follow_infos_[uid]? = some robotinfos → robotinfos[id]? = some robot →
      server.pc.used_robot_infos_[id]? = some robot
  free : ∀ robot, robot < server.fresh → (server.data robot).follow_map.size ≠ 0 →
    ∃ id : Int64, server.pc.used_robot_infos_[id]? = some robot

/-- Nothing changes but positions, times and where idle robots are. -/
structure Calm (next : RobotServer) : Prop where
  used : next.pc.used_robot_infos_ = server.pc.used_robot_infos_
  follow : next.pc.user_follow_infos_ = server.pc.user_follow_infos_
  data : ∀ robot, (next.data robot).uid = (server.data robot).uid ∧
    (next.data robot).follow_map = (server.data robot).follow_map
  idle : ∀ id, id ∈ next.pc.idle_robot_infos_ → id ∈ server.pc.idle_robot_infos_
  fresh : next.fresh = server.fresh

theorem Calm.refl : server.Calm server := ⟨rfl,rfl,fun _ => ⟨rfl,rfl⟩,fun _ idle => idle,rfl⟩

variable {server} {next : RobotServer} {loaded : Set Int64}

theorem Calm.trans {final : RobotServer} (first : server.Calm next) (second : next.Calm final) : server.Calm final where
  used := second.used.trans first.used
  follow := second.follow.trans first.follow
  data robot := ⟨(second.data robot).1.trans (first.data robot).1,(second.data robot).2.trans (first.data robot).2⟩
  idle id idle := first.idle id (second.idle id idle)
  fresh := second.fresh.trans first.fresh

theorem Calm.setData (robot : RobotBasicInfo) {data : Data} (uid : data.uid = (server.data robot).uid)
    (follow_map : data.follow_map = (server.data robot).follow_map) : server.Calm (server.setData robot data) := by
  refine ⟨rfl,rfl,?_,fun _ idle => idle,rfl⟩
  intro other
  rw [setData_data]
  split
  · rename_i same
    rw [same]
    exact ⟨uid,follow_map⟩
  · exact ⟨rfl,rfl⟩

theorem Calm.consistent (calm : server.Calm next) (consistent : server.Consistent) : next.Consistent := by
  refine ⟨?_,?_⟩
  · intro uid robot_uid
    have same : next.Follows robot_uid uid ↔ server.Follows robot_uid uid := by
      simp only [Follows,calm.used,(calm.data _).2]
    rw [same,Stores,calm.follow]
    exact consistent.follow uid robot_uid
  · rw [calm.follow]
    exact consistent.filled

theorem Following.calm (following : server.Following loaded) (calm : server.Calm next) (inv : next.Inv loaded)
    (partition : next.Partition loaded) : next.Following loaded where
  inv := inv
  partition := partition
  consistent := calm.consistent following.consistent
  used := calm.used ▸ following.used
  stored := by
    rw [calm.used,calm.follow]
    exact following.stored
  free := by
    intro robot
    rw [calm.fresh,calm.used,(calm.data robot).2]
    exact following.free robot

/-! ### GetIdleRobot -/

theorem GetRobot_calm {position : Position} {robot : RobotBasicInfo} (inv : server.Inv loaded)
    (taken : server.GetRobot position = some (next,robot)) :
    server.Calm next ∧ (next.data robot).uid ∉ next.pc.idle_robot_infos_ := by
  unfold GetRobot at taken
  cases first : server.pc.idle_robot_infos_.toList.head? with
  | none =>
    rw [first] at taken
    cases taken
  | some entry =>
    obtain ⟨uid,stored⟩ := entry
    rw [first] at taken
    cases taken
    have found : server.pc.idle_robot_infos_[uid]? = some robot :=
      Std.ExtTreeMap.mem_toList_iff_getElem?_eq_some.mp (List.mem_of_head? first)
    have moved : server.Calm (server.setData robot {server.data robot with position}) := .setData robot rfl rfl
    refine ⟨⟨rfl,rfl,moved.data,?_,rfl⟩,?_⟩
    · intro id idle
      exact ((MapDel_mem ..).mp idle).2
    · intro idle
      refine ((MapDel_mem ..).mp idle).1 ?_
      exact (moved.data robot).1.trans (inv.sound.idle uid robot found).2.1

theorem GetRobots_calm {position : Nat → Position} {i : Nat} (inv : server.Inv loaded) :
    server.Calm (GetRobots position i server).1 ∧ ∀ robot ∈ (GetRobots position i server).2,
      ((GetRobots position i server).1.data robot).uid ∉ (GetRobots position i server).1.pc.idle_robot_infos_ := by
  induction i generalizing server with
  | zero => exact ⟨.refl server,fun robot listed => absurd listed List.not_mem_nil⟩
  | succ i ih =>
    unfold GetRobots
    cases taken : server.GetRobot (position i) with
    | none => exact ⟨.refl server,fun robot listed => absurd listed List.not_mem_nil⟩
    | some outcome =>
      obtain ⟨next,robot⟩ := outcome
      obtain ⟨calm,busy⟩ := GetRobot_calm inv taken
      obtain ⟨rest,busy'⟩ := @ih next (GetRobot_offers inv taken).1
      refine ⟨calm.trans rest,?_⟩
      intro other listed
      rcases List.mem_cons.mp listed with rfl | later
      · intro idle
        rw [(rest.data _).1] at idle
        exact busy (rest.idle _ idle)
      · exact busy' other later

theorem moveRobots_calm (position : Nat → Position) (now : Int64) (robots : List RobotBasicInfo) :
    server.Calm (moveRobots position now server robots) := by
  induction robots generalizing server with
  | nil => exact .refl server
  | cons robot robots ih =>
    have moved : server.Calm (server.setData robot {server.data robot with
        position := position robots.length, follower_user_last_time := now}) := .setData robot rfl rfl
    exact moved.trans ih

theorem Following.unidle (following : server.Following loaded) {id : Int64} {robot : RobotBasicInfo}
    (used : server.pc.used_robot_infos_[id]? = some robot) :
    (server.data robot).uid = id ∧ id ∉ server.pc.idle_robot_infos_ ∧ id ∉ server.pc.temp_robot_infos_ := by
  have member : id ∈ server.pc.used_robot_infos_ := Std.ExtTreeMap.mem_iff_isSome_getElem?.mpr (by rw [used]; rfl)
  have own := following.inv.sound.used id robot used
  rw [following.used id member] at own
  refine ⟨own.2.1,?_⟩
  rcases following.partition id own.2.2 with place | place | place
  · exact absurd member place.2.2
  · exact absurd member place.2.2
  · exact ⟨place.1,place.2.1⟩

theorem getIdleRobot_follows (following : server.Following loaded) (platform_id uid : Int64)
    (position : Nat → Position) (now : Int64) :
    (server.GetIdleRobot platform_id uid position now).1.Following loaded ∧
      server.Reaches (server.GetIdleRobot platform_id uid position now).1 (.getIdleRobot platform_id uid position now) := by
  unfold Reaches GetIdleRobot GetPlatformCache
  by_cases here : platform_id = 10000
  · simp only [if_pos here]
    cases follows : MapGetInt server.pc.user_follow_infos_ uid with
    | some follow_robotinfos =>
      have calm := @moveRobots_calm server position now (follow_robotinfos.toList.map Prod.snd)
      obtain ⟨inv,partition⟩ := @moveRobots_settled server loaded following.inv position now following.partition
        (follow_robotinfos.toList.map Prod.snd)
      refine ⟨following.calm calm inv partition,?_⟩
      intro robot listed idle
      obtain ⟨⟨id,_⟩,entry,rfl⟩ := List.mem_map.mp listed
      have found := Std.ExtTreeMap.mem_toList_iff_getElem?_eq_some.mp entry
      obtain ⟨own,unidle,_⟩ := following.unidle (following.stored _ _ id _ follows found)
      rw [(calm.data _).1,own] at idle
      exact unidle (calm.idle id idle)
    | none =>
      obtain ⟨calm,busy⟩ := @GetRobots_calm server loaded position 2 following.inv
      obtain ⟨inv,partition⟩ := @GetRobots_settled server loaded following.inv position 2 following.partition
      exact ⟨following.calm calm inv partition,busy⟩
  · simp only [if_neg here]
    exact ⟨following,fun robot listed => absurd listed List.not_mem_nil⟩

/-! ### GetUserFollowAllRobot -/

/-- All robots of a set are in use, so nobody is told to log in. -/
theorem CheckUserFollowAllRobots_used (uid : Int64) {robots : List RobotBasicInfo}
    (used : ∀ robot ∈ robots, MapGetInt server.pc.used_robot_infos_ (server.data robot).uid ≠ none) :
    CheckUserFollowAllRobots uid server robots = some server := by
  induction robots with
  | nil => rfl
  | cons robot robots ih =>
    obtain ⟨found,stored⟩ := Option.ne_none_iff_exists'.mp (used robot List.mem_cons_self)
    have first : CheckUserFollowAllRobot uid server robot = some server := by
      simp only [CheckUserFollowAllRobot,stored]
    rw [CheckUserFollowAllRobots,first]
    exact ih fun other listed => used other (List.mem_cons_of_mem _ listed)

theorem getUserFollowAllRobot_same (following : server.Following loaded) {platform_id uid : Int64}
    (outcome : call server (.getUserFollowAllRobot platform_id uid) = some next) : next = server := by
  obtain ⟨⟨_,map⟩,asked,rfl⟩ := Option.map_eq_some_iff.mp outcome
  unfold GetUserFollowAllRobot GetPlatformCache at asked
  split at asked
  · cases asked
    rfl
  · rename_i platform
    split at platform
    · cases platform
      split at asked
      · cases asked
        rfl
      · rename_i robotinfos follows
        rw [CheckUserFollowAllRobots_used] at asked
        · cases asked
          rfl
        · intro robot listed
          obtain ⟨⟨id,_⟩,entry,rfl⟩ := List.mem_map.mp listed
          have found := Std.ExtTreeMap.mem_toList_iff_getElem?_eq_some.mp entry
          have used := following.stored _ _ id _ follows found
          have member : id ∈ server.pc.used_robot_infos_ := Std.ExtTreeMap.mem_iff_isSome_getElem?.mpr (by rw [used]; rfl)
          rw [(following.unidle used).1,MapGetInt,following.used id member,used]
          exact Option.some_ne_none _
    · cases platform

/-! ### ClearRobot -/

theorem Following.robot (following : server.Following loaded) {id : Int64} {robot : RobotBasicInfo}
    (used : server.pc.used_robot_infos_[id]? = some robot) : server.pc.robot id = some robot := by
  obtain ⟨_,unidle,unoffered⟩ := following.unidle used
  rw [PlatformCache.robot,Std.ExtTreeMap.getElem?_eq_none unidle,Std.ExtTreeMap.getElem?_eq_none unoffered,used]
  rfl

theorem ClearRobot_data (platform_id : Int64) (robot : RobotBasicInfo) :
    (server.ClearRobot platform_id robot).data = server.data := by
  unfold ClearRobot
  split
  · rfl
  · simp only
    split <;> rfl

theorem clearRobot_follows (following : server.Following loaded) {platform_id robot_uid : Int64} {robot : RobotBasicInfo}
    (found : server.pc.robot robot_uid = some robot) :
    (server.Mindful (.clearRobot platform_id robot_uid) → server.ClearRobot platform_id robot = server) ∧
      (server.Reaches (server.ClearRobot platform_id robot) (.clearRobot platform_id robot_uid) ↔
        server.Mindful (.clearRobot platform_id robot_uid)) := by
  have still (mindful : server.Mindful (.clearRobot platform_id robot_uid)) : server.ClearRobot platform_id robot = server := by
    unfold ClearRobot GetPlatformCache
    by_cases here : platform_id = 10000
    · simp only [if_pos here,mindful here robot found,Nat.le_refl,if_true]
    · simp only [if_neg here]
  refine ⟨still,?_,?_⟩
  · intro reaches here other found'
    have cleared := (reaches here).2 other found'
    rw [ClearRobot_data] at cleared
    exact cleared
  · intro mindful here
    rw [still mindful]
    refine ⟨?_,mindful here⟩
    intro uid stores
    obtain ⟨robot,used,follows⟩ := (following.consistent.follow uid robot_uid).mp stores
    have nobody := mindful here robot (following.robot used)
    rw [Std.ExtTreeMap.eq_empty_iff_size_eq_zero.mpr nobody] at follows
    exact Std.ExtTreeMap.not_mem_empty follows

/-! ### RobotLoginSucess -/

/-- A robot is in use for one more user. -/
structure LoggedIn (server next : RobotServer) (robot_uid uid : Int64) (robot : RobotBasicInfo) : Prop where
  found : (MapGetInt server.pc.temp_robot_infos_ robot_uid).or (MapGetInt server.pc.used_robot_infos_ robot_uid) = some robot
  used : next.pc.used_robot_infos_ = MapAdd server.pc.used_robot_infos_ robot_uid robot
  follow : next.pc.user_follow_infos_ = AddUserFollowRobot server.pc.user_follow_infos_ uid (server.data robot).uid robot
  fresh : next.fresh = server.fresh
  self : (next.data robot).follow_map = (server.data robot).follow_map.insert uid uid
  other : ∀ other, other ≠ robot → next.data other = server.data other

theorem RobotLoginSucess_loggedIn {platform_id robot_uid uid now : Int64} {socket : Int32} {robot : RobotBasicInfo}
    (login : server.RobotLoginSucess platform_id robot_uid socket uid now = some (next,robot)) :
    server.LoggedIn next robot_uid uid robot := by
  obtain ⟨pc,platform,login⟩ := Option.bind_eq_some_iff.mp login
  obtain ⟨robot_info,found,login⟩ := Option.bind_eq_some_iff.mp login
  unfold GetPlatformCache at platform
  split at platform
  · cases platform
    cases login
    refine ⟨found,rfl,rfl,rfl,?_,?_⟩
    · simp only [setData_data,if_true]
    · intro other apart
      exact Function.update_of_ne apart ..
  · cases platform

section LoggedIn
variable {robot_uid uid : Int64} {robot : RobotBasicInfo} (login : server.LoggedIn next robot_uid uid robot)
  (following : server.Following loaded)
include login following

theorem LoggedIn.own : server.Owns loaded robot (narrow robot_uid) := by
  rcases Option.or_eq_some_iff.mp login.found with there | ⟨_,there⟩
  · exact following.inv.sound.temp _ robot there
  · have own := following.inv.sound.used _ robot there
    rwa [narrow_narrow] at own

theorem LoggedIn.stores (other robot_id : Int64) : next.Stores other robot_id ↔
    if other = uid then robot_id = narrow robot_uid ∨ server.Stores (narrow uid) robot_id else server.Stores other robot_id := by
  rw [Stores,login.follow,AddUserFollowRobot,MapAdd_get,(login.own following).2.1]
  split
  · rw [Option.getD_some]
    exact MapAdd_mem ..
  · rfl

/-- Another robot in use has another handle. -/
theorem LoggedIn.follows_other {robot_id : Int64} (apart : robot_id ≠ robot_uid) (fits : narrow robot_uid = robot_uid)
    (other : Int64) : next.Follows robot_id other ↔ server.Follows robot_id other := by
  unfold Follows
  rw [login.used,MapAdd_get,if_neg apart]
  refine exists_congr fun handle => and_congr_right fun used => ?_
  rw [login.other handle]
  rintro rfl
  have own := (login.own following).2.1
  rw [(following.unidle used).1,fits] at own
  exact apart own

theorem LoggedIn.follows_self (fits : narrow robot_uid = robot_uid) (other : Int64) :
    next.Follows robot_uid other ↔ other = uid ∨ server.Follows robot_uid other := by
  have before : server.Follows robot_uid other ↔ other ∈ (server.data robot).follow_map := by
    have found := login.found
    simp only [MapGetInt,fits] at found
    rcases Option.or_eq_some_iff.mp found with there | ⟨_,there⟩
    · -- A robot that is offered follows nobody.
      have member : robot_uid ∈ server.pc.temp_robot_infos_ :=
        Std.ExtTreeMap.mem_iff_isSome_getElem?.mpr (by rw [there]; rfl)
      have own := login.own following
      rw [fits] at own
      constructor
      · rintro ⟨handle,used,_⟩
        exact absurd member (following.unidle used).2.2
      · intro follows
        have some : (server.data robot).follow_map.size ≠ 0 := by
          intro empty
          rw [Std.ExtTreeMap.eq_empty_iff_size_eq_zero.mpr empty] at follows
          exact Std.ExtTreeMap.not_mem_empty follows
        obtain ⟨id,used⟩ := following.free robot own.1 some
        obtain ⟨own',_,unoffered⟩ := following.unidle used
        rw [own.2.1] at own'
        rw [← own'] at unoffered
        exact absurd member unoffered
    · constructor
      · rintro ⟨handle,used,follows⟩
        rw [there] at used
        cases used
        exact follows
      · intro follows
        exact ⟨robot,there,follows⟩
  rw [before,Follows,login.used,MapAdd_get,if_pos rfl]
  have inserted := MapAdd_mem (server.data robot).follow_map uid other uid
  constructor
  · rintro ⟨handle,same,follows⟩
    cases same
    rw [login.self] at follows
    exact inserted.mp follows
  · intro follows
    refine ⟨robot,rfl,?_⟩
    rw [login.self]
    exact inserted.mpr follows

/-- After a mindful login the sets agree with the robots. -/
theorem LoggedIn.consistent (fits : narrow robot_uid = robot_uid)
    (same : ∀ other, other ≠ robot_uid → (server.Stores (narrow uid) other ↔ server.Stores uid other)) :
    next.Consistent := by
  have consistent := following.consistent
  refine ⟨?_,?_⟩
  · intro other robot_id
    rw [login.stores following,fits]
    by_cases self : robot_id = robot_uid
    · subst self
      rw [login.follows_self following fits]
      split
      · rename_i equal
        exact iff_of_true (.inl rfl) (.inl equal)
      · rename_i apart
        rw [consistent.follow,or_iff_right apart]
    · rw [login.follows_other following self fits,← consistent.follow]
      split
      · rename_i equal
        rw [equal,or_iff_right self,same robot_id self]
      · rfl
  · intro other robotinfos found
    rw [login.follow] at found
    rcases MapAdd_found found with ⟨_,rfl⟩ | before
    · intro empty
      have member : (server.data robot).uid ∈ MapAdd ((MapGetInt server.pc.user_follow_infos_ uid).getD ∅)
          (server.data robot).uid robot := (MapAdd_mem ..).mpr (.inl rfl)
      rw [MapAdd,Std.ExtTreeMap.eq_empty_iff_size_eq_zero.mpr empty] at member
      exact Std.ExtTreeMap.not_mem_empty member
    · exact consistent.filled other robotinfos before

theorem LoggedIn.mindful (after : next.Consistent) : narrow robot_uid = robot_uid ∧
    ∀ other, other ≠ robot_uid → (server.Stores (narrow uid) other ↔ server.Stores uid other) := by
  have consistent := following.consistent
  have fits : narrow robot_uid = robot_uid := by
    by_contra wide
    have follows : next.Follows robot_uid uid := by
      refine ⟨robot,?_,?_⟩
      · rw [login.used,MapAdd_get,if_pos rfl]
      · rw [login.self]
        exact Std.ExtTreeMap.mem_insert_self
    have stores := (after.follow uid robot_uid).mpr follows
    rw [login.stores following,if_pos rfl] at stores
    rcases stores with equal | before
    · exact wide equal.symm
    · obtain ⟨handle,used,_⟩ := (consistent.follow _ _).mp before
      exact wide (following.used robot_uid (Std.ExtTreeMap.mem_iff_isSome_getElem?.mpr (by rw [used]; rfl)))
  refine ⟨fits,?_⟩
  intro other apart
  have here := after.follow uid other
  rw [login.stores following,if_pos rfl,login.follows_other following apart fits,← consistent.follow,fits,
    or_iff_right apart] at here
  exact here

theorem LoggedIn.kept (inv : next.Inv loaded) (partition : next.Partition loaded)
    (fits : narrow robot_uid = robot_uid)
    (same : ∀ other, other ≠ robot_uid → (server.Stores (narrow uid) other ↔ server.Stores uid other)) :
    next.Following loaded := by
  have used (id : Int64) (handle : RobotBasicInfo) (before : server.pc.used_robot_infos_[id]? = some handle) :
      next.pc.used_robot_infos_[id]? = some handle := by
    rw [login.used,MapAdd_get]
    split
    · rename_i equal
      have found := login.found
      obtain ⟨_,_,unoffered⟩ := following.unidle before
      rw [MapGetInt,MapGetInt,fits,← equal,Std.ExtTreeMap.getElem?_eq_none unoffered,Option.none_or,before] at found
      exact found.symm
    · exact before
  refine ⟨inv,partition,login.consistent following fits same,?_,?_,?_⟩
  · intro id member
    rw [login.used] at member
    rcases (MapAdd_mem ..).mp member with rfl | before
    · exact fits
    · exact following.used id before
  · intro other robotinfos id handle there found
    rw [login.follow] at there
    rcases MapAdd_found there with ⟨_,rfl⟩ | before
    · rcases MapAdd_found found with ⟨rfl,rfl⟩ | before
      · rw [(login.own following).2.1,fits,login.used,MapAdd_get,if_pos rfl]
      · cases set : MapGetInt server.pc.user_follow_infos_ uid with
        | none =>
          rw [set,Option.getD_none,Std.ExtTreeMap.getElem?_empty] at before
          cases before
        | some robotinfos =>
          rw [set,Option.getD_some] at before
          exact used id handle (following.stored _ robotinfos id handle set before)
    · exact used id handle (following.stored other robotinfos id handle before found)
  · intro handle old follows
    by_cases self : handle = robot
    · refine ⟨robot_uid,?_⟩
      rw [login.used,MapAdd_get,if_pos rfl,self]
    · rw [login.other handle self] at follows
      rw [login.fresh] at old
      obtain ⟨id,before⟩ := following.free handle old follows
      exact ⟨id,used id handle before⟩

end LoggedIn

theorem robotLoginSucess_follows (following : server.Following loaded) {platform_id robot_uid uid now : Int64}
    {socket : Int32} (outcome : call server (.robotLoginSucess platform_id robot_uid socket uid now) = some next) :
    (server.Mindful (.robotLoginSucess platform_id robot_uid socket uid now) → next.Following loaded) ∧
      (next.Consistent → server.Mindful (.robotLoginSucess platform_id robot_uid socket uid now)) := by
  cases login : server.RobotLoginSucess platform_id robot_uid socket uid now with
  | some result =>
    obtain ⟨final,robot⟩ := result
    rw [call,login] at outcome
    cases outcome
    have loggedIn := RobotLoginSucess_loggedIn login
    obtain ⟨platform,busy,inv,_,pool⟩ := RobotLoginSucess_login following.inv login
    refine ⟨?_,fun after _ _ => loggedIn.mindful following after⟩
    intro mindful
    obtain ⟨fits,same⟩ := mindful platform busy
    refine loggedIn.kept following inv ?_ fits same
    rw [Partition,pool]
    refine (Pool.Partition.login_iff following.partition).mpr ?_
    intro member idle
    -- One who logs in is offered or in use.
    rw [fits] at busy
    rcases following.partition robot_uid member with place | place | place
    · rcases busy with there | there
      · exact place.2.1 there
      · exact place.2.2 there
    · exact place.1 idle
    · exact place.1 idle
  | none =>
    rw [call,login] at outcome
    cases outcome
    refine ⟨fun _ => following,?_⟩
    intro _ here busy
    obtain ⟨robot,found⟩ := Option.isSome_iff_exists.mp (found_iff.mpr busy)
    rw [RobotLoginSucess,GetPlatformCache,if_pos here] at login
    simp [found] at login

theorem step_follows (following : server.Following loaded) {event : Call} (outcome : call server event = some next) :
    (server.Mindful event → next.Following loaded) ∧
      (next.Consistent ∧ server.Reaches next event ↔ server.Mindful event) := by
  cases event with
  | getIdleRobot platform_id uid position now =>
    cases outcome
    obtain ⟨following',reaches⟩ := getIdleRobot_follows following platform_id uid position now
    exact ⟨fun _ => following',iff_of_true ⟨following'.consistent,reaches⟩ trivial⟩
  | robotLoginSucess platform_id robot_uid socket uid now =>
    obtain ⟨kept,needed⟩ := robotLoginSucess_follows following outcome
    exact ⟨kept,fun after => needed after.1,fun mindful => ⟨(kept mindful).consistent,trivial⟩⟩
  | getUserFollowAllRobot platform_id uid =>
    rw [getUserFollowAllRobot_same following outcome]
    exact ⟨fun _ => following,iff_of_true ⟨following.consistent,trivial⟩ trivial⟩
  | clearRobot platform_id robot_uid =>
    obtain ⟨robot,found,rfl⟩ := Option.map_eq_some_iff.mp outcome
    obtain ⟨still,reaches⟩ := @clearRobot_follows _ _ following platform_id _ _ found
    refine ⟨?_,fun after => reaches.mp after.2,fun mindful => ⟨?_,reaches.mpr mindful⟩⟩
    · intro mindful
      rw [still mindful]
      exact following
    · rw [still mindful]
      exact following.consistent

end RobotServer

/-! ### Runs -/

/-- In every state of the run the follow sets are consistent, and each call reaches what it is to reach. -/
def Consistently (server : RobotServer) : List Call → Prop
  | [] => server.Consistent
  | event::events => server.Consistent ∧
    ∀ next, call server event = some next → server.Reaches next event ∧ Consistently next events

theorem Consistently.now {server : RobotServer} {events : List Call} (consistently : Consistently server events) :
    server.Consistent := by
  cases events with
  | nil => exact consistently
  | cons event events => exact consistently.1

theorem consistently_from {loaded : Set Int64} {server : RobotServer} (following : server.Following loaded)
    {events : List Call} : Consistently server events ↔ Along call RobotServer.Mindful server events := by
  induction events generalizing server with
  | nil => exact iff_of_true following.consistent trivial
  | cons event events ih =>
    constructor
    · rintro ⟨_,after⟩
      have mindful (next : RobotServer) (outcome : call server event = some next) : server.Mindful event :=
        (RobotServer.step_follows following outcome).2.mp ⟨(after next outcome).2.now,(after next outcome).1⟩
      refine ⟨?_,?_⟩
      · cases event with
        | robotLoginSucess => exact mindful _ rfl
        | clearRobot platform_id robot_uid =>
          intro here robot found
          have outcome : call server (.clearRobot platform_id robot_uid) = some (server.ClearRobot platform_id robot) := by
            rw [call,found]
            rfl
          exact mindful _ outcome here robot found
        | _ => exact trivial
      · intro next outcome
        exact (ih ((RobotServer.step_follows following outcome).1 (mindful next outcome))).mp (after next outcome).2
    · rintro ⟨mindful,rest⟩
      refine ⟨following.consistent,?_⟩
      intro next outcome
      obtain ⟨kept,reaches⟩ := RobotServer.step_follows following outcome
      exact ⟨(reaches.mpr mindful).2,(ih (kept mindful)).mpr (rest next outcome)⟩

/-! ### The start -/

/-- No robot has been used yet. -/
structure RobotServer.Fresh (server : RobotServer) : Prop where
  used : server.pc.used_robot_infos_ = ∅
  follow : server.pc.user_follow_infos_ = ∅
  data : ∀ robot, robot < server.fresh → (server.data robot).follow_map = ∅

theorem newData_fresh {server : RobotServer} (fresh : server.Fresh) (uid now : Int64) :
    (server.newData (.new uid now)).1.Fresh := by
  refine ⟨fresh.used,fresh.follow,?_⟩
  intro robot bound
  rw [RobotServer.newData,RobotServer.setData_data]
  split
  · rfl
  · rename_i apart
    exact fresh.data robot (Nat.lt_of_le_of_ne (Nat.le_of_lt_succ bound) apart)

theorem loadRobots_fresh (now : Int64) (uids : List Int64) {server : RobotServer} (fresh : server.Fresh) :
    (uids.foldl (RobotServer.loadRobot now) server).Fresh := by
  induction uids generalizing server with
  | nil => exact fresh
  | cons uid uids ih =>
    have fresh' := newData_fresh fresh uid now
    exact ih ⟨fresh'.used,fresh'.follow,fresh'.data⟩

theorem loadAssistants_fresh (now : Int64) (assistants : List Int64) {server : RobotServer} (fresh : server.Fresh) :
    (assistants.foldl (RobotServer.loadAssistant now) server).Fresh := by
  induction assistants generalizing server with
  | nil => exact fresh
  | cons uid assistants ih =>
    have fresh' := newData_fresh fresh uid now
    exact ih ⟨fresh'.used,fresh'.follow,fresh'.data⟩

theorem RobotServer.Fresh.following {server : RobotServer} (fresh : server.Fresh) {loaded : Set Int64}
    (inv : server.Inv loaded) (partition : server.Partition loaded) : server.Following loaded := by
  refine ⟨inv,partition,⟨?_,?_⟩,?_,?_,?_⟩
  · intro uid robot_uid
    rw [RobotServer.Stores,RobotServer.Follows,fresh.follow,fresh.used,Std.ExtTreeMap.getElem?_empty,
      Std.ExtTreeMap.getElem?_empty]
    refine iff_of_false Std.ExtTreeMap.not_mem_empty ?_
    rintro ⟨robot,found,_⟩
    cases found
  · intro uid robotinfos found
    rw [fresh.follow,Std.ExtTreeMap.getElem?_empty] at found
    cases found
  · intro id member
    rw [fresh.used] at member
    exact absurd member Std.ExtTreeMap.not_mem_empty
  · intro uid robotinfos id robot found
    rw [fresh.follow,Std.ExtTreeMap.getElem?_empty] at found
    cases found
  · intro robot old follows
    rw [fresh.data robot old] at follows
    exact absurd Std.ExtTreeMap.size_empty follows

theorem start_following (data : RobotBasicInfo → Data) (now : Int64) (uids assistants : List Int64) :
    (RobotServer.start data now uids assistants).Following {id | id ∈ uids} := by
  obtain ⟨inv,partition⟩ := start_settled data now uids assistants
  have empty : RobotServer.Fresh ⟨.empty,fun _ => none,data,0⟩ := by
    refine ⟨rfl,rfl,?_⟩
    intro robot bound
    exact absurd bound (Nat.not_lt_zero robot)
  exact (loadAssistants_fresh now assistants (loadRobots_fresh now uids empty)).following inv partition

/-- From the start, the follow sets are right and each call does its part exactly in the mindful runs. -/
theorem consistently_iff (data : RobotBasicInfo → Data) (now : Int64) (uids assistants : List Int64) (events : List Call) :
    Consistently (.start data now uids assistants) events ↔
      Along call RobotServer.Mindful (.start data now uids assistants) events :=
  consistently_from (start_following data now uids assistants)

/-- Robots 5 and 6 are offered to user 7 and log in, and robot 5 is cleared. -/
def pairEvents : List Call :=
  [.getIdleRobot 10000 7 (fun _ => ⟨0,0⟩) 0,.robotLoginSucess 10000 5 3 7 0,.robotLoginSucess 10000 6 4 7 0,
    .clearRobot 10000 5]

theorem pair_inconsistent : ¬Consistently (.start (fun _ => .new 0 0) 0 [5,6] []) pairEvents := by
  rintro ⟨_,after⟩
  obtain ⟨_,_,after⟩ := after _ rfl
  obtain ⟨_,_,after⟩ := after _ rfl
  obtain ⟨_,_,after⟩ := after _ rfl
  obtain ⟨reaches,_⟩ := after _ rfl
  exact (reaches rfl).1 7 rfl

end Migfm.Robot
