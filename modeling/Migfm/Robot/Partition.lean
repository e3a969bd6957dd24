import Migfm.Library.Runs
import Migfm.Robot.CacheManager

/-! Each loaded robot is idle, offered to a user or in use, and never two of
these. A run keeps this exactly as long as no robot is cleared while it is offered
and no idle robot is logged in by a narrowed id. -/
namespace Migfm.Robot
open Basic Library.Runs

/-! ### The pool -/

section Pool
variable {Id : Type*}

/-- The robots in each of the three tables. -/
@[ext] structure Pool (Id : Type*) where
  idle : Set Id
  temp : Set Id
  used : Set Id

namespace Pool

def Partition (pool : Pool Id) (loaded : Set Id) : Prop :=
  ∀ id ∈ loaded, (id ∈ pool.idle ∧ id ∉ pool.temp ∧ id ∉ pool.used) ∨
    (id ∉ pool.idle ∧ id ∈ pool.temp ∧ id ∉ pool.used) ∨ (id ∉ pool.idle ∧ id ∉ pool.temp ∧ id ∈ pool.used)

def offer (pool : Pool Id) (id : Id) : Pool Id := {pool with idle := pool.idle \ {id}, temp := insert id pool.temp}

def login (pool : Pool Id) (id : Id) : Pool Id := {pool with temp := pool.temp \ {id}, used := insert id pool.used}

def clear (pool : Pool Id) (id : Id) : Pool Id := {pool with used := pool.used \ {id}, idle := insert id pool.idle}

variable {pool : Pool Id} {loaded : Set Id} (partition : pool.Partition loaded)
include partition

theorem Partition.offer {id : Id} (unused : id ∉ pool.used) : (pool.offer id).Partition loaded := by
  intro other member
  have place := partition other member
  by_cases same : other = id
  · subst same
    simp [Pool.offer,unused]
  · simpa [Pool.offer,same] using place

theorem Partition.unused {id : Id} (member : id ∈ loaded) (idle : id ∈ pool.idle) : id ∉ pool.used := by
  rcases partition id member with place | place | place
  · exact place.2.2
  · exact absurd idle place.1
  · exact absurd idle place.1

theorem Partition.login_iff {id : Id} :
    (pool.login id).Partition loaded ↔ (id ∈ loaded → id ∉ pool.idle) := by
  constructor
  · intro after member
    have place := after id member
    simp [Pool.login] at place
    exact place
  · intro busy other member
    have place := partition other member
    by_cases same : other = id
    · subst same
      simp [Pool.login,busy member]
    · simpa [Pool.login,same] using place

theorem Partition.clear_iff {id : Id} :
    (pool.clear id).Partition loaded ↔ (id ∈ loaded → id ∉ pool.temp) := by
  constructor
  · intro after member
    have place := after id member
    simp [Pool.clear] at place
    exact place
  · intro unoffered other member
    have place := partition other member
    by_cases same : other = id
    · subst same
      simp [Pool.clear,unoffered member]
    · simpa [Pool.clear,same] using place

end Pool

end Pool

/-! ### What is stored -/

/-- The robots under their ids; one in use may be stored under an id that narrows to its own. -/
structure PlatformCache.Sound (pc : PlatformCache) (owns : RobotBasicInfo → Int64 → Prop) : Prop where
  idle : ∀ id robot, pc.idle_robot_infos_[id]? = some robot → owns robot id
  temp : ∀ id robot, pc.temp_robot_infos_[id]? = some robot → owns robot id
  used : ∀ id robot, pc.used_robot_infos_[id]? = some robot → owns robot (narrow id)
  follow : ∀ (uid : Int64) (robotinfos : RobotInfosMap) (id : Int64) robot,
    pc.user_follow_infos_[uid]? = some robotinfos → robotinfos[id]? = some robot → narrow id = id ∧ owns robot id

def PlatformCache.pool (pc : PlatformCache) : Pool Int64 where
  idle := {id | id ∈ pc.idle_robot_infos_}
  temp := {id | id ∈ pc.temp_robot_infos_}
  used := {id | id ∈ pc.used_robot_infos_}

theorem pool_offer (pc : PlatformCache) (uid : Int64) (robot : RobotBasicInfo) :
    PlatformCache.pool {pc with
      temp_robot_infos_ := MapAdd pc.temp_robot_infos_ uid robot
      idle_robot_infos_ := (MapDel pc.idle_robot_infos_ uid).1} = pc.pool.offer uid := by
  refine Pool.ext ?_ ?_ rfl
  · ext id
    exact (MapDel_mem ..).trans and_comm
  · ext id
    exact MapAdd_mem ..

theorem pool_login (pc : PlatformCache) (uid : Int64) (robot : RobotBasicInfo) (user_follow_infos_ : UserFollowMap) :
    PlatformCache.pool {pc with
      temp_robot_infos_ := (MapDel pc.temp_robot_infos_ uid).1
      used_robot_infos_ := MapAdd pc.used_robot_infos_ uid robot
      user_follow_infos_} = pc.pool.login uid := by
  refine Pool.ext rfl ?_ ?_
  · ext id
    exact (MapDel_mem ..).trans and_comm
  · ext id
    exact MapAdd_mem ..

theorem pool_clear (pc : PlatformCache) (uid : Int64) (robot : RobotBasicInfo) :
    PlatformCache.pool {pc with
      used_robot_infos_ := (MapDel pc.used_robot_infos_ uid).1
      idle_robot_infos_ := MapAdd pc.idle_robot_infos_ uid robot} = pc.pool.clear uid := by
  refine Pool.ext ?_ rfl ?_
  · ext id
    exact MapAdd_mem ..
  · ext id
    exact (MapDel_mem ..).trans and_comm

theorem pool_clearFollow (robot_uid : Int64) (uids : List Int64) (pc : PlatformCache) :
    (uids.foldl (RobotServer.clearFollow robot_uid) pc).pool = pc.pool := by
  induction uids generalizing pc with
  | nil => rfl
  | cons uid uids ih =>
    rw [List.foldl_cons,ih]
    simp only [RobotServer.clearFollow]
    split
    · rfl
    · split <;> rfl

/-- The handle is that of this loaded robot. -/
def RobotServer.Owns (server : RobotServer) (loaded : Set Int64) (robot : RobotBasicInfo) (id : Int64) : Prop :=
  robot < server.fresh ∧ (server.data robot).uid = id ∧ id ∈ loaded

structure RobotServer.Inv (server : RobotServer) (loaded : Set Int64) : Prop where
  sound : server.pc.Sound (server.Owns loaded)
  socket : ∀ socket robot, server.socket_robot_map_ socket = some robot → robot < server.fresh
  follow : ∀ robot, robot < server.fresh → (server.data robot).follow_map.size ≠ 0 → (server.data robot).uid ∈ loaded

section Sound
variable {pc : PlatformCache} {owns : RobotBasicInfo → Int64 → Prop} (sound : pc.Sound owns)
include sound

theorem PlatformCache.Sound.mono {owns' : RobotBasicInfo → Int64 → Prop} (grows : ∀ robot id, owns robot id → owns' robot id) :
    pc.Sound owns' where
  idle id robot found := grows robot id (sound.idle id robot found)
  temp id robot found := grows robot id (sound.temp id robot found)
  used id robot found := grows robot _ (sound.used id robot found)
  follow uid robotinfos id robot here found :=
    ⟨(sound.follow uid robotinfos id robot here found).1,grows robot id (sound.follow uid robotinfos id robot here found).2⟩

theorem PlatformCache.Sound.offer {uid : Int64} {robot : RobotBasicInfo} (own : owns robot uid) :
    PlatformCache.Sound {pc with
      temp_robot_infos_ := MapAdd pc.temp_robot_infos_ uid robot
      idle_robot_infos_ := (MapDel pc.idle_robot_infos_ uid).1} owns where
  idle id other found := sound.idle id other (MapDel_found found)
  temp id other found := by
    rcases MapAdd_found found with ⟨rfl,rfl⟩ | before
    · exact own
    · exact sound.temp id other before
  used := sound.used
  follow := sound.follow

theorem PlatformCache.Sound.login {uid robot_uid : Int64} {robot : RobotBasicInfo} (own : owns robot (narrow robot_uid)) :
    PlatformCache.Sound {pc with
      temp_robot_infos_ := (MapDel pc.temp_robot_infos_ robot_uid).1
      used_robot_infos_ := MapAdd pc.used_robot_infos_ robot_uid robot
      user_follow_infos_ := RobotServer.AddUserFollowRobot pc.user_follow_infos_ uid (narrow robot_uid) robot} owns where
  idle := sound.idle
  temp id other found := sound.temp id other (MapDel_found found)
  used id other found := by
    rcases MapAdd_found found with ⟨rfl,rfl⟩ | before
    · exact own
    · exact sound.used id other before
  follow uid robotinfos id other here found := by
    rcases MapAdd_found here with ⟨rfl,rfl⟩ | before
    · rcases MapAdd_found found with ⟨rfl,rfl⟩ | before
      · exact ⟨narrow_narrow robot_uid,own⟩
      · cases stored : MapGetInt pc.user_follow_infos_ uid with
        | none =>
          rw [stored,Option.getD_none,Std.ExtTreeMap.getElem?_empty] at before
          cases before
        | some robotinfos =>
          rw [stored,Option.getD_some] at before
          exact sound.follow _ robotinfos id other stored before
    · exact sound.follow uid robotinfos id other before found

theorem PlatformCache.Sound.clear {uid : Int64} {robot : RobotBasicInfo} (own : owns robot uid) :
    PlatformCache.Sound {pc with
      used_robot_infos_ := (MapDel pc.used_robot_infos_ uid).1
      idle_robot_infos_ := MapAdd pc.idle_robot_infos_ uid robot} owns where
  idle id other found := by
    rcases MapAdd_found found with ⟨rfl,rfl⟩ | before
    · exact own
    · exact sound.idle id other before
  temp := sound.temp
  used id other found := sound.used id other (MapDel_found found)
  follow := sound.follow

theorem PlatformCache.Sound.clearFollow (robot_uid uid : Int64) : (RobotServer.clearFollow robot_uid pc uid).Sound owns := by
  simp only [RobotServer.clearFollow]
  split
  · exact ⟨sound.idle,sound.temp,sound.used,sound.follow⟩
  · split
    · refine ⟨sound.idle,sound.temp,sound.used,?_⟩
      intro other robotinfos id robot here found
      exact sound.follow other robotinfos id robot (MapDel_found here) found
    · exact ⟨sound.idle,sound.temp,sound.used,sound.follow⟩

theorem PlatformCache.Sound.clearFollows (robot_uid : Int64) (uids : List Int64) :
    (uids.foldl (RobotServer.clearFollow robot_uid) pc).Sound owns := by
  induction uids generalizing pc with
  | nil => exact sound
  | cons uid uids ih => exact ih (sound.clearFollow robot_uid uid)

end Sound

/-! ### The handlers -/

def RobotServer.Partition (server : RobotServer) (loaded : Set Int64) : Prop := server.pc.pool.Partition loaded

/-- The condition on a step. A robot that logs in by an id that narrows to one
offered or in use is not idle itself; one that is cleared is not offered. -/
def Careful (server : RobotServer) : Event → Prop
  | .robotLogin _ platform_id _ robot_id _ => platform_id = 10000 →
    narrow robot_id ∈ server.pc.temp_robot_infos_ ∨ narrow robot_id ∈ server.pc.used_robot_infos_ →
      robot_id ∉ server.pc.idle_robot_infos_
  | .close socket => ∀ robot, server.GetRobotInfo socket = some robot → (server.data robot).follow_map.size ≠ 0 →
    (server.data robot).uid ∉ server.pc.temp_robot_infos_
  | _ => True

section Handlers
variable {server : RobotServer} {loaded : Set Int64} (inv : server.Inv loaded)
include inv

theorem RobotServer.Inv.withPlatform {pc : PlatformCache} (sound : pc.Sound (server.Owns loaded)) :
    RobotServer.Inv {server with pc} loaded :=
  ⟨sound,inv.socket,inv.follow⟩

theorem RobotServer.Inv.idle_loaded {id : Int64} (idle : id ∈ server.pc.idle_robot_infos_) : id ∈ loaded := by
  obtain ⟨robot,found⟩ := Option.isSome_iff_exists.mp (Std.ExtTreeMap.mem_iff_isSome_getElem?.mp idle)
  exact (inv.sound.idle id robot found).2.2

theorem RobotServer.Inv.setData {robot : RobotBasicInfo} {data : Data} (same : data.uid = (server.data robot).uid)
    (follow : robot < server.fresh → data.follow_map.size ≠ 0 → data.uid ∈ loaded) :
    (server.setData robot data).Inv loaded := by
  refine ⟨inv.sound.mono ?_,inv.socket,?_⟩
  · rintro other id ⟨old,own,member⟩
    refine ⟨old,?_,member⟩
    rw [setData_data]
    split
    · rename_i equal
      rw [same,← equal,own]
    · exact own
  · intro other old
    rw [setData_data]
    split
    · rename_i equal
      exact follow (equal ▸ old)
    · exact inv.follow other old

theorem RobotServer.Inv.newData (uid now : Int64) : (server.newData (.new uid now)).1.Inv loaded := by
  have kept {robot : RobotBasicInfo} (old : robot < server.fresh) :
      (server.newData (.new uid now)).1.data robot = server.data robot := Function.update_of_ne (Nat.ne_of_lt old) ..
  refine ⟨inv.sound.mono ?_,?_,?_⟩
  · rintro robot id ⟨old,own,member⟩
    refine ⟨Nat.lt_succ_of_lt old,?_,member⟩
    rw [kept old]
    exact own
  · intro socket robot found
    exact Nat.lt_succ_of_lt (inv.socket socket robot found)
  · intro robot bound
    rcases Nat.lt_succ_iff_lt_or_eq.mp bound with old | rfl
    · rw [kept old]
      exact inv.follow robot old
    · intro follows
      simp [RobotServer.newData,setData_data,Data.new] at follows

theorem RobotServer.Inv.setRobotInfo (socket : Int32) {robot : RobotBasicInfo} (old : robot < server.fresh) :
    (server.SetRobotInfo socket robot).Inv loaded := by
  refine ⟨inv.sound,?_,inv.follow⟩
  intro other stored found
  simp only [RobotServer.SetRobotInfo,Function.update_apply] at found
  split at found
  · cases found
    exact old
  · exact inv.socket other stored found

/-! A user logs in. -/

theorem GetRobot_offers {position : Position} {next : RobotServer} {robot : RobotBasicInfo}
    (taken : server.GetRobot position = some (next,robot)) :
    next.Inv loaded ∧ ∃ uid ∈ loaded, uid ∈ server.pc.pool.idle ∧ next.pc.pool = server.pc.pool.offer uid := by
  unfold RobotServer.GetRobot at taken
  cases first : server.pc.idle_robot_infos_.toList.head? with
  | none =>
    rw [first] at taken
    cases taken
  | some entry =>
    obtain ⟨uid,stored⟩ := entry
    rw [first] at taken
    cases taken
    have found : server.pc.idle_robot_infos_[uid]? = some robot :=
      Std.ExtTreeMap.mem_toList_iff_getElem?_eq_some.mp (List.mem_of_head? first)
    have own := inv.sound.idle uid robot found
    have moved : (server.setData robot {server.data robot with position}).Inv loaded :=
      inv.setData rfl fun old => inv.follow robot old
    refine ⟨moved.withPlatform (moved.sound.offer (moved.sound.idle uid robot found)),uid,own.2.2,?_,?_⟩
    · exact Std.ExtTreeMap.mem_iff_isSome_getElem?.mpr (by rw [found]; rfl)
    · exact pool_offer server.pc uid robot

theorem GetRobots_settled {position : Nat → Position} {i : Nat} (partition : server.Partition loaded) :
    (RobotServer.GetRobots position i server).1.Inv loaded ∧
      (RobotServer.GetRobots position i server).1.Partition loaded := by
  induction i generalizing server with
  | zero => exact ⟨inv,partition⟩
  | succ i ih =>
    unfold RobotServer.GetRobots
    cases taken : server.GetRobot (position i) with
    | none => exact ⟨inv,partition⟩
    | some outcome =>
      obtain ⟨next,robot⟩ := outcome
      obtain ⟨inv',uid,member,idle,offered⟩ := GetRobot_offers inv taken
      have partition' : next.Partition loaded := by
        rw [RobotServer.Partition,offered]
        exact Pool.Partition.offer partition (Pool.Partition.unused partition member idle)
      exact ih inv' partition'

theorem moveRobots_settled {position : Nat → Position} {now : Int64} (partition : server.Partition loaded)
    (robots : List RobotBasicInfo) :
    (RobotServer.moveRobots position now server robots).Inv loaded ∧
      (RobotServer.moveRobots position now server robots).Partition loaded := by
  induction robots generalizing server with
  | nil => exact ⟨inv,partition⟩
  | cons robot robots ih =>
    have moved : (server.setData robot {server.data robot with
        position := position robots.length, follower_user_last_time := now}).Inv loaded :=
      inv.setData rfl fun old => inv.follow robot old
    exact ih moved partition

theorem userLogin_settled {platform_id uid now : Int64} {position : Nat → Position}
    (partition : server.Partition loaded) :
    (server.OnUserLogin platform_id uid position now).Inv loaded ∧
      (server.OnUserLogin platform_id uid position now).Partition loaded := by
  have settled : (server.GetIdleRobot platform_id uid position now).1.Inv loaded ∧
      (server.GetIdleRobot platform_id uid position now).1.Partition loaded := by
    unfold RobotServer.GetIdleRobot
    split
    · exact ⟨inv,partition⟩
    · split
      · exact moveRobots_settled inv partition _
      · exact GetRobots_settled inv partition
  simp only [RobotServer.OnUserLogin]
  split
  · exact settled
  · unfold RobotServer.SetUserInfoLogin RobotServer.GetPlatformCache
    split
    · exact settled
    · rename_i found
      split at found
      · cases found
        have sound := settled.1.sound
        exact ⟨settled.1.withPlatform ⟨sound.idle,sound.temp,sound.used,sound.follow⟩,settled.2⟩
      · cases found

/-! A robot logs in. -/

omit inv in
theorem found_iff {robot_id : Int64} :
    ((MapGetInt server.pc.temp_robot_infos_ robot_id).or (MapGetInt server.pc.used_robot_infos_ robot_id)).isSome ↔
      narrow robot_id ∈ server.pc.temp_robot_infos_ ∨ narrow robot_id ∈ server.pc.used_robot_infos_ := by
  rw [Option.isSome_or,Bool.or_eq_true,Std.ExtTreeMap.mem_iff_isSome_getElem?,Std.ExtTreeMap.mem_iff_isSome_getElem?]
  rfl

theorem RobotLoginSucess_login {platform_id robot_id uid now : Int64} {socket : Int32} {next : RobotServer}
    {robot : RobotBasicInfo} (login : server.RobotLoginSucess platform_id robot_id socket uid now = some (next,robot)) :
    platform_id = 10000 ∧
      (narrow robot_id ∈ server.pc.temp_robot_infos_ ∨ narrow robot_id ∈ server.pc.used_robot_infos_) ∧
      next.Inv loaded ∧ robot < next.fresh ∧ next.pc.pool = server.pc.pool.login robot_id := by
  obtain ⟨pc,platform,login⟩ := Option.bind_eq_some_iff.mp login
  obtain ⟨robot_info,found,login⟩ := Option.bind_eq_some_iff.mp login
  unfold RobotServer.GetPlatformCache at platform
  split at platform
  · rename_i here
    cases platform
    have own : server.Owns loaded robot_info (narrow robot_id) := by
      rcases Option.or_eq_some_iff.mp found with there | ⟨_,there⟩
      · exact inv.sound.temp _ robot_info there
      · have own := inv.sound.used _ robot_info there
        rw [narrow_narrow] at own
        exact own
    cases login
    refine ⟨here,found_iff.mp (by rw [found]; rfl),?_,own.1,pool_login ..⟩
    have moved : (server.setData robot {server.data robot with
        socket, follow_map := (server.data robot).follow_map.insert uid uid, recv_last_time := now,
        follower_user_last_time := now}).Inv loaded := by
      refine inv.setData rfl ?_
      intro _ _
      exact own.2.1 ▸ own.2.2
    refine moved.withPlatform ?_
    have own' := own.2.1
    rw [own']
    refine moved.sound.login ⟨own.1,?_,own.2.2⟩
    rw [RobotServer.setData_data,if_pos rfl]
    exact own'
  · cases platform

theorem robotLogin_settled {socket : Int32} {platform_id uid robot_id now : Int64}
    (partition : server.Partition loaded) :
    (server.OnRobotLogin socket platform_id uid robot_id now).Inv loaded ∧
      ((server.OnRobotLogin socket platform_id uid robot_id now).Partition loaded ↔
        Careful server (.robotLogin socket platform_id uid robot_id now)) := by
  unfold RobotServer.OnRobotLogin
  cases login : server.RobotLoginSucess platform_id robot_id socket uid now with
  | some outcome =>
    obtain ⟨next,robot⟩ := outcome
    obtain ⟨platform,busy,inv',old,moved⟩ := RobotLoginSucess_login inv login
    refine ⟨inv'.setRobotInfo socket old,?_⟩
    have pool : (next.SetRobotInfo socket robot).Partition loaded ↔ (robot_id ∈ loaded → robot_id ∉ server.pc.pool.idle) := by
      rw [RobotServer.Partition,RobotServer.SetRobotInfo,moved]
      exact Pool.Partition.login_iff partition
    rw [pool]
    constructor
    · intro apart _ _ idle
      exact apart (inv.idle_loaded idle) idle
    · intro careful _
      exact careful platform busy
  | none =>
    have failed : platform_id = 10000 →
        ¬(narrow robot_id ∈ server.pc.temp_robot_infos_ ∨ narrow robot_id ∈ server.pc.used_robot_infos_) := by
      intro here busy
      obtain ⟨robot,found⟩ := Option.isSome_iff_exists.mp (found_iff.mpr busy)
      rw [RobotServer.RobotLoginSucess,RobotServer.GetPlatformCache,if_pos here] at login
      simp [found] at login
    refine ⟨(inv.newData 0 now).setRobotInfo socket (Nat.lt_succ_self _),?_⟩
    exact iff_of_true partition fun here busy => absurd busy (failed here)

/-! A song is asked for. -/

theorem CheckUserFollowAllRobot_settled {uid : Int64} {robot : RobotBasicInfo} {id : Int64}
    (partition : server.Partition loaded) (fits : narrow id = id) (own : server.Owns loaded robot id)
    {next : RobotServer} (checked : RobotServer.CheckUserFollowAllRobot uid server robot = some next) :
    next.Inv loaded ∧ next.Partition loaded ∧ next.data = server.data ∧ next.fresh = server.fresh := by
  simp only [RobotServer.CheckUserFollowAllRobot,own.2.1,MapGetInt,fits] at checked
  cases used : server.pc.used_robot_infos_[id]? with
  | some _ =>
    rw [used] at checked
    cases checked
    exact ⟨inv,partition,rfl,rfl⟩
  | none =>
    rw [used] at checked
    simp only at checked
    split at checked
    · cases checked
    · cases checked
      have sound := inv.sound.offer own
      refine ⟨inv.withPlatform ⟨sound.idle,sound.temp,sound.used,sound.follow⟩,?_,rfl,rfl⟩
      have offered := pool_offer server.pc id robot
      have unused : id ∉ server.pc.pool.used := by
        intro member
        obtain ⟨_,found⟩ := Option.isSome_iff_exists.mp (Std.ExtTreeMap.mem_iff_isSome_getElem?.mp member)
        rw [used] at found
        cases found
      have kept := Pool.Partition.offer partition unused
      rw [← offered] at kept
      exact kept

theorem CheckUserFollowAllRobots_settled {uid : Int64} (partition : server.Partition loaded)
    {robots : List RobotBasicInfo} (own : ∀ robot ∈ robots, ∃ id, narrow id = id ∧ server.Owns loaded robot id)
    {next : RobotServer} (checked : RobotServer.CheckUserFollowAllRobots uid server robots = some next) :
    next.Inv loaded ∧ next.Partition loaded := by
  induction robots generalizing server with
  | nil =>
    cases checked
    exact ⟨inv,partition⟩
  | cons robot robots ih =>
    obtain ⟨between,first,rest⟩ := Option.bind_eq_some_iff.mp checked
    obtain ⟨id,fits,owned⟩ := own robot List.mem_cons_self
    obtain ⟨inv',partition',data,fresh⟩ := CheckUserFollowAllRobot_settled inv partition fits owned first
    refine ih inv' partition' ?_ rest
    intro other member
    obtain ⟨id,fits,owned⟩ := own other (List.mem_cons_of_mem _ member)
    refine ⟨id,fits,?_⟩
    unfold RobotServer.Owns
    rw [data,fresh]
    exact owned

theorem currentSong_settled {platform_id uid : Int64} (partition : server.Partition loaded) {next : RobotServer}
    (outcome : step server (.currentSong platform_id uid) = some next) : next.Inv loaded ∧ next.Partition loaded := by
  obtain ⟨⟨_,map⟩,asked,rfl⟩ := Option.map_eq_some_iff.mp outcome
  unfold RobotServer.GetUserFollowAllRobot RobotServer.GetPlatformCache at asked
  split at asked
  · cases asked
    exact ⟨inv,partition⟩
  · rename_i platform
    split at platform
    · cases platform
      split at asked
      · cases asked
        exact ⟨inv,partition⟩
      · rename_i robotinfos follows
        obtain ⟨checked,done,same⟩ := Option.map_eq_some_iff.mp asked
        cases same
        refine CheckUserFollowAllRobots_settled inv partition ?_ done
        intro robot member
        obtain ⟨⟨id,_⟩,entry,rfl⟩ := List.mem_map.mp member
        have found := Std.ExtTreeMap.mem_toList_iff_getElem?_eq_some.mp entry
        exact ⟨id,inv.sound.follow _ robotinfos id _ follows found⟩
    · cases platform

/-! A socket closes. -/

theorem ClearRobot_settled {robot : RobotBasicInfo} (old : robot < server.fresh) (partition : server.Partition loaded) :
    (server.ClearRobot 10000 robot).Inv loaded ∧ ((server.ClearRobot 10000 robot).Partition loaded ↔
      ((server.data robot).follow_map.size ≠ 0 → (server.data robot).uid ∉ server.pc.temp_robot_infos_)) := by
  simp only [RobotServer.ClearRobot,RobotServer.GetPlatformCache,if_true,Nat.le_zero_eq]
  by_cases nobody : (server.data robot).follow_map.size = 0
  · rw [if_pos nobody]
    exact ⟨inv,iff_of_true partition fun follows => absurd nobody follows⟩
  · rw [if_neg nobody]
    have member := inv.follow robot old nobody
    have sound := inv.sound.clearFollows (server.data robot).uid (server.data robot).follow_map.keys
    refine ⟨inv.withPlatform (sound.clear ⟨old,rfl,member⟩),?_⟩
    rw [RobotServer.Partition,pool_clear,pool_clearFollow,Pool.Partition.clear_iff partition]
    constructor
    · intro unoffered _
      exact unoffered member
    · intro careful _
      exact careful nobody

theorem close_settled {socket : Int32} (partition : server.Partition loaded) :
    (server.OnRobotManagerClose socket).Inv loaded ∧
      ((server.OnRobotManagerClose socket).Partition loaded ↔ Careful server (.close socket)) := by
  have settled : (server.OnClearRobotConnection socket).Inv loaded ∧
      ((server.OnClearRobotConnection socket).Partition loaded ↔ Careful server (.close socket)) := by
    unfold RobotServer.OnClearRobotConnection
    cases found : server.GetRobotInfo socket with
    | none =>
      refine ⟨inv,iff_of_true partition ?_⟩
      intro robot stored
      rw [found] at stored
      cases stored
    | some robot =>
      obtain ⟨inv',cleared⟩ := ClearRobot_settled inv (inv.socket socket robot found) partition
      refine ⟨⟨inv'.sound,?_,inv'.follow⟩,?_⟩
      · intro other stored there
        simp only [RobotServer.DelRobotInfo,Function.update_apply] at there
        split at there
        · cases there
        · exact inv'.socket other stored there
      · refine cleared.trans ⟨?_,?_⟩
        · intro unoffered other stored
          rw [found] at stored
          cases stored
          exact unoffered
        · intro careful
          exact careful robot found
  have sound := settled.1.sound
  exact ⟨settled.1.withPlatform ⟨sound.idle,sound.temp,sound.used,sound.follow⟩,settled.2⟩

theorem assistantLogin_settled {socket : Int32} {platform_id assistant_id : Int64} (partition : server.Partition loaded) :
    (server.SetAssistantLogin platform_id assistant_id socket).Inv loaded ∧
      (server.SetAssistantLogin platform_id assistant_id socket).Partition loaded := by
  unfold RobotServer.SetAssistantLogin RobotServer.GetPlatformCache
  split
  · exact ⟨inv,partition⟩
  · rename_i platform
    split at platform
    · cases platform
      split
      · exact ⟨inv,partition⟩
      · rename_i assistant _
        have moved : (server.setData assistant {server.data assistant with socket}).Inv loaded :=
          inv.setData rfl fun old => inv.follow assistant old
        have sound := moved.sound
        exact ⟨moved.withPlatform ⟨sound.idle,sound.temp,sound.used,sound.follow⟩,partition⟩
    · cases platform

theorem schedulerLogin_settled {platform_id : Int64} {scheduler_info : SchedulerInfo}
    (partition : server.Partition loaded) :
    (server.SetScheduler platform_id scheduler_info).Inv loaded ∧
      (server.SetScheduler platform_id scheduler_info).Partition loaded := by
  unfold RobotServer.SetScheduler RobotServer.GetPlatformCache
  split
  · exact ⟨inv,partition⟩
  · rename_i platform
    split at platform
    · cases platform
      have sound := inv.sound
      exact ⟨inv.withPlatform ⟨sound.idle,sound.temp,sound.used,sound.follow⟩,partition⟩
    · cases platform

/-! ### Runs -/

theorem step_settled {event : Event} (partition : server.Partition loaded) {next : RobotServer}
    (outcome : step server event = some next) :
    next.Inv loaded ∧ (next.Partition loaded ↔ Careful server event) := by
  cases event with
  | userLogin =>
    cases outcome
    obtain ⟨inv',partition'⟩ := userLogin_settled inv partition
    exact ⟨inv',iff_of_true partition' trivial⟩
  | robotLogin =>
    cases outcome
    exact robotLogin_settled inv partition
  | currentSong =>
    obtain ⟨inv',partition'⟩ := currentSong_settled inv partition outcome
    exact ⟨inv',iff_of_true partition' trivial⟩
  | schedulerLogin =>
    cases outcome
    obtain ⟨inv',partition'⟩ := schedulerLogin_settled inv partition
    exact ⟨inv',iff_of_true partition' trivial⟩
  | assistantLogin =>
    cases outcome
    obtain ⟨inv',partition'⟩ := assistantLogin_settled inv partition
    exact ⟨inv',iff_of_true partition' trivial⟩
  | close =>
    cases outcome
    exact close_settled inv partition

end Handlers

/-- In every state of the run each loaded robot is in one table. -/
def Partitioned (loaded : Set Int64) (server : RobotServer) : List Event → Prop
  | [] => server.Partition loaded
  | event::events =>
    server.Partition loaded ∧ ∀ next, step server event = some next → Partitioned loaded next events

theorem Partitioned.now {loaded : Set Int64} {server : RobotServer} {events : List Event}
    (partitioned : Partitioned loaded server events) : server.Partition loaded := by
  cases events with
  | nil => exact partitioned
  | cons event events => exact partitioned.1

theorem partitioned_from {loaded : Set Int64} {server : RobotServer} (inv : server.Inv loaded)
    (partition : server.Partition loaded) {events : List Event} :
    Partitioned loaded server events ↔ Along step Careful server events := by
  induction events generalizing server with
  | nil => exact iff_of_true partition trivial
  | cons event events ih =>
    constructor
    · rintro ⟨_,after⟩
      have careful {next : RobotServer} (outcome : step server event = some next) : Careful server event :=
        (step_settled inv partition outcome).2.mp (after next outcome).now
      refine ⟨?_,?_⟩
      · cases event with
        | robotLogin | close => exact careful rfl
        | _ => exact trivial
      · intro next outcome
        obtain ⟨inv',_⟩ := step_settled inv partition outcome
        exact (ih inv' (after next outcome).now).mp (after next outcome)
    · rintro ⟨careful,rest⟩
      refine ⟨partition,?_⟩
      intro next outcome
      obtain ⟨inv',careful_iff⟩ := step_settled inv partition outcome
      exact (ih inv' (careful_iff.mpr careful)).mpr (rest next outcome)

/-! ### The start -/

theorem loadRobot_inv {loaded : Set Int64} {server : RobotServer} (inv : server.Inv loaded) (now : Int64) {uid : Int64}
    (member : uid ∈ loaded) : (RobotServer.loadRobot now server uid).Inv loaded := by
  have inv' := inv.newData uid now
  refine inv'.withPlatform ⟨?_,inv'.sound.temp,inv'.sound.used,inv'.sound.follow⟩
  intro id robot found
  rcases MapAdd_found found with ⟨rfl,rfl⟩ | before
  · exact ⟨Nat.lt_succ_self _,congrArg Data.uid (RobotServer.newData_self ..),member⟩
  · exact inv'.sound.idle id robot before

theorem loadRobots {loaded : Set Int64} (now : Int64) {uids : List Int64} (members : ∀ uid ∈ uids, uid ∈ loaded)
    {server : RobotServer} (inv : server.Inv loaded) :
    (uids.foldl (RobotServer.loadRobot now) server).Inv loaded ∧
      (uids.foldl (RobotServer.loadRobot now) server).pc.pool =
        {server.pc.pool with idle := {id | id ∈ uids} ∪ server.pc.pool.idle} := by
  induction uids generalizing server with
  | nil => exact ⟨inv,by simp⟩
  | cons uid uids ih =>
    have inv' := loadRobot_inv inv now (members uid List.mem_cons_self)
    obtain ⟨inv'',pool⟩ := ih (fun other member => members other (List.mem_cons_of_mem _ member)) inv'
    refine ⟨inv'',?_⟩
    rw [List.foldl_cons,pool]
    refine Pool.ext ?_ rfl rfl
    ext id
    have added : id ∈ (RobotServer.loadRobot now server uid).pc.pool.idle ↔ id = uid ∨ id ∈ server.pc.pool.idle :=
      MapAdd_mem ..
    simp only [Set.mem_union,Set.mem_ofPred_eq,added,List.mem_cons]
    tauto

theorem loadAssistants {loaded : Set Int64} (now : Int64) (assistants : List Int64) {server : RobotServer}
    (inv : server.Inv loaded) :
    (assistants.foldl (RobotServer.loadAssistant now) server).Inv loaded ∧
      (assistants.foldl (RobotServer.loadAssistant now) server).pc.pool = server.pc.pool := by
  induction assistants generalizing server with
  | nil => exact ⟨inv,rfl⟩
  | cons uid assistants ih =>
    have inv' := inv.newData uid now
    have sound := inv'.sound
    exact ih (inv'.withPlatform ⟨sound.idle,sound.temp,sound.used,sound.follow⟩)

theorem empty_inv (data : RobotBasicInfo → Data) (loaded : Set Int64) :
    RobotServer.Inv ⟨.empty,fun _ => none,data,0⟩ loaded := by
  have nothing {Value : Type} {id : Int64} {found : Value} (entry : (∅ : Map Value)[id]? = some found) : False := by
    rw [Std.ExtTreeMap.getElem?_empty] at entry
    cases entry
  refine ⟨⟨?_,?_,?_,?_⟩,?_,?_⟩
  · exact fun _ _ found => (nothing found).elim
  · exact fun _ _ found => (nothing found).elim
  · exact fun _ _ found => (nothing found).elim
  · exact fun _ _ _ _ found _ => (nothing found).elim
  · intro socket robot found
    cases found
  · intro robot bound
    exact absurd bound (Nat.not_lt_zero robot)

theorem start_settled (data : RobotBasicInfo → Data) (now : Int64) (uids assistants : List Int64) :
    (RobotServer.start data now uids assistants).Inv {id | id ∈ uids} ∧
      (RobotServer.start data now uids assistants).Partition {id | id ∈ uids} := by
  obtain ⟨inv,pool⟩ := loadRobots now (fun _ member => member) (empty_inv data {id | id ∈ uids})
  obtain ⟨inv',pool'⟩ := loadAssistants now assistants inv
  refine ⟨inv',?_⟩
  rw [RobotServer.Partition,RobotServer.start,pool',pool]
  intro id member
  exact .inl ⟨.inl member,Std.ExtTreeMap.not_mem_empty,Std.ExtTreeMap.not_mem_empty⟩

/-- From the start, each loaded robot stays in one table exactly in the careful runs. -/
theorem partitioned_iff (data : RobotBasicInfo → Data) (now : Int64) (uids assistants : List Int64) (events : List Event) :
    Partitioned {id | id ∈ uids} (.start data now uids assistants) events ↔
      Along step Careful (.start data now uids assistants) events := by
  obtain ⟨inv,partition⟩ := start_settled data now uids assistants
  exact partitioned_from inv partition

/-- Robot 5 is offered to user 7 and logs in on two sockets. The first one closes,
the robot is offered to user 8, and the second one closes. -/
def twiceEvents : List Event :=
  [.userLogin 10000 7 (fun _ => ⟨0,0⟩) 0,.robotLogin 3 10000 7 5 0,.robotLogin 4 10000 7 5 0,.close 3,
    .userLogin 10000 8 (fun _ => ⟨0,0⟩) 0,.close 4]

theorem twice_unpartitioned :
    ¬Partitioned {id | id ∈ [5]} (.start (fun _ => .new 0 0) 0 [5] []) twiceEvents := by
  rintro ⟨_,after⟩
  obtain ⟨_,after⟩ := after _ rfl
  obtain ⟨_,after⟩ := after _ rfl
  obtain ⟨_,after⟩ := after _ rfl
  obtain ⟨_,after⟩ := after _ rfl
  obtain ⟨_,after⟩ := after _ rfl
  rcases after _ rfl 5 List.mem_cons_self with ⟨_,unoffered,_⟩ | ⟨unidle,_⟩ | ⟨unidle,_⟩
  · exact unoffered rfl
  · exact unidle rfl
  · exact unidle rfl

end Migfm.Robot
