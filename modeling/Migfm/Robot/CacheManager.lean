import Migfm.Basic.Template

/-! The robots of robot/robot/robot_cache_manager.cc and the handlers of
robot_connection.cc that move them. `RobotManager` sets platform 10000 and no
other. A `RobotBasicInfo` is a handle: its copies share one `Data`. The messages to
the schedulers and what only they read are left out; the position and the time
that a step draws are given with it. -/
namespace Migfm.Robot
open Basic

/-- Where the `Data` is. -/
abbrev RobotBasicInfo := Nat

structure Position where
  latitude : Int
  longitude : Int

structure Data where
  uid : Int64
  position : Position
  socket : Int32
  follow_map : Map Int64
  recv_last_time : Int64
  follower_user_last_time : Int64

/-- The `Data` of a robot in the database, and with `uid` 0 that of a `RobotBasicInfo` without arguments. -/
def Data.new (uid now : Int64) : Data :=
  {uid, position := ⟨0,0⟩, socket := 0, follow_map := ∅, recv_last_time := now, follower_user_last_time := 0}

structure UserInfo where
  uid : Int64

structure SchedulerInfo where
  platform_id : Int64
  socket : Int32
  machine_id : List UInt8

abbrev RobotInfosMap := Map RobotBasicInfo

abbrev UserFollowMap := Map RobotInfosMap

abbrev SchedulerMap := Std.ExtTreeMap Int32 SchedulerInfo

structure PlatformCache where
  idle_robot_infos_ : RobotInfosMap
  used_robot_infos_ : RobotInfosMap
  temp_robot_infos_ : RobotInfosMap
  user_follow_infos_ : UserFollowMap
  schduler_infos_ : SchedulerMap
  assistant_ : RobotInfosMap
  robot_socket_ : RobotInfosMap
  user_infos_ : Map UserInfo

def PlatformCache.empty : PlatformCache := ⟨∅,∅,∅,∅,∅,∅,∅,∅⟩

structure RobotServer where
  pc : PlatformCache
  socket_robot_map_ : Int32 → Option RobotBasicInfo
  data : RobotBasicInfo → Data
  fresh : RobotBasicInfo

namespace RobotServer

def GetPlatformCache (server : RobotServer) (platform_id : Int64) : Option PlatformCache :=
  if platform_id = 10000 then some server.pc else none

def setData (server : RobotServer) (robot : RobotBasicInfo) (data : Data) : RobotServer :=
  {server with data := Function.update server.data robot data}

def newData (server : RobotServer) (data : Data) : RobotServer × RobotBasicInfo :=
  ({server.setData server.fresh data with fresh := server.fresh + 1},server.fresh)

theorem newData_self (server : RobotServer) (data : Data) : (server.newData data).1.data server.fresh = data :=
  Function.update_self ..

theorem setData_data (server : RobotServer) (robot other : RobotBasicInfo) (data : Data) :
    (server.setData robot data).data other = if other = robot then data else server.data other :=
  Function.update_apply ..

/-- A row of `GetRobotInfos`. -/
def loadRobot (now : Int64) (server : RobotServer) (uid : Int64) : RobotServer :=
  let (server,robot_info) := server.newData (.new uid now)
  {server with pc := {server.pc with idle_robot_infos_ := server.pc.idle_robot_infos_.insert uid robot_info}}

/-- A row of `GetAssistant`. -/
def loadAssistant (now : Int64) (server : RobotServer) (uid : Int64) : RobotServer :=
  let (server,robot_info) := server.newData (.new uid now)
  {server with pc := {server.pc with assistant_ := server.pc.assistant_.insert uid robot_info}}

/-- `SetPlatformInfo` loads all robots and assistants. -/
def start (data : RobotBasicInfo → Data) (now : Int64) (uids assistants : List Int64) : RobotServer :=
  let server := uids.foldl (loadRobot now) ⟨.empty,fun _ => none,data,0⟩
  assistants.foldl (loadAssistant now) server

/-! ### GetIdleRobot -/

/-- The first idle robot is taken, with a new position. -/
def GetRobot (server : RobotServer) (position : Position) : Option (RobotServer × RobotBasicInfo) :=
  match server.pc.idle_robot_infos_.toList.head? with
  | none => none
  | some (uid,robot) =>
    let server := server.setData robot {server.data robot with position}
    some
      ({server with
        pc := {server.pc with
          temp_robot_infos_ := server.pc.temp_robot_infos_.insert uid robot
          idle_robot_infos_ := server.pc.idle_robot_infos_.erase uid}},
        robot)

/-- The loop over `i`, which ends early when no robot is idle. -/
def GetRobots (position : Nat → Position) : Nat → RobotServer → RobotServer × List RobotBasicInfo
  | 0,server => (server,[])
  | i+1,server =>
    match server.GetRobot (position i) with
    | none => (server,[])
    | some (server,robot) =>
      let (server,list) := GetRobots position i server
      (server,robot::list)

/-- The robots that follow already get a new position. -/
def moveRobots (position : Nat → Position) (now : Int64) : RobotServer → List RobotBasicInfo → RobotServer
  | server,[] => server
  | server,robot::robots =>
    let data := {server.data robot with position := position robots.length, follower_user_last_time := now}
    moveRobots position now (server.setData robot data) robots

def GetIdleRobot (server : RobotServer) (platform_id uid : Int64) (position : Nat → Position) (now : Int64) :
    RobotServer × List RobotBasicInfo :=
  match server.GetPlatformCache platform_id with
  | none => (server,[])
  | some pc =>
    match MapGetInt pc.user_follow_infos_ uid with
    | some follow_robotinfos =>
      let list := follow_robotinfos.toList.map Prod.snd
      (moveRobots position now server list,list)
    | none => GetRobots position 2 server

def SetUserInfoLogin (server : RobotServer) (platform_id uid : Int64) : RobotServer :=
  match server.GetPlatformCache platform_id with
  | none => server
  | some pc => {server with pc := {pc with user_infos_ := MapAdd pc.user_infos_ uid ⟨uid⟩}}

def OnUserLogin (server : RobotServer) (platform_id uid : Int64) (position : Nat → Position) (now : Int64) :
    RobotServer :=
  let (server,list) := server.GetIdleRobot platform_id uid position now
  if list.length ≤ 0 then server else server.SetUserInfoLogin platform_id uid

/-! ### RobotLoginSucess -/

def AddUserFollowRobot (usr_follow : UserFollowMap) (uid robot_uid : Int64) (robotinfo : RobotBasicInfo) :
    UserFollowMap :=
  let robotinfos := (MapGetInt usr_follow uid).getD ∅
  MapAdd usr_follow uid (robotinfos.insert robot_uid robotinfo)

def RobotLoginSucess (server : RobotServer) (platform_id robot_uid : Int64) (socket : Int32) (uid now : Int64) :
    Option (RobotServer × RobotBasicInfo) := do
  let pc ← server.GetPlatformCache platform_id
  let robot_info ← (MapGetInt pc.temp_robot_infos_ robot_uid).or (MapGetInt pc.used_robot_infos_ robot_uid)
  let data := server.data robot_info
  let server := server.setData robot_info
    {data with
      socket, follow_map := data.follow_map.insert uid uid, recv_last_time := now, follower_user_last_time := now}
  let pc := {pc with
    temp_robot_infos_ := (MapDel pc.temp_robot_infos_ robot_uid).1
    used_robot_infos_ := MapAdd pc.used_robot_infos_ robot_uid robot_info
    user_follow_infos_ := AddUserFollowRobot pc.user_follow_infos_ uid data.uid robot_info}
  return ({server with pc},robot_info)

def SetRobotInfo (server : RobotServer) (socket : Int32) (robotinfo : RobotBasicInfo) : RobotServer :=
  {server with socket_robot_map_ := Function.update server.socket_robot_map_ socket (some robotinfo)}

def GetRobotInfo (server : RobotServer) (socket : Int32) : Option RobotBasicInfo := server.socket_robot_map_ socket

def DelRobotInfo (server : RobotServer) (socket : Int32) : RobotServer :=
  {server with socket_robot_map_ := Function.update server.socket_robot_map_ socket none}

/-- The socket is recorded with an empty `RobotBasicInfo` when the login fails. -/
def OnRobotLogin (server : RobotServer) (socket : Int32) (platform_id uid robot_id now : Int64) : RobotServer :=
  match server.RobotLoginSucess platform_id robot_id socket uid now with
  | some (server,robot_info) => server.SetRobotInfo socket robot_info
  | none =>
    let (server,robot_info) := server.newData (.new 0 now)
    server.SetRobotInfo socket robot_info

/-! ### GetUserFollowAllRobot -/

/-- Without a scheduler the code reads from `begin` of an empty map, and there is no outcome. -/
def CheckUserFollowAllRobot (uid : Int64) (server : RobotServer) (robot : RobotBasicInfo) : Option RobotServer :=
  let pc := server.pc
  let robot_uid := (server.data robot).uid
  match MapGetInt pc.used_robot_infos_ robot_uid with
  | some _ => some server
  | none =>
    if pc.schduler_infos_.isEmpty then none
    else some {server with
      pc := {pc with
        user_infos_ := MapAdd pc.user_infos_ uid ⟨0⟩
        idle_robot_infos_ := (MapDel pc.idle_robot_infos_ robot_uid).1
        temp_robot_infos_ := MapAdd pc.temp_robot_infos_ robot_uid robot}}

def CheckUserFollowAllRobots (uid : Int64) : RobotServer → List RobotBasicInfo → Option RobotServer
  | server,[] => some server
  | server,robot::robots => do
    let server ← CheckUserFollowAllRobot uid server robot
    CheckUserFollowAllRobots uid server robots

def GetUserFollowAllRobot (server : RobotServer) (platform_id uid : Int64) :
    Option (RobotServer × Option RobotInfosMap) :=
  match server.GetPlatformCache platform_id with
  | none => some (server,none)
  | some pc =>
    match MapGetInt pc.user_follow_infos_ uid with
    | none => some (server,none)
    | some map =>
      (CheckUserFollowAllRobots uid server (map.toList.map Prod.snd)).map fun server => (server,some map)

/-! ### ClearRobot -/

/-- The robot is taken out of a copy of the map, so the user loses it with its last robot only. -/
def clearFollow (robot_uid : Int64) (pc : PlatformCache) (uid : Int64) : PlatformCache :=
  let pc := {pc with user_infos_ := (MapDel pc.user_infos_ uid).1}
  let robotinfos := (MapGetInt pc.user_follow_infos_ uid).getD ∅
  if robotinfos.size ≤ 0 then pc
  else if (MapDel robotinfos robot_uid).1.size = 0 then
    {pc with user_follow_infos_ := (MapDel pc.user_follow_infos_ uid).1}
  else pc

def ClearRobot (server : RobotServer) (platform_id : Int64) (robotinfo : RobotBasicInfo) : RobotServer :=
  match server.GetPlatformCache platform_id with
  | none => server
  | some pc =>
    let data := server.data robotinfo
    if data.follow_map.size ≤ 0 then server
    else
      let pc := data.follow_map.keys.foldl (clearFollow data.uid) pc
      {server with
        pc := {pc with
          used_robot_infos_ := (MapDel pc.used_robot_infos_ data.uid).1
          idle_robot_infos_ := MapAdd pc.idle_robot_infos_ data.uid robotinfo}}

def OnClearRobotConnection (server : RobotServer) (socket : Int32) : RobotServer :=
  match server.GetRobotInfo socket with
  | none => server
  | some robot_info => (server.ClearRobot 10000 robot_info).DelRobotInfo socket

/-! ### Schedulers and assistants -/

def SetScheduler (server : RobotServer) (platform_id : Int64) (scheduler_info : SchedulerInfo) : RobotServer :=
  match server.GetPlatformCache platform_id with
  | none => server
  | some pc =>
    {server with pc := {pc with schduler_infos_ := pc.schduler_infos_.insert scheduler_info.socket scheduler_info}}

def DeleteScheduler (server : RobotServer) (platform_id : Int64) (socket : Int32) : RobotServer :=
  match server.GetPlatformCache platform_id with
  | none => server
  | some pc => {server with pc := {pc with schduler_infos_ := pc.schduler_infos_.erase socket}}

def SetAssistantLogin (server : RobotServer) (platform_id assistant_id : Int64) (socket : Int32) : RobotServer :=
  match server.GetPlatformCache platform_id with
  | none => server
  | some pc =>
    match MapGetInt pc.assistant_ assistant_id with
    | none => server
    | some assistant =>
      let server := server.setData assistant {server.data assistant with socket}
      {server with pc := {pc with robot_socket_ := MapAdd pc.robot_socket_ socket.toInt64 assistant}}

/-- The key is the socket of an empty `RobotBasicInfo`. -/
def DeleteAssistant (server : RobotServer) (platform_id : Int64) (_socket : Int32) : RobotServer :=
  match server.GetPlatformCache platform_id with
  | none => server
  | some pc =>
    let assistant := Data.new 0 0
    {server with pc := {pc with robot_socket_ := (MapDel pc.robot_socket_ assistant.socket.toInt64).1}}

def OnRobotManagerClose (server : RobotServer) (socket : Int32) : RobotServer :=
  ((server.OnClearRobotConnection socket).DeleteScheduler 10000 socket).DeleteAssistant 10000 socket

end RobotServer

/-! ### What happens to the server -/

inductive Event
  | userLogin (platform_id uid : Int64) (position : Nat → Position) (now : Int64)
  | robotLogin (socket : Int32) (platform_id uid robot_id now : Int64)
  | currentSong (platform_id uid : Int64)
  | schedulerLogin (socket : Int32) (platform_id : Int64) (machine_id : List UInt8)
  | assistantLogin (socket : Int32) (platform_id assistant_id : Int64)
  | close (socket : Int32)

def step (server : RobotServer) : Event → Option RobotServer
  | .userLogin platform_id uid position now => some (server.OnUserLogin platform_id uid position now)
  | .robotLogin socket platform_id uid robot_id now => some (server.OnRobotLogin socket platform_id uid robot_id now)
  | .currentSong platform_id uid => (server.GetUserFollowAllRobot platform_id uid).map Prod.fst
  | .schedulerLogin socket platform_id machine_id =>
    some (server.SetScheduler platform_id {platform_id, socket, machine_id})
  | .assistantLogin socket platform_id assistant_id => some (server.SetAssistantLogin platform_id assistant_id socket)
  | .close socket => some (server.OnRobotManagerClose socket)

end Migfm.Robot
