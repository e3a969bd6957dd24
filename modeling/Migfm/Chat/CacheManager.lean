import Migfm.Basic.Template

/-! The platform cache of chat/chat/chat_cache_manager.cc. Each operation holds
the lock of the manager from its start to its end. -/
namespace Migfm.Chat
open Basic

/-- to_id to session -/
abbrev SessionInfosMap := Map Int64

/-- uid to uid -/
abbrev MeetingSession := Map Int64

structure PlatformCache (UserInfo GroupInfo : Type) where
  user_infos_map_ : Map UserInfo
  group_infos_map_ : Map GroupInfo
  leave_infos_map_ : Map SessionInfosMap
  meeting_infos_map_ : Map MeetingSession

namespace PlatformCache
variable {UserInfo GroupInfo : Type} (pl : PlatformCache UserInfo GroupInfo)

def empty : PlatformCache UserInfo GroupInfo := ⟨∅,∅,∅,∅⟩

def AddGroupInfos (group_id : Int64) (groupinfo : GroupInfo) : PlatformCache UserInfo GroupInfo :=
  {pl with group_infos_map_ := MapAdd pl.group_infos_map_ group_id groupinfo}

def GetGroupInfos (group_id : Int64) : Option GroupInfo := MapGetInt pl.group_infos_map_ group_id

def DelGroupInfos (group_id : Int64) : PlatformCache UserInfo GroupInfo × Bool :=
  let (group_infos_map_,r) := MapDel pl.group_infos_map_ group_id
  ({pl with group_infos_map_},r)

def AddUserInfos (user_id : Int64) (userinfo : UserInfo) : PlatformCache UserInfo GroupInfo :=
  {pl with user_infos_map_ := MapAdd pl.user_infos_map_ user_id userinfo}

def GetUserInfos (user_id : Int64) : Option UserInfo := MapGetInt pl.user_infos_map_ user_id

def DelUserInos (user_id : Int64) : PlatformCache UserInfo GroupInfo × Bool :=
  let (user_infos_map_,r) := MapDel pl.user_infos_map_ user_id
  ({pl with user_infos_map_},r)

def CheckMeetingInfos (session uid : Int64) : Bool :=
  match MapGetInt pl.meeting_infos_map_ session with
  | some meeting_session => (MapGet meeting_session uid).isSome
  | none => false

/-- `AddMeetingInfos` of one member. -/
def AddMeetingInfos (session uid : Int64) : PlatformCache UserInfo GroupInfo :=
  let meeting_session := (MapGetInt pl.meeting_infos_map_ session).getD ∅
  {pl with meeting_infos_map_ := MapAdd pl.meeting_infos_map_ session (meeting_session.insert uid uid)}

/-- `AddMeetingInfos` of two members. -/
def AddMeetingPair (session tid mid : Int64) : PlatformCache UserInfo GroupInfo :=
  let meeting : MeetingSession := ((∅ : MeetingSession).insert tid tid).insert mid mid
  {pl with meeting_infos_map_ := MapAdd pl.meeting_infos_map_ session meeting}

/-- No caller uses the value of `DelMeetingInfos`, which never returns one. -/
def DelMeetingInfos (session uid : Int64) : PlatformCache UserInfo GroupInfo :=
  let meeting_session := (MapGet pl.meeting_infos_map_ session).getD ∅
  -- of more than two, the member is taken out of the copy
  if meeting_session.size > 2 then pl
  else if meeting_session.size = 2 then
    let tid := meeting_session.keys.foldl (fun tid id => if id ≠ uid then id else tid) 0
    let session_infos : SessionInfosMap := (∅ : SessionInfosMap).insert tid session
    {pl with
      meeting_infos_map_ := (MapDel pl.meeting_infos_map_ session).1
      leave_infos_map_ := MapAdd pl.leave_infos_map_ uid session_infos}
  else {pl with leave_infos_map_ := (MapDel pl.leave_infos_map_ uid).1}

theorem DelMeetingInfos_users (session uid : Int64) :
    (pl.DelMeetingInfos session uid).user_infos_map_ = pl.user_infos_map_ := by
  simp only [DelMeetingInfos]
  split
  · rfl
  · split <;> rfl

/-- The users that `SendMeetingMessage` sends to. The ids of the members pass through `int`. -/
def SendMeetingMessage (session : Int64) : List UserInfo :=
  let meeting_session := (MapGetInt pl.meeting_infos_map_ session).getD ∅
  meeting_session.keys.filterMap fun id => MapGetInt pl.user_infos_map_ (narrow id)

/-- The users that `SendMeetingNotSelf` sends to. -/
def SendMeetingNotSelf (user_id : UserInfo → Int64) (session send_id : Int64) : List UserInfo :=
  (pl.SendMeetingMessage session).filter fun userinfo => user_id userinfo ≠ send_id

def AddLeaveInfos (session tid mid : Int64) : PlatformCache UserInfo GroupInfo :=
  let session_infos := (MapGetInt pl.leave_infos_map_ tid).getD ∅
  {pl with leave_infos_map_ := MapAdd pl.leave_infos_map_ tid (session_infos.insert mid session)}

def IsExitsLeaveInfos (tid mid : Int64) : Option Int64 := do
  let session_infos ← MapGetInt pl.leave_infos_map_ mid
  MapGet session_infos tid

def ClearLeaveInfos (tid : Int64) : PlatformCache UserInfo GroupInfo × Bool :=
  let (leave_infos_map_,r) := MapDel pl.leave_infos_map_ tid
  ({pl with leave_infos_map_},r)

def DelLeaveInfos (tid mid : Int64) : PlatformCache UserInfo GroupInfo × Bool :=
  match MapGetInt pl.leave_infos_map_ tid with
  | none => (pl,false)
  | some session_infos =>
    let session_infos := (MapDel session_infos mid).1
    if session_infos.size > 0 then
      ({pl with leave_infos_map_ := MapAdd pl.leave_infos_map_ tid session_infos},true)
    else
      let (leave_infos_map_,r) := MapDel pl.leave_infos_map_ tid
      ({pl with leave_infos_map_},r)

/-- The users of the list, which is left alone when the session is not found. -/
def GetGroupListUserInfo (session : Int64) : Option (List UserInfo) := do
  let meeting_session ← MapGetInt pl.meeting_infos_map_ session
  return (meeting_session.toList.map Prod.snd).filterMap (MapGetInt pl.user_infos_map_)

def GetGroupListUserInfoNotSelf (session send_id : Int64) : Option (List UserInfo) := do
  let meeting_session ← MapGetInt pl.meeting_infos_map_ session
  return ((meeting_session.toList.map Prod.snd).filter (· ≠ send_id)).filterMap (MapGetInt pl.user_infos_map_)

end PlatformCache

/-! ### The manager -/

abbrev PlatformChatCacheManager (UserInfo GroupInfo : Type) := Map (PlatformCache UserInfo GroupInfo)

section Manager
variable {UserInfo GroupInfo : Type}

def SetPlatformInfo (manager : PlatformChatCacheManager UserInfo GroupInfo) (platform_id : Int64) :
    PlatformChatCacheManager UserInfo GroupInfo :=
  match manager[platform_id]? with
  | some _ => manager
  | none => manager.insert platform_id .empty

/-- The operations on one platform. -/
inductive Operation (UserInfo GroupInfo : Type)
  | addGroupInfos (group_id : Int64) (groupinfo : GroupInfo)
  | getGroupInfos (group_id : Int64)
  | delGroupInfos (group_id : Int64)
  | addUserInfos (user_id : Int64) (userinfo : UserInfo)
  | getUserInfos (user_id : Int64)
  | delUserInos (user_id : Int64)
  | checkMeetingInfos (session uid : Int64)
  | addMeetingInfos (session uid : Int64)
  | addMeetingPair (session tid mid : Int64)
  | delMeetingInfos (session uid : Int64)
  | sendMeetingMessage (session : Int64)
  | sendMeetingNotSelf (session send_id : Int64)
  | addLeaveInfos (session tid mid : Int64)
  | isExitsLeaveInfos (tid mid : Int64)
  | clearLeaveInfos (tid : Int64)
  | delLeaveInfos (tid mid : Int64)
  | getGroupListUserInfo (session : Int64)
  | getGroupListUserInfoNotSelf (session send_id : Int64)

/-- What an operation answers: whether it succeeded, or what it found. -/
inductive Reply (UserInfo GroupInfo : Type)
  | done (r : Bool)
  | user (found : Option UserInfo)
  | group (found : Option GroupInfo)
  | session (found : Option Int64)
  | list (found : Option (List UserInfo))

variable (user_id : UserInfo → Int64)

def PlatformCache.perform (pl : PlatformCache UserInfo GroupInfo) :
    Operation UserInfo GroupInfo → PlatformCache UserInfo GroupInfo × Reply UserInfo GroupInfo
  | .addGroupInfos group_id groupinfo => (pl.AddGroupInfos group_id groupinfo,.done true)
  | .getGroupInfos group_id => (pl,.group (pl.GetGroupInfos group_id))
  | .delGroupInfos group_id => let (pl,r) := pl.DelGroupInfos group_id; (pl,.done r)
  | .addUserInfos uid userinfo => (pl.AddUserInfos uid userinfo,.done true)
  | .getUserInfos uid => (pl,.user (pl.GetUserInfos uid))
  | .delUserInos uid => let (pl,r) := pl.DelUserInos uid; (pl,.done r)
  | .checkMeetingInfos session uid => (pl,.done (pl.CheckMeetingInfos session uid))
  | .addMeetingInfos session uid => (pl.AddMeetingInfos session uid,.done true)
  | .addMeetingPair session tid mid => (pl.AddMeetingPair session tid mid,.done true)
  | .delMeetingInfos session uid => (pl.DelMeetingInfos session uid,.done true)
  | .sendMeetingMessage session => (pl,.list (some (pl.SendMeetingMessage session)))
  | .sendMeetingNotSelf session send_id => (pl,.list (some (pl.SendMeetingNotSelf user_id session send_id)))
  | .addLeaveInfos session tid mid => (pl.AddLeaveInfos session tid mid,.done true)
  | .isExitsLeaveInfos tid mid => (pl,.session (pl.IsExitsLeaveInfos tid mid))
  | .clearLeaveInfos tid => let (pl,r) := pl.ClearLeaveInfos tid; (pl,.done r)
  | .delLeaveInfos tid mid => let (pl,r) := pl.DelLeaveInfos tid mid; (pl,.done r)
  | .getGroupListUserInfo session => (pl,.list (pl.GetGroupListUserInfo session))
  | .getGroupListUserInfoNotSelf session send_id => (pl,.list (pl.GetGroupListUserInfoNotSelf session send_id))

/-- What an operation answers when the platform is not known. -/
def Operation.failed : Operation UserInfo GroupInfo → Reply UserInfo GroupInfo
  | .getUserInfos _ => .user none
  | .getGroupInfos _ => .group none
  | .isExitsLeaveInfos _ _ => .session none
  | .sendMeetingMessage _ | .sendMeetingNotSelf _ _ => .list none
  | .getGroupListUserInfo _ | .getGroupListUserInfoNotSelf _ _ => .list none
  | _ => .done false

inductive Request (UserInfo GroupInfo : Type)
  | setPlatformInfo (platform_id : Int64)
  | operate (platform_id : Int64) (operation : Operation UserInfo GroupInfo)

def perform (manager : PlatformChatCacheManager UserInfo GroupInfo) :
    Request UserInfo GroupInfo → PlatformChatCacheManager UserInfo GroupInfo × Reply UserInfo GroupInfo
  | .setPlatformInfo platform_id => (SetPlatformInfo manager platform_id,.done true)
  | .operate platform_id operation =>
    match manager[platform_id]? with
    | none => (manager,operation.failed)
    | some pl =>
      let (pl,reply) := pl.perform user_id operation
      (manager.insert platform_id pl,reply)

end Manager

end Migfm.Chat
