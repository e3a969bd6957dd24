import Migfm.Chat.CacheManager
import Migfm.Chat.CommHead

/-! Login, quit and close of chat/chat/user_connection.cc over the caches. A
`UserInfo` is a handle: its copies share one `Data`. The database answers and
the chat token of a login are given with the event. -/
namespace Migfm.Chat
open Basic Wire

structure Data where
  platform_id : Int64
  user_id : Int64
  nicknumber : Int64
  nickname : List UInt8
  head_url : List UInt8
  socket : Int32
  session : Int64
  chat_token : List UInt8

/-- Where the `Data` is. -/
abbrev UserInfo := Nat

structure ChatServer (GroupInfo : Type) where
  platform_cache_ : PlatformChatCacheManager UserInfo GroupInfo
  socket_infos_map_ : Int32 → Option UserInfo
  data : UserInfo → Data
  fresh : UserInfo

/-- A message with the socket it is sent to. -/
abbrev Sent := Int32 × Body

def SafeStrncpy (dest_size : Nat) (src : List UInt8) : CharArray dest_size :=
  Vector.ofFn fun i => src.getD i 0

/-- The message of `MIG_CHAT_USER_NO_EXIST`. -/
def userNoExist : ChatFailed := ⟨10000,"用户不存在".toUTF8.toList⟩

/-- A row of the user in the database. -/
structure UserRow where
  nicknumber : Int64
  nickname : List UInt8
  head_url : List UInt8

section Handlers
variable {GroupInfo : Type} (server : ChatServer GroupInfo)

def ChatServer.GetUserInfos (platform_id user_id : Int64) : Option UserInfo := do
  let pl ← server.platform_cache_[platform_id]?
  pl.GetUserInfos user_id

/-- An operation on the cache of a platform; without the platform nothing happens. -/
def ChatServer.onPlatform (platform_id : Int64)
    (operation : PlatformCache UserInfo GroupInfo → PlatformCache UserInfo GroupInfo) : ChatServer GroupInfo :=
  match server.platform_cache_[platform_id]? with
  | none => server
  | some pl => {server with platform_cache_ := server.platform_cache_.insert platform_id (operation pl)}

theorem onPlatform_cache (platform_id other : Int64)
    (operation : PlatformCache UserInfo GroupInfo → PlatformCache UserInfo GroupInfo) :
    (server.onPlatform platform_id operation).platform_cache_[other]? =
      if other = platform_id then (server.platform_cache_[other]?).map operation else server.platform_cache_[other]? := by
  unfold ChatServer.onPlatform
  cases found : server.platform_cache_[platform_id]? with
  | none =>
    by_cases same : other = platform_id
    · rw [if_pos same,same,found,Option.map_none]
    · rw [if_neg same]
  | some pl =>
    have stored := MapAdd_get server.platform_cache_ platform_id other (operation pl)
    rw [MapAdd] at stored
    simp only [stored]
    by_cases same : other = platform_id
    · rw [if_pos same,if_pos same,same,found,Option.map_some]
    · rw [if_neg same,if_neg same]

def ChatServer.AddSocket (socket : Int32) (userinfo : UserInfo) : ChatServer GroupInfo :=
  {server with socket_infos_map_ := Function.update server.socket_infos_map_ socket (some userinfo)}

def ChatServer.GetSocket (socket : Int32) : Option UserInfo := server.socket_infos_map_ socket

def ChatServer.DelSocket (socket : Int32) : ChatServer GroupInfo :=
  {server with socket_infos_map_ := Function.update server.socket_infos_map_ socket none}

/-- `LogicUnit::GetUserInfo` makes a new `Data` from the row it finds. -/
def ChatServer.newUserInfo (platform_id user_id : Int64) (socket : Int32) (row : UserRow) (chat_token : List UInt8) :
    ChatServer GroupInfo × UserInfo :=
  let data : Data :=
    {platform_id, user_id, nicknumber := row.nicknumber, nickname := row.nickname, head_url := row.head_url, socket,
      session := 0, chat_token}
  ({server with data := Function.update server.data server.fresh data, fresh := server.fresh + 1},server.fresh)

/-- The value of `AddUserInfos` is overwritten by that of `AddSocket`, which is true. -/
def OnUserLogin (socket : Int32) (platform_id user_id : Int64) (row : Option UserRow) (chat_token : List UInt8) :
    ChatServer GroupInfo × List Sent :=
  match row with
  | none => (server,[(socket,.chatFailed userNoExist)])
  | some row =>
    let (server,userinfo) := server.newUserInfo platform_id user_id socket row chat_token
    let server := server.onPlatform platform_id (·.AddUserInfos user_id userinfo)
    let server := server.AddSocket socket userinfo
    let usr_loginsucess : UserLoginSucess :=
      {platform_id, user_id, nick_number := row.nicknumber, token := SafeStrncpy TOKEN_LEN chat_token,
        nickname := SafeStrncpy NICKNAME_LEN row.nickname, head_url := SafeStrncpy HEAD_URL_LEN row.head_url}
    (server,[(socket,.userLoginSucess usr_loginsucess)])

/-- `uid` is an `int32`, as the id of the sender it is compared with. -/
def ChatServer.SendQuitInfoSession (platform_id session uid : Int64) : List Sent :=
  match server.platform_cache_[platform_id]? with
  | none => []
  | some pl =>
    let user_quit : UserQuitNotification := {platform_id, user_id := narrow uid}
    (pl.SendMeetingNotSelf (fun userinfo => (server.data userinfo).user_id) session (narrow uid)).map
      fun userinfo => ((server.data userinfo).socket,.userQuitNotification user_quit)

def ClearUserinfo (platform_id user_id session : Int64) : ChatServer GroupInfo × List Sent :=
  let server := server.onPlatform platform_id (·.DelMeetingInfos session user_id)
  let sent := server.SendQuitInfoSession platform_id session user_id
  (server.onPlatform platform_id fun pl => (pl.DelUserInos user_id).1,sent)

def OnAberrant (socket : Int32) : ChatServer GroupInfo × List Sent :=
  match server.GetSocket socket with
  | none => (server,[])
  | some user_info =>
    let data := server.data user_info
    ClearUserinfo (server.DelSocket socket) data.platform_id data.user_id data.session

/-- The token is checked and the result overwritten. -/
def OnUserQuit (socket : Int32) (platform_id user_id session : Int64) : ChatServer GroupInfo × List Sent :=
  match server.GetUserInfos platform_id user_id with
  | none => (server,[])
  | some _ => ClearUserinfo (server.DelSocket socket) platform_id user_id session

end Handlers

/-! ### The request for an opposition info

Between two operations of the manager other requests are handled, so
`OnGetUserInfo` goes from place to place. That a robot is told to come is not part
of this server. -/

/-- The arguments of `OnGetUserInfo`. -/
structure InfoRequest where
  socket : Int32
  platform_id : Int64
  user_id : Int64
  oppinfo_id : Int64
  type : Int32

/-- The local variables of the two users. -/
structure Infos where
  oppinfo_user_info : UserInfo
  userinfo : UserInfo

inductive Place
  | begin
  | opponent (oppinfo_user_info : UserInfo)
  | selecting (infos : Infos)
  | offering (infos : Infos)
  | offered (infos : Infos) (session : Int64)
  | matched (infos : Infos) (session : Int64)
  | marked (infos : Infos) (session : Int64)
  | cleared (infos : Infos) (session : Int64)
  | ready (infos : Infos) (session : Int64)
  | answered (message : Option Body)

/-- What a step takes from outside: the row of the opponent and the random id. -/
structure Chance where
  row : Option UserRow
  random : Int64

section OppositionInfo
variable {GroupInfo : Type} (server : ChatServer GroupInfo)

def ChatServer.IsExitsLeaveInfos (platform_id tid mid : Int64) : Option Int64 := do
  let pl ← server.platform_cache_[platform_id]?
  pl.IsExitsLeaveInfos tid mid

def ChatServer.SetSession (userinfo : UserInfo) (session : Int64) : ChatServer GroupInfo :=
  {server with data := Function.update server.data userinfo {server.data userinfo with session}}

def oppositionInfo (request : InfoRequest) (infos : Infos) (session : Int64) : OppositionInfo :=
  let userinfo := server.data infos.userinfo
  let oppinfo_user_info := server.data infos.oppinfo_user_info
  let oppinfo : Oppinfo :=
    {user_id := request.oppinfo_id, user_nicknumber := oppinfo_user_info.nicknumber,
      nickname := SafeStrncpy NICKNAME_LEN oppinfo_user_info.nickname,
      user_head := SafeStrncpy HEAD_URL_LEN oppinfo_user_info.head_url}
  {platform_id := request.platform_id, oppo_id := request.oppinfo_id, oppo_nick_number := userinfo.nicknumber, session,
    oppo_type := request.type.toInt16, oppo_nickname := SafeStrncpy NICKNAME_LEN userinfo.nickname,
    oppo_user_head := SafeStrncpy HEAD_URL_LEN userinfo.head_url, opponfo_list := [oppinfo]}

def OnGetUserInfo (request : InfoRequest) (chance : Chance) : Place → Option (ChatServer GroupInfo × Place)
  | .begin =>
    match server.GetUserInfos request.platform_id request.oppinfo_id with
    | some oppinfo_user_info => some (server,.opponent oppinfo_user_info)
    | none =>
      match chance.row with
      | none => some (server,.answered (some (.chatFailed userNoExist)))
      | some row =>
        let (server,oppinfo_user_info) := server.newUserInfo request.platform_id request.oppinfo_id 0 row []
        some (server,.opponent oppinfo_user_info)
  | .opponent oppinfo_user_info =>
    match server.GetUserInfos request.platform_id request.user_id with
    | none => some (server,.answered none)
    | some userinfo => some (server,.selecting {oppinfo_user_info, userinfo})
  | .selecting infos =>
    match server.IsExitsLeaveInfos request.platform_id request.oppinfo_id request.user_id with
    | none => some (server,.offering infos)
    | some session => some (server,.matched infos session)
  | .offering infos =>
    some (server.onPlatform request.platform_id (·.AddLeaveInfos chance.random request.oppinfo_id request.user_id),
      .offered infos chance.random)
  | .offered infos session => some (server.SetSession infos.userinfo session,.ready infos session)
  | .matched infos session => some (server.SetSession infos.userinfo session,.marked infos session)
  | .marked infos session =>
    some (server.onPlatform request.platform_id fun pl => (pl.ClearLeaveInfos request.oppinfo_id).1,.cleared infos session)
  | .cleared infos session =>
    some (server.onPlatform request.platform_id (·.AddMeetingPair session request.oppinfo_id request.user_id),
      .ready infos session)
  | .ready infos session => some (server,.answered (some (.oppositionInfo (oppositionInfo server request infos session))))
  | .answered _ => none

end OppositionInfo

end Migfm.Chat
