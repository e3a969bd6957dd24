import Mathlib.Data.List.TakeWhile
import Migfm.Chat.Group
import Migfm.Chat.RoundTrip

/-! The chat token: SetChatToken and CheckChatToken of chat/chat/logic_unit.cc,
and the three handlers that check it. Each stores the result in `r` and then sets
`r` to true. -/
namespace Migfm.Chat
open Basic Wire Library.Runs

def ALONE_CHAT : Int32 := 1

/-- What a C string function sees. -/
def c_str (text : List UInt8) : List UInt8 := text.takeWhile (· ≠ 0)

def CheckChatToken (userinfo : Data) (token : CharArray TOKEN_LEN) : Bool :=
  c_str userinfo.chat_token = c_str token.toList

/-- The message of `MIG_CHAT_USER_PASSWORD_ERROR`. -/
def userPasswordError : ChatFailed := ⟨10000,"密码错误".toUTF8.toList⟩

/-- The caches. A confirmation is only kept with a message that was sent. -/
structure ChatCaches where
  server : ChatServer GroupInfo
  confirm_message_map_ : Int64 → Map UserInfo

/-- What comes from the database and from the generators. -/
structure Outside where
  sender : Option UserRow
  row : Option UserRow
  random : Int64
  msg_id : Int64

/-! ### OnGetOppInfos -/

/-- The steps of `OnGetUserInfo`, without others between them. -/
def finishInfo (request : InfoRequest) (chance : Chance) :
    Nat → ChatServer GroupInfo × Place → ChatServer GroupInfo × Place
  | 0,state => state
  | steps+1,(server,place) =>
    match OnGetUserInfo server request chance place with
    | none => (server,place)
    | some next => finishInfo request chance steps next

def wholeInfo (server : ChatServer GroupInfo) (request : InfoRequest) (chance : Chance) :
    ChatServer GroupInfo × List Sent :=
  match finishInfo request chance 9 (server,.begin) with
  | (server,.answered (some message)) => (server,[(request.socket,message)])
  | (server,_) => (server,[])

/-- What `OnGetOppInfos` does after the check. -/
def selectType (server : ChatServer GroupInfo) (socket : Int32) (vReqOppstionInfo : ReqOppstionInfo) (outside : Outside) :
    ChatServer GroupInfo × List Sent :=
  let type := vReqOppstionInfo.type.toInt32
  if type = ALONE_CHAT then
    wholeInfo server ⟨socket,vReqOppstionInfo.platform_id,vReqOppstionInfo.user_id,vReqOppstionInfo.oppostion_id,type⟩
      ⟨outside.row,outside.random⟩
  else if type = TEMP_GROUP_CHAT ∨ type = DIMENSION_GROUP_CHAT then
    OnGetGroupInfo server socket vReqOppstionInfo.platform_id vReqOppstionInfo.user_id vReqOppstionInfo.oppostion_id type
  else (server,[])

def OnGetOppInfos (server : ChatServer GroupInfo) (socket : Int32) (vReqOppstionInfo : ReqOppstionInfo)
    (outside : Outside) : ChatServer GroupInfo × List Sent :=
  match server.GetUserInfos vReqOppstionInfo.platform_id vReqOppstionInfo.user_id with
  | none => (server,[])
  | some user_info =>
    let _r := CheckChatToken (server.data user_info) vReqOppstionInfo.token
    let r := true
    if !r then (server,[(socket,.chatFailed userPasswordError)])
    else selectType server socket vReqOppstionInfo outside

/-! ### OnUserQuit -/

def OnUserQuitPacket (server : ChatServer GroupInfo) (socket : Int32) (vUserQuit : UserQuit) :
    ChatServer GroupInfo × List Sent :=
  match server.GetUserInfos vUserQuit.platform_id vUserQuit.user_id with
  | none => (server,[])
  | some userinfo =>
    let _r := CheckChatToken (server.data userinfo) vUserQuit.token
    let r := true
    if !r then (server,[(socket,.chatFailed userPasswordError)])
    else ClearUserinfo (server.DelSocket socket) vUserQuit.platform_id vUserQuit.user_id vUserQuit.session

theorem OnUserQuitPacket_eq (server : ChatServer GroupInfo) (socket : Int32) (vUserQuit : UserQuit) :
    OnUserQuitPacket server socket vUserQuit =
      OnUserQuit server socket vUserQuit.platform_id vUserQuit.user_id vUserQuit.session := by
  simp only [OnUserQuitPacket,OnUserQuit]
  cases server.GetUserInfos vUserQuit.platform_id vUserQuit.user_id with
  | none => rfl
  | some userinfo => rfl

/-! ### OnMessage -/

/-- The user whom the official account 10000 sends for is read from the database,
found or not. -/
def ChatServer.sender (server : ChatServer GroupInfo) (platform_id send_user_id : Int64) (row : Option UserRow) :
    Option (ChatServer GroupInfo × UserInfo) :=
  if send_user_id ≠ 10000 then (server.GetUserInfos platform_id send_user_id).map fun userinfo => (server,userinfo)
  else
    match row with
    | some row => some (server.newUserInfo platform_id send_user_id 0 row [])
    | none => some ({server with data := Function.update server.data server.fresh noData, fresh := server.fresh + 1},
        server.fresh)

/-- What `OnMessage` does after the check, but for what it writes to the database
and to the push queue. -/
def sendPrivate (caches : ChatCaches) (socket : Int32) (private_send : TextChatPrivateSend) (outside : Outside) :
    ChatCaches × List Sent :=
  match caches.server.sender private_send.platform_id private_send.send_user_id outside.sender with
  | none => (caches,[(socket,.chatFailed userNoExist)])
  | some (server,send_user_info) =>
    match server.GetUserInfos private_send.platform_id private_send.recv_user_id with
    | none =>
      match outside.row with
      | none => ({caches with server},[(socket,.chatFailed userNoExist)])
      | some row =>
        let (server,_) := server.newUserInfo private_send.platform_id private_send.recv_user_id 0 row []
        ({caches with server},[])
    | some recv_user_info =>
      if (server.data recv_user_info).session ≠ private_send.session then ({caches with server},[])
      else
        let private_recv : TextChatPrivateRecv :=
          {platform_id := private_send.platform_id, send_user_id := private_send.send_user_id,
            recv_user_id := private_send.recv_user_id, content := private_send.content}
        let platform_id := private_send.platform_id
        let confirm_message_map_ := Function.update caches.confirm_message_map_ platform_id
          (MapAdd (caches.confirm_message_map_ platform_id) outside.msg_id send_user_info)
        ({server, confirm_message_map_},[((server.data recv_user_info).socket,.textChatPrivateRecv private_recv)])

/-- The token is checked against that of a new `UserInfo`, which is empty. -/
def OnMessage (caches : ChatCaches) (socket : Int32) (private_send : TextChatPrivateSend) (outside : Outside) :
    ChatCaches × List Sent :=
  let _r := CheckChatToken noData private_send.token
  let r := true
  if !r then (caches,[(socket,.chatFailed userPasswordError)])
  else sendPrivate caches socket private_send outside

/-! ### The token on its way -/

/-- A token as it is after it was read: its last byte is gone. -/
def echoed (chat_token : List UInt8) : CharArray TOKEN_LEN :=
  (SafeStrncpy TOKEN_LEN chat_token).setIfInBounds (TOKEN_LEN - 1) 0

/-- The user gets the echoed token at login. -/
theorem reads_loginSucess {v : UserLoginSucess} (nickname : v.nickname.Terminated) (head_url : v.head_url.Terminated)
    {chat_token : List UInt8} (issued : v.token = SafeStrncpy TOKEN_LEN chat_token) (data_length : Int32) :
    Reads (Body.read .USER_LOGIN_SUCESS data_length) (Body.userLoginSucess v).layout
      (.userLoginSucess {v with token := echoed chat_token}) := by
  have token := reads_array_store v.token (TOKEN_LEN - 1)
  rw [issued] at token
  rw [Body.layout,issued]
  exact Reads.map Body.userLoginSucess ((reads_scalar _).cons ((reads_scalar _).cons ((reads_scalar _).cons
    (token.cons ((reads_nickname nickname).cons ((reads_headUrl head_url).cons (Reads.pure _)))))))

/-- It comes back in a request as it was sent. -/
theorem reads_echoed (chat_token : List UInt8) : Reads readToken [(echoed chat_token).toList] (echoed chat_token) := by
  apply reads_token
  rw [CharArray.Terminated,echoed,Vector.getElem?_setIfInBounds_self]
  rfl

/-- The text of an MD5 sum. -/
def Hash (chat_token : List UInt8) : Prop :=
  chat_token.length = TOKEN_LEN ∧ ∀ digit ∈ chat_token, (48 ≤ digit ∧ digit ≤ 57) ∨ (97 ≤ digit ∧ digit ≤ 102)

theorem c_str_length (text : List UInt8) (n : Nat) (nul : text[n]? = some 0) : (c_str text).length ≤ n := by
  induction text generalizing n with
  | nil => cases nul
  | cons byte text ih =>
    rw [c_str,List.takeWhile_cons]
    split
    · rename_i nonzero
      cases n with
      | zero =>
        cases nul
        exact absurd nonzero (by decide)
      | succ n => exact Nat.succ_le_succ (ih n nul)
    · exact Nat.zero_le n

/-- The check itself never lets an issued token pass, as it compares 32 digits with 31. -/
theorem CheckChatToken_echoed {userinfo : Data} (hash : Hash userinfo.chat_token) :
    CheckChatToken userinfo (echoed userinfo.chat_token) = false := by
  have whole : c_str userinfo.chat_token = userinfo.chat_token := by
    refine List.takeWhile_eq_self_iff.mpr ?_
    intro digit member
    have range := hash.2 digit member
    refine decide_eq_true ?_
    rintro rfl
    exact absurd range (by decide)
  have short := c_str_length (echoed userinfo.chat_token).toList 31 (by
    rw [Vector.getElem?_toList,echoed,TOKEN_LEN,Vector.getElem?_setIfInBounds_self]
    rfl)
  rw [CheckChatToken,whole]
  refine decide_eq_false ?_
  intro same
  rw [← same,hash.1] at short
  exact absurd short (by decide)

/-! ### Who passes -/

inductive TokenRequest
  | oppinfos (vReqOppstionInfo : ReqOppstionInfo)
  | quit (vUserQuit : UserQuit)
  | message (private_send : TextChatPrivateSend)

namespace TokenRequest

def platform_id : TokenRequest → Int64
  | oppinfos v => v.platform_id
  | quit v => v.platform_id
  | message v => v.platform_id

/-- The user whose token it is. -/
def user_id : TokenRequest → Int64
  | oppinfos v => v.user_id
  | quit v => v.user_id
  | message v => v.send_user_id

def token : TokenRequest → CharArray TOKEN_LEN
  | oppinfos v => v.token
  | quit v => v.token
  | message v => v.token

def handle (caches : ChatCaches) (socket : Int32) (outside : Outside) : TokenRequest → ChatCaches × List Sent
  | oppinfos v =>
    let (server,sent) := OnGetOppInfos caches.server socket v outside
    ({caches with server},sent)
  | quit v =>
    let (server,sent) := OnUserQuitPacket caches.server socket v
    ({caches with server},sent)
  | message v => OnMessage caches socket v outside

/-- The value of `r` after the check, if the handler comes to it. -/
def gate (server : ChatServer GroupInfo) : TokenRequest → Option Bool
  | oppinfos v => (server.GetUserInfos v.platform_id v.user_id).map fun user_info =>
    let _r := CheckChatToken (server.data user_info) v.token
    true
  | quit v => (server.GetUserInfos v.platform_id v.user_id).map fun userinfo =>
    let _r := CheckChatToken (server.data userinfo) v.token
    true
  | message v =>
    let _r := CheckChatToken noData v.token
    some true

/-- What the handler does once `r` is true. -/
def perform (caches : ChatCaches) (socket : Int32) (outside : Outside) : TokenRequest → ChatCaches × List Sent
  | oppinfos v =>
    let (server,sent) := selectType caches.server socket v outside
    ({caches with server},sent)
  | quit v =>
    let (server,sent) := ClearUserinfo (caches.server.DelSocket socket) v.platform_id v.user_id v.session
    ({caches with server},sent)
  | message v => sendPrivate caches socket v outside

theorem handle_gate (caches : ChatCaches) (socket : Int32) (outside : Outside) (request : TokenRequest) :
    request.handle caches socket outside =
      match request.gate caches.server with
      | none => (caches,[])
      | some false => (caches,[(socket,.chatFailed userPasswordError)])
      | some true => request.perform caches socket outside := by
  cases request with
  | oppinfos v =>
    simp only [handle,OnGetOppInfos,gate]
    cases caches.server.GetUserInfos v.platform_id v.user_id with
    | none => rfl
    | some user_info => rfl
  | quit v =>
    simp only [handle,OnUserQuitPacket,gate]
    cases caches.server.GetUserInfos v.platform_id v.user_id with
    | none => rfl
    | some userinfo => rfl
  | message v => rfl

/-- The lookup under the narrowed id finds a user, or there is none. -/
def Found (server : ChatServer GroupInfo) : TokenRequest → Prop
  | oppinfos v => server.GetUserInfos v.platform_id v.user_id ≠ none
  | quit v => server.GetUserInfos v.platform_id v.user_id ≠ none
  | message _ => True

theorem gate_true {server : ChatServer GroupInfo} {request : TokenRequest} :
    request.gate server = some true ↔ request.Found server := by
  cases request with
  | oppinfos v | quit v =>
    simp only [gate,Found]
    cases server.GetUserInfos v.platform_id v.user_id with
    | none => exact iff_of_false nofun (not_not.mpr rfl)
    | some userinfo => exact iff_of_true rfl nofun
  | message v => exact iff_of_true rfl trivial

theorem gate_none {server : ChatServer GroupInfo} {request : TokenRequest} (absent : ¬request.Found server) :
    request.gate server = none := by
  cases request with
  | oppinfos v | quit v => rw [gate,not_not.mp absent,Option.map_none]
  | message v => exact absurd trivial absent

/-- With the token of the user's login the request is performed; with another one
it is not, and neither the caches nor another socket learn of it. -/
structure Checked (caches : ChatCaches) (socket : Int32) (outside : Outside) (request : TokenRequest)
    (chat_token : List UInt8) : Prop where
  accepts : request.token = echoed chat_token → request.gate caches.server = some true
  rejects : request.token ≠ echoed chat_token → request.gate caches.server ≠ some true ∧
    (request.handle caches socket outside).1 = caches ∧ ∀ sent ∈ (request.handle caches socket outside).2, sent.1 = socket

theorem checked_of_token (caches : ChatCaches) (socket : Int32) (outside : Outside) (request : TokenRequest)
    (chat_token : List UInt8) :
    request.Checked caches socket outside chat_token ↔ (request.Found caches.server ↔ request.token = echoed chat_token) := by
  constructor
  · intro checked
    constructor
    · intro found
      by_contra other
      exact (checked.rejects other).1 (gate_true.mpr found)
    · intro same
      exact gate_true.mp (checked.accepts same)
  · intro agree
    constructor
    · intro same
      exact gate_true.mpr (agree.mpr same)
    · intro other
      have absent : ¬request.Found caches.server := fun found => other (agree.mp found)
      rw [handle_gate,gate_none absent]
      refine ⟨nofun,rfl,?_⟩
      intro sent listed
      cases listed

/-- The check is right for whoever is logged in under the id that the request names. -/
def Guarded (caches : ChatCaches) (socket : Int32) (outside : Outside) (request : TokenRequest) : Prop :=
  ∀ userinfo, caches.server.registry.user request.platform_id request.user_id = some userinfo →
    Hash (caches.server.data userinfo).chat_token →
      request.Checked caches socket outside (caches.server.data userinfo).chat_token

end TokenRequest

/-- A request that is looked at is performed whatever token it carries, so it is
handled as it should be exactly if it carries the right one. -/
theorem tokenChecked_iff (caches : ChatCaches) (socket : Int32) (outside : Outside) (request : TokenRequest) :
    request.Guarded caches socket outside ↔ ∀ userinfo,
      caches.server.registry.user request.platform_id request.user_id = some userinfo →
        Hash (caches.server.data userinfo).chat_token →
          (request.Found caches.server ↔ request.token = echoed (caches.server.data userinfo).chat_token) :=
  forall_congr' fun _ => forall_congr' fun _ => forall_congr' fun _ =>
    TokenRequest.checked_of_token caches socket outside request _

/-- A text of 32 zeros. -/
def zeros : List UInt8 := List.replicate 32 48

def counterVisits : List Visit := [.setPlatform 10000,.login 5 10000 7 (some ⟨7,[],[]⟩) zeros]

/-- User 7 has logged in. -/
def counter : ChatServer GroupInfo := (run visit (.start fun _ => noData) counterVisits).get rfl

/-- Somebody quits for user 7 with an empty token. -/
theorem counter_open : Reachable hallRequests ⟨counter,fun _ => .begin⟩ ∧
    ¬(TokenRequest.quit ⟨10000,7,0,SafeStrncpy TOKEN_LEN []⟩).Guarded ⟨counter,fun _ => ∅⟩ 6 ⟨none,none,0,0⟩ := by
  refine ⟨(Reachable.start fun _ => noData).visits counterVisits rfl,?_⟩
  intro guarded
  have hash : Hash zeros := by
    refine ⟨List.length_replicate,?_⟩
    intro digit member
    rw [List.eq_of_mem_replicate member]
    decide
  have checked := guarded 0 rfl hash
  refine (checked.rejects ?_).1 rfl
  decide

end Migfm.Chat
