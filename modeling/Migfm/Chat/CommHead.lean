import Migfm.Wire.Protocol

/-! The message structs of chat/base/comm_head.h, with their size macros. -/
namespace Migfm.Chat
open Wire

def TOKEN_LEN : Nat := 32
def NICKNAME_LEN : Nat := 48
def HEAD_URL_LEN : Nat := 256

inductive operatorcode
  | HEART_PACKET
  | PACKET_CONFIRM
  | CHAT_ERROR
  | USER_LOGIN
  | USER_LOGIN_SUCESS
  | USER_LOGIN_FAILED
  | USER_QUIT
  | USER_NOTIFICATION_QUIT
  | REQ_OPPOSITION_INFO
  | GET_OPPOSITION_INFO
  | USER_ONLINE_REQ
  | USER_ONLINE_RSP
  | TEXT_CHAT_PRIVATE_SEND
  | TEXT_CHAT_PRIVATE_RECV
  | MULTI_SOUND_SEND
  | MULTI_SOUND_RECV
  | MULTI_CHAT_SEND
  | MULTI_CHAT_RECV
deriving DecidableEq

def operatorcode.value : operatorcode → Int32
  | HEART_PACKET => 100
  | PACKET_CONFIRM => 200
  | CHAT_ERROR => 300
  | USER_LOGIN => 1000
  | USER_LOGIN_SUCESS => 1001
  | USER_LOGIN_FAILED => 1002
  | USER_QUIT => 1010
  | USER_NOTIFICATION_QUIT => 1011
  | REQ_OPPOSITION_INFO => 1020
  | GET_OPPOSITION_INFO => 1021
  | USER_ONLINE_REQ => 1030
  | USER_ONLINE_RSP => 1031
  | TEXT_CHAT_PRIVATE_SEND => 1100
  | TEXT_CHAT_PRIVATE_RECV => 1101
  | MULTI_SOUND_SEND => 2100
  | MULTI_SOUND_RECV => 2101
  | MULTI_CHAT_SEND => 2200
  | MULTI_CHAT_RECV => 2201

def operatorcode.all : List operatorcode :=
  [HEART_PACKET,PACKET_CONFIRM,CHAT_ERROR,USER_LOGIN,USER_LOGIN_SUCESS,USER_LOGIN_FAILED,USER_QUIT,
    USER_NOTIFICATION_QUIT,REQ_OPPOSITION_INFO,GET_OPPOSITION_INFO,USER_ONLINE_REQ,USER_ONLINE_RSP,
    TEXT_CHAT_PRIVATE_SEND,TEXT_CHAT_PRIVATE_RECV,MULTI_SOUND_SEND,MULTI_SOUND_RECV,MULTI_CHAT_SEND,
    MULTI_CHAT_RECV]

/-- The code a received number stands for, if it stands for one. -/
def operatorcode.ofValue (value : Int32) : Option operatorcode :=
  all.find? fun code => code.value == value

theorem operatorcode.ofValue_value (code : operatorcode) : ofValue code.value = some code := by
  cases code <;> rfl

def PACKET_CONFIRM_SIZE : Nat := 8 * 5 + TOKEN_LEN

structure PacketConfirm where
  platform_id : Int64
  send_user_id : Int64
  recv_user_id : Int64
  private_msg_id : Int64
  session_id : Int64
  token : CharArray TOKEN_LEN

def USER_LOGIN_SIZE : Nat := 8 * 2 + 1 * 3 + TOKEN_LEN

structure UserLogin where
  platform_id : Int64
  user_id : Int64
  net_type : Int8
  user_type : Int8
  device : Int8
  token : CharArray TOKEN_LEN

def USER_LOGIN_SUCESS_SIZE : Nat := 8 * 3 + TOKEN_LEN + NICKNAME_LEN + HEAD_URL_LEN

structure UserLoginSucess where
  platform_id : Int64
  user_id : Int64
  nick_number : Int64
  token : CharArray TOKEN_LEN
  nickname : CharArray NICKNAME_LEN
  head_url : CharArray HEAD_URL_LEN

structure ChatFailed where
  platform_id : Int64
  error_msg : List UInt8

def USER_LOGIN_FAILED_SIZE (vChatFailed : ChatFailed) : Nat := 8 + vChatFailed.error_msg.length

def USER_QUIT_SIZE : Nat := 8 * 3 + TOKEN_LEN

structure UserQuit where
  platform_id : Int64
  user_id : Int64
  session : Int64
  token : CharArray TOKEN_LEN

def USER_NOTIFICATION_QUIT_SIZE : Nat := 8 * 2

structure UserQuitNotification where
  platform_id : Int64
  user_id : Int64

def REQ_OPPOSITION_INFO_SIZE : Nat := 8 * 3 + 2 + TOKEN_LEN

structure ReqOppstionInfo where
  platform_id : Int64
  user_id : Int64
  oppostion_id : Int64
  type : Int16
  token : CharArray TOKEN_LEN

def OPPSITIONINFO_SIZE : Nat := 8 * 2 + NICKNAME_LEN + HEAD_URL_LEN

structure Oppinfo where
  user_id : Int64
  user_nicknumber : Int64
  nickname : CharArray NICKNAME_LEN
  user_head : CharArray HEAD_URL_LEN

structure OppositionInfo where
  platform_id : Int64
  oppo_id : Int64
  oppo_nick_number : Int64
  session : Int64
  oppo_type : Int16
  oppo_nickname : CharArray NICKNAME_LEN
  oppo_user_head : CharArray HEAD_URL_LEN
  opponfo_list : List Oppinfo

structure TextChatPrivateSend where
  platform_id : Int64
  send_user_id : Int64
  recv_user_id : Int64
  session : Int64
  token : CharArray TOKEN_LEN
  content : List UInt8

def TEXTCHATPRIVATESEND_SIZE (vTextChatPrivateSend : TextChatPrivateSend) : Nat :=
  8 * 4 + TOKEN_LEN + vTextChatPrivateSend.content.length

structure TextChatPrivateRecv where
  platform_id : Int64
  send_user_id : Int64
  recv_user_id : Int64
  content : List UInt8

def TEXTCHATPRIVATERECV_SIZE (vTextChatPrivateRecv : TextChatPrivateRecv) : Nat :=
  8 * 3 + vTextChatPrivateRecv.content.length

def USERONLINEREQ_SIZE : Nat := 8 * 3 + TOKEN_LEN

structure UserOnLineReq where
  platform_id : Int64
  group_id : Int64
  user_id : Int64
  token : CharArray TOKEN_LEN

def USERONLINERSP_SIZE : Nat := 8 * 4 + NICKNAME_LEN + HEAD_URL_LEN

structure UserOnLineRsp where
  platform_id : Int64
  group_id : Int64
  user_id : Int64
  user_nicknumber : Int64
  nickname : CharArray NICKNAME_LEN
  user_head : CharArray HEAD_URL_LEN

structure MultiSoundSend where
  platform_id : Int64
  multi_id : Int64
  multi_type : Int16
  send_user_id : Int64
  session : Int64
  token : CharArray TOKEN_LEN
  sound_path : List UInt8

def MULTISOUNDSEND_SIZE (vMultiSoundSend : MultiSoundSend) : Nat :=
  8 * 4 + 2 + TOKEN_LEN + vMultiSoundSend.sound_path.length

structure MultiSoundRecv where
  platform_id : Int64
  multi_id : Int64
  send_user_id : Int64
  sound_path : List UInt8

def MULTISOUNDRECV_SIZE (vMultiSoundRecv : MultiSoundRecv) : Nat :=
  8 * 3 + vMultiSoundRecv.sound_path.length

structure MultiChatSend where
  platform_id : Int64
  multi_id : Int64
  send_user_id : Int64
  session : Int64
  token : CharArray TOKEN_LEN
  content : List UInt8

def MULTICHATSEND_SIZE (vMultiChatSend : MultiChatSend) : Nat :=
  8 * 4 + TOKEN_LEN + vMultiChatSend.content.length

structure MultiChatRecv where
  platform_id : Int64
  multi_id : Int64
  send_user_id : Int64
  send_nickname : CharArray NICKNAME_LEN
  content : List UInt8

def MULTICHATRECV_SIZE (vMultiChatRecv : MultiChatRecv) : Nat :=
  8 * 3 + NICKNAME_LEN + vMultiChatRecv.content.length

/-- A message struct without its `PacketHead`. -/
inductive Body
  | packetConfirm (vPacketConfirm : PacketConfirm)
  | userLogin (vUserLogin : UserLogin)
  | userLoginSucess (vUserLoginSucess : UserLoginSucess)
  | chatFailed (vChatFailed : ChatFailed)
  | userQuit (vUserQuit : UserQuit)
  | userQuitNotification (vUserQuitNotification : UserQuitNotification)
  | reqOppstionInfo (vReqOppstionInfo : ReqOppstionInfo)
  | oppositionInfo (vOppositionInfo : OppositionInfo)
  | userOnLineReq (vUserOnLineReq : UserOnLineReq)
  | userOnLineRsp (vUserOnLineRsp : UserOnLineRsp)
  | textChatPrivateSend (vTextChatPrivateSend : TextChatPrivateSend)
  | textChatPrivateRecv (vTextChatPrivateRecv : TextChatPrivateRecv)
  | multiSoundSend (vMultiSoundSend : MultiSoundSend)
  | multiSoundRecv (vMultiSoundRecv : MultiSoundRecv)
  | multiChatSend (vMultiChatSend : MultiChatSend)
  | multiChatRecv (vMultiChatRecv : MultiChatRecv)

/-- The code whose case casts to this struct. -/
def Body.code : Body → operatorcode
  | packetConfirm _ => .PACKET_CONFIRM
  | userLogin _ => .USER_LOGIN
  | userLoginSucess _ => .USER_LOGIN_SUCESS
  | chatFailed _ => .USER_LOGIN_FAILED
  | userQuit _ => .USER_QUIT
  | userQuitNotification _ => .USER_NOTIFICATION_QUIT
  | reqOppstionInfo _ => .REQ_OPPOSITION_INFO
  | oppositionInfo _ => .GET_OPPOSITION_INFO
  | userOnLineReq _ => .USER_ONLINE_REQ
  | userOnLineRsp _ => .USER_ONLINE_RSP
  | textChatPrivateSend _ => .TEXT_CHAT_PRIVATE_SEND
  | textChatPrivateRecv _ => .TEXT_CHAT_PRIVATE_RECV
  | multiSoundSend _ => .MULTI_SOUND_SEND
  | multiSoundRecv _ => .MULTI_SOUND_RECV
  | multiChatSend _ => .MULTI_CHAT_SEND
  | multiChatRecv _ => .MULTI_CHAT_RECV

/-- Every fixed char array of the struct ends in NUL. -/
def Body.Terminated : Body → Prop
  | packetConfirm v => v.token.Terminated
  | userLogin v => v.token.Terminated
  | userLoginSucess v => v.token.Terminated ∧ v.nickname.Terminated ∧ v.head_url.Terminated
  | userQuit v => v.token.Terminated
  | reqOppstionInfo v => v.token.Terminated
  | oppositionInfo v => v.oppo_nickname.Terminated ∧ v.oppo_user_head.Terminated ∧
      ∀ opp_info ∈ v.opponfo_list, opp_info.nickname.Terminated ∧ opp_info.user_head.Terminated
  | userOnLineReq v => v.token.Terminated
  | userOnLineRsp v => v.nickname.Terminated ∧ v.user_head.Terminated
  | textChatPrivateSend v => v.token.Terminated
  | multiSoundSend v => v.token.Terminated
  | multiChatSend v => v.token.Terminated
  | multiChatRecv v => v.send_nickname.Terminated
  | chatFailed _ | userQuitNotification _ | textChatPrivateRecv _ | multiSoundRecv _ => True

end Migfm.Chat
