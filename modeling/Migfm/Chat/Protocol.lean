import Migfm.Chat.CommHead

/-! The switches of chat/base/protocol.cc: what PackStream writes and what
UnpackStream reads for each of its sixteen codes. `data_length` is an `int32`
and so is every length computed from it. -/
namespace Migfm.Chat
open Wire Library.LittleEndian

/-- A fixed array read, with a NUL stored in its last byte. -/
def readToken : Reading (CharArray TOKEN_LEN) := readArray TOKEN_LEN (TOKEN_LEN - 1)
def readNickname : Reading (CharArray NICKNAME_LEN) := readArray NICKNAME_LEN (NICKNAME_LEN - 1)
def readHeadUrl : Reading (CharArray HEAD_URL_LEN) := readArray HEAD_URL_LEN (HEAD_URL_LEN - 1)

/-! ### PackStream -/

def PacketConfirm.write (v : PacketConfirm) : Writing Unit := do
  write64 v.platform_id
  write64 v.send_user_id
  write64 v.recv_user_id
  write64 v.session_id
  write64 v.private_msg_id
  writeArray v.token

def UserLogin.write (v : UserLogin) : Writing Unit := do
  write64 v.platform_id
  write64 v.user_id
  write8 v.net_type
  write8 v.user_type
  write8 v.device
  writeArray v.token

def UserLoginSucess.write (v : UserLoginSucess) : Writing Unit := do
  write64 v.platform_id
  write64 v.user_id
  write64 v.nick_number
  writeArray v.token
  writeArray v.nickname
  writeArray v.head_url

def ChatFailed.write (v : ChatFailed) : Writing Unit := do
  write64 v.platform_id
  writeText v.error_msg

def UserQuit.write (v : UserQuit) : Writing Unit := do
  write64 v.platform_id
  write64 v.user_id
  write64 v.session
  writeArray v.token

def UserQuitNotification.write (v : UserQuitNotification) : Writing Unit := do
  write64 v.platform_id
  write64 v.user_id

def ReqOppstionInfo.write (v : ReqOppstionInfo) : Writing Unit := do
  write64 v.platform_id
  write64 v.user_id
  write64 v.oppostion_id
  write16 v.type
  writeArray v.token

def TextChatPrivateSend.write (v : TextChatPrivateSend) : Writing Unit := do
  write64 v.platform_id
  write64 v.send_user_id
  write64 v.recv_user_id
  write64 v.session
  writeArray v.token
  writeText v.content

def TextChatPrivateRecv.write (v : TextChatPrivateRecv) : Writing Unit := do
  write64 v.platform_id
  write64 v.send_user_id
  write64 v.recv_user_id
  writeText v.content

def Oppinfo.write (v : Oppinfo) : Writing Unit := do
  write64 v.user_id
  write64 v.user_nicknumber
  writeArray v.nickname
  writeArray v.user_head

def OppositionInfo.write (v : OppositionInfo) : Writing Unit := do
  write64 v.platform_id
  write64 v.oppo_id
  write64 v.oppo_nick_number
  write64 v.session
  write16 v.oppo_type
  writeArray v.oppo_nickname
  writeArray v.oppo_user_head
  writeList Oppinfo.write v.opponfo_list

def UserOnLineReq.write (v : UserOnLineReq) : Writing Unit := do
  write64 v.platform_id
  write64 v.group_id
  write64 v.user_id
  writeArray v.token

def UserOnLineRsp.write (v : UserOnLineRsp) : Writing Unit := do
  write64 v.platform_id
  write64 v.group_id
  write64 v.user_id
  write64 v.user_nicknumber
  writeArray v.nickname
  writeArray v.user_head

def MultiChatSend.write (v : MultiChatSend) : Writing Unit := do
  write64 v.platform_id
  write64 v.multi_id
  write64 v.send_user_id
  write64 v.session
  writeArray v.token
  writeText v.content

def MultiChatRecv.write (v : MultiChatRecv) : Writing Unit := do
  write64 v.platform_id
  write64 v.multi_id
  write64 v.send_user_id
  writeArray v.send_nickname
  writeText v.content

def MultiSoundSend.write (v : MultiSoundSend) : Writing Unit := do
  write64 v.platform_id
  write64 v.multi_id
  write16 v.multi_type
  write64 v.send_user_id
  write64 v.session
  writeArray v.token
  writeText v.sound_path

def MultiSoundRecv.write (v : MultiSoundRecv) : Writing Unit := do
  write64 v.platform_id
  write64 v.multi_id
  write64 v.send_user_id
  writeText v.sound_path

/-- The list case computes its length in place. -/
def Body.size : Body → Nat
  | packetConfirm _ => PACKET_CONFIRM_SIZE
  | userLogin _ => USER_LOGIN_SIZE
  | userLoginSucess _ => USER_LOGIN_SUCESS_SIZE
  | chatFailed v => USER_LOGIN_FAILED_SIZE v
  | userQuit _ => USER_QUIT_SIZE
  | userQuitNotification _ => USER_NOTIFICATION_QUIT_SIZE
  | reqOppstionInfo _ => REQ_OPPOSITION_INFO_SIZE
  | oppositionInfo v => v.opponfo_list.length * OPPSITIONINFO_SIZE + 8 * 4 + 2 + NICKNAME_LEN + HEAD_URL_LEN
  | userOnLineReq _ => USERONLINEREQ_SIZE
  | userOnLineRsp _ => USERONLINERSP_SIZE
  | textChatPrivateSend v => TEXTCHATPRIVATESEND_SIZE v
  | textChatPrivateRecv v => TEXTCHATPRIVATERECV_SIZE v
  | multiSoundSend v => MULTISOUNDSEND_SIZE v
  | multiSoundRecv v => MULTISOUNDRECV_SIZE v
  | multiChatSend v => MULTICHATSEND_SIZE v
  | multiChatRecv v => MULTICHATRECV_SIZE v

def Body.write : Body → Writing Unit
  | packetConfirm v => v.write
  | userLogin v => v.write
  | userLoginSucess v => v.write
  | chatFailed v => v.write
  | userQuit v => v.write
  | userQuitNotification v => v.write
  | reqOppstionInfo v => v.write
  | oppositionInfo v => v.write
  | userOnLineReq v => v.write
  | userOnLineRsp v => v.write
  | textChatPrivateSend v => v.write
  | textChatPrivateRecv v => v.write
  | multiSoundSend v => v.write
  | multiSoundRecv v => v.write
  | multiChatSend v => v.write
  | multiChatRecv v => v.write

/-! ### UnpackStream -/

def UserLogin.read : Reading UserLogin := do
  let platform_id ← read64
  let user_id ← read64
  let net_type ← read8
  let user_type ← read8
  let device ← read8
  let token ← readToken
  return {platform_id,user_id,net_type,user_type,device,token}

def UserLoginSucess.read : Reading UserLoginSucess := do
  let platform_id ← read64
  let user_id ← read64
  let nick_number ← read64
  let token ← readToken
  let nickname ← readNickname
  let head_url ← readHeadUrl
  return {platform_id,user_id,nick_number,token,nickname,head_url}

def ChatFailed.read (data_length : Int32) : Reading ChatFailed := do
  let platform_id ← read64
  let error_msg ← readText data_length
  return {platform_id,error_msg}

def UserQuit.read : Reading UserQuit := do
  let platform_id ← read64
  let user_id ← read64
  let session ← read64
  let token ← readToken
  return {platform_id,user_id,session,token}

def UserQuitNotification.read : Reading UserQuitNotification := do
  let platform_id ← read64
  let user_id ← read64
  return {platform_id,user_id}

def ReqOppstionInfo.read : Reading ReqOppstionInfo := do
  let platform_id ← read64
  let user_id ← read64
  let oppostion_id ← read64
  let type ← read16
  let token ← readToken
  return {platform_id,user_id,oppostion_id,type,token}

def UserOnLineReq.read : Reading UserOnLineReq := do
  let platform_id ← read64
  let group_id ← read64
  let user_id ← read64
  let token ← readToken
  return {platform_id,group_id,user_id,token}

def UserOnLineRsp.read : Reading UserOnLineRsp := do
  let platform_id ← read64
  let group_id ← read64
  let user_id ← read64
  let user_nicknumber ← read64
  let nickname ← readNickname
  let user_head ← readHeadUrl
  return {platform_id,group_id,user_id,user_nicknumber,nickname,user_head}

def TextChatPrivateRecv.read (data_length : Int32) : Reading TextChatPrivateRecv := do
  let platform_id ← read64
  let send_user_id ← read64
  let recv_user_id ← read64
  let content ← readText (data_length - 8 * 2)
  return {platform_id,send_user_id,recv_user_id,content}

def TextChatPrivateSend.read (data_length : Int32) : Reading TextChatPrivateSend := do
  let platform_id ← read64
  let send_user_id ← read64
  let recv_user_id ← read64
  let session ← read64
  let token ← readToken
  let content ← readText (data_length - 8 * 4 - Int32.ofNat TOKEN_LEN)
  return {platform_id,send_user_id,recv_user_id,session,token,content}

def PacketConfirm.read : Reading PacketConfirm := do
  let platform_id ← read64
  let send_user_id ← read64
  let recv_user_id ← read64
  let session_id ← read64
  let private_msg_id ← read64
  let token ← readToken
  return {platform_id,send_user_id,recv_user_id,private_msg_id,session_id,token}

/-- The NUL after `user_head` is stored at index `HEAD_URL_LEN`, not `HEAD_URL_LEN - 1`. -/
def Oppinfo.read : Reading Oppinfo := do
  let user_id ← read64
  let user_nicknumber ← read64
  let nickname ← readNickname
  let user_head ← readArray HEAD_URL_LEN HEAD_URL_LEN
  return {user_id,user_nicknumber,nickname,user_head}

/-- `list_size / OPPSITIONINFO_SIZE` is a `size_t` division narrowed to `int`. -/
def OppositionInfo.nums (data_length : Int32) : Int32 :=
  let list_size := data_length - 8 * 3 - Int32.ofNat NICKNAME_LEN - Int32.ofNat TOKEN_LEN
  Int32.ofNat (sizeT list_size.toInt / OPPSITIONINFO_SIZE)

def OppositionInfo.read (data_length : Int32) : Reading OppositionInfo := do
  let platform_id ← read64
  let oppo_id ← read64
  let oppo_nick_number ← read64
  let session ← read64
  let oppo_type ← read16
  let oppo_nickname ← readNickname
  let oppo_user_head ← readHeadUrl
  count (nums data_length)
  let opponfo_list ← readList Oppinfo.read (nums data_length).toNatClampNeg
  return {platform_id,oppo_id,oppo_nick_number,session,oppo_type,oppo_nickname,oppo_user_head,opponfo_list}

def MultiChatSend.read (data_length : Int32) : Reading MultiChatSend := do
  let platform_id ← read64
  let multi_id ← read64
  let send_user_id ← read64
  let session ← read64
  let token ← readToken
  let content ← readText (data_length - 8 * 4 - Int32.ofNat TOKEN_LEN)
  return {platform_id,multi_id,send_user_id,session,token,content}

def MultiChatRecv.read (data_length : Int32) : Reading MultiChatRecv := do
  let platform_id ← read64
  let multi_id ← read64
  let send_user_id ← read64
  let send_nickname ← readNickname
  let content ← readText (data_length - 8 * 3 - Int32.ofNat NICKNAME_LEN)
  return {platform_id,multi_id,send_user_id,send_nickname,content}

def MultiSoundSend.read (data_length : Int32) : Reading MultiSoundSend := do
  let platform_id ← read64
  let multi_id ← read64
  let multi_type ← read16
  let send_user_id ← read64
  let session ← read64
  let token ← readToken
  let sound_path ← readText (data_length - 8 * 4 - 2 - Int32.ofNat TOKEN_LEN)
  return {platform_id,multi_id,multi_type,send_user_id,session,token,sound_path}

def MultiSoundRecv.read (data_length : Int32) : Reading MultiSoundRecv := do
  let platform_id ← read64
  let multi_id ← read64
  let send_user_id ← read64
  let sound_path ← readText (data_length - 8 * 3)
  return {platform_id,multi_id,send_user_id,sound_path}

def Body.read (code : operatorcode) (data_length : Int32) : Reading Body :=
  match code with
  | .USER_LOGIN => userLogin <$> UserLogin.read
  | .USER_LOGIN_SUCESS => userLoginSucess <$> UserLoginSucess.read
  | .USER_LOGIN_FAILED => chatFailed <$> ChatFailed.read data_length
  | .USER_QUIT => userQuit <$> UserQuit.read
  | .USER_NOTIFICATION_QUIT => userQuitNotification <$> UserQuitNotification.read
  | .REQ_OPPOSITION_INFO => reqOppstionInfo <$> ReqOppstionInfo.read
  | .USER_ONLINE_REQ => userOnLineReq <$> UserOnLineReq.read
  | .USER_ONLINE_RSP => userOnLineRsp <$> UserOnLineRsp.read
  | .TEXT_CHAT_PRIVATE_RECV => textChatPrivateRecv <$> TextChatPrivateRecv.read data_length
  | .TEXT_CHAT_PRIVATE_SEND => textChatPrivateSend <$> TextChatPrivateSend.read data_length
  | .PACKET_CONFIRM => packetConfirm <$> PacketConfirm.read
  | .GET_OPPOSITION_INFO => oppositionInfo <$> OppositionInfo.read data_length
  | .MULTI_CHAT_SEND => multiChatSend <$> MultiChatSend.read data_length
  | .MULTI_CHAT_RECV => multiChatRecv <$> MultiChatRecv.read data_length
  | .MULTI_SOUND_SEND => multiSoundSend <$> MultiSoundSend.read data_length
  | .MULTI_SOUND_RECV => multiSoundRecv <$> MultiSoundRecv.read data_length
  | .HEART_PACKET | .CHAT_ERROR => fun _ => none

/-- The codes with a case, the same sixteen in both switches. -/
def operatorcode.handled : operatorcode → Bool
  | HEART_PACKET | CHAT_ERROR => false
  | _ => true

def protocolPack : Dialect Body where
  handles packet_operate := (operatorcode.ofValue packet_operate).any operatorcode.handled
  casts packet_operate body := operatorcode.ofValue packet_operate == some body.code
  size := Body.size
  write := Body.write
  read packet_operate data_length :=
    match operatorcode.ofValue packet_operate with
    | some code => Body.read code data_length
    | none => fun _ => none

end Migfm.Chat
