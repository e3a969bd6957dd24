import Migfm.Wire.Protocol

/-! The messages of robot/base/comm_head.h and the switches of
robot/base/protocol.cc. Latitude and longitude are doubles in the structs; here
they take integer values, and a write narrows them as the conversion to `int32`
or `int64` does. -/
namespace Migfm.Robot
open Wire Library.LittleEndian

def MODE_LEN : Nat := 32
def NICKNAME_LEN : Nat := 48
def NAME_LEN : Nat := 128
def SINGER_LEN : Nat := 128
def MESSAGE_LEN : Nat := 512

inductive operatorcode
  | HEART_PACKET
  | NOTICE_USER_ROBOT_LOGIN
  | NOTICE_USER_ROBOT_HANDSEL_SONG
  | NOTICE_USER_ROBOT_HANDSEL_SONG_SUCCESS
  | NOTICE_USER_ROBOT_LISTEN_SONG
  | NOTICE_USER_ROBOT_SCHEDULER_CHAT_LOGIN
  | NOTICE_USER_ROBOT_GIFT_LUCK
  | SCHEDULER_LOGIN
  | NOTICE_ASSISTANT_LOGIN
  | ASSISTANT_LOGIN_SUCCESS
  | NOTICE_ASSISTANT_HANDSEL_SONG
  | ROBOT_LOGIN
  | NOTICE_USER_LOGIN
  | NOTICE_USER_DEFAULT_SONG
  | NOTICE_USER_CURRENT_SONG
  | NOTICE_USER_ROBOT_CHAT_LOGIN
  | NOTICE_USER_READY_GIFT_LUCK
deriving DecidableEq

def operatorcode.value : operatorcode → Int32
  | HEART_PACKET => 100
  | NOTICE_USER_ROBOT_LOGIN => 1000
  | NOTICE_USER_ROBOT_HANDSEL_SONG => 1001
  | NOTICE_USER_ROBOT_HANDSEL_SONG_SUCCESS => 1002
  | NOTICE_USER_ROBOT_LISTEN_SONG => 1003
  | NOTICE_USER_ROBOT_SCHEDULER_CHAT_LOGIN => 1004
  | NOTICE_USER_ROBOT_GIFT_LUCK => 1005
  | SCHEDULER_LOGIN => 2000
  | NOTICE_ASSISTANT_LOGIN => 2100
  | ASSISTANT_LOGIN_SUCCESS => 2101
  | NOTICE_ASSISTANT_HANDSEL_SONG => 2110
  | ROBOT_LOGIN => 3000
  | NOTICE_USER_LOGIN => 4000
  | NOTICE_USER_DEFAULT_SONG => 4001
  | NOTICE_USER_CURRENT_SONG => 4002
  | NOTICE_USER_ROBOT_CHAT_LOGIN => 4003
  | NOTICE_USER_READY_GIFT_LUCK => 4004

def operatorcode.all : List operatorcode :=
  [HEART_PACKET,NOTICE_USER_ROBOT_LOGIN,NOTICE_USER_ROBOT_HANDSEL_SONG,NOTICE_USER_ROBOT_HANDSEL_SONG_SUCCESS,
    NOTICE_USER_ROBOT_LISTEN_SONG,NOTICE_USER_ROBOT_SCHEDULER_CHAT_LOGIN,NOTICE_USER_ROBOT_GIFT_LUCK,
    SCHEDULER_LOGIN,NOTICE_ASSISTANT_LOGIN,ASSISTANT_LOGIN_SUCCESS,NOTICE_ASSISTANT_HANDSEL_SONG,ROBOT_LOGIN,
    NOTICE_USER_LOGIN,NOTICE_USER_DEFAULT_SONG,NOTICE_USER_CURRENT_SONG,NOTICE_USER_ROBOT_CHAT_LOGIN,
    NOTICE_USER_READY_GIFT_LUCK]

/-- The code a received number stands for, if it stands for one. -/
def operatorcode.ofValue (value : Int32) : Option operatorcode :=
  all.find? fun code => code.value == value

theorem operatorcode.ofValue_value (code : operatorcode) : ofValue code.value = some code := by
  cases code <;> rfl

/-! ### Message structs -/

def ROBOTINFO_SIZE : Nat := 8 * 2 + 4 * 2 + NICKNAME_LEN

structure RobotInfo where
  uid : Int64
  songid : Int64
  latitude : Int
  longitude : Int
  nickname : CharArray NICKNAME_LEN

structure NoticeRobotLogin where
  uid : Int64
  robot_list : List RobotInfo

def NOTICEUSERLOGIN_SIZE : Nat := 8 * 2 + 8 * 2

structure NoticeUserLogin where
  platform_id : Int64
  uid : Int64
  latitude : Int
  longitude : Int

structure NoticeUserDefaultSong where
  platform_id : Int64
  uid : Int64
  songid : Int64
  type_id : Int32
  mode : List UInt8

def NOTICEUSERDEFAULTSONG_SIZE (vNoticeUserDefaultSong : NoticeUserDefaultSong) : Nat :=
  8 * 3 + 4 + vNoticeUserDefaultSong.mode.length

structure NoticeUserCurrentSong where
  platform_id : Int64
  uid : Int64
  songid : Int64
  type_id : Int32
  mode : List UInt8

def NOTICEUSERCURRENTSONG_SIZE (vNoticeUserCurrentSong : NoticeUserCurrentSong) : Nat :=
  8 * 3 + 4 + vNoticeUserCurrentSong.mode.length

def ROBOT_LOGIN_SIZE : Nat := 8 * 3

structure RobotLogin where
  platform_id : Int64
  uid : Int64
  robot_id : Int64

def NOTICEUSERROBOTHANDSELSONG_SIZE : Nat := 8 * 4

structure NoticeUserRobotHandselSong where
  platform_id : Int64
  uid : Int64
  robot_id : Int64
  song_id : Int64

structure SchedulerLogin where
  platform_id : Int64
  machine_id : List UInt8

def SCHEDULER_LOGIN_SIZE (vSchedulerLogin : SchedulerLogin) : Nat := 8 + vSchedulerLogin.machine_id.length

def NOTICEUSERROBOTLISTENSONG_SIZE : Nat := 8 * 2 + 4 + MODE_LEN + NAME_LEN + SINGER_LEN

structure NoticeUserListenSong where
  platform_id : Int64
  songid : Int64
  typid : Int32
  mode : CharArray MODE_LEN
  name : CharArray NAME_LEN
  singer : CharArray SINGER_LEN

def NOTICEASSISTANTLOGIN_SIZE : Nat := 8 * 2 + NICKNAME_LEN

structure NoticeAssistantLogin where
  platform_id : Int64
  assistant_id : Int64
  nickname : CharArray NICKNAME_LEN

def ASSISTANTLOGINSUCCESS_SIZE : Nat := 8 * 2

structure AssistantLoginSuccess where
  platform_id : Int64
  assistant_id : Int64

def HANDLESONG_SIZE : Nat := 8 * 2 + MESSAGE_LEN

structure HandleSongInfo where
  uid : Int64
  songid : Int64
  message : CharArray MESSAGE_LEN

structure NoticeAssistantHandselSong where
  platform_id : Int64
  assistant_id : Int64
  list : List HandleSongInfo

def NOTICEUSERROBOTCHATLOGI_SIZE : Nat := 8 * 3

structure NoticeUserRobotChatLogin where
  platform_id : Int64
  uid : Int64
  robot_id : Int64

def NOTICEUSERROBOTGIFTLUCK_SIZE : Nat := 8 * 2 + 4 * 2 + NAME_LEN + SINGER_LEN

structure NoticeUserRobotGiftLuck where
  platform_id : Int64
  uid : Int64
  share_plat : Int32
  prize : Int32
  name : CharArray NAME_LEN
  singer : CharArray SINGER_LEN

def NOTICEUSERREADYGIFTLUCK_SIZE : Nat := 8 * 3 + 4

structure NoticeUserReadyGiftLuck where
  platform_id : Int64
  uid : Int64
  songid : Int64
  share_plat : Int32

/-- A message struct without its `PacketHead`; `heart` is nothing but the head. -/
inductive Body
  | heart
  | noticeRobotLogin (vNoticeRobotLogin : NoticeRobotLogin)
  | noticeUserLogin (vNoticeUserLogin : NoticeUserLogin)
  | noticeUserDefaultSong (vNoticeUserDefaultSong : NoticeUserDefaultSong)
  | noticeUserCurrentSong (vNoticeUserCurrentSong : NoticeUserCurrentSong)
  | robotLogin (vRobotLogin : RobotLogin)
  | noticeUserRobotHandselSong (vNoticeUserRobotHandselSong : NoticeUserRobotHandselSong)
  | schedulerLogin (vSchedulerLogin : SchedulerLogin)
  | noticeUserListenSong (vNoticeUserListenSong : NoticeUserListenSong)
  | noticeAssistantLogin (vNoticeAssistantLogin : NoticeAssistantLogin)
  | assistantLoginSuccess (vAssistantLoginSuccess : AssistantLoginSuccess)
  | noticeAssistantHandselSong (vNoticeAssistanHandselSong : NoticeAssistantHandselSong)
  | noticeUserRobotChatLogin (vNoticeUserRobotChatLogin : NoticeUserRobotChatLogin)
  | noticeUserRobotGiftLuck (vNoticeUserRobotGiftLuck : NoticeUserRobotGiftLuck)
  | noticeUserReadyGiftLuck (vNoticeUserReadyGiftLuck : NoticeUserReadyGiftLuck)

/-- The struct the case of a code casts to; two codes share one. -/
def Body.casts : operatorcode → Body → Bool
  | .HEART_PACKET,heart => true
  | .NOTICE_USER_ROBOT_LOGIN,noticeRobotLogin _ => true
  | .NOTICE_USER_LOGIN,noticeUserLogin _ => true
  | .NOTICE_USER_DEFAULT_SONG,noticeUserDefaultSong _ => true
  | .NOTICE_USER_CURRENT_SONG,noticeUserCurrentSong _ => true
  | .ROBOT_LOGIN,robotLogin _ => true
  | .NOTICE_USER_ROBOT_HANDSEL_SONG,noticeUserRobotHandselSong _ => true
  | .SCHEDULER_LOGIN,schedulerLogin _ => true
  | .NOTICE_USER_ROBOT_LISTEN_SONG,noticeUserListenSong _ => true
  | .NOTICE_ASSISTANT_LOGIN,noticeAssistantLogin _ => true
  | .ASSISTANT_LOGIN_SUCCESS,assistantLoginSuccess _ => true
  | .NOTICE_ASSISTANT_HANDSEL_SONG,noticeAssistantHandselSong _ => true
  | .NOTICE_USER_ROBOT_CHAT_LOGIN,noticeUserRobotChatLogin _ => true
  | .NOTICE_USER_ROBOT_SCHEDULER_CHAT_LOGIN,noticeUserRobotChatLogin _ => true
  | .NOTICE_USER_ROBOT_GIFT_LUCK,noticeUserRobotGiftLuck _ => true
  | .NOTICE_USER_READY_GIFT_LUCK,noticeUserReadyGiftLuck _ => true
  | _,_ => false

/-- Every fixed char array of the struct ends in NUL. -/
def Body.Terminated : Body → Prop
  | noticeRobotLogin v => ∀ robotinfo ∈ v.robot_list, robotinfo.nickname.Terminated
  | noticeUserListenSong v => v.mode.Terminated ∧ v.name.Terminated ∧ v.singer.Terminated
  | noticeAssistantLogin v => v.nickname.Terminated
  | noticeAssistantHandselSong v => ∀ handlesong ∈ v.list, handlesong.message.Terminated
  | noticeUserRobotGiftLuck v => v.name.Terminated ∧ v.singer.Terminated
  | _ => True

/-! ### PackStream -/

/-- The two list cases compute their length in place. -/
def Body.size : Body → Nat
  | heart => 0
  | noticeRobotLogin v => v.robot_list.length * ROBOTINFO_SIZE + 8
  | noticeUserLogin _ => NOTICEUSERLOGIN_SIZE
  | noticeUserDefaultSong v => NOTICEUSERDEFAULTSONG_SIZE v
  | noticeUserCurrentSong v => NOTICEUSERCURRENTSONG_SIZE v
  | robotLogin _ => ROBOT_LOGIN_SIZE
  | noticeUserRobotHandselSong _ => NOTICEUSERROBOTHANDSELSONG_SIZE
  | schedulerLogin v => SCHEDULER_LOGIN_SIZE v
  | noticeUserListenSong _ => NOTICEUSERROBOTLISTENSONG_SIZE
  | noticeAssistantLogin _ => NOTICEASSISTANTLOGIN_SIZE
  | assistantLoginSuccess _ => ASSISTANTLOGINSUCCESS_SIZE
  | noticeAssistantHandselSong v => v.list.length * HANDLESONG_SIZE + 8 * 2
  | noticeUserRobotChatLogin _ => NOTICEUSERROBOTCHATLOGI_SIZE
  | noticeUserRobotGiftLuck _ => NOTICEUSERROBOTGIFTLUCK_SIZE
  | noticeUserReadyGiftLuck _ => NOTICEUSERREADYGIFTLUCK_SIZE

def RobotInfo.write (v : RobotInfo) : Writing Unit := do
  write64 v.uid
  write64 (Int64.ofInt v.latitude)
  write64 (Int64.ofInt v.longitude)
  writeArray v.nickname

def HandleSongInfo.write (v : HandleSongInfo) : Writing Unit := do
  write64 v.uid
  write64 v.songid
  writeArray v.message

def Body.write : Body → Writing Unit
  | heart => pure ()
  | noticeUserLogin v => do
    write64 v.platform_id
    write64 v.uid
    write32 (Int32.ofInt v.latitude)
    write32 (Int32.ofInt v.longitude)
  | noticeUserDefaultSong v => do
    write64 v.platform_id
    write64 v.uid
    write64 v.songid
    write32 v.type_id
    writeText v.mode
  | noticeUserCurrentSong v => do
    write64 v.platform_id
    write64 v.uid
    write64 v.songid
    write32 v.type_id
    writeText v.mode
  | noticeRobotLogin v => do
    write64 v.uid
    writeList RobotInfo.write v.robot_list
  | schedulerLogin v => do
    write64 v.platform_id
    writeText v.machine_id
  | robotLogin v => do
    write64 v.platform_id
    write64 v.uid
    write64 v.robot_id
  | noticeUserRobotHandselSong v => do
    write64 v.platform_id
    write64 v.uid
    write64 v.robot_id
    write64 v.song_id
  | noticeUserListenSong v => do
    write64 v.platform_id
    write64 v.songid
    write32 v.typid
    writeArray v.mode
    writeArray v.name
    writeArray v.singer
  | noticeAssistantLogin v => do
    write64 v.platform_id
    write64 v.assistant_id
    writeArray v.nickname
  | assistantLoginSuccess v => do
    write64 v.platform_id
    write64 v.assistant_id
  | noticeUserRobotChatLogin v => do
    write64 v.platform_id
    write64 v.uid
    write64 v.robot_id
  | noticeUserRobotGiftLuck v => do
    write64 v.platform_id
    write64 v.uid
    write32 v.share_plat
    write32 v.prize
    writeArray v.name
    writeArray v.singer
  | noticeUserReadyGiftLuck v => do
    write64 v.platform_id
    write64 v.uid
    write64 v.songid
    write32 v.share_plat
  | noticeAssistantHandselSong v => do
    write64 v.platform_id
    write64 v.assistant_id
    writeList HandleSongInfo.write v.list

/-! ### UnpackStream

`fresh` is what a new struct holds in an `int64` field that no read sets. -/

def readNickname : Reading (CharArray NICKNAME_LEN) := readArray NICKNAME_LEN (NICKNAME_LEN - 1)
def readMode : Reading (CharArray MODE_LEN) := readArray MODE_LEN (MODE_LEN - 1)
def readName : Reading (CharArray NAME_LEN) := readArray NAME_LEN (NAME_LEN - 1)
def readSinger : Reading (CharArray SINGER_LEN) := readArray SINGER_LEN (SINGER_LEN - 1)
def readMessage : Reading (CharArray MESSAGE_LEN) := readArray MESSAGE_LEN (MESSAGE_LEN - 1)

def NoticeUserLogin.read : Reading NoticeUserLogin := do
  let platform_id ← read64
  let uid ← read64
  let latitude ← read32
  let longitude ← read32
  return {platform_id,uid,latitude := latitude.toInt,longitude := longitude.toInt}

def NoticeUserDefaultSong.read (data_length : Int32) : Reading NoticeUserDefaultSong := do
  let platform_id ← read64
  let uid ← read64
  let songid ← read64
  let type_id ← read32
  let mode ← readText (data_length - 8 * 3 - 4)
  return {platform_id,uid,songid,type_id,mode}

def NoticeUserCurrentSong.read (data_length : Int32) : Reading NoticeUserCurrentSong := do
  let platform_id ← read64
  let uid ← read64
  let songid ← read64
  let type_id ← read32
  let mode ← readText (data_length - 8 * 3 - 4)
  return {platform_id,uid,songid,type_id,mode}

def RobotInfo.read (fresh : Int64) : Reading RobotInfo := do
  let uid ← read64
  let latitude ← read32
  let longitude ← read32
  let nickname ← readNickname
  return {uid,songid := fresh,latitude := latitude.toInt,longitude := longitude.toInt,nickname}

/-- `list_size / SIZE` is a `size_t` division narrowed to `int`. -/
def listNums (list_size : Int32) (size : Nat) : Int32 := Int32.ofNat (sizeT list_size.toInt / size)

def NoticeRobotLogin.read (fresh : Int64) (data_length : Int32) : Reading NoticeRobotLogin := do
  let uid ← read64
  let nums := listNums (data_length - 8) ROBOTINFO_SIZE
  count nums
  let robot_list ← readList (RobotInfo.read fresh) nums.toNatClampNeg
  return {uid,robot_list}

def SchedulerLogin.read (data_length : Int32) : Reading SchedulerLogin := do
  let platform_id ← read64
  let machine_id ← readText (data_length - 8)
  return {platform_id,machine_id}

def RobotLogin.read : Reading RobotLogin := do
  let platform_id ← read64
  let uid ← read64
  let robot_id ← read64
  return {platform_id,uid,robot_id}

/-- `robot_id` is read twice and `song_id` never. -/
def NoticeUserRobotHandselSong.read (fresh : Int64) : Reading NoticeUserRobotHandselSong := do
  let platform_id ← read64
  let uid ← read64
  let _ ← read64
  let robot_id ← read64
  return {platform_id,uid,robot_id,song_id := fresh}

def NoticeUserListenSong.read : Reading NoticeUserListenSong := do
  let platform_id ← read64
  let songid ← read64
  let typid ← read32
  let mode ← readMode
  let name ← readName
  let singer ← readSinger
  return {platform_id,songid,typid,mode,name,singer}

def NoticeAssistantLogin.read : Reading NoticeAssistantLogin := do
  let platform_id ← read64
  let assistant_id ← read64
  let nickname ← readNickname
  return {platform_id,assistant_id,nickname}

def AssistantLoginSuccess.read : Reading AssistantLoginSuccess := do
  let platform_id ← read64
  let assistant_id ← read64
  return {platform_id,assistant_id}

def NoticeUserRobotChatLogin.read : Reading NoticeUserRobotChatLogin := do
  let platform_id ← read64
  let uid ← read64
  let robot_id ← read64
  return {platform_id,uid,robot_id}

def HandleSongInfo.read : Reading HandleSongInfo := do
  let uid ← read64
  let songid ← read8
  let message ← readMessage
  return {uid,songid := songid.toInt64,message}

def NoticeAssistantHandselSong.read (data_length : Int32) : Reading NoticeAssistantHandselSong := do
  let platform_id ← read64
  let assistant_id ← read64
  let nums := listNums (data_length - 8 * 2) HANDLESONG_SIZE
  count nums
  let list ← readList HandleSongInfo.read nums.toNatClampNeg
  return {platform_id,assistant_id,list}

def NoticeUserRobotGiftLuck.read : Reading NoticeUserRobotGiftLuck := do
  let platform_id ← read64
  let uid ← read64
  let share_plat ← read32
  let prize ← read32
  let name ← readName
  let singer ← readSinger
  return {platform_id,uid,share_plat,prize,name,singer}

def NoticeUserReadyGiftLuck.read : Reading NoticeUserReadyGiftLuck := do
  let platform_id ← read64
  let uid ← read64
  let songid ← read64
  let share_plat ← read32
  return {platform_id,uid,songid,share_plat}

def Body.read (fresh : Int64) (code : operatorcode) (data_length : Int32) : Reading Body :=
  match code with
  | .NOTICE_USER_LOGIN => noticeUserLogin <$> NoticeUserLogin.read
  | .NOTICE_USER_DEFAULT_SONG => noticeUserDefaultSong <$> NoticeUserDefaultSong.read data_length
  | .NOTICE_USER_CURRENT_SONG => noticeUserCurrentSong <$> NoticeUserCurrentSong.read data_length
  | .NOTICE_USER_ROBOT_LOGIN => noticeRobotLogin <$> NoticeRobotLogin.read fresh data_length
  | .SCHEDULER_LOGIN => schedulerLogin <$> SchedulerLogin.read data_length
  | .ROBOT_LOGIN => robotLogin <$> RobotLogin.read
  | .NOTICE_USER_ROBOT_HANDSEL_SONG => noticeUserRobotHandselSong <$> NoticeUserRobotHandselSong.read fresh
  | .NOTICE_USER_ROBOT_LISTEN_SONG => noticeUserListenSong <$> NoticeUserListenSong.read
  | .NOTICE_ASSISTANT_LOGIN => noticeAssistantLogin <$> NoticeAssistantLogin.read
  | .ASSISTANT_LOGIN_SUCCESS => assistantLoginSuccess <$> AssistantLoginSuccess.read
  | .NOTICE_USER_ROBOT_SCHEDULER_CHAT_LOGIN => noticeUserRobotChatLogin <$> NoticeUserRobotChatLogin.read
  | .NOTICE_USER_ROBOT_CHAT_LOGIN => noticeUserRobotChatLogin <$> NoticeUserRobotChatLogin.read
  | .NOTICE_ASSISTANT_HANDSEL_SONG => noticeAssistantHandselSong <$> NoticeAssistantHandselSong.read data_length
  | .NOTICE_USER_ROBOT_GIFT_LUCK => noticeUserRobotGiftLuck <$> NoticeUserRobotGiftLuck.read
  | .NOTICE_USER_READY_GIFT_LUCK => noticeUserReadyGiftLuck <$> NoticeUserReadyGiftLuck.read
  | .HEART_PACKET => pure heart
  | .NOTICE_USER_ROBOT_HANDSEL_SONG_SUCCESS => fun _ => none

/-- The codes with a case, the same sixteen in both switches. -/
def operatorcode.handled (code : operatorcode) : Bool := code != .NOTICE_USER_ROBOT_HANDSEL_SONG_SUCCESS

def protocolPack (fresh : Int64) : Dialect Body where
  handles packet_operate := (operatorcode.ofValue packet_operate).any operatorcode.handled
  casts packet_operate body := (operatorcode.ofValue packet_operate).any fun code => Body.casts code body
  size := Body.size
  write := Body.write
  read packet_operate data_length :=
    match operatorcode.ofValue packet_operate with
    | some code => Body.read fresh code data_length
    | none => fun _ => none

end Migfm.Robot
