import Migfm.Logic.Infos
import Migfm.Logic.StringConversions
import Migfm.Public.UrlDecode

/-! The requests of pub/net/comm_head.h, music_comm_head.h and user_comm_head.h. An
object is made of the dictionary it points to; `rubbish` is what is in a variable that a
value is read into but never stored. Reals are left out. -/
namespace Migfm.Recv
open Logic Public

/-! ### Heads -/

inductive errorcode
  | TYPE_LACK
  | PLATFORM_LACK
  | MACHINE_LACK
  | SOUCE_LACK
  | NICKNAME_LACK
  | SESSION_LACK
  | UID_LACK
  | TOKEN_LACK
  | BIRTHDAT_LACK
  | BD_CHANNEL_LACK
  | BD_USERID_LACK
  | PKG_NAME_LACK
  | TAG_LACK
  | APPID_LACK
  | REQUEST_LACK
  | MUSIC_TYPE_LACK
  | MUSIC_TYPE_ID_LACK
  | MUSIC_SONG_ID_LACK

def errorcode.value : errorcode → Int32
  | TYPE_LACK => -200
  | PLATFORM_LACK => -500
  | MACHINE_LACK => -1102
  | SOUCE_LACK => -1103
  | NICKNAME_LACK => -1104
  | SESSION_LACK => -1106
  | UID_LACK => -1107
  | TOKEN_LACK => -1108
  | BIRTHDAT_LACK => -1109
  | BD_CHANNEL_LACK => -1200
  | BD_USERID_LACK => -1201
  | PKG_NAME_LACK => -1202
  | TAG_LACK => -1203
  | APPID_LACK => -1204
  | REQUEST_LACK => -1205
  | MUSIC_TYPE_LACK => -2000
  | MUSIC_TYPE_ID_LACK => -2001
  | MUSIC_SONG_ID_LACK => -2002

/-- `if(!r) error_code_ = code`. -/
def lack (r : Bool) (code : errorcode) (error_code_ : Int32) : Int32 := if r then error_code_ else code.value

@[simp] theorem lack_zero {r : Bool} {code : errorcode} {error_code_ : Int32} :
    lack r code error_code_ = 0 ↔ error_code_ = 0 ∧ r = true := by
  have other : code.value ≠ 0 := by cases code <;> decide
  rw [lack]
  cases r
  · simp [other]
  · simp

structure HeadPacket where
  type_ : Int32
  remote_addr_ : List UInt8
  error_code_ : Int32
  login_machine_ : Int64

namespace HeadPacket

def Reset (rubbish : String → Int64) (m_ : ValueMap Value) : HeadPacket :=
  let type := GetBigInteger m_ "type"
  { type_ := (type.getD (rubbish "type")).toInt32
    error_code_ := lack type.isSome .TYPE_LACK 0
    remote_addr_ := (GetString m_ "remote_addr").getD []
    login_machine_ := (GetBigInteger m_ "login_machine").getD (rubbish "login_machine") }

def GetResult (packet : HeadPacket) : Int32 := packet.error_code_

def login_machine (packet : HeadPacket) : Int32 := packet.login_machine_.toInt32

end HeadPacket

structure LoginHeadPacket extends HeadPacket where
  uid_ : Int64
  token_ : List UInt8

def LoginHeadPacket.Init (rubbish : String → Int64) (m_ : ValueMap Value) : LoginHeadPacket :=
  let head := HeadPacket.Reset rubbish m_
  let uid := GetBigInteger m_ "uid"
  let token := GetString m_ "token"
  { head with
    uid_ := uid.getD (rubbish "uid")
    token_ := token.getD []
    error_code_ := head.error_code_ |> lack uid.isSome .UID_LACK |> lack token.isSome .TOKEN_LACK }

/-! ### Music -/

structure DelCollect extends LoginHeadPacket where
  songid_ : Int64

def DelCollect.Init (rubbish : String → Int64) (m_ : ValueMap Value) : DelCollect :=
  let head := LoginHeadPacket.Init rubbish m_
  let songid := GetBigInteger m_ "songid"
  { head with
    songid_ := songid.getD (rubbish "songid")
    error_code_ := head.error_code_ |> lack songid.isSome .MUSIC_SONG_ID_LACK }

structure SetCollect extends LoginHeadPacket where
  songid_ : Int64
  dimemsion_id_ : Int64
  dimension_alais_ : List UInt8

def SetCollect.Init (rubbish : String → Int64) (m_ : ValueMap Value) : SetCollect :=
  let head := LoginHeadPacket.Init rubbish m_
  let songid := GetBigInteger m_ "songid"
  let typeid := GetBigInteger m_ "typeid"
  let sid := if typeid.isSome then typeid else GetBigInteger m_ "sid"
  let modetype := GetString m_ "modetype"
  let dimension := if modetype.isSome then modetype else GetString m_ "dimension"
  { head with
    songid_ := songid.getD (rubbish "songid")
    dimemsion_id_ := sid.getD (rubbish "sid")
    dimension_alais_ := dimension.getD []
    error_code_ := head.error_code_ |> lack songid.isSome .MUSIC_SONG_ID_LACK |> lack sid.isSome .MUSIC_TYPE_ID_LACK
      |> lack dimension.isSome .MUSIC_TYPE_LACK }

structure Dimension extends LoginHeadPacket where
  dimension_name_ : List UInt8
  dimension_sub_id_ : Int64

def Dimension.Init (rubbish : String → Int64) (m_ : ValueMap Value) : Dimension :=
  let head := LoginHeadPacket.Init rubbish m_
  let sid := GetBigInteger m_ "sid"
  let dimension := GetString m_ "dimension"
  { head with
    dimension_sub_id_ := sid.getD (rubbish "sid")
    dimension_name_ := dimension.getD []
    error_code_ := head.error_code_ |> lack sid.isSome .MUSIC_TYPE_LACK |> lack dimension.isSome .MUSIC_TYPE_ID_LACK }

structure DimensionUnit where
  dimension_id_ : Int64
  dimension_index_ : Int64
  dimension_alias_name_ : List UInt8

/-- The unit keeps -1 where nothing is set. -/
def DimensionUnit.set (alias_name : List UInt8) (id index : Option Int64) : DimensionUnit :=
  ⟨id.getD (-1),index.getD (-1),alias_name⟩

structure Dimensions extends LoginHeadPacket where
  type_dimension_ : DimensionUnit
  channel_dimension_ : DimensionUnit
  mood_dimension_ : DimensionUnit
  scens_dimension_ : DimensionUnit
  num_ : Int64

def Dimensions.Init (rubbish : String → Int64) (m_ : ValueMap Value) : Dimensions :=
  let head := LoginHeadPacket.Init rubbish m_
  let typeid := GetBigInteger m_ "typeid"
  let moodid := GetBigInteger m_ "moodid"
  let sceneid := GetBigInteger m_ "sceneid"
  let channelid := GetBigInteger m_ "channelid"
  let typeindex := GetBigInteger m_ "typeindex"
  let channelindex := GetBigInteger m_ "channelindex"
  let moodindex := GetBigInteger m_ "moodindex"
  let sceneindex := GetBigInteger m_ "sceneindex"
  { head with
    type_dimension_ := .set [] typeid typeindex
    mood_dimension_ := .set [109,109] moodid moodindex
    scens_dimension_ := .set [109,115] sceneid sceneindex
    channel_dimension_ := .set [99,104,108] channelid channelindex
    num_ := (GetBigInteger m_ "num").getD 5
    error_code_ := head.error_code_ |> lack typeid.isSome .MUSIC_TYPE_LACK |> lack moodid.isSome .MUSIC_TYPE_LACK
      |> lack sceneid.isSome .MUSIC_TYPE_LACK |> lack channelid.isSome .MUSIC_TYPE_LACK
      |> lack typeindex.isSome .MUSIC_TYPE_LACK |> lack channelindex.isSome .MUSIC_TYPE_LACK
      |> lack moodindex.isSome .MUSIC_TYPE_LACK |> lack sceneindex.isSome .MUSIC_TYPE_LACK }

structure RecordMusic extends LoginHeadPacket where
  last_song_id_ : Int64
  current_song_id_ : Int64
  dimension_sub_id_ : Int64
  state_ : Int64
  singer_ : List UInt8
  name_ : List UInt8
  dimension_name_ : List UInt8

def RecordMusic.Init (rubbish : String → Int64) (m_ : ValueMap Value) : RecordMusic :=
  let head := LoginHeadPacket.Init rubbish m_
  let cursong := GetBigInteger m_ "cursong"
  let typeid := GetBigInteger m_ "typeid"
  let mode := GetString m_ "mode"
  { head with
    current_song_id_ := cursong.getD (rubbish "cursong")
    dimension_sub_id_ := typeid.getD (rubbish "typeid")
    dimension_name_ := (mode.map UrlDecode).getD []
    last_song_id_ := (GetBigInteger m_ "lastsong").getD 0
    state_ := (GetBigInteger m_ "state").getD 0
    singer_ := ((GetString m_ "singer").map UrlDecode).getD (utf8 "佚名".toList)
    -- what is decoded is the empty name, not the text that was read
    name_ := ((GetString m_ "song").map fun _ => UrlDecode []).getD (utf8 "未知".toList)
    error_code_ := head.error_code_ |> lack cursong.isSome .MUSIC_SONG_ID_LACK |> lack typeid.isSome .MUSIC_TYPE_ID_LACK
      |> lack mode.isSome .MUSIC_TYPE_LACK }

/-! ### Users -/

/-- A number, or a text that is decoded. -/
def nickname (m_ : ValueMap Value) : Option (List UInt8) :=
  match GetBigInteger m_ "nickname" with
  | some inickname => some (decimal inickname.toInt)
  | none => (GetString m_ "nickname").map UrlDecode

def PLAT_WB : Int32 := 1
def PLAT_WX : Int32 := 2
def PLAT_QQ : Int32 := 3

/-- The union of the sessions. -/
inductive Session
  | wb_session_ (value : Int64)
  | wx_session_ (text : List UInt8)
  | qq_session_ (text : List UInt8)
  | none

structure ThirdLogin extends HeadPacket where
  machine_ : Int32
  nickname_ : List UInt8
  source_ : Int32
  sex_ : Int32
  plt_ : Int32
  channel_ : Int64
  union_ : Session
  session_ : List UInt8
  birthday_ : List UInt8
  location_ : List UInt8
  head_ : List UInt8
  imei_ : List UInt8

/-- The session, its text and whether it was read; of another source nothing is read, and
the `r` of before is left. -/
def ThirdLogin.session (source_ : Int32) (r : Bool) (rubbish : String → Int64) (m_ : ValueMap Value) : Session × List UInt8 × Bool :=
  if source_ = PLAT_WB then
    let session := GetBigInteger m_ "session"
    let wb_session_ := session.getD (rubbish "session")
    (.wb_session_ wb_session_,decimal wb_session_.toInt,session.isSome)
  else if source_ = PLAT_WX then
    let session := GetString m_ "session"
    (.wx_session_ (session.getD []),session.getD [],session.isSome)
  else if source_ = PLAT_QQ then
    let session := GetString m_ "session"
    (.qq_session_ (session.getD []),session.getD [],session.isSome)
  else (.none,[],r)

def ThirdLogin.Init (rubbish : String → Int64) (m_ : ValueMap Value) : ThirdLogin :=
  let head := HeadPacket.Reset rubbish m_
  let machine := GetBigInteger m_ "machine"
  let source := GetBigInteger m_ "source"
  let source_ := (source.getD (rubbish "source")).toInt32
  let plat := GetBigInteger m_ "plat"
  let (union_,session_,r) := ThirdLogin.session source_ plat.isSome rubbish m_
  { head with
    machine_ := (machine.getD (rubbish "machine")).toInt32
    source_
    nickname_ := (nickname m_).getD []
    sex_ := ((GetBigInteger m_ "sex").getD (rubbish "sex")).toInt32
    plt_ := (plat.getD 10000).toInt32
    union_
    session_
    birthday_ := (GetString m_ "birthday").getD []
    location_ := ((GetString m_ "location").map UrlDecode).getD []
    head_ := ((GetString m_ "head").map UrlDecode).getD []
    channel_ := (GetBigInteger m_ "channel").getD (rubbish "channel")
    imei_ := (GetString m_ "imei").getD []
    error_code_ := head.error_code_ |> lack machine.isSome .MACHINE_LACK |> lack source.isSome .SOUCE_LACK
      |> lack (nickname m_).isSome .NICKNAME_LACK |> lack r .SESSION_LACK }

structure UpdateUserInfo extends LoginHeadPacket where
  gender_ : Int64
  nickname_ : List UInt8
  birthday_ : List UInt8

def UpdateUserInfo.Init (rubbish : String → Int64) (m_ : ValueMap Value) : UpdateUserInfo :=
  let head := LoginHeadPacket.Init rubbish m_
  let birthday := GetString m_ "birthday"
  { head with
    gender_ := (GetBigInteger m_ "gender").getD 0
    nickname_ := (nickname m_).getD []
    birthday_ := birthday.getD []
    error_code_ := head.error_code_ |> lack (nickname m_).isSome .NICKNAME_LACK |> lack birthday.isSome .BIRTHDAT_LACK }

/-- The user and the token are read a second time, into fields of its own. -/
structure BDBindPush extends HeadPacket where
  platform_ : Int64
  uid_ : Int64
  token_ : List UInt8
  channel_ : Int64
  bduserid_ : Int64
  pkg_name_ : List UInt8
  tag_ : List UInt8
  machine_ : Int32
  appid_ : Int64
  requestid_ : Int64

def BDBindPush.Init (rubbish : String → Int64) (m_ : ValueMap Value) : BDBindPush :=
  let head := LoginHeadPacket.Init rubbish m_
  let platform := GetBigInteger m_ "platform"
  let uid := GetBigInteger m_ "uid"
  let token := GetString m_ "token"
  let channel := GetBigInteger m_ "channel"
  let userid := GetBigInteger m_ "userid"
  let pkg_name := GetString m_ "pkg_name"
  let tag := GetString m_ "tag"
  let machine := GetBigInteger m_ "machine"
  let appid := GetBigInteger m_ "appid"
  let requestid := GetBigInteger m_ "requestid"
  { head.toHeadPacket with
    platform_ := platform.getD 0
    uid_ := uid.getD 0
    token_ := token.getD []
    channel_ := channel.getD 0
    bduserid_ := userid.getD 0
    pkg_name_ := pkg_name.getD []
    tag_ := tag.getD []
    machine_ := (machine.getD (rubbish "machine")).toInt32
    appid_ := appid.getD (rubbish "appid")
    requestid_ := requestid.getD (rubbish "requestid")
    error_code_ := head.error_code_ |> lack platform.isSome .PLATFORM_LACK |> lack uid.isSome .UID_LACK
      |> lack token.isSome .TOKEN_LACK |> lack channel.isSome .BD_CHANNEL_LACK |> lack userid.isSome .BD_USERID_LACK
      |> lack pkg_name.isSome .PKG_NAME_LACK |> lack tag.isSome .TAG_LACK |> lack machine.isSome .MACHINE_LACK
      |> lack appid.isSome .APPID_LACK |> lack requestid.isSome .REQUEST_LACK }

end Migfm.Recv
