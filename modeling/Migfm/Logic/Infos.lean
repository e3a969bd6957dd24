import Migfm.Logic.ValueSerializer

/-! The records of pub/logic/logic_infos.cc and their dictionaries, as the music
service is built (`__OLD_VERSION__`). Every key is written with a condition of its
own; a key that is missing or of another type leaves the field it is read into. -/
namespace Migfm.Logic

/-! ### Dictionaries of optional keys -/

/-- A key of ASCII characters; none has a dot. -/
def key (name : String) : WString := name.toList.map Char.toNat

/-- `if(written) dict->Set...(name,value)`. -/
structure Field where
  name : WString
  written : Bool
  value : Value

def big (name : String) (written : Bool) (value : Int64) : Field := ⟨key name,written,.fundamental (.bigInteger value)⟩
def int (name : String) (written : Bool) (value : Int32) : Field := ⟨key name,written,.fundamental (.integer value)⟩
def str (name : String) (value : List UInt8) : Field := ⟨key name,!value.isEmpty,.string value⟩

def setAll (dict : ValueMap Value) (fields : List Field) : ValueMap Value :=
  fields.foldl (fun dict field => if field.written then dict.assign field.name field.value else dict) dict

def GetBigInteger (dict : ValueMap Value) (name : String) : Option Int64 :=
  match dict.find (key name) with
  | some (.fundamental (.bigInteger value)) => some value
  | _ => none

def GetInteger (dict : ValueMap Value) (name : String) : Option Int32 :=
  match dict.find (key name) with
  | some (.fundamental (.integer value)) => some value
  | _ => none

def GetString (dict : ValueMap Value) (name : String) : Option (List UInt8) :=
  match dict.find (key name) with
  | some (.string value) => some value
  | _ => none

def GetList (dict : ValueMap Value) (name : String) : Option (List Value) :=
  match dict.find (key name) with
  | some (.list value) => some value
  | _ => none

section Fields
variable {dict : ValueMap Value} {fields : List Field}

theorem find_other {name : WString} (absent : name ∉ fields.map Field.name) : (setAll dict fields).find name = dict.find name := by
  induction fields generalizing dict with
  | nil => rfl
  | cons field fields ih =>
    obtain ⟨apart,rest⟩ := List.ne_and_not_mem_of_not_mem_cons absent
    rw [setAll,List.foldl_cons]
    refine (ih rest).trans ?_
    split
    · rw [ValueMap.find_assign,if_neg apart]
    · rfl

theorem find_field (distinct : (fields.map Field.name).Nodup) {field : Field} (member : field ∈ fields) :
    (setAll dict fields).find field.name = if field.written then some field.value else dict.find field.name := by
  induction fields generalizing dict with
  | nil => cases member
  | cons first fields ih =>
    obtain ⟨absent,distinct⟩ := List.nodup_cons.mp distinct
    rw [setAll,List.foldl_cons]
    rcases List.mem_cons.mp member with rfl | later
    · refine (find_other absent).trans ?_
      split
      · rw [ValueMap.find_assign,if_pos rfl]
      · rfl
    · refine (ih distinct later).trans ?_
      have apart : field.name ≠ first.name := fun same => absent (same ▸ List.mem_map_of_mem later)
      split
      · rfl
      · split
        · rw [ValueMap.find_assign,if_neg apart]
        · rfl

variable (distinct : (fields.map Field.name).Nodup) {name : String} {written : Bool}
include distinct

theorem get_big {value : Int64} (member : big name written value ∈ fields) :
    GetBigInteger (setAll [] fields) name = if written then some value else none := by
  have found := @find_field [] fields distinct _ member
  rw [GetBigInteger,show key name = (big name written value).name from rfl,found]
  cases written <;> rfl

theorem get_int {value : Int32} (member : int name written value ∈ fields) :
    GetInteger (setAll [] fields) name = if written then some value else none := by
  have found := @find_field [] fields distinct _ member
  rw [GetInteger,show key name = (int name written value).name from rfl,found]
  cases written <;> rfl

theorem get_str {value : List UInt8} (member : str name value ∈ fields) :
    GetString (setAll [] fields) name = if value.isEmpty then none else some value := by
  have found := @find_field [] fields distinct _ member
  rw [GetString,show key name = (str name value).name from rfl,found]
  cases value <;> rfl

end Fields

theorem getD_absent {α : Type} {c : Prop} [Decidable c] (value default : α) :
    (if c then none else some value).getD default = if c then default else value := by
  split <;> rfl

/-- Not written, a default is read back. -/
theorem restored {α : Type} (value absent : α) [Decidable (value = absent)] :
    (if value = absent then absent else value) = value := by
  split
  · rename_i same
    exact same.symm
  · rfl

theorem default_restored_iff {α : Type} {value absent default : α} [Decidable (value = absent)] (apart : default ≠ absent) :
    (if value = absent then default else value) = value ↔ value ≠ absent := by
  split
  · rename_i same
    exact iff_of_false (fun kept => apart (kept.trans same)) fun other => other same
  · rename_i other
    exact iff_of_true rfl other

/-! ### `UserInfo` -/

structure UserInfo where
  uid_ : Int64 := 0
  sex_ : Int32 := -1
  machine_ : Int32 := 0
  logintime_ : Int64 := 0
  type_ : Int32 := 0
  source_ : Int32 := 0
  session_ : List UInt8 := []
  imei_ : List UInt8 := []
  nickname_ : List UInt8 := []
  city_ : List UInt8 := []
  head_ : List UInt8 := []
  birthday_ : List UInt8 := []
  location_ : List UInt8 := []
  token_ : List UInt8 := []

namespace UserInfo

def fields (u : UserInfo) : List Field :=
  [big "uid" (u.uid_ != 0) u.uid_,
    int "sex" (u.sex_ != 0) u.sex_,
    int "machine" (u.machine_ != -1) u.machine_,
    big "logintime" (u.logintime_ != 0) u.logintime_,
    int "type" (u.type_ != 0) u.type_,
    int "source" (u.source_ != 0) u.source_,
    str "session" u.session_,
    str "imei" u.imei_,
    str "nickname" u.nickname_,
    str "city" u.city_,
    str "head" u.head_,
    str "birthday" u.birthday_,
    str "location" u.location_]

def ValueSerialization (info : UserInfo) (dic : ValueMap Value) : UserInfo where
  uid_ := (GetBigInteger dic "uid").getD info.uid_
  sex_ := (GetInteger dic "sex").getD info.sex_
  machine_ := (GetInteger dic "machine").getD info.machine_
  logintime_ := (GetBigInteger dic "loginttime").getD info.logintime_
  type_ := (GetInteger dic "type").getD info.type_
  source_ := (GetInteger dic "source").getD info.source_
  session_ := (GetString dic "session").getD info.session_
  imei_ := (GetString dic "imei").getD info.imei_
  nickname_ := (GetString dic "nickname").getD info.nickname_
  city_ := (GetString dic "city").getD info.city_
  head_ := (GetString dic "head").getD info.head_
  birthday_ := (GetString dic "birthday").getD info.birthday_
  location_ := (GetString dic "location").getD info.location_
  token_ := (GetString dic "token").getD info.token_

theorem fields_distinct (u : UserInfo) : (u.fields.map Field.name).Nodup := by
  show List.Nodup [key "uid",key "sex",key "machine",key "logintime",key "type",key "source",key "session",key "imei",
    key "nickname",key "city",key "head",key "birthday",key "location"]
  decide

def Isvalid (u : UserInfo) : Bool := u.uid_ != 0 && !u.nickname_.isEmpty

/-- Fields that are not written, and those read under another key, stay as they were. -/
theorem ValueSerialization_eq (u info : UserInfo) : info.ValueSerialization (setAll [] u.fields) =
    { uid_ := if u.uid_ = 0 then info.uid_ else u.uid_
      sex_ := if u.sex_ = 0 then info.sex_ else u.sex_
      machine_ := if u.machine_ = -1 then info.machine_ else u.machine_
      logintime_ := info.logintime_
      type_ := if u.type_ = 0 then info.type_ else u.type_
      source_ := if u.source_ = 0 then info.source_ else u.source_
      session_ := if u.session_ = [] then info.session_ else u.session_
      imei_ := if u.imei_ = [] then info.imei_ else u.imei_
      nickname_ := if u.nickname_ = [] then info.nickname_ else u.nickname_
      city_ := if u.city_ = [] then info.city_ else u.city_
      head_ := if u.head_ = [] then info.head_ else u.head_
      birthday_ := if u.birthday_ = [] then info.birthday_ else u.birthday_
      location_ := if u.location_ = [] then info.location_ else u.location_
      token_ := info.token_ } := by
  have distinct := u.fields_distinct
  have uid := get_big distinct (by simp [fields] : big "uid" (u.uid_ != 0) u.uid_ ∈ u.fields)
  have sex := get_int distinct (by simp [fields] : int "sex" (u.sex_ != 0) u.sex_ ∈ u.fields)
  have machine := get_int distinct (by simp [fields] : int "machine" (u.machine_ != -1) u.machine_ ∈ u.fields)
  have type := get_int distinct (by simp [fields] : int "type" (u.type_ != 0) u.type_ ∈ u.fields)
  have source := get_int distinct (by simp [fields] : int "source" (u.source_ != 0) u.source_ ∈ u.fields)
  have session := get_str distinct (by simp [fields] : str "session" u.session_ ∈ u.fields)
  have imei := get_str distinct (by simp [fields] : str "imei" u.imei_ ∈ u.fields)
  have nickname := get_str distinct (by simp [fields] : str "nickname" u.nickname_ ∈ u.fields)
  have city := get_str distinct (by simp [fields] : str "city" u.city_ ∈ u.fields)
  have head := get_str distinct (by simp [fields] : str "head" u.head_ ∈ u.fields)
  have birthday := get_str distinct (by simp [fields] : str "birthday" u.birthday_ ∈ u.fields)
  have location := get_str distinct (by simp [fields] : str "location" u.location_ ∈ u.fields)
  -- the two keys that nothing is written under
  have logintime : GetBigInteger (setAll [] u.fields) "loginttime" = none := by
    rw [GetBigInteger,find_other]
    · rfl
    · show key "loginttime" ∉ [key "uid",key "sex",key "machine",key "logintime",key "type",key "source",key "session",
        key "imei",key "nickname",key "city",key "head",key "birthday",key "location"]
      decide
  have token : GetString (setAll [] u.fields) "token" = none := by
    rw [GetString,find_other]
    · rfl
    · show key "token" ∉ [key "uid",key "sex",key "machine",key "logintime",key "type",key "source",key "session",
        key "imei",key "nickname",key "city",key "head",key "birthday",key "location"]
      decide
  rw [ValueSerialization,uid,sex,machine,logintime,type,source,session,imei,nickname,city,head,birthday,
    location,token]
  simp only [bne_iff_ne,List.isEmpty_iff,ne_eq,ite_not,getD_absent,Option.getD_none]

end UserInfo

/-! ### `MusicInfo` -/

structure MusicInfo where
  id_ : Int64 := 0
  clt_ : Int64 := -1
  cmt_ : Int64 := -1
  hot_ : Int64 := -1
  like_ : Int32 := -1
  class_ : Int32 := -1
  class_name_ : List UInt8 := []
  ablum_ : List UInt8 := []
  artist_ : List UInt8 := []
  title_ : List UInt8 := []
  hq_url_ : List UInt8 := []
  pic_ : List UInt8 := []
  pubtime_ : List UInt8 := []
  url_ : List UInt8 := []
  lyric_ : List UInt8 := []

/-- Blanks, a sign and digits; what does not fit is cut to the range. -/
def atoll (text : List UInt8) : Int64 :=
  let text := text.dropWhile fun c => c = 32 ∨ (9 ≤ c ∧ c ≤ 13)
  let magnitude (text : List UInt8) : Int := denoted (text.takeWhile fun c => 48 ≤ c ∧ c ≤ 57)
  let value := match text with
    | 45::text => -magnitude text
    | 43::text => magnitude text
    | text => magnitude text
  Int64.ofInt (max (-2^63) (min (2^63 - 1) value))

namespace MusicInfo

def fields (m : MusicInfo) : List Field :=
  [big "id" (m.id_ != 0) m.id_,
    big "songid" (m.id_ != 0) m.id_,
    big "clt" (m.clt_ != -1) m.clt_,
    big "cmt" (m.cmt_ != -1) m.cmt_,
    big "hot" (m.hot_ != -1) m.hot_,
    int "like" (m.like_ != -1) m.like_,
    int "tid" (m.class_ != -1) m.class_,
    str "type" m.class_name_,
    str "album" m.ablum_,
    str "artist" m.artist_,
    str "title" m.title_,
    str "name" m.title_,
    str "titile" m.title_,
    str "hq_url" m.hq_url_,
    str "pic" m.pic_,
    str "pubtime" m.pubtime_,
    str "url" m.url_]

def dimension (m : MusicInfo) : List Field :=
  [big "typeid" (m.class_ != -1) m.class_.toInt64,
    str "type" m.class_name_]

/-- Tree that `JsonDeserialize` serializes. -/
def dict (m : MusicInfo) (dimenon : Int32) : ValueMap Value :=
  if dimenon = 1 then setAll (setAll [] m.fields) m.dimension else setAll [] m.fields

/-- `songid` is not initialized. -/
def read (info : MusicInfo) (dic : ValueMap Value) (songid : Int64) : MusicInfo :=
  let id_ := match GetString dic "songid" with
    | none => (GetBigInteger dic "songid").getD songid
    | some str_songid => atoll str_songid
  let str_class_name := (GetString dic "type").getD []
  let str_class := (GetString dic "typeid").getD []
  { info with id_, class_name_ := str_class_name, class_ := (atoll str_class).toInt32 }

/-- The class and its name are not copied. -/
def BaseCopy (info music_info : MusicInfo) : MusicInfo :=
  { info with
    id_ := music_info.id_, clt_ := music_info.clt_, hot_ := music_info.hot_, like_ := music_info.like_
    ablum_ := music_info.ablum_, artist_ := music_info.artist_, title_ := music_info.title_
    hq_url_ := music_info.hq_url_, pic_ := music_info.pic_, url_ := music_info.url_, lyric_ := music_info.lyric_ }

def Isvalid (m : MusicInfo) : Bool := m.id_ != 0 && !m.hq_url_.isEmpty && !m.url_.isEmpty

/-- A song without one of its addresses is not released. -/
def Release (m : MusicInfo) : Option (ValueMap Value) :=
  if m.hq_url_.isEmpty || m.url_.isEmpty then none
  else some <| setAll []
    [big "id" (m.id_ != 0) m.id_,
      big "clt" (m.clt_ != -1) m.clt_,
      big "cmt" (m.cmt_ != -1) m.cmt_,
      big "hot" (m.hot_ != -1) m.hot_,
      int "like" true (if m.like_ != -1 then m.like_ else 0),
      int "tid" (m.class_ != -1) m.class_,
      str "type" m.class_name_,
      str "ablum" m.ablum_,
      str "artist" m.artist_,
      str "title" m.title_,
      str "name" m.title_,
      str "titile" m.title_,
      str "hq_url" m.hq_url_,
      str "pic" m.pic_,
      str "pubtime" m.pubtime_,
      str "url" m.url_]

theorem fields_distinct (m : MusicInfo) : (m.fields.map Field.name).Nodup := by
  show List.Nodup [key "id",key "songid",key "clt",key "cmt",key "hot",key "like",key "tid",key "type",key "album",key "artist",
    key "title",key "name",key "titile",key "hq_url",key "pic",key "pubtime",key "url"]
  decide

theorem read_dict (m info : MusicInfo) (songid : Int64) : info.read (m.dict 1) songid =
    { info with
      id_ := if m.id_ = 0 then songid else m.id_
      class_name_ := m.class_name_
      class_ := 0 } := by
  have distinct := m.fields_distinct
  have separate : (m.dimension.map Field.name).Nodup := by
    show List.Nodup [key "typeid",key "type"]
    decide
  have id : (m.dict 1).find (key "songid") = if m.id_ != 0 then some (.fundamental (.bigInteger m.id_)) else none := by
    rw [dict,if_pos rfl,find_other]
    · exact @find_field [] m.fields distinct (big "songid" (m.id_ != 0) m.id_) (by simp [fields])
    · show key "songid" ∉ [key "typeid",key "type"]
      decide
  have name : (m.dict 1).find (key "type") = if m.class_name_.isEmpty then none else some (.string m.class_name_) := by
    rw [dict,if_pos rfl]
    have last := @find_field (setAll [] m.fields) m.dimension separate (str "type" m.class_name_) (by simp [dimension])
    have first := @find_field [] m.fields distinct (str "type" m.class_name_) (by simp [fields])
    refine last.trans ?_
    rw [first]
    cases m.class_name_ <;> rfl
  have typeid : (m.dict 1).find (key "typeid") =
      if m.class_ != -1 then some (.fundamental (.bigInteger m.class_.toInt64)) else none := by
    rw [dict,if_pos rfl]
    have last := @find_field (setAll [] m.fields) m.dimension separate (big "typeid" (m.class_ != -1) m.class_.toInt64)
      (by simp [dimension])
    refine last.trans ?_
    rw [show (big "typeid" (m.class_ != -1) m.class_.toInt64).name = key "typeid" from rfl,find_other]
    · rfl
    · show key "typeid" ∉ [key "id",key "songid",key "clt",key "cmt",key "hot",key "like",key "tid",key "type",key "album",
        key "artist",key "title",key "name",key "titile",key "hq_url",key "pic",key "pubtime",key "url"]
      decide
  rw [read,GetString,GetString,GetString,GetBigInteger,id,name,typeid]
  congr 1
  · by_cases zero : m.id_ = 0 <;> simp [zero]
  · by_cases unclassed : m.class_ = -1 <;> simp [unclassed] <;> decide
  · cases m.class_name_ <;> rfl

end MusicInfo

/-! ### Texts -/

section Texts
variable {Text : Type} (Serialize : Value → Text) (Deserialize : Text → Value)

def UserInfo.JsonSerialization (u : UserInfo) : Text := Serialize (.dictionary (setAll [] u.fields))

/-- The cast of a value of another type is undefined. -/
def UserInfo.JsonDeSerialization (info : UserInfo) (text : Text) : Option UserInfo :=
  match Deserialize text with
  | .dictionary dic => some (info.ValueSerialization dic)
  | _ => none

def MusicInfo.JsonDeserialize (m : MusicInfo) (dimenon : Int32) : Text := Serialize (.dictionary (m.dict dimenon))

def MusicInfo.JsonSeralize (info : MusicInfo) (text : Text) (songid : Int64) : Option MusicInfo :=
  match Deserialize text with
  | .dictionary dic => some (info.read dic songid)
  | _ => none

/-- What the caches rely on: a user is read back as it was written, a collected
song with its id and its class. -/
def UserKept (u : UserInfo) : Prop :=
  UserInfo.JsonDeSerialization Deserialize {} (u.JsonSerialization Serialize) = some u

def SongKept (m : MusicInfo) (songid : Int64) (info : MusicInfo) : Prop :=
  ∃ out, info.JsonSeralize Deserialize (m.JsonDeserialize Serialize 1) songid = some out ∧
    out.id_ = m.id_ ∧ out.class_ = m.class_ ∧ out.class_name_ = m.class_name_

section Law
variable {Serialize Deserialize}
variable (returns : ∀ tree, Deserialize (Serialize tree) = tree)
include returns

theorem userKept_iff (u : UserInfo) : UserKept Serialize Deserialize u ↔
    u.sex_ ≠ 0 ∧ u.machine_ ≠ -1 ∧ u.logintime_ = 0 ∧ u.token_ = [] := by
  rw [UserKept,UserInfo.JsonDeSerialization,UserInfo.JsonSerialization,returns]
  cases u
  simp only [UserInfo.ValueSerialization_eq,Option.some.injEq,UserInfo.mk.injEq,restored,true_and]
  rw [default_restored_iff (show (-1 : Int32) ≠ 0 by decide),default_restored_iff (show (0 : Int32) ≠ -1 by decide),eq_comm (a := 0),
    eq_comm (a := [])]

theorem songKept_iff (m : MusicInfo) (songid : Int64) (info : MusicInfo) :
    SongKept Serialize Deserialize m songid info ↔ m.class_ = 0 ∧ (m.id_ = 0 → songid = 0) := by
  rw [SongKept,MusicInfo.JsonSeralize,MusicInfo.JsonDeserialize,returns]
  simp only [MusicInfo.read_dict,Option.some.injEq,exists_eq_left']
  constructor
  · rintro ⟨id,unclassed,-⟩
    refine ⟨unclassed.symm,fun zero => ?_⟩
    rw [zero] at id
    exact id
  · rintro ⟨unclassed,id⟩
    refine ⟨?_,unclassed.symm,trivial⟩
    split
    · rename_i zero
      rw [id zero,zero]
    · rfl

/-- The login time is read under a key of another spelling, the token is not written;
the class is written as a number and read as a text. -/
theorem kept_iff :
    (∀ u : UserInfo, UserKept Serialize Deserialize u ↔
      u.sex_ ≠ 0 ∧ u.machine_ ≠ -1 ∧ u.logintime_ = 0 ∧ u.token_ = []) ∧
    ∀ (m : MusicInfo) (songid : Int64) (info : MusicInfo),
      SongKept Serialize Deserialize m songid info ↔ m.class_ = 0 ∧ (m.id_ = 0 → songid = 0) :=
  ⟨userKept_iff returns,songKept_iff returns⟩

end Law

theorem alice_kept : UserKept id id { uid_ := 7,sex_ := 1,nickname_ := [97] } ∧
    SongKept id id { id_ := 3,class_ := 0,class_name_ := [109] } 0 {} :=
  ⟨((kept_iff fun _ => rfl).1 _).mpr ⟨by decide,by decide,rfl,rfl⟩,((kept_iff fun _ => rfl).2 _ _ _).mpr ⟨rfl,by decide⟩⟩

/-- Sex 0, a login time, a token, a class. -/
theorem lost : ¬ UserKept id id { uid_ := 7,sex_ := 0 } ∧ ¬ UserKept id id { uid_ := 7,logintime_ := 1417500000 } ∧
    ¬ UserKept id id { uid_ := 7,token_ := [116] } ∧ ¬ SongKept id id { id_ := 3,class_ := 2 } 0 {} := by
  have returns : ∀ tree : Value, id (id tree) = tree := fun _ => rfl
  rw [userKept_iff returns,userKept_iff returns,userKept_iff returns,songKept_iff returns]
  decide

end Texts
end Migfm.Logic
