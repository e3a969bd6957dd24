import Migfm.Public.Members

/-! The records of public/basic/basic_info.cc and their texts. The writers put the
fields between quotes as they are; a zero ends a text at its `c_str()`, and ends the
document that is read. -/
namespace Migfm.Public
open Json
open Logic (ascii decimal)

def field (name : String) (value : List UInt8) : Field := (ascii name,value)

structure MusicInfo where
  id_ : List UInt8 := []
  sid_ : List UInt8 := []
  ssid_ : List UInt8 := []
  album_title_ : List UInt8 := []
  titile_ : List UInt8 := []
  pub_time_ : List UInt8 := []
  artist_ : List UInt8 := []
  hq_url_ : List UInt8 := []
  pic_url_ : List UInt8 := []

structure UserInfo where
  uid_ : List UInt8 := []
  username_ : List UInt8 := []
  sex_ : List UInt8 := []
  type_ : List UInt8 := []
  crty_ : List UInt8 := []
  head_ : List UInt8 := []
  birthday_ : List UInt8 := []
  nickname_ : List UInt8 := []
  source_ : List UInt8 := []

structure MusicCltHateInfo where
  songid_ : List UInt8 := []
  type_ : List UInt8 := []
  typeid_ : List UInt8 := []

structure NormalMsgInfo where
  uid_ : List UInt8 := []
  content_ : List UInt8 := []
  type_ : List UInt8 := []
  msg_id_ : Int64 := 0
  param_ : List UInt8 := []

/-! ### Writers -/

def MusicInfo.fields (m : MusicInfo) : List Field :=
  [field "id" (c_str m.id_),
    field "sid" (c_str m.sid_),
    field "ssid" (c_str m.ssid_),
    field "album_title" (c_str m.album_title_),
    field "titile" (c_str m.titile_),
    field "pub_time" (c_str m.pub_time_),
    field "artist" (c_str m.artist_),
    field "hq_url" (c_str m.hq_url_),
    field "pic_url" (c_str m.pic_url_)]

def MusicInfo.SerializedJson (m : MusicInfo) : List UInt8 := record m.fields

def DEFAULT_HEAD : List UInt8 := ascii "http://fm.miglab.com/default.jpg"

namespace UserInfo

def head (u : UserInfo) : List UInt8 := if u.head_ = ascii "0" then DEFAULT_HEAD else u.head_

def fields (u : UserInfo) : List Field :=
  [field "uid" (c_str u.uid_),
    field "username" (c_str u.username_),
    field "sex" (c_str u.sex_),
    field "type" u.type_,
    field "crty" u.crty_,
    field "head" u.head,
    field "birthday" u.birthday_,
    field "nickname" u.nickname_,
    field "source" u.source_]

def SerializedJson (u : UserInfo) : List UInt8 := record u.fields

end UserInfo

def MusicCltHateInfo.fields (c : MusicCltHateInfo) : List Field :=
  [field "songid" (c_str c.songid_),
    field "type" (c_str c.type_),
    field "typeid" (c_str c.typeid_)]

/-- It ends without a `return`. -/
def MusicCltHateInfo.SerializedJson (c : MusicCltHateInfo) : List UInt8 := record c.fields

def NormalMsgInfo.fields (n : NormalMsgInfo) : List Field :=
  [field "uid" (c_str n.uid_),
    field "content" (c_str n.content_),
    field "type" (c_str n.type_),
    field "msg_id" (decimal n.msg_id_.toInt)]

def NormalMsgInfo.SerializedJson (n : NormalMsgInfo) : List UInt8 := record n.fields

/-! ### Readers -/

section Readers
variable (codePointToUTF8 : Nat → List UInt8) (sscanf : List UInt8 → Option Float) (fuel : Nat)

/-- No record: `false` is returned, or the value's accessor throws. -/
def MusicInfo.UnserializedJson (str : List UInt8) : Option MusicInfo := do
  let root ← parse codePointToUTF8 sscanf fuel (c_str str)
  let id_ ← root.text (ascii "id")
  let sid_ ← root.text (ascii "sid")
  let ssid_ ← root.text (ascii "ssid")
  let album_title_ ← root.text (ascii "album_title")
  let titile_ ← root.text (ascii "titile")
  let pub_time_ ← root.text (ascii "pub_time")
  let artist_ ← root.text (ascii "artist")
  let pic_url_ ← root.text (ascii "pic_url")
  let hq_url_ ← root.text (ascii "hqurl")
  return { id_,sid_,ssid_,album_title_,titile_,pub_time_,artist_,hq_url_,pic_url_ }

def UserInfo.UnserializedJson (str : List UInt8) : Option UserInfo := do
  let root ← parse codePointToUTF8 sscanf fuel (c_str str)
  let uid_ ← root.text (ascii "uid")
  let username_ ← root.text (ascii "username")
  let sex_ ← root.text (ascii "sex")
  let type_ ← root.text (ascii "type")
  let crty_ ← root.text (ascii "crty")
  let head_ ← root.text (ascii "head")
  let birthday_ ← root.text (ascii "birthday")
  let nickname_ ← root.text (ascii "nickname")
  let source_ ← root.text (ascii "source")
  return { uid_,username_,sex_,type_,crty_,head_,birthday_,nickname_,source_ }

def MusicCltHateInfo.UnserializedJson (str : List UInt8) : Option MusicCltHateInfo := do
  let root ← parse codePointToUTF8 sscanf fuel (c_str str)
  let songid_ ← root.text (ascii "songid")
  let typeid_ ← root.text (ascii "typeid")
  let type_ ← root.text (ascii "type")
  return { songid_,type_,typeid_ }

def NormalMsgInfo.UnserializedJson (str : List UInt8) : Option NormalMsgInfo := do
  let root ← parse codePointToUTF8 sscanf fuel (c_str str)
  let uid_ ← root.text (ascii "uid")
  let content_ ← root.text (ascii "content")
  let type_ ← root.text (ascii "type")
  let param_ ← root.text (ascii "param")
  let msg_id ← (root.member (ascii "msg_id")).bind Value.asInt
  return { uid_,content_,type_,msg_id_ := msg_id.toInt64,param_ }

end Readers

/-! ### Round trips -/

theorem clean_default : Clean DEFAULT_HEAD := Clean.of_all rfl

theorem UserInfo.head_ne (u : UserInfo) : u.head ≠ ascii "0" := by
  rw [head]
  split
  · decide
  · assumption

theorem clean_decimal (n : Int) : Clean (decimal n) := by
  have digits (m : Nat) : ∀ c ∈ Logic.decimalDigits m, 48 ≤ c.toNat ∧ c.toNat ≤ 57 := fun c member =>
    of_decide_eq_true (Logic.isDigit_decimalDigits m c member)
  -- none but the sign and the digits
  have other {c b : UInt8} (member : c ∈ decimal n) (apart : b ≠ 45 ∧ (b.toNat < 48 ∨ 57 < b.toNat)) : c ≠ b := by
    rintro rfl
    rw [decimal] at member
    split at member
    · rcases List.mem_cons.mp member with sign | digit
      · exact apart.1 sign
      · have := digits _ c digit
        omega
    · have := digits _ c member
      omega
  exact ⟨fun c member => ⟨other member (by decide),other member (by decide)⟩,fun zero => other zero (by decide) rfl⟩

section Law
variable (codePointToUTF8 : Nat → List UInt8) (sscanf : List UInt8 → Option Float)

def MusicInfo.Kept (m : MusicInfo) (fuel : Nat) : Prop :=
  UnserializedJson codePointToUTF8 sscanf fuel m.SerializedJson = some m

def MusicInfo.values (m : MusicInfo) : List (List UInt8) :=
  [m.id_,m.sid_,m.ssid_,m.album_title_,m.titile_,m.pub_time_,m.artist_,m.hq_url_,m.pic_url_]

/-- The fields as their accessors give them. -/
def UserInfo.values (u : UserInfo) : List (List UInt8) :=
  [u.uid_,u.username_,u.sex_,u.type_,u.crty_,u.head,u.birthday_,u.nickname_,u.source_]

def UserInfo.Kept (u : UserInfo) (fuel : Nat) : Prop :=
  ∃ out, UnserializedJson codePointToUTF8 sscanf fuel u.SerializedJson = some out ∧ out.values = u.values

def MusicCltHateInfo.Kept (c : MusicCltHateInfo) (fuel : Nat) : Prop :=
  UnserializedJson codePointToUTF8 sscanf fuel c.SerializedJson = some c

def MusicCltHateInfo.values (c : MusicCltHateInfo) : List (List UInt8) := [c.songid_,c.type_,c.typeid_]

/-- Its parameter is not serialized. -/
def NormalMsgInfo.Kept (n : NormalMsgInfo) (fuel : Nat) : Prop :=
  ∃ out, UnserializedJson codePointToUTF8 sscanf fuel n.SerializedJson = some out ∧
    out.uid_ = n.uid_ ∧ out.content_ = n.content_ ∧ out.type_ = n.type_ ∧ out.msg_id_ = n.msg_id_

variable {codePointToUTF8 sscanf}
variable (short : ∀ unicode, (codePointToUTF8 unicode).length ≤ 4) {fuel : Nat}
include short

theorem MusicInfo.kept_clean (m : MusicInfo) (enough : 2 * m.SerializedJson.length + 2 ≤ fuel) :
    m.Kept codePointToUTF8 sscanf fuel ↔ (∀ value ∈ m.values, Clean value) ∧ m.hq_url_ = [] := by
  have names : ∀ field ∈ m.fields, Name field.1 :=
    names_of ["id","sid","ssid","album_title","titile","pub_time","artist","hq_url","pic_url"] rfl rfl
  have distinct : (m.fields.map Prod.fst).Nodup := by
    show List.Nodup (["id","sid","ssid","album_title","titile","pub_time","artist","hq_url","pic_url"].map ascii)
    decide
  have absent : ascii "hqurl" ∉ m.fields.map Prod.fst := by
    show ascii "hqurl" ∉ ["id","sid","ssid","album_title","titile","pub_time","artist","hq_url","pic_url"].map ascii
    decide
  rw [Kept,UnserializedJson,SerializedJson]
  simp only [Option.bind_eq_bind,Option.bind_eq_some_iff,Option.pure_def,Option.some.injEq]
  constructor
  · rintro ⟨root,read,_,id,_,sid,_,ssid,_,album_title,_,titile,_,pub_time,_,artist,_,pic_url,_,hq_url,rfl⟩
    have clean := clean_of_read names short read (by
      simp only [fields,field,List.forall_mem_cons]
      exact ⟨.inr (written id),.inr (written sid),.inr (written ssid),.inr (written album_title),.inr (written titile),
        .inr (written pub_time),.inr (written artist),.inr (written hq_url),.inr (written pic_url),fun _ member => nomatch member⟩)
    rw [parse_clean names clean (by simp [fields]) enough] at read
    cases read
    rw [text_of_absent absent] at hq_url
    cases hq_url
    refine ⟨?_,rfl⟩
    simp only [fields,field,List.forall_mem_cons] at clean
    obtain ⟨id_,sid_,ssid_,album_title_,titile_,pub_time_,artist_,hq_url_,pic_url_,-⟩ := clean
    simp only [values,List.forall_mem_cons]
    exact ⟨id_.of_text id,sid_.of_text sid,ssid_.of_text ssid,album_title_.of_text album_title,titile_.of_text titile,
      pub_time_.of_text pub_time,artist_.of_text artist,hq_url_,pic_url_.of_text pic_url,fun _ member => nomatch member⟩
  · rintro ⟨clean,hq_url⟩
    simp only [values,List.forall_mem_cons] at clean
    obtain ⟨id,sid,ssid,album_title,titile,pub_time,artist,hq_url_,pic_url,-⟩ := clean
    have each : ∀ field ∈ m.fields, Clean field.2 := by
      simp only [fields,field,List.forall_mem_cons]
      exact ⟨id.c_str,sid.c_str,ssid.c_str,album_title.c_str,titile.c_str,pub_time.c_str,artist.c_str,hq_url_.c_str,
        pic_url.c_str,fun _ member => nomatch member⟩
    have texts := object_text distinct each
    simp only [fields,field,List.forall_mem_cons] at texts
    obtain ⟨id',sid',ssid',album_title',titile',pub_time',artist',-,pic_url',-⟩ := texts
    refine ⟨_,parse_clean names each (by simp [fields]) enough,_,id',_,sid',_,ssid',_,album_title',_,titile',_,pub_time',_,artist',
      _,pic_url',_,text_of_absent absent,?_⟩
    rw [c_str_nonzero id.nonzero,c_str_nonzero sid.nonzero,c_str_nonzero ssid.nonzero,c_str_nonzero album_title.nonzero,
      c_str_nonzero titile.nonzero,c_str_nonzero pub_time.nonzero,c_str_nonzero artist.nonzero,c_str_nonzero pic_url.nonzero,
      ← hq_url]

theorem UserInfo.kept_clean (u : UserInfo) (enough : 2 * u.SerializedJson.length + 2 ≤ fuel) :
    u.Kept codePointToUTF8 sscanf fuel ↔ ∀ value ∈ u.values, Clean value := by
  have names : ∀ field ∈ u.fields, Name field.1 :=
    names_of ["uid","username","sex","type","crty","head","birthday","nickname","source"] rfl rfl
  have distinct : (u.fields.map Prod.fst).Nodup := by
    show List.Nodup (["uid","username","sex","type","crty","head","birthday","nickname","source"].map ascii)
    decide
  rw [Kept,UnserializedJson,SerializedJson]
  simp only [Option.bind_eq_bind,Option.bind_eq_some_iff,Option.pure_def,Option.some.injEq]
  constructor
  · rintro ⟨out,⟨root,read,_,uid,_,username,_,sex,_,type,_,crty,_,head,_,birthday,_,nickname,_,source,rfl⟩,same⟩
    simp only [values,List.cons.injEq,and_true] at same
    obtain ⟨rfl,rfl,rfl,rfl,rfl,shown,rfl,rfl,rfl⟩ := same
    have heads : Clean u.head ∨ ∃ name, root.text name = some u.head := by
      rw [← shown,UserInfo.head]
      split
      · exact .inl clean_default
      · exact .inr ⟨_,head⟩
    have clean := clean_of_read names short read (by
      simp only [fields,field,List.forall_mem_cons]
      exact ⟨.inr (written uid),.inr (written username),.inr (written sex),.inr ⟨_,type⟩,.inr ⟨_,crty⟩,heads,.inr ⟨_,birthday⟩,
        .inr ⟨_,nickname⟩,.inr ⟨_,source⟩,fun _ member => nomatch member⟩)
    simp only [fields,field,List.forall_mem_cons] at clean
    obtain ⟨uid_,username_,sex_,type_,crty_,head_,birthday_,nickname_,source_,-⟩ := clean
    simp only [values,List.forall_mem_cons]
    exact ⟨uid_.of_text uid,username_.of_text username,sex_.of_text sex,type_,crty_,head_,birthday_,nickname_,source_,
      fun _ member => nomatch member⟩
  · intro clean
    simp only [values,List.forall_mem_cons] at clean
    obtain ⟨uid,username,sex,type,crty,head,birthday,nickname,source,-⟩ := clean
    have each : ∀ field ∈ u.fields, Clean field.2 := by
      simp only [fields,field,List.forall_mem_cons]
      exact ⟨uid.c_str,username.c_str,sex.c_str,type,crty,head,birthday,nickname,source,fun _ member => nomatch member⟩
    have texts := object_text distinct each
    simp only [fields,field,List.forall_mem_cons] at texts
    obtain ⟨uid',username',sex',type',crty',head',birthday',nickname',source',-⟩ := texts
    refine ⟨_,⟨_,parse_clean names each (by simp [fields]) enough,_,uid',_,username',_,sex',_,type',_,crty',_,head',_,birthday',_,
      nickname',_,source',rfl⟩,?_⟩
    simp only [values,c_str_nonzero uid.nonzero,c_str_nonzero username.nonzero,c_str_nonzero sex.nonzero,List.cons.injEq,
      true_and,and_true]
    exact if_neg u.head_ne

theorem MusicCltHateInfo.kept_clean (c : MusicCltHateInfo) (enough : 2 * c.SerializedJson.length + 2 ≤ fuel) :
    c.Kept codePointToUTF8 sscanf fuel ↔ ∀ value ∈ c.values, Clean value := by
  have names : ∀ field ∈ c.fields, Name field.1 := names_of ["songid","type","typeid"] rfl rfl
  have distinct : (c.fields.map Prod.fst).Nodup := by
    show List.Nodup (["songid","type","typeid"].map ascii)
    decide
  rw [Kept,UnserializedJson,SerializedJson]
  simp only [Option.bind_eq_bind,Option.bind_eq_some_iff,Option.pure_def,Option.some.injEq]
  constructor
  · rintro ⟨root,read,_,songid,_,typeid,_,type,rfl⟩
    have clean := clean_of_read names short read (by
      simp only [fields,field,List.forall_mem_cons]
      exact ⟨.inr (written songid),.inr (written type),.inr (written typeid),fun _ member => nomatch member⟩)
    simp only [fields,field,List.forall_mem_cons] at clean
    obtain ⟨songid_,type_,typeid_,-⟩ := clean
    simp only [values,List.forall_mem_cons]
    exact ⟨songid_.of_text songid,type_.of_text type,typeid_.of_text typeid,fun _ member => nomatch member⟩
  · intro clean
    simp only [values,List.forall_mem_cons] at clean
    obtain ⟨songid,type,typeid,-⟩ := clean
    have each : ∀ field ∈ c.fields, Clean field.2 := by
      simp only [fields,field,List.forall_mem_cons]
      exact ⟨songid.c_str,type.c_str,typeid.c_str,fun _ member => nomatch member⟩
    have texts := object_text distinct each
    simp only [fields,field,List.forall_mem_cons] at texts
    obtain ⟨songid',type',typeid',-⟩ := texts
    refine ⟨_,parse_clean names each (by simp [fields]) enough,_,songid',_,typeid',_,type',?_⟩
    rw [c_str_nonzero songid.nonzero,c_str_nonzero type.nonzero,c_str_nonzero typeid.nonzero]

theorem NormalMsgInfo.not_kept (n : NormalMsgInfo) (enough : 2 * n.SerializedJson.length + 2 ≤ fuel) :
    ¬ n.Kept codePointToUTF8 sscanf fuel := by
  have names : ∀ field ∈ n.fields, Name field.1 := names_of ["uid","content","type","msg_id"] rfl rfl
  have distinct : (n.fields.map Prod.fst).Nodup := by
    show List.Nodup (["uid","content","type","msg_id"].map ascii)
    decide
  rw [Kept,UnserializedJson,SerializedJson]
  simp only [Option.bind_eq_bind,Option.bind_eq_some_iff,Option.pure_def,Option.some.injEq]
  rintro ⟨out,⟨root,read,_,uid,_,content,_,type,_,param,_,⟨item,member,number⟩,rfl⟩,rfl,rfl,rfl,-⟩
  have clean := clean_of_read names short read (by
    simp only [fields,field,List.forall_mem_cons]
    exact ⟨.inr (written uid),.inr (written content),.inr (written type),.inl (clean_decimal _),fun _ member => nomatch member⟩)
  rw [parse_clean names clean (by simp [fields]) enough] at read
  cases read
  -- the message id is between quotes
  have digits := member_of_mem distinct (show field "msg_id" (decimal n.msg_id_.toInt) ∈ n.fields by simp [fields])
  rw [show (field "msg_id" (decimal n.msg_id_.toInt)).1 = ascii "msg_id" from rfl,member] at digits
  cases digits
  cases number

/-- What the texts of the four records are read as. -/
theorem restored_iff :
    (∀ m : MusicInfo, 2 * m.SerializedJson.length + 2 ≤ fuel →
      (m.Kept codePointToUTF8 sscanf fuel ↔ (∀ value ∈ m.values, Clean value) ∧ m.hq_url_ = [])) ∧
    (∀ u : UserInfo, 2 * u.SerializedJson.length + 2 ≤ fuel →
      (u.Kept codePointToUTF8 sscanf fuel ↔ ∀ value ∈ u.values, Clean value)) ∧
    (∀ c : MusicCltHateInfo, 2 * c.SerializedJson.length + 2 ≤ fuel →
      (c.Kept codePointToUTF8 sscanf fuel ↔ ∀ value ∈ c.values, Clean value)) ∧
    ∀ n : NormalMsgInfo, 2 * n.SerializedJson.length + 2 ≤ fuel → ¬ n.Kept codePointToUTF8 sscanf fuel :=
  ⟨MusicInfo.kept_clean short,UserInfo.kept_clean short,MusicCltHateInfo.kept_clean short,NormalMsgInfo.not_kept short⟩

end Law
theorem length_WriteUTF8 (code_point : Nat) : (Logic.WriteUTF8 code_point).length ≤ 4 := by
  rw [Logic.WriteUTF8]
  split_ifs
  all_goals simp

set_option maxRecDepth 4000 in
theorem song_restored :
    MusicInfo.Kept Logic.WriteUTF8 (fun _ => none) { id_ := ascii "7",titile_ := ascii "song" } 1000 ∧
    UserInfo.Kept Logic.WriteUTF8 (fun _ => none) { uid_ := ascii "7",head_ := ascii "0" } 1000 ∧
    MusicCltHateInfo.Kept Logic.WriteUTF8 (fun _ => none) { songid_ := ascii "7" } 1000 := by
  obtain ⟨music,user,collect,-⟩ := @restored_iff Logic.WriteUTF8 (fun _ => none) length_WriteUTF8 1000
  have each {values : List (List UInt8)} (clean : values.all fun value => value.all fun c => c ≠ 34 ∧ c ≠ 92 ∧ c ≠ 0) :
      ∀ value ∈ values, Clean value := fun value member => Clean.of_all (List.all_eq_true.mp clean value member)
  exact ⟨(music _ (by decide)).mpr ⟨each rfl,rfl⟩,(user _ (by decide)).mpr (each rfl),
    (collect _ (by decide)).mpr (each rfl)⟩

set_option maxRecDepth 4000 in
/-- A quote in a title, the address of a song, any message. -/
theorem texts_lost :
    ¬ MusicInfo.Kept Logic.WriteUTF8 (fun _ => none) { titile_ := [97,34,98] } 1000 ∧
    ¬ MusicInfo.Kept Logic.WriteUTF8 (fun _ => none) { hq_url_ := ascii "u" } 1000 ∧
    ¬ NormalMsgInfo.Kept Logic.WriteUTF8 (fun _ => none) { uid_ := ascii "7",msg_id_ := 5 } 1000 := by
  rw [MusicInfo.kept_clean length_WriteUTF8 _ (by decide),
    MusicInfo.kept_clean length_WriteUTF8 _ (by decide)]
  refine ⟨fun kept => ?_,fun kept => absurd kept.2 (by decide),
    NormalMsgInfo.not_kept length_WriteUTF8 _ (by decide)⟩
  have title := kept.1 [97,34,98] (by simp [MusicInfo.values])
  exact (title.plain 34 (by simp)).1 rfl

end Migfm.Public
