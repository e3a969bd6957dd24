import Migfm.Basic.Template
import Migfm.Data.StorageOperation

/-! data/data_mysql_engine.cc: the rows of a query as a tree of values that a callback
fills, and the objects that are read from the tree. -/
namespace Migfm.Data.MysqlEngine
open Basic (Map MapAdd)
open Logic (UserInfo MusicInfo ValueMap Field GetBigInteger GetInteger GetString GetList key ascii decimal atoll)

/-- The columns, NULL for what the row has not. -/
abbrev MYSQL_ROW := Nat → Option (List UInt8)

abbrev DictionaryValue := ValueMap Logic.Value

structure Dimension where
  id_ : Int64 := 0
  class_name_ : List UInt8 := []
  name_ : List UInt8 := []
  description_ : List UInt8 := []

/-! ### logic_infos.cc -/

def Dimension.ValueSerialization (dimension : Dimension) (dict : DictionaryValue) : Dimension where
  class_name_ := (GetString dict "class_name").getD dimension.class_name_
  description_ := (GetString dict "desc").getD dimension.description_
  id_ := (GetBigInteger dict "id").getD dimension.id_
  name_ := (GetString dict "name").getD dimension.name_

def readMusic (info : MusicInfo) (dict : DictionaryValue) : MusicInfo :=
  { info with
    id_ := (GetBigInteger dict "id").getD info.id_
    hot_ := (GetBigInteger dict "hot").getD info.hot_
    clt_ := (GetBigInteger dict "clt").getD info.clt_
    cmt_ := (GetBigInteger dict "cmt").getD info.cmt_
    title_ := (GetString dict "title").getD info.title_
    ablum_ := (GetString dict "album").getD info.ablum_
    pubtime_ := (GetString dict "pubtime").getD info.pubtime_
    artist_ := (GetString dict "artist").getD info.artist_
    url_ := (GetString dict "url").getD info.url_
    hq_url_ := (GetString dict "hqurl").getD info.hq_url_
    pic_ := (GetString dict "pic").getD info.pic_
    lyric_ := (GetString dict "lyric").getD info.lyric_ }

/-! ### Callbacks -/

/-- The count of the rows is an `int`. -/
def fetched (rows : List MYSQL_ROW) : List MYSQL_ROW := if 0 < Int32.ofNat rows.length then rows else []

def userFields (rows : MYSQL_ROW) : List Field :=
  Row.fields ⟨rows 0,rows 1,rows 2,rows 3,rows 4,rows 5,rows 6,rows 7,rows 8,rows 9⟩

/-- The id is an integer of 32 bits. -/
def dimensionFields (rows : MYSQL_ROW) : List Field := [SetInteger "id" (rows 0),SetString "name" (rows 1)]

def musicFields (rows : MYSQL_ROW) : List Field :=
  [SetBigInteger "id" (rows 0),
    SetBigInteger "songid" (rows 0),
    SetBigInteger "hot" (rows 1),
    SetBigInteger "clt" (rows 2),
    SetBigInteger "cmt" (rows 3),
    SetString "title" (rows 4),
    SetString "name" (rows 4),
    SetString "album" (rows 5),
    SetString "pubtime" (rows 6),
    SetString "artist" (rows 7),
    SetString "url" (rows 8),
    SetString "hqurl" (rows 8),
    SetString "pic" (rows 9),
    SetString "lyric" (rows 10)]

def allDimensionFields (rows : MYSQL_ROW) : List Field :=
  [SetBigInteger "id" (rows 0),SetString "class_name" (rows 1),SetString "name" (rows 2),SetString "desc" (rows 3)]

/-- A dictionary for each row. -/
def CallBack (fields : MYSQL_ROW → List Field) (dict : DictionaryValue) (rows : List MYSQL_ROW) : DictionaryValue :=
  dict.assign (key "resultvalue") (.list ((fetched rows).map fun row => .dictionary (Logic.setAll [] (fields row))))

def CallBackBatchReadUserInfo : DictionaryValue → List MYSQL_ROW → DictionaryValue := CallBack userFields

def CallBackGetDimensions : DictionaryValue → List MYSQL_ROW → DictionaryValue := CallBack dimensionFields

def CallBackGetAllDimension : DictionaryValue → List MYSQL_ROW → DictionaryValue := CallBack allDimensionFields

/-- No list is made: every row is set over the one before. -/
def CallBackReadUserInfo (dict : DictionaryValue) (rows : List MYSQL_ROW) : DictionaryValue :=
  (fetched rows).foldl (fun dict row => Logic.setAll dict (userFields row)) dict

/-- The columns are set in the dictionary of the query, not in that of the row. -/
def CallBackGetAvailableMusicInfo (dict : DictionaryValue) (rows : List MYSQL_ROW) : DictionaryValue :=
  ((fetched rows).foldl (fun dict row => Logic.setAll dict (musicFields row)) dict).assign (key "resultvalue")
    (.list ((fetched rows).map fun _ => .dictionary []))

/-! ### Queries -/

inductive Query
  | ReadUserInfo (uid : Int64)
  | BatchReadUserInfos (uid_list : List Int64)
  | GetDimensions (type : List UInt8)
  | GetAvailableMusicInfo
  | GetAllDimension

inductive Object
  | user (info : UserInfo)
  | dimension (dimension : Dimension)
  | music (musicinfo : MusicInfo)

def asDictionary : Logic.Value → DictionaryValue
  | .dictionary entries => entries
  | _ => []

/-- The loop over the list. -/
def fetch {α : Type} (ValueSerialization : DictionaryValue → α) (dict : DictionaryValue) : List α :=
  ((GetList dict "resultvalue").getD []).map fun result_value => ValueSerialization (asDictionary result_value)

namespace Query

/-- The last asks for the songs, too. -/
def sql : Query → List UInt8
  | ReadUserInfo uid => ascii "call proc_V2GetUserInfo(" ++ decimal uid.toInt ++ ascii ")"
  | BatchReadUserInfos uid_list =>
    ascii "call proc_V2BatchGetUserInfo('" ++ (ascii ",").intercalate (uid_list.map fun uid => decimal uid.toInt) ++ ascii "');"
  | GetDimensions type => ascii "call migfm.proc_V2GetDimensions('" ++ type ++ ascii "');"
  | GetAvailableMusicInfo => ascii "call proc_V2GetAvailableMusicInfos()"
  | GetAllDimension => ascii "call proc_V2GetAvailableMusicInfos()"

/-- The dictionary that the callback is given. -/
def dict (query : Query) : DictionaryValue := ValueMap.assign (key "sql") (.string query.sql) []

/-- The objects that the rows become, in the order of the loop. -/
def objects (rows : List MYSQL_ROW) (query : Query) : List Object :=
  match query with
  | ReadUserInfo _ => [.user (UserInfo.ValueSerialization {} (CallBackReadUserInfo query.dict rows))]
  | BatchReadUserInfos _ => (fetch (UserInfo.ValueSerialization {}) (CallBackBatchReadUserInfo query.dict rows)).map .user
  | GetDimensions _ => (fetch (Dimension.ValueSerialization {}) (CallBackGetDimensions query.dict rows)).map .dimension
  | GetAvailableMusicInfo => (fetch (readMusic {}) (CallBackGetAvailableMusicInfo query.dict rows)).map .music
  | GetAllDimension => (fetch (Dimension.ValueSerialization {}) (CallBackGetAllDimension query.dict rows)).map .dimension

end Query

/-! ### What is promised -/

/-- A column that is NULL leaves the field as it is made. -/
def bigColumn (column : Option (List UInt8)) (default : Int64) : Int64 := (column.map atoll).getD default

def intColumn (column : Option (List UInt8)) (default : Int32) : Int32 := (column.map fun text => (atoll text).toInt32).getD default

def userOf (row : MYSQL_ROW) : UserInfo where
  uid_ := bigColumn (row 0) 0
  sex_ := intColumn (row 1) (-1)
  type_ := intColumn (row 2) 0
  nickname_ := (row 3).getD []
  source_ := intColumn (row 4) 0
  machine_ := intColumn (row 5) 0
  city_ := (row 6).getD []
  birthday_ := (row 7).getD []
  logintime_ := bigColumn (row 8) 0
  head_ := (row 9).getD []

def dimensionOf (row : MYSQL_ROW) : Dimension where
  id_ := bigColumn (row 0) 0
  name_ := (row 1).getD []

def musicOf (row : MYSQL_ROW) : MusicInfo where
  id_ := bigColumn (row 0) 0
  hot_ := bigColumn (row 1) (-1)
  clt_ := bigColumn (row 2) (-1)
  cmt_ := bigColumn (row 3) (-1)
  title_ := (row 4).getD []
  ablum_ := (row 5).getD []
  pubtime_ := (row 6).getD []
  artist_ := (row 7).getD []
  url_ := (row 8).getD []
  hq_url_ := (row 8).getD []
  pic_ := (row 9).getD []
  lyric_ := (row 10).getD []

def allDimensionOf (row : MYSQL_ROW) : Dimension where
  id_ := bigColumn (row 0) 0
  class_name_ := (row 1).getD []
  name_ := (row 2).getD []
  description_ := (row 3).getD []

/-- The object with the values of the row. -/
def Query.object (row : MYSQL_ROW) : Query → Object
  | ReadUserInfo _ => .user (userOf row)
  | BatchReadUserInfos _ => .user (userOf row)
  | GetDimensions _ => .dimension (dimensionOf row)
  | GetAvailableMusicInfo => .music (musicOf row)
  | GetAllDimension => .dimension (allDimensionOf row)

/-- One object for each row, and in their order. -/
def Right (SQLExec : List UInt8 → List MYSQL_ROW) (query : Query) : Prop :=
  query.objects (SQLExec query.sql) = (SQLExec query.sql).map fun row => query.object row

def Counted (rows : List MYSQL_ROW) : Prop := rows = [] ∨ 0 < Int32.ofNat rows.length

/-- The columns that get lost say nothing. -/
def Good (rows : List MYSQL_ROW) : Query → Prop
  | .ReadUserInfo _ => ∃ row, rows = [row] ∧ bigColumn (row 8) 0 = 0
  | .BatchReadUserInfos _ => Counted rows ∧ ∀ row ∈ rows, bigColumn (row 8) 0 = 0
  | .GetDimensions _ => Counted rows ∧ ∀ row ∈ rows, bigColumn (row 0) 0 = 0
  | .GetAvailableMusicInfo => Counted rows ∧ ∀ row ∈ rows, musicOf row = {}
  | .GetAllDimension => Counted rows

/-! ### Columns -/

section Columns
variable {dict : DictionaryValue} {fields : List Field} {name : String} {column : Option (List UInt8)}

theorem find_column (distinct : (fields.map Field.name).Nodup) {field : Field} (absent : dict.find field.name = none)
    (member : field ∈ fields) : (Logic.setAll dict fields).find field.name = if field.written then some field.value else none := by
  rw [Logic.find_field distinct member,absent]

theorem get_big_column (distinct : (fields.map Field.name).Nodup) (absent : dict.find (key name) = none)
    (member : SetBigInteger name column ∈ fields) : GetBigInteger (Logic.setAll dict fields) name = column.map atoll := by
  have found := find_column distinct absent member
  rw [GetBigInteger,show key name = (SetBigInteger name column).name from rfl,found]
  cases column <;> rfl

theorem get_int_column (distinct : (fields.map Field.name).Nodup) (absent : dict.find (key name) = none)
    (member : SetInteger name column ∈ fields) :
    GetInteger (Logic.setAll dict fields) name = column.map fun text => (atoll text).toInt32 := by
  have found := find_column distinct absent member
  rw [GetInteger,show key name = (SetInteger name column).name from rfl,found]
  cases column <;> rfl

theorem get_str_column (distinct : (fields.map Field.name).Nodup) (absent : dict.find (key name) = none)
    (member : SetString name column ∈ fields) : GetString (Logic.setAll dict fields) name = column := by
  have found := find_column distinct absent member
  rw [GetString,show key name = (SetString name column).name from rfl,found]
  cases column <;> rfl

theorem find_unset (absent : dict.find (key name) = none) (other : key name ∉ fields.map Field.name) :
    (Logic.setAll dict fields).find (key name) = none := (Logic.find_other other).trans absent

end Columns

section Rows
variable {dict : DictionaryValue} (row : MYSQL_ROW)

/-- The keys that are read. -/
def userKeys : List String :=
  ["uid","sex","machine","loginttime","type","source","session","imei","nickname","city","head","birthday","location","token"]

def userColumns : List Logic.WString :=
  ["uid","sex","type","nickname","source","machine","city","birthday","logintime","head"].map key

/-- All but the time, which is read under another key. -/
theorem read_user (absent : ∀ name ∈ userKeys, dict.find (key name) = none) :
    UserInfo.ValueSerialization {} (Logic.setAll dict (userFields row)) = { userOf row with logintime_ := 0 } := by
  have names : (userFields row).map Field.name = userColumns := Storage.names _
  have distinct : ((userFields row).map Field.name).Nodup := by
    rw [names]
    decide
  simp only [userKeys,List.forall_mem_cons] at absent
  obtain ⟨uid,sex,machine,loginttime,type,source,session,imei,nickname,city,head,birthday,location,token,-⟩ := absent
  have unset {name : String} (absent : dict.find (key name) = none) (other : key name ∉ userColumns) :
      GetString (Logic.setAll dict (userFields row)) name = none := by
    rw [GetString,find_unset absent (names ▸ other)]
  have logintime : GetBigInteger (Logic.setAll dict (userFields row)) "loginttime" = none := by
    rw [GetBigInteger,find_unset loginttime (by rw [names]; decide)]
  rw [UserInfo.ValueSerialization,
    get_big_column distinct uid (by simp [userFields,Row.fields] : SetBigInteger "uid" (row 0) ∈ _),
    get_int_column distinct sex (by simp [userFields,Row.fields] : SetInteger "sex" (row 1) ∈ _),
    get_int_column distinct type (by simp [userFields,Row.fields] : SetInteger "type" (row 2) ∈ _),
    get_str_column distinct nickname (by simp [userFields,Row.fields] : SetString "nickname" (row 3) ∈ _),
    get_int_column distinct source (by simp [userFields,Row.fields] : SetInteger "source" (row 4) ∈ _),
    get_int_column distinct machine (by simp [userFields,Row.fields] : SetInteger "machine" (row 5) ∈ _),
    get_str_column distinct city (by simp [userFields,Row.fields] : SetString "city" (row 6) ∈ _),
    get_str_column distinct birthday (by simp [userFields,Row.fields] : SetString "birthday" (row 7) ∈ _),
    get_str_column distinct head (by simp [userFields,Row.fields] : SetString "head" (row 9) ∈ _)]
  rw [logintime,unset session (by decide),unset imei (by decide),unset location (by decide),unset token (by decide)]
  rfl

/-- The id is not read. -/
theorem read_dimension :
    Dimension.ValueSerialization {} (Logic.setAll [] (dimensionFields row)) = { dimensionOf row with id_ := 0 } := by
  have names : (dimensionFields row).map Field.name = [key "id",key "name"] := rfl
  have distinct : ((dimensionFields row).map Field.name).Nodup := by
    rw [names]
    decide
  have unset (name : String) (other : key name ∉ [key "id",key "name"]) :
      GetString (Logic.setAll [] (dimensionFields row)) name = none := by
    rw [GetString,find_unset rfl (names ▸ other)]
  -- an integer of 32 bits is none of 64
  have id : GetBigInteger (Logic.setAll [] (dimensionFields row)) "id" = none := by
    have found := @find_column [] _ distinct (SetInteger "id" (row 0)) rfl List.mem_cons_self
    rw [GetBigInteger,show key "id" = (SetInteger "id" (row 0)).name from rfl,found]
    cases row 0 <;> rfl
  rw [Dimension.ValueSerialization,id,unset "class_name" (by decide),unset "desc" (by decide),
    get_str_column distinct rfl (by simp [dimensionFields] : SetString "name" (row 1) ∈ _)]
  rfl

theorem read_allDimension :
    Dimension.ValueSerialization {} (Logic.setAll [] (allDimensionFields row)) = allDimensionOf row := by
  have distinct : ((allDimensionFields row).map Field.name).Nodup := by
    have names : (allDimensionFields row).map Field.name = [key "id",key "class_name",key "name",key "desc"] := rfl
    rw [names]
    decide
  rw [Dimension.ValueSerialization,
    get_big_column distinct rfl (by simp [allDimensionFields] : SetBigInteger "id" (row 0) ∈ _),
    get_str_column distinct rfl (by simp [allDimensionFields] : SetString "class_name" (row 1) ∈ _),
    get_str_column distinct rfl (by simp [allDimensionFields] : SetString "name" (row 2) ∈ _),
    get_str_column distinct rfl (by simp [allDimensionFields] : SetString "desc" (row 3) ∈ _)]
  rfl

end Rows

/-! ### Objects -/

section Objects
variable {rows : List MYSQL_ROW}

theorem fetch_resultvalue {α : Type} (read : DictionaryValue → α) (dict : DictionaryValue) (entries : MYSQL_ROW → DictionaryValue) :
    fetch read (dict.assign (key "resultvalue") (.list (rows.map fun row => .dictionary (entries row)))) =
      rows.map fun row => read (entries row) := by
  rw [fetch,GetList,ValueMap.find_assign,if_pos rfl,Option.getD_some,List.map_map]
  rfl

theorem map_fetched_iff {α : Type} {got want : MYSQL_ROW → α} {same : MYSQL_ROW → Prop} (each : ∀ row, got row = want row ↔ same row) :
    (fetched rows).map got = rows.map want ↔ Counted rows ∧ ∀ row ∈ rows, same row := by
  rw [fetched,Counted]
  by_cases counted : 0 < Int32.ofNat rows.length
  · rw [if_pos counted,List.map_inj_left]
    simp only [each,counted,or_true,true_and]
  · rw [if_neg counted,List.map_nil]
    constructor
    · intro none_
      have empty := List.map_eq_nil_iff.mp none_.symm
      exact ⟨.inl empty,fun row member => absurd (empty ▸ member) List.not_mem_nil⟩
    · rintro ⟨empty | some_,-⟩
      · rw [empty,List.map_nil]
      · exact absurd some_ counted

theorem user_iff (row : MYSQL_ROW) : { userOf row with logintime_ := 0 } = userOf row ↔ bigColumn (row 8) 0 = 0 := by
  rw [UserInfo.mk.injEq]
  simp only [true_and,and_true]
  exact eq_comm

theorem dimension_iff (row : MYSQL_ROW) : { dimensionOf row with id_ := 0 } = dimensionOf row ↔ bigColumn (row 0) 0 = 0 := by
  rw [Dimension.mk.injEq]
  simp only [and_true]
  exact eq_comm

/-- The keys of a user are not that of the query. -/
theorem dict_absent (query : Query) : ∀ name ∈ userKeys, query.dict.find (key name) = none := by
  have apart : ∀ name ∈ userKeys, key name ≠ key "sql" := by decide
  intro name listed
  rw [Query.dict,ValueMap.find_assign,if_neg (apart name listed)]
  rfl

theorem ReadUserInfo_objects (uid : Int64) (row : MYSQL_ROW) :
    (Query.ReadUserInfo uid).objects [row] = [.user { userOf row with logintime_ := 0 }] := by
  rw [← read_user row (dict_absent (.ReadUserInfo uid))]
  rfl

end Objects

theorem objects_iff (SQLExec : List UInt8 → List MYSQL_ROW) (query : Query) :
    Right SQLExec query ↔ Good (SQLExec query.sql) query := by
  rw [Right]
  generalize SQLExec query.sql = rows
  cases query with
  | ReadUserInfo uid =>
    constructor
    · intro same
      obtain ⟨row,rfl⟩ : ∃ row, rows = [row] := by
        have one := congrArg List.length same
        rw [List.length_map] at one
        exact List.length_eq_one_iff.mp one.symm
      rw [ReadUserInfo_objects] at same
      exact ⟨row,rfl,(user_iff row).mp (Object.user.inj (List.head_eq_of_cons_eq same))⟩
    · rintro ⟨row,rfl,unset⟩
      rw [ReadUserInfo_objects,(user_iff row).mpr unset]
      rfl
  | BatchReadUserInfos uid_list =>
    rw [Query.objects,CallBackBatchReadUserInfo,CallBack,fetch_resultvalue,List.map_map]
    apply map_fetched_iff
    intro row
    rw [Function.comp_apply,read_user row fun _ _ => rfl,← user_iff]
    exact ⟨Object.user.inj,congrArg Object.user⟩
  | GetDimensions type =>
    rw [Query.objects,CallBackGetDimensions,CallBack,fetch_resultvalue,List.map_map]
    apply map_fetched_iff
    intro row
    rw [Function.comp_apply,read_dimension,← dimension_iff]
    exact ⟨Object.dimension.inj,congrArg Object.dimension⟩
  | GetAvailableMusicInfo =>
    rw [Query.objects,CallBackGetAvailableMusicInfo,fetch_resultvalue _ _ fun _ => [],List.map_map]
    apply map_fetched_iff
    intro row
    exact ⟨fun same => (Object.music.inj same).symm,fun same => congrArg Object.music same.symm⟩
  | GetAllDimension =>
    rw [Query.objects,CallBackGetAllDimension,CallBack,fetch_resultvalue,List.map_map]
    refine (map_fetched_iff fun row => ?_).trans (and_iff_left fun _ _ => trivial)
    rw [Function.comp_apply,read_allDimension]
    exact iff_of_true rfl trivial

/-- A song that has its addresses becomes an object without any value. -/
theorem song_lost : ¬Right (fun _ => [fun _ => some (ascii "7")]) .GetAvailableMusicInfo := by
  intro right
  have id := congrArg MusicInfo.id_ (Object.music.inj (List.head_eq_of_cons_eq right))
  revert id
  decide

/-! ### What the callers get -/

section Engine
variable (SQLExec : List UInt8 → List MYSQL_ROW)

def BatchReadUserInfos (uid_list : List Int64) (usrinfo : Map UserInfo) : Map UserInfo :=
  let query := Query.BatchReadUserInfos uid_list
  (fetch (UserInfo.ValueSerialization {}) (CallBackBatchReadUserInfo query.dict (SQLExec query.sql))).foldl
    (fun usrinfo info => MapAdd usrinfo info.uid_ info) usrinfo

def GetDimensions (type : List UInt8) (dimensions_map_ : Map Dimension) : Map Dimension :=
  let query := Query.GetDimensions type
  (fetch (Dimension.ValueSerialization {}) (CallBackGetDimensions query.dict (SQLExec query.sql))).foldl
    (fun dimensions_map_ dimension => MapAdd dimensions_map_ dimension.id_ dimension) dimensions_map_

def GetAvailableMusicInfo (map : Map MusicInfo) : Map MusicInfo :=
  let query := Query.GetAvailableMusicInfo
  (fetch (readMusic {}) (CallBackGetAvailableMusicInfo query.dict (SQLExec query.sql))).foldl
    (fun map musicinfo => if musicinfo.Isvalid then MapAdd map musicinfo.id_ musicinfo else map) map

def GetAllDimension (list : List Dimension) : List Dimension :=
  let query := Query.GetAllDimension
  list ++ fetch (Dimension.ValueSerialization {}) (CallBackGetAllDimension query.dict (SQLExec query.sql))

/-- No song is ever handed out. -/
theorem GetAvailableMusicInfo_eq (map : Map MusicInfo) : GetAvailableMusicInfo SQLExec map = map := by
  rw [GetAvailableMusicInfo,CallBackGetAvailableMusicInfo]
  rw [fetch_resultvalue _ _ fun _ => []]
  induction fetched (SQLExec Query.GetAvailableMusicInfo.sql) with
  | nil => rfl
  | cons row rows ih =>
    rw [List.map_cons,List.foldl_cons]
    exact ih

/-- All dimensions share one place. -/
theorem GetDimensions_other (type : List UInt8) (dimensions_map_ : Map Dimension) {id : Int64} (apart : id ≠ 0) :
    (GetDimensions SQLExec type dimensions_map_)[id]? = dimensions_map_[id]? := by
  rw [GetDimensions,CallBackGetDimensions,CallBack]
  rw [fetch_resultvalue]
  induction fetched (SQLExec (Query.GetDimensions type).sql) generalizing dimensions_map_ with
  | nil => rfl
  | cons row rows ih =>
    rw [List.map_cons,List.foldl_cons,ih,read_dimension,Basic.MapAdd_get,if_neg apart]

theorem GetAllDimension_eq (counted : Counted (SQLExec Query.GetAllDimension.sql)) (list : List Dimension) :
    GetAllDimension SQLExec list = list ++ (SQLExec Query.GetAllDimension.sql).map allDimensionOf := by
  have read (row : MYSQL_ROW) : Dimension.ValueSerialization {} (Logic.setAll [] (allDimensionFields row)) = allDimensionOf row ↔ True :=
    iff_of_true (read_allDimension row) trivial
  rw [GetAllDimension,CallBackGetAllDimension,CallBack]
  rw [fetch_resultvalue,(map_fetched_iff read).mpr ⟨counted,fun _ _ => trivial⟩]

end Engine
end Migfm.Data.MysqlEngine
