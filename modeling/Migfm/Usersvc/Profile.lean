import Migfm.Data.DataCache
import Migfm.Recv.CommHead
import Migfm.Storage.Readers
import Migfm.Usersvc.DBComm

/-! svc/usersvc/user_logic.cc: logins and updates of users, and the cache of
data/data_cache_manager.cc beside the database. A request is one step. -/
namespace Migfm.Usersvc
open Basic Library
open Logic (decimal atoll ValueMap Value)

/-- What a user can update. -/
structure Profile where
  nickname : List UInt8
  sex : Int32
  birthday : List UInt8
deriving DecidableEq

def profile (info : Logic.UserInfo) : Profile := ⟨info.nickname_,info.sex_,info.birthday_⟩

/-- What is cached of a record. It shares its data, so that it has the token too. -/
def UserInfo.cached (userinfo : UserInfo) (token : List UInt8) : Logic.UserInfo where
  uid_ := userinfo.uid_
  sex_ := userinfo.sex_
  machine_ := userinfo.machine_
  logintime_ := userinfo.logintime_
  type_ := userinfo.type_
  source_ := userinfo.source_
  session_ := userinfo.session_
  imei_ := userinfo.imei_
  nickname_ := userinfo.nickname_
  city_ := userinfo.city_
  head_ := userinfo.head_
  birthday_ := userinfo.birthday_
  location_ := userinfo.location_
  token_ := token

/-- `rubbish` is the channel that is not set. -/
def thirdLogin (login : Recv.ThirdLogin) : UserInfo where
  city_ := login.location_
  imei_ := login.imei_
  machine_ := login.machine_
  type_ := login.source_
  nickname_ := login.nickname_
  sex_ := login.sex_
  head_ := login.head_
  session_ := login.session_
  source_ := login.source_
  birthday_ := login.birthday_
  plt_ := login.plt_
  channel_ := login.channel_.toInt32

def updated (update : Recv.UpdateUserInfo) (rubbish : Int32) : UserInfo where
  uid_ := update.uid_
  birthday_ := update.birthday_
  nickname_ := update.nickname_
  sex_ := update.gender_.toInt32
  channel_ := rubbish

/-- The database, memcached and the cache of the data engine. -/
structure Userlogic (Database : Type) where
  session : Session Database
  mem : Int64 → Option (ValueMap Value)
  userinfo_map_ : Map Logic.UserInfo

/-- A login with the token that is made for it, an update, and a read of another service. -/
inductive Request
  | OnThirdLogin (login : Recv.ThirdLogin) (token : List UInt8)
  | OnUpdateUserInfo (update : Recv.UpdateUserInfo) (rubbish : Int32)
  | GetUserInfo (uid : Int64)

section Requests
variable {Database : Type}

namespace Userlogic

/-- Nobody is cached. -/
def start (db : Database) (mem : Int64 → Option (ValueMap Value)) : Userlogic Database := ⟨⟨db,[]⟩,mem,∅⟩

section Handlers
variable (engine : Option (Engine Database)) (rows : Database → Int64 → List Data.Row) (s : Userlogic Database)

def OnThirdLogin (login : Recv.ThirdLogin) (token : List UInt8) : Userlogic Database :=
  if login.GetResult ≠ 0 then s
  else
    match Usersvc.OnThirdLogin engine s.session (thirdLogin login) with
    | (session,none) => { s with session }
    | (session,some userinfo) =>
      { s with session,userinfo_map_ := MapAdd s.userinfo_map_ userinfo.uid_ (userinfo.cached token) }

/-- Whether the database was updated is not looked at. -/
def OnUpdateUserInfo (update : Recv.UpdateUserInfo) (rubbish : Int32) : Userlogic Database :=
  if update.GetResult ≠ 0 then s
  else { s with session := (Usersvc.OnUpdateUserInfo engine s.session (updated update rubbish)).1 }

/-- `rows` is what `proc_V2GetUserInfo` answers. -/
def storage : Data.Storage := ⟨s.mem,rows s.session.db⟩

def GetUserInfo (uid : Int64) : Userlogic Database × Logic.UserInfo :=
  match MapGet s.userinfo_map_ uid with
  | some info => (s,info)
  | none =>
    let (storage,info) := (s.storage rows).GetUserInfo uid
    ({ s with mem := storage.mem,userinfo_map_ := MapAdd s.userinfo_map_ uid info },info)

def serve : Request → Userlogic Database
  | .OnThirdLogin login token => s.OnThirdLogin engine login token
  | .OnUpdateUserInfo update rubbish => s.OnUpdateUserInfo engine update rubbish
  | .GetUserInfo uid => (s.GetUserInfo rows uid).1

end Handlers

end Userlogic

/-! ### What is stored -/

/-- The profile that the database has of the user. -/
def stored (rows : Database → Int64 → List Data.Row) (db : Database) (uid : Int64) : Profile :=
  profile (Data.Storage.ReadUserInfo ⟨fun _ => none,rows db⟩ uid)

def UserInfo.profile (userinfo : UserInfo) : Profile := ⟨userinfo.nickname_,userinfo.sex_,userinfo.birthday_⟩

/-- The procedures succeed and store what they are given; a login answers what it stored, and an update makes no user. -/
structure Lawful (engine : Engine Database) (rows : Database → Int64 → List Data.Row) : Prop where
  login : ∀ db userinfo, ∃ after row others uid, engine.SQLExec db (.proc_V2ThirdLogin userinfo) = some (after,row::others) ∧
    row 0 = some (decimal uid.toInt) ∧ row 1 = some (decimal (stored rows after uid).sex.toInt) ∧
    row 2 = some (stored rows after uid).nickname ∧ stored rows after uid = userinfo.profile ∧
    ∀ other, other ≠ uid → stored rows after other = stored rows db other
  update : ∀ db userinfo, ∃ after answer, engine.SQLExec db (.proc_V2UpdateUserInfo userinfo) = some (after,answer) ∧
    (∀ uid, rows after uid = [] ↔ rows db uid = []) ∧
    ∀ uid, stored rows after uid = if uid = userinfo.uid_ ∧ rows db uid ≠ [] then userinfo.profile else stored rows db uid

namespace Userlogic
variable (engine : Engine Database) (rows : Database → Int64 → List Data.Row)

/-- Whoever is cached is handed out as the database has them. -/
def Follows (s : Userlogic Database) : Prop :=
  ∀ uid, uid ∈ s.userinfo_map_ → profile (s.GetUserInfo rows uid).2 = stored rows s.session.db uid

/-- The requests that leave it so: what is updated behind the cache stays what it was, and memcached has no other profile. -/
def Spares (s : Userlogic Database) : Request → Prop
  | .OnThirdLogin _ _ => True
  | .OnUpdateUserInfo update rubbish => update.GetResult = 0 → update.uid_ ∈ s.userinfo_map_ → rows s.session.db update.uid_ ≠ [] →
    stored rows s.session.db update.uid_ = (updated update rubbish).profile
  | .GetUserInfo uid => uid ∉ s.userinfo_map_ → ∀ dic, s.mem uid = some dic →
    profile (Logic.UserInfo.ValueSerialization {} dic) = stored rows s.session.db uid

/-- A cached record is the one that is handed out. -/
theorem follows_cached {s : Userlogic Database} : s.Follows rows ↔
    ∀ {uid info}, s.userinfo_map_[uid]? = some info → profile info = stored rows s.session.db uid := by
  constructor
  · intro follows uid info found
    have handed := follows uid (Std.ExtTreeMap.mem_iff_isSome_getElem?.mpr (by rw [found]; rfl))
    rw [GetUserInfo,MapGet,found] at handed
    exact handed
  · intro cached uid member
    obtain ⟨info,found⟩ := Option.isSome_iff_exists.mp (Std.ExtTreeMap.mem_iff_isSome_getElem?.mp member)
    rw [GetUserInfo,MapGet,found]
    exact cached found

theorem atoll_int64 (n : Int64) : atoll (decimal n.toInt) = n := by
  have low := n.le_toInt
  have high := n.toInt_lt
  rw [Storage.atoll_decimal low high,Int64.ofInt_toInt]

theorem atoll_int32 (n : Int32) : (atoll (decimal n.toInt)).toInt32 = n := by
  have low := n.le_toInt
  have high := n.toInt_lt
  rw [Storage.atoll_decimal (by omega) (by omega),Int64.toInt32_ofInt,Int32.ofInt_toInt]

variable {engine} {rows} (lawful : Lawful engine rows) (s : Userlogic Database)
include lawful

/-- A login caches the user with what was stored, and stores nothing of others. -/
theorem OnThirdLogin_spec {login : Recv.ThirdLogin} (sound : login.GetResult = 0) (token : List UInt8) : ∃ uid info,
    (s.OnThirdLogin (some engine) login token).userinfo_map_ = MapAdd s.userinfo_map_ uid info ∧
    profile info = stored rows (s.OnThirdLogin (some engine) login token).session.db uid ∧
    ∀ other, other ≠ uid → stored rows (s.OnThirdLogin (some engine) login token).session.db other = stored rows s.session.db other := by
  obtain ⟨after,row,others,uid,executed,number,sex,nickname,stores,elsewhere⟩ := lawful.login s.session.db (thirdLogin login)
  have answered : Usersvc.OnThirdLogin (some engine) s.session (thirdLogin login) =
      (⟨after,s.session.handed ++ [SqlText.cut (sqlThirdLogin (thirdLogin login))]⟩,some ((thirdLogin login).readThirdLogin row)) := by
    simp [Usersvc.OnThirdLogin,Session.query,Session.SQLExec,executed,Statement.sql]
  have record : profile (((thirdLogin login).readThirdLogin row).cached token) = stored rows after uid := by
    simp only [profile,UserInfo.cached,UserInfo.readThirdLogin,sex,nickname,Option.map_some,Option.getD_some,atoll_int32,stores]
    rfl
  have same : ((thirdLogin login).readThirdLogin row).uid_ = uid := by
    simp [UserInfo.readThirdLogin,number,atoll_int64]
  refine ⟨uid,((thirdLogin login).readThirdLogin row).cached token,?_⟩
  rw [OnThirdLogin,if_neg (not_not_intro sound),answered]
  refine ⟨?_,record,elsewhere⟩
  rw [← same]

theorem OnUpdateUserInfo_spec {update : Recv.UpdateUserInfo} (sound : update.GetResult = 0) (rubbish : Int32) (uid : Int64) :
    (s.OnUpdateUserInfo (some engine) update rubbish).userinfo_map_ = s.userinfo_map_ ∧
    stored rows (s.OnUpdateUserInfo (some engine) update rubbish).session.db uid =
      if uid = update.uid_ ∧ rows s.session.db uid ≠ [] then (updated update rubbish).profile else stored rows s.session.db uid := by
  obtain ⟨first,_,executed,users,stores⟩ := lawful.update s.session.db (updated update rubbish)
  obtain ⟨second,_,again,_,restores⟩ := lawful.update first (updated update rubbish)
  have db : (s.OnUpdateUserInfo (some engine) update rubbish).session.db = second := by
    simp [OnUpdateUserInfo,sound,Usersvc.OnUpdateUserInfo,Session.SQLExec,executed,again]
  refine ⟨?_,?_⟩
  · rw [OnUpdateUserInfo,if_neg (not_not_intro sound)]
  · have same : (updated update rubbish).uid_ = update.uid_ := rfl
    rw [db,restores,stores,same]
    simp only [ne_eq,users uid]
    split
    · rfl
    · rfl

omit lawful in
/-- Who is not cached is cached with what memcached has, else with what is stored. -/
theorem GetUserInfo_spec (uid : Int64) : (s.GetUserInfo rows uid).1.session = s.session ∧
    (uid ∈ s.userinfo_map_ → (s.GetUserInfo rows uid).1 = s) ∧
    (uid ∉ s.userinfo_map_ → ∃ info, (s.GetUserInfo rows uid).1.userinfo_map_ = MapAdd s.userinfo_map_ uid info ∧
      profile info = ((s.mem uid).map fun dic => profile (Logic.UserInfo.ValueSerialization {} dic)).getD (stored rows s.session.db uid)) := by
  rw [GetUserInfo,MapGet]
  refine ⟨?_,?_,?_⟩
  · split
    · rfl
    · rfl
  · intro member
    obtain ⟨info,found⟩ := Option.isSome_iff_exists.mp (Std.ExtTreeMap.mem_iff_isSome_getElem?.mp member)
    rw [found]
  · intro absent
    rw [Std.ExtTreeMap.getElem?_eq_none absent]
    refine ⟨_,rfl,?_⟩
    simp only [storage,Data.Storage.GetUserInfo]
    cases s.mem uid with
    | some dic => rfl
    | none => rfl

/-- What one request does to a cache that follows the database. -/
theorem follows_iff_spares {s : Userlogic Database} (follows : s.Follows rows) (request : Request) :
    (s.serve (some engine) rows request).Follows rows ↔ s.Spares rows request := by
  rw [follows_cached] at follows ⊢
  cases request with
  | OnThirdLogin login token =>
    refine iff_of_true ?_ trivial
    intro user found here
    by_cases sound : login.GetResult = 0
    · obtain ⟨uid,info,map,record,others⟩ := OnThirdLogin_spec lawful s sound token
      simp only [serve] at here ⊢
      rw [map,MapAdd_get] at here
      split at here
      · next same =>
        cases here
        rw [same]
        exact record
      · next other =>
        rw [others user other]
        exact follows here
    · rw [serve,OnThirdLogin,if_pos sound] at here ⊢
      exact follows here
  | OnUpdateUserInfo update rubbish =>
    by_cases sound : update.GetResult = 0
    · have spec := OnUpdateUserInfo_spec lawful s sound rubbish
      simp only [serve,Spares,sound,true_imp_iff,(spec 0).1,(spec _).2]
      constructor
      · intro after member known
        obtain ⟨info,found⟩ := Option.isSome_iff_exists.mp (Std.ExtTreeMap.mem_iff_isSome_getElem?.mp member)
        have given := after found
        rw [if_pos ⟨rfl,known⟩] at given
        exact (follows found).symm.trans given
      · intro spares user info found
        split
        · next given =>
          obtain ⟨rfl,known⟩ := given
          have member := Std.ExtTreeMap.mem_iff_isSome_getElem?.mpr (Option.isSome_iff_exists.mpr ⟨info,found⟩)
          exact (follows found).trans (spares member known)
        · exact follows found
    · rw [serve,OnUpdateUserInfo,if_pos sound]
      exact iff_of_true follows fun zero => absurd zero sound
  | GetUserInfo uid =>
    obtain ⟨session,hit,miss⟩ := @GetUserInfo_spec _ rows s uid
    rw [serve,Spares,session]
    by_cases member : uid ∈ s.userinfo_map_
    · rw [hit member]
      exact iff_of_true follows fun absent => absurd member absent
    · obtain ⟨info,map,record⟩ := miss member
      simp only [map,member,not_false_eq_true,true_imp_iff]
      constructor
      · intro after dic held
        have here := after (by rw [MapAdd_get,if_pos rfl] : (MapAdd s.userinfo_map_ uid info)[uid]? = some info)
        rw [record,held] at here
        exact here
      · intro spares user found here
        rw [MapAdd_get] at here
        split at here
        · next same =>
          cases here
          rw [same,record]
          cases held : s.mem uid with
          | none => rfl
          | some dic => exact spares dic held
        · exact follows here

end Userlogic

end Requests

/-! ### A database -/

abbrev Table := Int64 → Option Profile

def Table.row (uid : Int64) (p : Profile) : Data.Row where
  uid := some (decimal uid.toInt)
  sex := some (decimal p.sex.toInt)
  type := none
  nickname := some p.nickname
  source := none
  machine := none
  city := none
  birthday := some p.birthday
  logintime := none
  head := none

def Table.rows (table : Table) (uid : Int64) : List Data.Row := ((table uid).map (Table.row uid)).toList

/-- A session is the number of its user. -/
def Table.engine : Engine Table where
  SQLExec table
    | .proc_V2ThirdLogin userinfo =>
      let uid := atoll userinfo.session_
      let answer : Row := fun
        | 0 => some (decimal uid.toInt)
        | 1 => some (decimal userinfo.sex_.toInt)
        | 2 => some userinfo.nickname_
        | _ => none
      some (Function.update table uid (some userinfo.profile),[answer])
    | .proc_QuickRegister _ _ => none
    | .proc_V2UpdateUserInfo userinfo =>
      some (if (table userinfo.uid_).isSome then Function.update table userinfo.uid_ (some userinfo.profile) else table,[])

theorem Table.stored_eq (table : Table) (uid : Int64) : stored Table.rows table uid = (table uid).getD ⟨[],-1,[]⟩ := by
  have blank : profile (Data.Storage.ReadUserInfo ⟨fun _ => none,fun _ => []⟩ uid) = ⟨[],-1,[]⟩ := rfl
  cases held : table uid with
  | none =>
    simp only [stored,Data.Storage.ReadUserInfo,Table.rows,held]
    exact blank
  | some p =>
    have distinct : ((Table.row uid p).fields.map Logic.Field.name).Nodup := by
      rw [Data.Storage.names]
      decide
    have sex : Logic.GetInteger (Logic.setAll [] (Table.row uid p).fields) "sex" = some p.sex := by
      have member : Logic.int "sex" true (atoll (decimal p.sex.toInt)).toInt32 ∈ (Table.row uid p).fields := by
        simp [Data.Row.fields,Data.SetInteger,Table.row]
      rw [Logic.get_int distinct member,Userlogic.atoll_int32]
      rfl
    have text {name : String} {value : List UInt8} (member : ⟨Logic.key name,true,.string value⟩ ∈ (Table.row uid p).fields) :
        Logic.GetString (Logic.setAll [] (Table.row uid p).fields) name = some value := by
      have found := @Logic.find_field [] _ distinct _ member
      rw [Logic.GetString,found]
      rfl
    have nickname : Logic.GetString (Logic.setAll [] (Table.row uid p).fields) "nickname" = some p.nickname :=
      text (by simp [Data.Row.fields,Data.SetString,Table.row])
    have birthday : Logic.GetString (Logic.setAll [] (Table.row uid p).fields) "birthday" = some p.birthday :=
      text (by simp [Data.Row.fields,Data.SetString,Table.row])
    simp [stored,Data.Storage.ReadUserInfo,Table.rows,held,profile,Data.Storage.CallBackReadUserInfo,Logic.UserInfo.ValueSerialization,sex,nickname,birthday]

theorem Table.stores : Lawful Table.engine Table.rows where
  login table userinfo := by
    refine ⟨_,_,_,atoll userinfo.session_,rfl,rfl,?_,?_,?_,?_⟩
    · simp [Table.stored_eq,UserInfo.profile]
    · simp [Table.stored_eq,UserInfo.profile]
    · simp [Table.stored_eq]
    · intro other apart
      simp [Table.stored_eq,apart]
  update table userinfo := by
    refine ⟨_,_,rfl,?_,?_⟩
    · intro uid
      by_cases here : (table userinfo.uid_).isSome
      · by_cases same : uid = userinfo.uid_
        · have some_ : table userinfo.uid_ ≠ none := Option.isSome_iff_ne_none.mp here
          simp [Table.rows,here,same,some_]
        · simp [Table.rows,here,same]
      · simp [Table.rows,here]
    · intro uid
      by_cases here : (table userinfo.uid_).isSome
      · by_cases same : uid = userinfo.uid_
        · have some_ : table userinfo.uid_ ≠ none := Option.isSome_iff_ne_none.mp here
          simp [Table.stored_eq,Table.rows,here,same,some_]
        · simp [Table.stored_eq,here,same]
      · have none_ : table userinfo.uid_ = none := by simpa using here
        by_cases same : uid = userinfo.uid_
        · simp [Table.rows,same,none_]
        · simp [same,none_]

/-- User 7 logs in as `a`. -/
def login : Request := .OnThirdLogin
  { type_ := 0,remote_addr_ := [],error_code_ := 0,login_machine_ := 0,machine_ := 0,nickname_ := [97],source_ := 3,sex_ := 1
    plt_ := 0,channel_ := 0,union_ := .qq_session_ [55],session_ := [55],birthday_ := [49],location_ := [],head_ := [],imei_ := [] } []

/-- User 7 is called `b` from then on. -/
def rename : Request := .OnUpdateUserInfo
  { type_ := 0,remote_addr_ := [],error_code_ := 0,login_machine_ := 0,uid_ := 7,token_ := [],gender_ := 1,nickname_ := [98]
    birthday_ := [49] } 0

end Migfm.Usersvc
