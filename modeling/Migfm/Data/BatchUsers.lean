import Migfm.Data.DataCache

/-! `BatchGetUserInfo` of data/data_cache_manager.cc, data/storage_operation.cc and
data/data_mem_engine.cc: what memcached has, then the rows of the database for the
users that are left, into one map, and the map into the caller's array. -/
namespace Migfm.Data.BatchUsers
open Basic Library
open Logic (UserInfo ValueMap)

/-- What is asked of the servers: the order in which memcached answers the keys, and the rows
of `proc_V2BatchGetUserInfo`. -/
structure Servers where
  fetch : List Int64 → List Int64
  rows : List Int64 → List Row

section Calls
variable (servers : Servers)

/-- `DataUserMemEngine::BatchGetUserInfo`: only whole users are kept. -/
def MemBatchGetUserInfo (s : Storage) (batch_uid : List Int64) (usrinfo : Map UserInfo) : Map UserInfo :=
  ((servers.fetch batch_uid).filterMap s.mem).foldl (fun usrinfo json =>
    let userinfo := UserInfo.ValueSerialization {} json
    if userinfo.Isvalid then MapAdd usrinfo userinfo.uid_ userinfo else usrinfo) usrinfo

def CallBackBatchReadUserInfo (rows : List Row) : List (ValueMap Logic.Value) := rows.map fun row => Logic.setAll [] row.fields

/-- Every row is kept. -/
def BatchReadUserInfos (uid_list : List Int64) (usrinfo : Map UserInfo) : Map UserInfo :=
  (CallBackBatchReadUserInfo (servers.rows uid_list)).foldl (fun usrinfo dict_result_value =>
    let info := UserInfo.ValueSerialization {} dict_result_value
    MapAdd usrinfo info.uid_ info) usrinfo

def SetUserInfo (s : Storage) (uid : Int64) (info : UserInfo) : Storage :=
  { s with mem := Function.update s.mem uid (some (Logic.setAll [] info.fields)) }

/-- What the loop over the surplus writes back. -/
def fill (userinfo : Map UserInfo) (s : Storage) (uid : Int64) : Storage :=
  match MapGet userinfo uid with
  | some info => SetUserInfo s uid info
  | none => s

/-- `StorageOperation::BatchGetUserInfo`. -/
def StorageBatchGetUserInfo (s : Storage) (uid_list : List Int64) (userinfo : Map UserInfo) : Storage × Map UserInfo :=
  let userinfo := MemBatchGetUserInfo servers s uid_list userinfo
  let surplus_list := uid_list.filter fun uid => (MapGet userinfo uid).isNone
  let userinfo := if 0 < surplus_list.length then BatchReadUserInfos servers surplus_list userinfo else userinfo
  (surplus_list.foldl (fill userinfo) s,userinfo)

/-- The assignments to the caller's array are in the order they are made. -/
structure Outcome where
  storage : Storage
  userinfo_map_ : Map UserInfo
  userinfo_count : Int32
  users_info : List (Nat × UserInfo)

/-- `DataWholeManager::BatchGetUserInfo`. The cache of the process is handed on and not
looked at. `none` is a read outside the request. -/
def BatchGetUserInfo (s : Storage) (userinfo_map_ : Map UserInfo) (batch_uid : List Int64) (uid_count : Int32) : Option Outcome :=
  if uid_count.toInt ≤ batch_uid.length then
    let uid_vector := batch_uid.take uid_count.toInt.toNat
    let (storage,map_user_info) := StorageBatchGetUserInfo servers s uid_vector ∅
    some {
      storage, userinfo_map_
      userinfo_count := Int32.ofNat map_user_info.size
      users_info := map_user_info.toList.zipIdx.filterMap fun ((_,info),i) => if info.Isvalid then some (i,info) else none }
  else none

end Calls

/-! ### What is asked -/

/-- What memcached has of the user, if it is whole. -/
def memUser (s : Storage) (uid : Int64) : Option UserInfo := ((s.mem uid).map (UserInfo.ValueSerialization {})).filter UserInfo.Isvalid

def dbUser (s : Storage) (uid : Int64) : Option UserInfo :=
  (s.db uid).head?.map fun row => UserInfo.ValueSerialization {} (Logic.setAll [] row.fields)

/-- The user as the storage has it. -/
def stored (s : Storage) (uid : Int64) : Option UserInfo := (memUser s uid).or (dbUser s uid)

/-- The user that exists: as the process has cached it, else as the storage has it. -/
def known (s : Storage) (cache : Map UserInfo) (uid : Int64) : Option UserInfo :=
  ((MapGet cache uid).filter UserInfo.Isvalid).or (stored s uid)

/-- A user is kept under its own id everywhere, and the database has one row of it. -/
structure Own (s : Storage) (cache : Map UserInfo) : Prop where
  cache : ∀ uid info, MapGet cache uid = some info → info.Isvalid = true → info.uid_ = uid
  mem : ∀ uid info, memUser s uid = some info → info.uid_ = uid
  db : ∀ uid info, dbUser s uid = some info → info.uid_ = uid
  row : ∀ uid, (s.db uid).length ≤ 1

/-- The servers answer for the users they are asked for. -/
structure Servers.Answer (servers : Servers) (s : Storage) : Prop where
  fetch : ∀ uids uid, uid ∈ servers.fetch uids ↔ uid ∈ uids
  rows : ∀ uids row, row ∈ servers.rows uids ↔ ∃ uid ∈ uids, row ∈ s.db uid

/-- The first entries are the requested users that exist, each once, nothing is written behind
the request, and the other users stay cached as they were. -/
structure Right (s : Storage) (cache : Map UserInfo) (batch_uid : List Int64) (outcome : Outcome) : Prop where
  places : outcome.users_info.map Prod.fst = List.range outcome.userinfo_count.toInt.toNat
  users : (outcome.users_info.map Prod.snd).Perm (batch_uid.dedup.filterMap (known s cache))
  inside : ∀ write ∈ outcome.users_info, write.1 < batch_uid.length
  cached : outcome.userinfo_map_ = cache
  others : ∀ uid, uid ∉ batch_uid → outcome.storage.mem uid = s.mem uid

/-! ### The map -/

section Collect
variable {usrinfo : Map UserInfo} {infos : List UserInfo} {uid : Int64}

def collect (usrinfo : Map UserInfo) (infos : List UserInfo) : Map UserInfo :=
  infos.foldl (fun usrinfo info => MapAdd usrinfo info.uid_ info) usrinfo

theorem collect_get {user : Int64 → Option UserInfo} (own : ∀ info ∈ infos, user info.uid_ = some info) :
    (collect usrinfo infos)[uid]? = if uid ∈ infos.map UserInfo.uid_ then user uid else usrinfo[uid]? := by
  induction infos generalizing usrinfo with
  | nil => rfl
  | cons info infos ih =>
    have rest := @ih (MapAdd usrinfo info.uid_ info) fun other member => own other (List.mem_cons_of_mem _ member)
    rw [collect,List.foldl_cons]
    refine rest.trans ?_
    rw [MapAdd_get,List.map_cons]
    by_cases here : uid = info.uid_
    · rw [if_pos here,here,own info List.mem_cons_self,ite_self,if_pos List.mem_cons_self]
    · rw [if_neg here]
      simp only [List.mem_cons,here,false_or]

/-- Where the records are those of the users asked for, each under its own id, the order and
the number of each make no difference. -/
theorem collect_users {user : Int64 → Option UserInfo} {uids : List Int64}
    (listed : ∀ info, info ∈ infos ↔ ∃ uid ∈ uids, user uid = some info) (own : ∀ uid info, user uid = some info → info.uid_ = uid) :
    (collect usrinfo infos)[uid]? = if uid ∈ uids ∧ (user uid).isSome then user uid else usrinfo[uid]? := by
  have each (info : UserInfo) (member : info ∈ infos) : user info.uid_ = some info := by
    obtain ⟨uid,asked,held⟩ := (listed info).mp member
    rw [own uid info held,held]
  rw [collect_get each]
  congr 1
  rw [eq_iff_iff,List.mem_map]
  constructor
  · rintro ⟨info,member,rfl⟩
    obtain ⟨uid,asked,held⟩ := (listed info).mp member
    rw [own uid info held,held]
    exact ⟨asked,rfl⟩
  · rintro ⟨asked,there⟩
    obtain ⟨info,held⟩ := Option.isSome_iff_exists.mp there
    exact ⟨info,(listed info).mpr ⟨uid,asked,held⟩,own uid info held⟩

end Collect

section Lookup
variable {servers : Servers} {s : Storage} {cache : Map UserInfo} {uids : List Int64} {uid : Int64} {info : UserInfo}

theorem memUser_iff : memUser s uid = some info ↔
    ∃ json, s.mem uid = some json ∧ UserInfo.ValueSerialization {} json = info ∧ info.Isvalid = true := by
  rw [memUser,Option.filter_eq_some_iff,Option.map_eq_some_iff]
  constructor
  · rintro ⟨⟨json,held,rfl⟩,valid⟩
    exact ⟨json,held,rfl,valid⟩
  · rintro ⟨json,held,rfl,valid⟩
    exact ⟨⟨json,held,rfl⟩,valid⟩

theorem MemBatchGetUserInfo_get (own : Own s cache) (answer : servers.Answer s) (usrinfo : Map UserInfo) :
    (MemBatchGetUserInfo servers s uids usrinfo)[uid]? =
      if uid ∈ uids ∧ (memUser s uid).isSome then memUser s uid else usrinfo[uid]? := by
  have collected : MemBatchGetUserInfo servers s uids usrinfo = collect usrinfo
      ((((servers.fetch uids).filterMap s.mem).map (UserInfo.ValueSerialization {})).filter UserInfo.Isvalid) := by
    rw [MemBatchGetUserInfo,collect,List.foldl_filter,List.foldl_map]
  have listed (info : UserInfo) : info ∈ (((servers.fetch uids).filterMap s.mem).map (UserInfo.ValueSerialization {})).filter
      UserInfo.Isvalid ↔ ∃ uid ∈ uids, memUser s uid = some info := by
    simp only [List.mem_filter,List.mem_map,List.mem_filterMap,answer.fetch,memUser_iff]
    constructor
    · rintro ⟨⟨json,⟨uid,asked,held⟩,rfl⟩,valid⟩
      exact ⟨uid,asked,json,held,rfl,valid⟩
    · rintro ⟨uid,asked,json,held,rfl,valid⟩
      exact ⟨⟨json,⟨uid,asked,held⟩,rfl⟩,valid⟩
  rw [collected]
  exact collect_users listed own.mem

theorem dbUser_iff (own : Own s cache) {info : UserInfo} : dbUser s uid = some info ↔
    ∃ row ∈ s.db uid, UserInfo.ValueSerialization {} (Logic.setAll [] row.fields) = info := by
  have one := own.row uid
  rw [dbUser,Option.map_eq_some_iff]
  cases rows : s.db uid with
  | nil => simp
  | cons row rest =>
    rw [rows,List.length_cons] at one
    rw [List.length_eq_zero_iff.mp (Nat.le_zero.mp (Nat.le_of_succ_le_succ one))]
    simp

theorem BatchReadUserInfos_get (own : Own s cache) (answer : servers.Answer s) (usrinfo : Map UserInfo) :
    (BatchReadUserInfos servers uids usrinfo)[uid]? =
      if uid ∈ uids ∧ (dbUser s uid).isSome then dbUser s uid else usrinfo[uid]? := by
  have collected : BatchReadUserInfos servers uids usrinfo = collect usrinfo
      ((servers.rows uids).map fun row => UserInfo.ValueSerialization {} (Logic.setAll [] row.fields)) := by
    rw [BatchReadUserInfos,collect,CallBackBatchReadUserInfo,List.foldl_map,List.foldl_map]
  have listed (info : UserInfo) : info ∈ (servers.rows uids).map (fun row => UserInfo.ValueSerialization {} (Logic.setAll [] row.fields)) ↔
      ∃ uid ∈ uids, dbUser s uid = some info := by
    simp only [List.mem_map,answer.rows,dbUser_iff own]
    constructor
    · rintro ⟨row,⟨uid,asked,held⟩,rfl⟩
      exact ⟨uid,asked,row,held,rfl⟩
    · rintro ⟨uid,asked,row,held,rfl⟩
      exact ⟨row,⟨uid,asked,held⟩,rfl⟩
  rw [collected]
  exact collect_users listed own.db

/-- Every user asked for is in the map as the storage has it, and nobody else. -/
theorem StorageBatchGetUserInfo_get (own : Own s cache) (answer : servers.Answer s) :
    (StorageBatchGetUserInfo servers s uids ∅).2[uid]? = if uid ∈ uids then stored s uid else none := by
  have mem (uid : Int64) : (MemBatchGetUserInfo servers s uids ∅)[uid]? =
      if uid ∈ uids ∧ (memUser s uid).isSome then memUser s uid else none := by
    rw [MemBatchGetUserInfo_get own answer,Std.ExtTreeMap.getElem?_empty]
  have surplus (uid : Int64) : uid ∈ uids.filter (fun uid => (MapGet (MemBatchGetUserInfo servers s uids ∅) uid).isNone) ↔
      uid ∈ uids ∧ memUser s uid = none := by
    rw [List.mem_filter,MapGet,mem]
    refine and_congr_right fun asked => ?_
    cases memUser s uid <;> simp [asked]
  have read : (StorageBatchGetUserInfo servers s uids ∅).2[uid]? =
      if (uid ∈ uids ∧ memUser s uid = none) ∧ (dbUser s uid).isSome then dbUser s uid
      else (MemBatchGetUserInfo servers s uids ∅)[uid]? := by
    rw [StorageBatchGetUserInfo]
    dsimp only
    split
    · rw [BatchReadUserInfos_get own answer]
      simp only [surplus]
    · rename_i none_
      have absent : ¬(uid ∈ uids ∧ memUser s uid = none) := by
        intro left
        exact none_ (List.length_pos_of_mem ((surplus uid).mpr left))
      rw [if_neg fun both => absent both.1]
  rw [read,mem,stored]
  by_cases asked : uid ∈ uids
  · cases memUser s uid <;> cases dbUser s uid <;> simp [asked]
  · simp [asked]

theorem fill_others {userinfo : Map UserInfo} {surplus_list : List Int64} (other : uid ∉ surplus_list) (s : Storage) :
    (surplus_list.foldl (fill userinfo) s).mem uid = s.mem uid := by
  induction surplus_list generalizing s with
  | nil => rfl
  | cons first surplus_list ih =>
    obtain ⟨apart,rest⟩ := List.ne_and_not_mem_of_not_mem_cons other
    rw [List.foldl_cons,ih rest,fill]
    split
    · exact Function.update_of_ne apart _ _
    · rfl

theorem StorageBatchGetUserInfo_others (userinfo : Map UserInfo) (other : uid ∉ uids) :
    (StorageBatchGetUserInfo servers s uids userinfo).1.mem uid = s.mem uid := by
  apply fill_others
  exact fun member => other (List.mem_filter.mp member).1

end Lookup

/-! ### The array -/

section Entries
variable {map : Map UserInfo} {uids : List Int64} {user : Int64 → Option UserInfo}

/-- The entries of a map are the users it was asked for. -/
theorem entries_perm (get : ∀ uid, map[uid]? = if uid ∈ uids then user uid else none) :
    (map.toList.map Prod.snd).Perm (uids.dedup.filterMap user) := by
  have pairs : map.toList.Perm (uids.dedup.filterMap fun uid => (user uid).map fun info => (uid,info)) := by
    apply (List.perm_ext_iff_of_nodup ?_ ?_).mpr
    · rintro ⟨uid,info⟩
      rw [Std.ExtTreeMap.mem_toList_iff_getElem?_eq_some,get,List.mem_filterMap]
      constructor
      · intro found
        split at found
        · rename_i asked
          exact ⟨uid,List.mem_dedup.mpr asked,by rw [found,Option.map_some]⟩
        · cases found
      · rintro ⟨other,asked,same⟩
        obtain ⟨_,found,⟨⟩⟩ := Option.map_eq_some_iff.mp same
        rw [if_pos (List.mem_dedup.mp asked),found]
    · have keys := keys_nodup map
      rw [← Std.ExtTreeMap.map_fst_toList_eq_keys] at keys
      exact keys.of_map
    · apply uids.nodup_dedup.filterMap
      intro first second pair one other
      obtain ⟨_,-,rfl⟩ := Option.map_eq_some_iff.mp one
      obtain ⟨_,-,same⟩ := Option.map_eq_some_iff.mp other
      exact (congrArg Prod.fst same).symm
  have values := pairs.map Prod.snd
  rw [List.map_filterMap] at values
  simpa only [Option.map_map,Function.comp_def,Option.map_id'] using values

theorem entries_length (get : ∀ uid, map[uid]? = if uid ∈ uids then user uid else none) : map.toList.length ≤ uids.length := by
  have same := (entries_perm get).length_eq
  rw [List.length_map] at same
  rw [same]
  exact (List.length_filterMap_le _ _).trans (List.Sublist.length_le (List.dedup_sublist uids))

end Entries

/-- The assignments of the loop from a place on. -/
def assignments (entries : List (Int64 × UserInfo)) (i : Nat) : List (Nat × UserInfo) :=
  (entries.zipIdx i).filterMap fun ((_,info),i) => if info.Isvalid then some (i,info) else none

section Assignments
variable {entries : List (Int64 × UserInfo)} {i : Nat}

theorem assignments_inside {write : Nat × UserInfo} (member : write ∈ assignments entries i) : write.1 < i + entries.length := by
  obtain ⟨⟨entry,j⟩,listed,assigned⟩ := List.mem_filterMap.mp member
  have inside := List.snd_lt_add_of_mem_zipIdx listed
  simp only [Option.ite_none_right_eq_some] at assigned
  obtain ⟨-,⟨⟩⟩ := assigned
  exact inside

theorem assignments_length : (assignments entries i).length ≤ entries.length := by
  have short := List.length_filterMap_le (fun ((_,info),i) => if UserInfo.Isvalid info then some (i,info) else none) (entries.zipIdx i)
  rwa [List.length_zipIdx] at short

/-- Whole users alone leave no hole. -/
theorem assignments_whole (whole : ∀ entry ∈ entries, entry.2.Isvalid = true) :
    (assignments entries i).map Prod.fst = List.range' i entries.length ∧
      (assignments entries i).map Prod.snd = entries.map Prod.snd := by
  induction entries generalizing i with
  | nil => exact ⟨rfl,rfl⟩
  | cons entry entries ih =>
    have here := whole entry List.mem_cons_self
    have rest := @ih (i + 1) fun other member => whole other (List.mem_cons_of_mem _ member)
    have first : assignments (entry::entries) i = (i,entry.2)::assignments entries (i + 1) := by
      simp [assignments,List.zipIdx_cons,here]
    rw [first]
    constructor
    · rw [List.map_cons,rest.1,List.length_cons,List.range'_succ]
    · rw [List.map_cons,rest.2,List.map_cons]

/-- A user that is not whole takes a place and is not written there. -/
theorem assignments_hole (full : entries.length ≤ (assignments entries i).length) : ∀ entry ∈ entries, entry.2.Isvalid = true := by
  induction entries generalizing i with
  | nil => exact nofun
  | cons entry entries ih =>
    by_cases here : entry.2.Isvalid = true
    · have first : assignments (entry::entries) i = (i,entry.2)::assignments entries (i + 1) := by
        simp [assignments,List.zipIdx_cons,here]
      rw [first,List.length_cons,List.length_cons] at full
      exact List.forall_mem_cons.mpr ⟨here,ih (Nat.le_of_succ_le_succ full)⟩
    · have first : assignments (entry::entries) i = assignments entries (i + 1) := by
        simp [assignments,List.zipIdx_cons,here]
      rw [first,List.length_cons] at full
      exact absurd (full.trans assignments_length) (Nat.not_succ_le_self _)

end Assignments

/-! ### The request -/

section Request
variable {servers : Servers} {s : Storage} {cache : Map UserInfo} {batch_uid : List Int64} {uid : Int64} {info : UserInfo}

theorem Own.stored (own : Own s cache) (held : stored s uid = some info) : info.uid_ = uid := by
  rw [BatchUsers.stored,Option.or_eq_some_iff] at held
  obtain mem | ⟨-,db⟩ := held
  · exact own.mem uid info mem
  · exact own.db uid info db

theorem known_cached (held : MapGet cache uid = some info) (whole : info.Isvalid = true) : known s cache uid = some info := by
  rw [known,held,Option.filter_some,if_pos whole,Option.some_or]

/-- Where what is cached is what is stored, the users that exist are the stored ones. -/
theorem known_stored (same : ∀ info, MapGet cache uid = some info → info.Isvalid = true → stored s uid = some info) :
    known s cache uid = stored s uid := by
  cases held : MapGet cache uid with
  | none => rw [known,held,Option.filter_none,Option.none_or]
  | some info =>
    by_cases whole : info.Isvalid = true
    · rw [known_cached held whole,same info held whole]
    · rw [known,held,Option.filter_some,if_neg whole,Option.none_or]

theorem BatchGetUserInfo_eq {uid_count : Int32} (sized : uid_count.toInt = batch_uid.length) :
    BatchGetUserInfo servers s cache batch_uid uid_count = some {
      storage := (StorageBatchGetUserInfo servers s batch_uid ∅).1
      userinfo_map_ := cache
      userinfo_count := Int32.ofNat (StorageBatchGetUserInfo servers s batch_uid ∅).2.size
      users_info := assignments (StorageBatchGetUserInfo servers s batch_uid ∅).2.toList 0 } := by
  rw [BatchGetUserInfo,if_pos sized.le,sized,Int.toNat_natCast,List.take_length]
  rfl

end Request

/-- One row for the user, whatever it is asked for. -/
def steady (s : Storage) : Servers := ⟨id,fun uids => uids.flatMap s.db⟩

theorem steady_answers (s : Storage) : (steady s).Answer s :=
  ⟨fun _ _ => Iff.rfl,fun _ _ => List.mem_flatMap⟩

theorem seven_own : Own seven ∅ where
  cache uid info held := by
    rw [MapGet,Std.ExtTreeMap.getElem?_empty] at held
    cases held
  mem uid info held := by cases held
  db uid info held := by
    by_cases here : uid = 7
    · subst here
      cases held
      rfl
    · simp [dbUser,seven,here] at held
  row uid := by
    rw [seven]
    dsimp only
    split <;> decide

/-- User 7 is in the database, without a nickname. -/
def nameless : Storage where
  mem _ := none
  db uid := if uid = 7 then [⟨some [55],some [49],none,none,none,none,none,none,none,none⟩] else []

end Migfm.Data.BatchUsers
