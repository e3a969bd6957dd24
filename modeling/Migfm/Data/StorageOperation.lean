import Mathlib.Logic.Function.Basic
import Migfm.Logic.Infos

/-! data/storage_operation.cc: users in memcached, under them those of the database. A
text that is read back gives the tree it was written from. -/
namespace Migfm.Data
open Logic (UserInfo ValueMap Field)

/-- A row of `proc_V2GetUserInfo`, NULL for what it has not. -/
structure Row where
  uid : Option (List UInt8)
  sex : Option (List UInt8)
  type : Option (List UInt8)
  nickname : Option (List UInt8)
  source : Option (List UInt8)
  machine : Option (List UInt8)
  city : Option (List UInt8)
  birthday : Option (List UInt8)
  logintime : Option (List UInt8)
  head : Option (List UInt8)

def SetBigInteger (name : String) (column : Option (List UInt8)) : Field :=
  Logic.big name column.isSome (Logic.atoll (column.getD []))

def SetInteger (name : String) (column : Option (List UInt8)) : Field :=
  Logic.int name column.isSome (Logic.atoll (column.getD [])).toInt32

def SetString (name : String) (column : Option (List UInt8)) : Field :=
  ⟨Logic.key name,column.isSome,.string (column.getD [])⟩

/-- What `CallBackReadUserInfo` sets. -/
def Row.fields (row : Row) : List Field :=
  [SetBigInteger "uid" row.uid,
    SetInteger "sex" row.sex,
    SetInteger "type" row.type,
    SetString "nickname" row.nickname,
    SetInteger "source" row.source,
    SetInteger "machine" row.machine,
    SetString "city" row.city,
    SetString "birthday" row.birthday,
    SetBigInteger "logintime" row.logintime,
    SetString "head" row.head]

/-- Memcached holds what was serialized. -/
structure Storage where
  mem : Int64 → Option (ValueMap Logic.Value)
  db : Int64 → List Row

namespace Storage

def CallBackReadUserInfo (rows : List Row) : ValueMap Logic.Value :=
  rows.foldl (fun dict row => Logic.setAll dict row.fields) []

/-- It succeeds for a user that has no row too. -/
def ReadUserInfo (s : Storage) (uid : Int64) : UserInfo :=
  UserInfo.ValueSerialization {} (CallBackReadUserInfo (s.db uid))

/-- The caller's record is a new one. -/
def GetUserInfo (s : Storage) (uid : Int64) : Storage × UserInfo :=
  match s.mem uid with
  | some dic => (s,UserInfo.ValueSerialization {} dic)
  | none =>
    let info := s.ReadUserInfo uid
    ({ s with mem := Function.update s.mem uid (some (Logic.setAll [] info.fields)) },info)

/-- The user that the storage knows. -/
def holds (s : Storage) (uid : Int64) : Option UserInfo :=
  match s.mem uid with
  | some dic => some (UserInfo.ValueSerialization {} dic)
  | none => if (s.db uid).isEmpty then none else some (s.ReadUserInfo uid)

/-- Memcached has the user, or the database has one that memcached can hold. -/
def Known (s : Storage) (uid : Int64) : Prop :=
  s.mem uid = none → s.db uid ≠ [] ∧ (s.ReadUserInfo uid).sex_ ≠ 0 ∧ (s.ReadUserInfo uid).machine_ ≠ -1

section Reads
variable {s : Storage} {uid : Int64}

theorem find_unset {name : Logic.WString} (absent : ∀ row : Row, name ∉ row.fields.map Field.name) (rows : List Row) :
    (CallBackReadUserInfo rows).find name = none := by
  have kept (dict : ValueMap Logic.Value) :
      (rows.foldl (fun dict row => Logic.setAll dict row.fields) dict).find name = dict.find name := by
    induction rows generalizing dict with
    | nil => rfl
    | cons row rows ih => rw [List.foldl_cons,ih,Logic.find_other (absent row)]
  exact kept []

theorem names (row : Row) : row.fields.map Field.name = [Logic.key "uid",Logic.key "sex",Logic.key "type",Logic.key "nickname",
    Logic.key "source",Logic.key "machine",Logic.key "city",Logic.key "birthday",Logic.key "logintime",Logic.key "head"] := rfl

/-- The login time is read under another key, and no token is. -/
theorem ReadUserInfo_unset : (s.ReadUserInfo uid).logintime_ = 0 ∧ (s.ReadUserInfo uid).token_ = [] := by
  have logintime : (CallBackReadUserInfo (s.db uid)).find (Logic.key "loginttime") = none := by
    apply find_unset
    intro row
    rw [names]
    decide
  have token : (CallBackReadUserInfo (s.db uid)).find (Logic.key "token") = none := by
    apply find_unset
    intro row
    rw [names]
    decide
  simp [ReadUserInfo,UserInfo.ValueSerialization,Logic.GetBigInteger,Logic.GetString,logintime,token]

/-- A known user is handed out, and memcached holds it from then on. -/
theorem GetUserInfo_known (known : s.Known uid) :
    (s.GetUserInfo uid).1.holds = s.holds ∧ s.holds uid = some (s.GetUserInfo uid).2 := by
  rw [GetUserInfo]
  cases found : s.mem uid with
  | some dic =>
    refine ⟨rfl,?_⟩
    rw [holds,found]
  | none =>
    obtain ⟨row,sex,machine⟩ := known found
    have here : s.holds uid = some (s.ReadUserInfo uid) := by
      rw [holds,found]
      exact if_neg (by simpa using row)
    refine ⟨?_,here⟩
    have kept := (@Logic.userKept_iff _ id id (fun _ => rfl) (s.ReadUserInfo uid)).mpr
      ⟨sex,machine,ReadUserInfo_unset⟩
    funext other
    by_cases same : other = uid
    · subst same
      rw [here,holds]
      dsimp only
      rw [Function.update_self]
      exact kept
    · rw [holds,holds]
      dsimp only
      rw [Function.update_of_ne same]
      rfl

end Reads
end Storage
end Migfm.Data
