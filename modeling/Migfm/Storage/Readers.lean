import Migfm.Logic.Infos
import Migfm.Storage.RedisWarrper

/-! The values of public/storage/redis_warrper.c and what reads them in master/music and
master/sociality. Redis answers, and a key is used for one type only. -/
namespace Migfm.Storage
open Logic (ascii decimal decimalDigits denoted atoll)

/-- A byte of allocated memory; `none` until something is written there. -/
abbrev Byte := Option UInt8

structure Redis where
  strings : List UInt8 → Option (List UInt8)
  hashes : List UInt8 → List UInt8 → Option (List UInt8)

/-! ### redis_warrper.c -/

namespace Redis
variable (redis : Redis)

def hset (hash_name key : List UInt8) (val : Option (List UInt8)) : Redis :=
  {redis with hashes := Function.update redis.hashes hash_name (Function.update (redis.hashes hash_name) key val)}

/-- `%b` takes the lengths. -/
def RedisAddValue (key val : List UInt8) : Redis := {redis with strings := Function.update redis.strings key (some val)}

def RedisSetHashElement (hash_name key val : List UInt8) : Redis := redis.hset (c_str hash_name) (c_str key) (some (c_str val))

/-- `*val` and `*val_len`. The length is one more than what is copied. -/
def RedisGetValue (key : List UInt8) : Option (List Byte × Nat) :=
  match redis.strings (c_str key) with
  | none => none
  | some str => if str.length ≠ 0 ∧ 0 < (c_str str).length then some (str.map some ++ [none],str.length + 1) else none

/-- Here the terminator is copied too. -/
def RedisGetHashElement (hash_name key : List UInt8) : Option (List Byte × Nat) :=
  match redis.hashes (c_str hash_name) (c_str key) with
  | none => none
  | some str => if str.length ≠ 0 ∧ 0 < (c_str str).length then some (str.map some ++ [some 0],str.length + 1) else none

end Redis

/-! ### master/music and master/sociality -/

section Readers
variable (redis : Redis)

/-- The text that is assigned, if there is one. -/
def GetMusicInfos (songid : List UInt8) : Option (List Byte) :=
  (redis.RedisGetValue songid).map fun (value,value_len) => value.take (value_len - 1)

def GetMusicAboutUser (songid : List UInt8) : Option (List Byte) :=
  (redis.RedisGetValue (ascii "a" ++ c_str songid ++ ascii "t")).map fun (value,value_len) => value.take (value_len - 1)

def GetCollectSong (uid songid : List UInt8) : Option (List Byte) :=
  (redis.RedisGetHashElement (ascii "h" ++ c_str uid ++ ascii "clt") songid).map fun (value,value_len) => value.take value_len

def GetUpdateConfig (key : List UInt8) : Option (List Byte) :=
  (redis.RedisGetValue key).map fun (value,value_len) => value.take value_len

def HKEY_PUSH_CFG_DEV_TOK : List UInt8 := ascii "soc:push.cfg:dev.tok"
def HKEY_PUSH_CFG_IS_RECV : List UInt8 := ascii "soc:push.cfg:is.recv"
def HKEY_PUSH_CFG_BTIME : List UInt8 := ascii "soc:push.cfg:btime"
def HKEY_PUSH_CFG_ETIME : List UInt8 := ascii "soc:push.cfg:etime"

def DEFAULT_BEGIN_TIME : UInt32 := 8 * 60
def DEFAULT_END_TIME : UInt32 := 23 * 60

def SetUserPushConfig (uid : Int64) (device_token : List UInt8) (is_receive : Int32) (begin_time end_time : UInt32) : Redis :=
  let field := decimal uid.toInt
  let redis := redis.RedisSetHashElement HKEY_PUSH_CFG_DEV_TOK field device_token
  let redis := redis.RedisSetHashElement HKEY_PUSH_CFG_IS_RECV field (decimal is_receive.toInt)
  let redis := redis.RedisSetHashElement HKEY_PUSH_CFG_BTIME field (decimal begin_time.toNat)
  redis.RedisSetHashElement HKEY_PUSH_CFG_ETIME field (decimal end_time.toInt32.toInt)

/-- `atoi` of a buffer: it stops at the terminator. -/
def atoi (val : List Byte) : Int32 := (atoll ((val.takeWhile (· ≠ some 0)).map (·.getD 0))).toInt32

structure PushConfig where
  device_token : List Byte
  is_receive : Bool
  begin_time : UInt32
  end_time : UInt32
  deriving DecidableEq

/-- Whether it succeeds, and its reference parameters. `ret` is set by the first two reads only. -/
def GetUserPushConfig (uid : Int64) : Bool × PushConfig :=
  let field := decimal uid.toInt
  match redis.RedisGetHashElement HKEY_PUSH_CFG_DEV_TOK field with
  | none => (false,⟨[],true,0,0⟩)
  | some (val,val_len) =>
    let device_token := val.take val_len
    let is_recv := redis.RedisGetHashElement HKEY_PUSH_CFG_IS_RECV field
    let ret := is_recv.isSome
    let is_receive := match is_recv with
      | some (val,_) => atoi val ≠ 0
      | none => true
    let begin_time := match ret,redis.RedisGetHashElement HKEY_PUSH_CFG_BTIME field with
      | true,some (val,_) => (atoi val).toUInt32
      | _,_ => DEFAULT_BEGIN_TIME
    let end_time := match ret,redis.RedisGetHashElement HKEY_PUSH_CFG_ETIME field with
      | true,some (val,_) => (atoi val).toUInt32
      | _,_ => DEFAULT_END_TIME
    (true,⟨device_token,is_receive,begin_time,end_time⟩)

end Readers

/-! ### What is promised of the readers -/

/-- A text of C. -/
structure CText where
  bytes : List UInt8
  clean : ∀ c ∈ bytes, c ≠ 0

structure CValue extends CText where
  nonempty : bytes ≠ []

/-- What is stored of a user: a field may never have been. -/
structure Stored where
  device_token : Option CText
  is_receive : Option Int32
  begin_time : Option UInt32
  end_time : Option UInt32

/-- Redis with these fields of the user, each as `SetUserPushConfig` writes it. -/
def Redis.store (redis : Redis) (uid : Int64) (stored : Stored) : Redis :=
  let field := decimal uid.toInt
  let redis := redis.hset HKEY_PUSH_CFG_DEV_TOK field (stored.device_token.map (·.bytes))
  let redis := redis.hset HKEY_PUSH_CFG_IS_RECV field (stored.is_receive.map fun flag => decimal flag.toInt)
  let redis := redis.hset HKEY_PUSH_CFG_BTIME field (stored.begin_time.map fun time => decimal time.toNat)
  redis.hset HKEY_PUSH_CFG_ETIME field (stored.end_time.map fun time => decimal time.toInt32.toInt)

def Stored.config (stored : Stored) : PushConfig where
  device_token := (stored.device_token.map fun token => token.bytes.map some).getD []
  is_receive := (stored.is_receive.map fun flag => decide (flag ≠ 0)).getD true
  begin_time := stored.begin_time.getD DEFAULT_BEGIN_TIME
  end_time := stored.end_time.getD DEFAULT_END_TIME

/-- A value that is written and then read, by one of the readers. -/
inductive Reading
  | GetMusicInfos (songid : CText) (value : CValue)
  | GetMusicAboutUser (songid : CText) (value : CValue)
  | GetCollectSong (uid songid : CText) (value : CValue)
  | GetUpdateConfig (key : CText) (value : CValue)
  | SetUserPushConfig (uid : Int64) (device_token : CText) (is_receive : Int32) (begin_time end_time : UInt32)
  | GetUserPushConfig (uid : Int64) (stored : Stored)

namespace Reading

/-- The reader gives what was stored. -/
def Right (redis : Redis) : Reading → Prop
  | GetMusicInfos songid value =>
    Storage.GetMusicInfos (redis.RedisAddValue songid.bytes value.bytes) songid.bytes = some (value.bytes.map some)
  | GetMusicAboutUser songid value =>
    Storage.GetMusicAboutUser (redis.RedisAddValue (ascii "a" ++ songid.bytes ++ ascii "t") value.bytes) songid.bytes =
      some (value.bytes.map some)
  | GetCollectSong uid songid value =>
    Storage.GetCollectSong (redis.RedisSetHashElement (ascii "h" ++ uid.bytes ++ ascii "clt") songid.bytes value.bytes)
      uid.bytes songid.bytes = some (value.bytes.map some)
  | GetUpdateConfig key value =>
    Storage.GetUpdateConfig (redis.RedisAddValue key.bytes value.bytes) key.bytes = some (value.bytes.map some)
  | SetUserPushConfig uid device_token is_receive begin_time end_time =>
    (Storage.GetUserPushConfig (Storage.SetUserPushConfig redis uid device_token.bytes is_receive begin_time end_time) uid).2 =
      ⟨device_token.bytes.map some,is_receive ≠ 0,begin_time,end_time⟩
  | GetUserPushConfig uid stored => (Storage.GetUserPushConfig (redis.store uid stored) uid).2 = stored.config

/-- The readers of a song's records always do, those of a collected song and of the update never. The user's
record is right only by being left out: without a token nothing else is read. -/
def Holds : Reading → Prop
  | GetMusicInfos _ _ => True
  | GetMusicAboutUser _ _ => True
  | GetCollectSong _ _ _ => False
  | GetUpdateConfig _ _ => False
  | SetUserPushConfig _ device_token is_receive begin_time end_time =>
    device_token.bytes = [] ∧ is_receive ≠ 0 ∧ begin_time = 0 ∧ end_time = 0
  | GetUserPushConfig _ stored => (∀ token, stored.device_token = some token → token.bytes = []) ∧
      stored.is_receive ≠ some 0 ∧ stored.begin_time = some 0 ∧ stored.end_time = some 0

end Reading

/-! ### The answers -/

theorem CValue.length_pos (value : CValue) : 0 < value.bytes.length := List.length_pos_iff.mpr value.nonempty

theorem CText.c_str_eq (text : CText) : c_str text.bytes = text.bytes := Storage.c_str_eq text.clean

theorem decimal_clean (n : Int) : ∀ c ∈ decimal n, c ≠ 0 := by
  have digits : ∀ c ∈ decimalDigits n.natAbs, c ≠ 0 := by
    intro c listed zero
    have digit := Logic.isDigit_decimalDigits n.natAbs c listed
    subst zero
    revert digit
    decide
  rw [decimal]
  split
  · intro c listed
    rcases List.mem_cons.mp listed with sign | listed
    · rw [sign]
      decide
    · exact digits c listed
  · exact digits

theorem c_str_decimal (n : Int) : c_str (decimal n) = decimal n := Storage.c_str_eq (decimal_clean n)

theorem decimal_ne_nil (n : Int) : decimal n ≠ [] := by
  obtain ⟨digit,digits,starts,_⟩ := Logic.decimalDigits_head n.natAbs
  rw [decimal]
  split
  · exact List.cons_ne_nil _ _
  · rw [starts]
    exact List.cons_ne_nil _ _

namespace Redis
variable (redis : Redis)

/-- The last byte is never written. -/
theorem RedisGetValue_AddValue (key : CText) (value : CValue) :
    (redis.RedisAddValue key.bytes value.bytes).RedisGetValue key.bytes =
      some (value.bytes.map some ++ [none],value.bytes.length + 1) := by
  have some_ : value.bytes.length ≠ 0 ∧ 0 < (c_str value.bytes).length := by
    rw [value.c_str_eq]
    exact ⟨value.length_pos.ne',value.length_pos⟩
  simp only [RedisGetValue,RedisAddValue,key.c_str_eq,Function.update_self]
  rw [if_pos some_]

theorem hset_self (hash_name key : List UInt8) (val : Option (List UInt8)) :
    (redis.hset hash_name key val).hashes hash_name key = val := by
  simp only [hset,Function.update_self]

theorem hset_ne {hash_name other : List UInt8} (apart : other ≠ hash_name) (key : List UInt8) (val : Option (List UInt8)) :
    (redis.hset hash_name key val).hashes other = redis.hashes other := by
  simp only [hset,Function.update_of_ne apart]

variable {redis}

theorem RedisGetHashElement_none {hash_name key : List UInt8} (missing : redis.hashes (c_str hash_name) (c_str key) = none) :
    redis.RedisGetHashElement hash_name key = none := by
  rw [RedisGetHashElement,missing]

theorem RedisGetHashElement_empty {hash_name key : List UInt8} (empty : redis.hashes (c_str hash_name) (c_str key) = some []) :
    redis.RedisGetHashElement hash_name key = none := by
  rw [RedisGetHashElement,empty]
  rfl

theorem RedisGetHashElement_some {hash_name key : List UInt8} {value : CValue}
    (stored : redis.hashes (c_str hash_name) (c_str key) = some value.bytes) :
    redis.RedisGetHashElement hash_name key = some (value.bytes.map some ++ [some 0],value.bytes.length + 1) := by
  have some_ : value.bytes.length ≠ 0 ∧ 0 < (c_str value.bytes).length := by
    rw [value.c_str_eq]
    exact ⟨value.length_pos.ne',value.length_pos⟩
  rw [RedisGetHashElement,stored]
  dsimp only
  rw [if_pos some_]

end Redis

/-! ### The user's record -/

theorem atoll_decimal {n : Int} (low : -2 ^ 63 ≤ n) (high : n < 2 ^ 63) : atoll (decimal n) = Int64.ofInt n := by
  obtain ⟨digit,digits,starts,_⟩ := Logic.decimalDigits_head n.natAbs
  have digit_bounds : ∀ c ∈ decimalDigits n.natAbs, 48 ≤ c ∧ c ≤ 57 := by
    intro c listed
    have digit := Logic.isDigit_decimalDigits n.natAbs c listed
    simp only [Logic.isDigit,decide_eq_true_eq] at digit
    simp only [UInt8.le_iff_toNat_le]
    exact digit
  have all : (decimalDigits n.natAbs).takeWhile (fun c => 48 ≤ c ∧ c ≤ 57) = decimalDigits n.natAbs := by
    rw [List.takeWhile_eq_self_iff]
    intro c listed
    exact decide_eq_true (digit_bounds c listed)
  by_cases negative : n < 0
  · have back : -(denoted (decimalDigits n.natAbs) : Int) = n := by
      rw [Logic.denoted_decimalDigits]
      omega
    have unblank : (45 :: decimalDigits n.natAbs).dropWhile (fun c => c = 32 ∨ (9 ≤ c ∧ c ≤ 13)) = 45 :: decimalDigits n.natAbs :=
      List.dropWhile_cons_of_neg (by decide)
    rw [decimal,if_pos negative,atoll,unblank]
    change Int64.ofInt (max _ (min _ (-(denoted ((decimalDigits n.natAbs).takeWhile _) : Int)))) = _
    rw [all,back,min_eq_right (by omega),max_eq_right low]
  · have back : (denoted (decimalDigits n.natAbs) : Int) = n := by
      rw [Logic.denoted_decimalDigits]
      omega
    have unblank : (decimalDigits n.natAbs).dropWhile (fun c => c = 32 ∨ (9 ≤ c ∧ c ≤ 13)) = decimalDigits n.natAbs := by
      have first := digit_bounds digit (starts ▸ List.mem_cons_self)
      rw [starts]
      apply List.dropWhile_cons_of_neg
      simp only [UInt8.le_iff_toNat_le,← UInt8.toNat_inj] at first ⊢
      simp
      simp at first
      omega
    rw [decimal,if_neg negative,atoll,unblank]
    -- no sign is in front
    split
    · next same => exact absurd (digit_bounds 45 (same ▸ List.mem_cons_self)) (by decide)
    · next same => exact absurd (digit_bounds 43 (same ▸ List.mem_cons_self)) (by decide)
    · dsimp only
      rw [all,back,min_eq_right (by omega),max_eq_right low]

/-- A number that is stored comes back. -/
theorem atoi_decimal {n : Int} (low : -2 ^ 63 ≤ n) (high : n < 2 ^ 63) :
    atoi ((decimal n).map some ++ [some 0]) = Int32.ofInt n := by
  have text : ((decimal n).map some ++ [some 0]).takeWhile (· ≠ some 0) = (decimal n).map some := by
    rw [List.takeWhile_append_of_pos]
    · simp
    · intro c listed
      obtain ⟨byte,inside,rfl⟩ := List.mem_map.mp listed
      simpa using decimal_clean n byte inside
  have same : ((decimal n).map some).map (·.getD 0) = decimal n := by simp
  rw [atoi,text,same,atoll_decimal low high,Int64.toInt32_ofInt]

theorem atoi_int (n : Int32) : atoi ((decimal n.toInt).map some ++ [some 0]) = n := by
  have low := n.le_toInt
  have high := n.toInt_lt
  rw [atoi_decimal (by omega) (by omega),Int32.ofInt_toInt]

theorem atoi_unsigned (n : UInt32) : (atoi ((decimal n.toNat).map some ++ [some 0])).toUInt32 = n := by
  have high := n.toNat_lt
  rw [atoi_decimal (by omega) (by omega),Int32.ofInt_eq_ofNat]
  apply UInt32.toNat_inj.mp
  simp

theorem RedisGetHashElement_decimal {redis : Redis} {hash_name : List UInt8} {uid : Int64} {number : Option Int}
    (named : c_str hash_name = hash_name) (held : redis.hashes hash_name (decimal uid.toInt) = number.map decimal) :
    redis.RedisGetHashElement hash_name (decimal uid.toInt) =
      number.map fun n => ((decimal n).map some ++ [some 0],(decimal n).length + 1) := by
  rw [← c_str_decimal] at held
  cases number with
  | none => exact Redis.RedisGetHashElement_none (by rw [named,held,Option.map_none])
  | some n =>
    have value : redis.hashes (c_str hash_name) (c_str (decimal uid.toInt)) =
        some (CValue.mk ⟨decimal n,decimal_clean n⟩ (decimal_ne_nil n)).bytes := by rw [named,held,Option.map_some]
    exact Redis.RedisGetHashElement_some value

section
variable (redis : Redis) (uid : Int64) (stored : Stored)

theorem store_token : (redis.store uid stored).hashes HKEY_PUSH_CFG_DEV_TOK (decimal uid.toInt) =
    stored.device_token.map (·.bytes) := by
  rw [Redis.store,Redis.hset_ne _ (by decide +kernel),Redis.hset_ne _ (by decide +kernel),Redis.hset_ne _ (by decide +kernel),Redis.hset_self]

theorem store_receive : (redis.store uid stored).RedisGetHashElement HKEY_PUSH_CFG_IS_RECV (decimal uid.toInt) =
    (stored.is_receive.map (·.toInt)).map fun n => ((decimal n).map some ++ [some 0],(decimal n).length + 1) := by
  apply RedisGetHashElement_decimal rfl
  rw [Redis.store,Redis.hset_ne _ (by decide +kernel),Redis.hset_ne _ (by decide +kernel),Redis.hset_self,Option.map_map]
  rfl

theorem store_begin : (redis.store uid stored).RedisGetHashElement HKEY_PUSH_CFG_BTIME (decimal uid.toInt) =
    (stored.begin_time.map fun time => (time.toNat : Int)).map fun n => ((decimal n).map some ++ [some 0],(decimal n).length + 1) := by
  apply RedisGetHashElement_decimal rfl
  rw [Redis.store,Redis.hset_ne _ (by decide +kernel),Redis.hset_self,Option.map_map]
  rfl

theorem store_end : (redis.store uid stored).RedisGetHashElement HKEY_PUSH_CFG_ETIME (decimal uid.toInt) =
    (stored.end_time.map (·.toInt32.toInt)).map fun n => ((decimal n).map some ++ [some 0],(decimal n).length + 1) := by
  apply RedisGetHashElement_decimal rfl
  rw [Redis.store,Redis.hset_self,Option.map_map]
  rfl

theorem SetUserPushConfig_store (device_token : CText) (is_receive : Int32) (begin_time end_time : UInt32) :
    SetUserPushConfig redis uid device_token.bytes is_receive begin_time end_time =
      redis.store uid ⟨some device_token,some is_receive,some begin_time,some end_time⟩ := by
  simp only [SetUserPushConfig,Redis.store,Redis.RedisSetHashElement,c_str_decimal,device_token.c_str_eq,Option.map_some]
  rw [show c_str HKEY_PUSH_CFG_DEV_TOK = HKEY_PUSH_CFG_DEV_TOK from rfl,show c_str HKEY_PUSH_CFG_IS_RECV = HKEY_PUSH_CFG_IS_RECV from rfl,
    show c_str HKEY_PUSH_CFG_BTIME = HKEY_PUSH_CFG_BTIME from rfl,show c_str HKEY_PUSH_CFG_ETIME = HKEY_PUSH_CFG_ETIME from rfl]

/-- A token that was never stored, or stored as the empty text. -/
theorem GetUserPushConfig_missing (missing : ∀ token, stored.device_token = some token → token.bytes = []) :
    GetUserPushConfig (redis.store uid stored) uid = (false,⟨[],true,0,0⟩) := by
  have unread : (redis.store uid stored).RedisGetHashElement HKEY_PUSH_CFG_DEV_TOK (decimal uid.toInt) = none := by
    have held := store_token redis uid stored
    rw [← c_str_decimal] at held
    cases known : stored.device_token with
    | none =>
      rw [known,Option.map_none] at held
      exact Redis.RedisGetHashElement_none held
    | some token =>
      rw [known,Option.map_some,missing token known] at held
      exact Redis.RedisGetHashElement_empty held
  rw [GetUserPushConfig]
  dsimp only
  rw [unread]

/-- The terminator becomes part of the token. The minutes are there only if the receive flag is. -/
theorem GetUserPushConfig_token {token : CValue} (known : stored.device_token = some token.toCText) :
    GetUserPushConfig (redis.store uid stored) uid = (true,
      { stored.config with
        device_token := token.bytes.map some ++ [some 0]
        begin_time := if stored.is_receive.isSome then stored.config.begin_time else DEFAULT_BEGIN_TIME
        end_time := if stored.is_receive.isSome then stored.config.end_time else DEFAULT_END_TIME }) := by
  have held := store_token redis uid stored
  rw [← c_str_decimal,known,Option.map_some] at held
  have read : (redis.store uid stored).RedisGetHashElement HKEY_PUSH_CFG_DEV_TOK (decimal uid.toInt) =
      some (token.bytes.map some ++ [some 0],token.bytes.length + 1) := Redis.RedisGetHashElement_some held
  have whole : (token.bytes.map some ++ [some 0]).take (token.bytes.length + 1) = token.bytes.map some ++ [some 0] := by
    apply List.take_of_length_le
    simp
  rw [GetUserPushConfig]
  dsimp only
  rw [read,store_receive,store_begin,store_end]
  dsimp only
  rw [whole,Stored.config]
  cases receive : stored.is_receive with
  | none => simp
  | some flag =>
    cases started : stored.begin_time <;> cases ended : stored.end_time <;>
      simp [atoi_int,atoi_unsigned]

end

/-! ### What comes back -/

theorem token_apart (token : CValue) : token.bytes.map some ++ [some 0] ≠ token.bytes.map some := by
  intro same
  have lengths := congrArg List.length same
  rw [List.length_append] at lengths
  simp at lengths

variable (redis : Redis)

theorem begin_zero (begin_time : Option UInt32) : 0 = begin_time.getD DEFAULT_BEGIN_TIME ↔ begin_time = some 0 := by
  cases begin_time with
  | none => simp [DEFAULT_BEGIN_TIME]
  | some time => simp [eq_comm]

theorem end_zero (end_time : Option UInt32) : 0 = end_time.getD DEFAULT_END_TIME ↔ end_time = some 0 := by
  cases end_time with
  | none => simp [DEFAULT_END_TIME]
  | some time => simp [eq_comm]

theorem receive_true (is_receive : Option Int32) :
    true = (is_receive.map fun flag => decide (flag ≠ 0)).getD true ↔ is_receive ≠ some 0 := by
  cases is_receive with
  | none => simp
  | some flag => rw [Option.map_some,Option.getD_some,eq_comm,decide_eq_true_eq,Ne,Ne,Option.some_inj]

theorem config_right_iff (uid : Int64) (stored : Stored) :
    (GetUserPushConfig (redis.store uid stored) uid).2 = stored.config ↔
      (∀ token, stored.device_token = some token → token.bytes = []) ∧
        stored.is_receive ≠ some 0 ∧ stored.begin_time = some 0 ∧ stored.end_time = some 0 := by
  by_cases missing : ∀ token, stored.device_token = some token → token.bytes = []
  · have no_token : (stored.device_token.map fun token => token.bytes.map some).getD [] = [] := by
      cases known : stored.device_token with
      | none => rfl
      | some token => simp [missing token known]
    rw [GetUserPushConfig_missing redis uid stored missing,Stored.config,no_token]
    simp only [PushConfig.mk.injEq,true_and,receive_true,begin_zero,end_zero]
    exact (and_iff_right missing).symm
  · apply iff_of_false _ (fun both => missing both.1)
    push Not at missing
    obtain ⟨token,known,some_⟩ := missing
    have read := @GetUserPushConfig_token redis uid stored ⟨token,some_⟩ known
    rw [read]
    intro same
    apply token_apart ⟨token,some_⟩
    have tokens := congrArg PushConfig.device_token same
    simpa only [Stored.config,known,Option.map_some,Option.getD_some] using tokens

theorem GetMusicInfos_right (songid : CText) (value : CValue) :
    GetMusicInfos (redis.RedisAddValue songid.bytes value.bytes) songid.bytes = some (value.bytes.map some) := by
  have length : value.bytes.length + 1 - 1 = (value.bytes.map some).length := by simp
  rw [GetMusicInfos,redis.RedisGetValue_AddValue,Option.map_some]
  dsimp only
  rw [length,List.take_left]

theorem GetMusicAboutUser_right (songid : CText) (value : CValue) :
    GetMusicAboutUser (redis.RedisAddValue (ascii "a" ++ songid.bytes ++ ascii "t") value.bytes) songid.bytes =
      some (value.bytes.map some) := by
  have clean : ∀ c ∈ ascii "a" ++ songid.bytes ++ ascii "t", c ≠ 0 := by
    intro c listed
    simp only [List.mem_append,or_assoc] at listed
    rcases listed with first | inside | last
    · exact (by decide +kernel : ∀ c ∈ ascii "a", c ≠ 0) c first
    · exact songid.clean c inside
    · exact (by decide +kernel : ∀ c ∈ ascii "t", c ≠ 0) c last
  rw [GetMusicAboutUser,songid.c_str_eq]
  exact GetMusicInfos_right redis ⟨_,clean⟩ value

theorem GetUpdateConfig_wrong (key : CText) (value : CValue) :
    GetUpdateConfig (redis.RedisAddValue key.bytes value.bytes) key.bytes ≠ some (value.bytes.map some) := by
  rw [GetUpdateConfig,redis.RedisGetValue_AddValue,Option.map_some]
  dsimp only
  intro same
  have lengths := congrArg List.length (Option.some.inj same)
  simp at lengths

theorem GetCollectSong_wrong (uid songid : CText) (value : CValue) :
    GetCollectSong (redis.RedisSetHashElement (ascii "h" ++ uid.bytes ++ ascii "clt") songid.bytes value.bytes)
      uid.bytes songid.bytes ≠ some (value.bytes.map some) := by
  have held : (redis.RedisSetHashElement (ascii "h" ++ uid.bytes ++ ascii "clt") songid.bytes value.bytes).hashes
      (c_str (ascii "h" ++ uid.bytes ++ ascii "clt")) (c_str songid.bytes) = some value.bytes := by
    rw [Redis.RedisSetHashElement,Redis.hset_self,value.c_str_eq]
  rw [GetCollectSong,uid.c_str_eq,Redis.RedisGetHashElement_some held,Option.map_some]
  dsimp only
  intro same
  have lengths := congrArg List.length (Option.some.inj same)
  simp at lengths

theorem readers_right_iff (reading : Reading) : reading.Right redis ↔ reading.Holds := by
  cases reading with
  | GetMusicInfos songid value => exact iff_of_true (GetMusicInfos_right redis songid value) trivial
  | GetMusicAboutUser songid value => exact iff_of_true (GetMusicAboutUser_right redis songid value) trivial
  | GetCollectSong uid songid value => exact iff_of_false (GetCollectSong_wrong redis uid songid value) id
  | GetUpdateConfig key value => exact iff_of_false (GetUpdateConfig_wrong redis key value) id
  | SetUserPushConfig uid device_token is_receive begin_time end_time =>
    have config := config_right_iff redis uid ⟨some device_token,some is_receive,some begin_time,some end_time⟩
    rw [Reading.Right,SetUserPushConfig_store]
    simpa [Reading.Holds,Stored.config] using config
  | GetUserPushConfig uid stored => exact config_right_iff redis uid stored

/-- Every value that is written is read as it is. -/
def Readers_right : Prop := ∀ (redis : Redis) (reading : Reading), reading.Right redis

theorem not_readers_right : ¬Readers_right := by
  intro right
  have read := right ⟨fun _ => none,fun _ _ => none⟩ (.GetUpdateConfig ⟨[107],by decide +kernel⟩ ⟨⟨[118],by decide +kernel⟩,by decide +kernel⟩)
  exact GetUpdateConfig_wrong _ _ _ read

end Migfm.Storage
