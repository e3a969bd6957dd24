import Migfm.Basic.Template
import Migfm.Library.Runs

/-! What robot_weather_mgr.cc keeps of the users it tells about the weather, in the
cache of robot_cache_manager.cc. A `UserBasicInfo` is a handle: what is set through a
copy is set for all. The text of a message is left out, but for what is put into it. -/
namespace Migfm.Robot.WeatherPush
open Basic Library Library.Runs

structure Address where
  city : List UInt8
  district : List UInt8
  province : List UInt8
  street : List UInt8

def Address.empty : Address := ⟨[],[],[],[]⟩

def Address.Complete (address : Address) : Prop := address.city ≠ [] ∧ address.province ≠ []

instance (address : Address) : Decidable address.Complete := inferInstanceAs (Decidable (_ ∧ _))

structure UserBasicInfo extends Address where
  uid : Int64
  last_weather_status : Int32
  push_day : Int32
  push_month : Int32

/-- The constructor with an id. -/
def UserBasicInfo.new (uid : Int64) : UserBasicInfo := { Address.empty with uid,last_weather_status := 0,push_day := 0,push_month := 0 }

/-- A day; its month and its number begin with 1. -/
structure Date where
  year : Int
  month : Int32
  day : Int32
  named : 0 < month.toInt ∧ 0 < day.toInt
  deriving DecidableEq

def Date.le (date other : Date) : Prop :=
  date.year < other.year ∨ date.year = other.year ∧
    (date.month.toInt < other.month.toInt ∨ date.month = other.month ∧ date.day.toInt ≤ other.day.toInt)

instance (date other : Date) : Decidable (date.le other) := inferInstanceAs (Decidable (_ ∨ _))

/-- The outputs of `RequestCaiYunWeather`. -/
structure Forecast where
  temp : Int32
  curret_weather : Int32
  future_weather : Int32
  future_time : Int32

/-- One run of `PackageWeatherInfo`: the reply about the weather if there is one, and what
the address service makes of the address. -/
structure Run where
  uid : Int64
  date : Date
  weather : Option Forecast
  address : Address → Address

/-- What is seen of a run. `stored` is the last weather of the user after it. -/
structure Entry where
  uid : Int64
  date : Date
  weather : Option Forecast
  pushed : Bool
  asked : Bool
  address : Address
  stored : Option Int32

structure State where
  user_basic_infos_ : Map Nat
  data : Nat → UserBasicInfo
  fresh : Nat
  clock : Date
  log : List Entry

namespace State

def start (data : Nat → UserBasicInfo) (clock : Date) : State := ⟨∅,data,0,clock,[]⟩

/-! ### robot_cache_manager.cc -/

def set (s : State) (userinfo : Nat) (data : UserBasicInfo) : State := { s with data := Function.update s.data userinfo data }

def SetUserInfo (s : State) (uid : Int64) (current_weather future_weather : Int32) : State :=
  match MapGetInt s.user_basic_infos_ uid with
  | none =>
    let s' := s.set s.fresh { UserBasicInfo.new uid with last_weather_status := current_weather }
    { s' with user_basic_infos_ := MapAdd s.user_basic_infos_ uid s.fresh,fresh := s.fresh + 1 }
  | some userinfo =>
    -- the weather is left as it was
    if (s.data userinfo).last_weather_status ≠ future_weather then s
    else
      let s' := s.set userinfo { s.data userinfo with last_weather_status := current_weather }
      { s' with user_basic_infos_ := MapAdd s.user_basic_infos_ uid userinfo }

/-- Whether the address has a city and a province, and the address. -/
def GetUserAddressInfo (s : State) (uid : Int64) (address : Address) : Bool × Address :=
  match MapGetInt s.user_basic_infos_ uid with
  | none => (false,address)
  | some userinfo => (decide (s.data userinfo).toAddress.Complete,(s.data userinfo).toAddress)

def SetUserAddressInfo (s : State) (uid : Int64) (address : Address) : State :=
  match MapGetInt s.user_basic_infos_ uid with
  | none => s
  | some userinfo => s.set userinfo { s.data userinfo with toAddress := address }

def IsPushMessageDay (s : State) (uid : Int64) (date : Date) : Bool :=
  match MapGetInt s.user_basic_infos_ uid with
  | none => false
  | some userinfo => date.month ≠ (s.data userinfo).push_month ∨ date.day ≠ (s.data userinfo).push_day

def SetUserPushMessageDay (s : State) (uid : Int64) (date : Date) : State :=
  match MapGetInt s.user_basic_infos_ uid with
  | none => s
  | some userinfo =>
    let s' := s.set userinfo { s.data userinfo with push_month := date.month,push_day := date.day }
    { s' with user_basic_infos_ := MapAdd s.user_basic_infos_ uid userinfo }

/-! ### robot_weather_mgr.cc -/

/-- The record of a user, under the whole id. -/
def user (s : State) (uid : Int64) : Option UserBasicInfo := (s.user_basic_infos_[uid]?).map s.data

def PackageWeatherInfo (s : State) (call : Run) : State × Entry :=
  match call.weather with
  | none => (s,⟨call.uid,call.date,none,false,false,.empty,(s.user call.uid).map (·.last_weather_status)⟩)
  | some weather =>
    let s := s.SetUserInfo call.uid weather.curret_weather weather.future_weather
    let (known,address) := s.GetUserAddressInfo call.uid .empty
    let address := if known then address else call.address address
    let s := if known then s else s.SetUserAddressInfo call.uid address
    let pushed := s.IsPushMessageDay call.uid call.date
    let s := if pushed then s.SetUserPushMessageDay call.uid call.date else s
    (s,⟨call.uid,call.date,call.weather,pushed,!known,address,(s.user call.uid).map (·.last_weather_status)⟩)

/-- The clock does not go back. -/
def step (s : State) (call : Run) : Option State :=
  if s.clock.le call.date then
    let (s',entry) := s.PackageWeatherInfo call
    some { s' with clock := call.date,log := s.log ++ [entry] }
  else none

end State

/-! ### The book -/

/-- The runs of a user on a day that had a reply, and which of them pushed. -/
def pushes (log : List Entry) (uid : Int64) (date : Date) : List Bool :=
  (log.filter fun entry => entry.uid = uid ∧ entry.date = date ∧ entry.weather.isSome).map Entry.pushed

structure Booked (log : List Entry) : Prop where
  pushes : ∀ uid date, pushes log uid date = [] ∨ ∃ more, pushes log uid date = true::List.replicate more false
  failed : ∀ entry ∈ log, entry.weather = none → entry.pushed = false
  stored : ∀ entry ∈ log, ∀ weather, entry.weather = some weather → entry.stored = some weather.curret_weather
  addresses : log.Pairwise fun earlier later => later.uid = earlier.uid → earlier.address.Complete → later.weather.isSome →
    later.asked = false ∧ later.address = earlier.address

/-- The id is an `int`; a user that is known was last told the weather that is to come, or
that there is now; and a push on this day and month was made today. -/
def Meets (s : State) (call : Run) : Prop :=
  ∀ weather, call.weather = some weather → narrow call.uid = call.uid ∧ ∀ info, s.user call.uid = some info →
    (info.last_weather_status = weather.future_weather ∨ info.last_weather_status = weather.curret_weather) ∧
    (info.push_month = call.date.month → info.push_day = call.date.day →
      ∃ entry ∈ s.log, entry.uid = call.uid ∧ entry.date = call.date ∧ entry.pushed = true)

namespace State

/-! ### Records -/

/-- No two users share a record. -/
structure Inv (s : State) : Prop where
  below : ∀ {uid : Int64} {userinfo : Nat}, s.user_basic_infos_[uid]? = some userinfo → userinfo < s.fresh
  single : ∀ {uid other : Int64} {userinfo : Nat}, s.user_basic_infos_[uid]? = some userinfo → s.user_basic_infos_[other]? = some userinfo → uid = other

section Records
variable {s : State} {uid : Int64}

theorem user_some {info : UserBasicInfo} (known : s.user uid = some info) :
    ∃ userinfo, s.user_basic_infos_[uid]? = some userinfo ∧ s.data userinfo = info := Option.map_eq_some_iff.mp known

/-- A record that is set is that of its user alone. -/
theorem Inv.set (inv : s.Inv) {userinfo : Nat} (held : s.user_basic_infos_[uid]? = some userinfo) (data : UserBasicInfo) :
    (s.set userinfo data).Inv ∧ (s.set userinfo data).user = Function.update s.user uid (some data) := by
  refine ⟨⟨inv.below,inv.single⟩,funext fun other => ?_⟩
  rw [user,State.set]
  dsimp only
  by_cases same : other = uid
  · rw [same,held,Function.update_self,Option.map_some,Function.update_self]
  · rw [Function.update_of_ne same,user]
    cases there : s.user_basic_infos_[other]? with
    | none => rfl
    | some found =>
      have apart : found ≠ userinfo := fun equal => same (inv.single there (equal ▸ held))
      rw [Option.map_some,Option.map_some,Function.update_of_ne apart]

/-- Adding a handle where it is changes nothing. -/
theorem Inv.add (inv : s.Inv) {userinfo : Nat} (held : s.user_basic_infos_[uid]? = some userinfo) :
    ({ s with user_basic_infos_ := MapAdd s.user_basic_infos_ uid userinfo } : State).Inv ∧
      ({ s with user_basic_infos_ := MapAdd s.user_basic_infos_ uid userinfo } : State).user = s.user := by
  have same (other : Int64) : (MapAdd s.user_basic_infos_ uid userinfo)[other]? = s.user_basic_infos_[other]? := by
    rw [MapAdd_get]
    split
    · rename_i here
      rw [here,held]
    · rfl
  refine ⟨⟨fun there => inv.below ((same _).symm.trans there),
    fun there there' => inv.single ((same _).symm.trans there) ((same _).symm.trans there')⟩,funext fun other => ?_⟩
  exact congrArg (Option.map s.data) (same other)

/-- The record that `SetUserInfo` leaves. -/
def told (known : Option UserBasicInfo) (uid : Int64) (current_weather future_weather : Int32) : UserBasicInfo :=
  match known with
  | none => { UserBasicInfo.new uid with last_weather_status := current_weather }
  | some info => if info.last_weather_status ≠ future_weather then info else { info with last_weather_status := current_weather }

theorem SetUserInfo_spec (inv : s.Inv) (plain : narrow uid = uid) (current_weather future_weather : Int32) :
    (s.SetUserInfo uid current_weather future_weather).Inv ∧
      (s.SetUserInfo uid current_weather future_weather).user =
        Function.update s.user uid (some (told (s.user uid) uid current_weather future_weather)) := by
  rw [SetUserInfo,MapGetInt,plain]
  cases held : s.user_basic_infos_[uid]? with
  | none =>
    have unknown : s.user uid = none := by rw [user,held,Option.map_none]
    refine ⟨⟨?_,?_⟩,funext fun other => ?_⟩
    · intro other userinfo there
      obtain ⟨-,rfl⟩ | there := MapAdd_found there
      · exact Nat.lt_succ_self _
      · exact (inv.below there).trans (Nat.lt_succ_self _)
    · intro one other userinfo there there'
      obtain ⟨rfl,rfl⟩ | old := MapAdd_found there
      · obtain ⟨rfl,-⟩ | old' := MapAdd_found there'
        · rfl
        · exact absurd (inv.below old') (Nat.lt_irrefl _)
      · obtain ⟨rfl,rfl⟩ | old' := MapAdd_found there'
        · exact absurd (inv.below old) (Nat.lt_irrefl _)
        · exact inv.single old old'
    · rw [unknown,user]
      dsimp only [State.set]
      rw [MapAdd_get]
      by_cases same : other = uid
      · rw [if_pos same,same,Function.update_self,Option.map_some,Function.update_self]
        rfl
      · rw [if_neg same,Function.update_of_ne same,user]
        cases there : s.user_basic_infos_[other]? with
        | none => rfl
        | some found =>
          rw [Option.map_some,Option.map_some,Function.update_of_ne (Nat.ne_of_lt (inv.below there))]
  | some userinfo =>
    have known : s.user uid = some (s.data userinfo) := by rw [user,held,Option.map_some]
    rw [known,told]
    dsimp only
    split
    · exact ⟨inv,by rw [← known,Function.update_eq_self]⟩
    · obtain ⟨kept,users⟩ := inv.set held { s.data userinfo with last_weather_status := current_weather }
      obtain ⟨kept',users'⟩ := kept.add held
      exact ⟨kept',users'.trans users⟩

theorem GetUserAddressInfo_spec (plain : narrow uid = uid) {info : UserBasicInfo} (known : s.user uid = some info) (address : Address) :
    s.GetUserAddressInfo uid address = (decide info.toAddress.Complete,info.toAddress) := by
  obtain ⟨userinfo,held,rfl⟩ := user_some known
  rw [GetUserAddressInfo,MapGetInt,plain,held]

theorem SetUserAddressInfo_spec (inv : s.Inv) (plain : narrow uid = uid) {info : UserBasicInfo} (known : s.user uid = some info)
    (address : Address) :
    (s.SetUserAddressInfo uid address).Inv ∧
      (s.SetUserAddressInfo uid address).user = Function.update s.user uid (some { info with toAddress := address }) := by
  obtain ⟨userinfo,held,rfl⟩ := user_some known
  rw [SetUserAddressInfo,MapGetInt,plain,held]
  exact inv.set held _

theorem IsPushMessageDay_spec (plain : narrow uid = uid) {info : UserBasicInfo} (known : s.user uid = some info) (date : Date) :
    s.IsPushMessageDay uid date = decide (date.month ≠ info.push_month ∨ date.day ≠ info.push_day) := by
  obtain ⟨userinfo,held,rfl⟩ := user_some known
  rw [IsPushMessageDay,MapGetInt,plain,held]

theorem SetUserPushMessageDay_spec (inv : s.Inv) (plain : narrow uid = uid) {info : UserBasicInfo} (known : s.user uid = some info)
    (date : Date) :
    (s.SetUserPushMessageDay uid date).Inv ∧ (s.SetUserPushMessageDay uid date).user =
      Function.update s.user uid (some { info with push_month := date.month,push_day := date.day }) := by
  obtain ⟨userinfo,held,rfl⟩ := user_some known
  rw [SetUserPushMessageDay,MapGetInt,plain,held]
  obtain ⟨kept,users⟩ := inv.set held { s.data userinfo with push_month := date.month,push_day := date.day }
  obtain ⟨kept',users'⟩ := kept.add held
  exact ⟨kept',users'.trans users⟩

/-- A run with a reply: what becomes of the user's record, and what is seen. -/
theorem PackageWeatherInfo_spec (inv : s.Inv) {call : Run} (plain : narrow call.uid = call.uid) {weather : Forecast}
    (reply : call.weather = some weather) :
    ∃ info address pushed s', s.PackageWeatherInfo call =
        (s',⟨call.uid,call.date,some weather,pushed,!decide info.toAddress.Complete,address,some info.last_weather_status⟩) ∧
      info = told (s.user call.uid) call.uid weather.curret_weather weather.future_weather ∧
      (info.toAddress.Complete → address = info.toAddress) ∧
      pushed = decide (call.date.month ≠ info.push_month ∨ call.date.day ≠ info.push_day) ∧ s'.Inv ∧
      s'.user = Function.update s.user call.uid (some
        (if pushed then { info with toAddress := address,push_month := call.date.month,push_day := call.date.day }
          else { info with toAddress := address })) := by
  obtain ⟨inv1,users1⟩ := SetUserInfo_spec inv plain weather.curret_weather weather.future_weather
  generalize toldEq : told (s.user call.uid) call.uid weather.curret_weather weather.future_weather = info at users1
  have known1 : (s.SetUserInfo call.uid weather.curret_weather weather.future_weather).user call.uid = some info := by
    rw [users1,Function.update_self]
  rw [PackageWeatherInfo,reply]
  dsimp only
  rw [GetUserAddressInfo_spec plain known1]
  dsimp only
  generalize s.SetUserInfo call.uid weather.curret_weather weather.future_weather = s1 at inv1 users1 known1 ⊢
  -- the state with the address, asked for or not
  obtain ⟨s2,address,addressed,inv2,users2,complete⟩ : ∃ s2 address,
      ((if decide info.toAddress.Complete then s1
          else s1.SetUserAddressInfo call.uid (if decide info.toAddress.Complete then info.toAddress else call.address info.toAddress)),
        (if decide info.toAddress.Complete then info.toAddress else call.address info.toAddress)) = (s2,address) ∧ s2.Inv ∧
      s2.user = Function.update s.user call.uid (some { info with toAddress := address }) ∧
      (info.toAddress.Complete → address = info.toAddress) := by
    by_cases complete : info.toAddress.Complete
    · rw [decide_eq_true complete]
      exact ⟨s1,info.toAddress,rfl,inv1,users1,fun _ => rfl⟩
    · rw [decide_eq_false complete]
      obtain ⟨inv2,users2⟩ := SetUserAddressInfo_spec inv1 plain known1 (call.address info.toAddress)
      refine ⟨s1.SetUserAddressInfo call.uid (call.address info.toAddress),call.address info.toAddress,rfl,inv2,?_,
        fun complete' => absurd complete' complete⟩
      rw [users2,users1,Function.update_idem]
  rw [(Prod.mk.inj addressed).1,(Prod.mk.inj addressed).2]
  have known2 : s2.user call.uid = some { info with toAddress := address } := by rw [users2,Function.update_self]
  rw [IsPushMessageDay_spec plain known2]
  refine ⟨info,address,decide (call.date.month ≠ info.push_month ∨ call.date.day ≠ info.push_day),?_⟩
  by_cases due : call.date.month ≠ info.push_month ∨ call.date.day ≠ info.push_day
  · obtain ⟨inv3,users3⟩ := SetUserPushMessageDay_spec inv2 plain known2 call.date
    rw [decide_eq_true due]
    refine ⟨s2.SetUserPushMessageDay call.uid call.date,?_,rfl,complete,rfl,inv3,?_⟩
    · rw [if_pos rfl,users3,Function.update_self]
      rfl
    · rw [users3,users2,Function.update_idem]
      rfl
  · rw [decide_eq_false due]
    refine ⟨s2,?_,rfl,complete,rfl,inv2,users2⟩
    rw [if_neg Bool.false_ne_true,known2]
    rfl

end Records
end State

/-! ### Days -/

theorem Date.le_refl (date : Date) : date.le date := .inr ⟨rfl,.inr ⟨rfl,Int.le_refl _⟩⟩

theorem Date.le_trans {date mid other : Date} (first : date.le mid) (second : mid.le other) : date.le other := by
  unfold Date.le at *
  simp only [← Int32.toInt_inj] at *
  omega

theorem Date.le_antisymm {date other : Date} (first : date.le other) (second : other.le date) : date = other := by
  cases date
  cases other
  unfold Date.le at *
  rw [Date.mk.injEq]
  simp only [← Int32.toInt_inj] at *
  omega

/-! ### Runs -/

theorem pushes_append (log : List Entry) (entry : Entry) (uid : Int64) (date : Date) :
    pushes (log ++ [entry]) uid date = pushes log uid date ++
      if entry.uid = uid ∧ entry.date = date ∧ entry.weather.isSome then [entry.pushed] else [] := by
  rw [pushes,List.filter_append,List.map_append,pushes]
  split
  · rename_i here
    rw [List.filter_cons_of_pos (by rw [decide_eq_true_iff]; exact here)]
    rfl
  · rename_i other
    rw [List.filter_cons_of_neg (by rw [decide_eq_true_iff]; exact other)]
    rfl

theorem mem_pushes {log : List Entry} {uid : Int64} {date : Date} {pushed : Bool} (member : pushed ∈ pushes log uid date) :
    ∃ entry ∈ log, entry.uid = uid ∧ entry.date = date ∧ entry.pushed = pushed := by
  obtain ⟨entry,listed,same⟩ := List.mem_map.mp member
  obtain ⟨listed,which⟩ := List.mem_filter.mp listed
  obtain ⟨user,day,-⟩ := of_decide_eq_true which
  exact ⟨entry,listed,user,day,same⟩

/-- What the runs keep. -/
structure Kept (s : State) : Prop where
  inv : s.Inv
  booked : Booked s.log
  dates : ∀ entry ∈ s.log, entry.date.le s.clock
  known : ∀ entry ∈ s.log, entry.address.Complete → ∃ info, s.user entry.uid = some info ∧ info.toAddress = entry.address
  stamped : ∀ entry ∈ s.log, entry.pushed = true → entry.date = s.clock → ∃ info, s.user entry.uid = some info ∧
    info.push_month = entry.date.month ∧ info.push_day = entry.date.day

theorem told_some (info : UserBasicInfo) (uid : Int64) (current_weather future_weather : Int32) :
    (State.told (some info) uid current_weather future_weather).toAddress = info.toAddress ∧
      (State.told (some info) uid current_weather future_weather).push_month = info.push_month ∧
      (State.told (some info) uid current_weather future_weather).push_day = info.push_day := by
  rw [State.told]
  split
  · exact ⟨rfl,rfl,rfl⟩
  · exact ⟨rfl,rfl,rfl⟩

/-- The weather that is kept is the one of the reply. -/
theorem told_weather {known : Option UserBasicInfo} {uid : Int64} {current_weather future_weather : Int32}
    (told : ∀ info, known = some info → info.last_weather_status = future_weather ∨ info.last_weather_status = current_weather) :
    (State.told known uid current_weather future_weather).last_weather_status = current_weather := by
  cases known with
  | none => rfl
  | some info =>
    rw [State.told]
    split
    · rename_i other
      exact (told info rfl).resolve_left other
    · rfl

section Step
variable {s : State} {call : Run}

/-- A run without a reply. -/
theorem Kept.failed (kept : Kept s) (later : s.clock.le call.date) (reply : call.weather = none) :
    Kept { s with clock := call.date,log := s.log ++ [(s.PackageWeatherInfo call).2] } := by
  rw [State.PackageWeatherInfo,reply]
  refine ⟨⟨kept.inv.below,kept.inv.single⟩,⟨?_,?_,?_,?_⟩,?_,?_,?_⟩
  · intro uid date
    rw [pushes_append,if_neg fun here => Bool.false_ne_true here.2.2,List.append_nil]
    exact kept.booked.pushes uid date
  · rw [List.forall_mem_append,List.forall_mem_singleton]
    exact ⟨kept.booked.failed,fun _ => rfl⟩
  · rw [List.forall_mem_append,List.forall_mem_singleton]
    refine ⟨kept.booked.stored,fun weather there => ?_⟩
    cases there
  · rw [List.pairwise_append]
    refine ⟨kept.booked.addresses,List.pairwise_singleton _ _,fun earlier _ entry here _ _ some_ => ?_⟩
    rw [List.mem_singleton.mp here] at some_
    cases some_
  · rw [List.forall_mem_append,List.forall_mem_singleton]
    exact ⟨fun entry listed => Date.le_trans (kept.dates entry listed) later,Date.le_refl _⟩
  · rw [List.forall_mem_append,List.forall_mem_singleton]
    refine ⟨kept.known,fun complete => ?_⟩
    exact absurd rfl complete.1
  · rw [List.forall_mem_append,List.forall_mem_singleton]
    refine ⟨fun entry listed pushed today => ?_,fun pushed => ?_⟩
    · have same : entry.date = s.clock := Date.le_antisymm (kept.dates entry listed) (by rw [show entry.date = call.date from today]; exact later)
      exact kept.stamped entry listed pushed same
    · cases pushed

/-- A run with a reply. -/
theorem Kept.replied (kept : Kept s) (later : s.clock.le call.date) (meets : Meets s call) {weather : Forecast}
    (reply : call.weather = some weather) :
    Kept { (s.PackageWeatherInfo call).1 with clock := call.date,log := s.log ++ [(s.PackageWeatherInfo call).2] } := by
  obtain ⟨plain,old⟩ := meets weather reply
  obtain ⟨info,address,pushed,s',run,told,asked,due,inv,users⟩ := State.PackageWeatherInfo_spec kept.inv plain reply
  rw [run]
  dsimp only
  have stored : info.last_weather_status = weather.curret_weather := by
    rw [told]
    exact told_weather fun known there => (old known there).1
  -- a push today is what the record has
  have today : ∀ entry ∈ s.log, entry.uid = call.uid → entry.date = call.date → entry.pushed = true → pushed = false := by
    intro entry listed user day was
    have same : entry.date = s.clock := Date.le_antisymm (kept.dates entry listed) (by rw [day]; exact later)
    obtain ⟨known,there,month,number⟩ := kept.stamped entry listed was same
    rw [user] at there
    rw [there] at told
    obtain ⟨-,month',number'⟩ := told_some known call.uid weather.curret_weather weather.future_weather
    rw [due,decide_eq_false_iff_not,told,month',number',month,number,day]
    rintro (other | other)
    · exact other rfl
    · exact other rfl
  have first : pushed = false → ∃ entry ∈ s.log, entry.uid = call.uid ∧ entry.date = call.date ∧ entry.pushed = true := by
    intro none_
    rw [due,decide_eq_false_iff_not,not_or,not_not,not_not] at none_
    cases there : s.user call.uid with
    | none =>
      have zero : info.push_month = 0 := by rw [told,there]; rfl
      have named := call.date.named.1
      rw [none_.1,zero] at named
      exact absurd named (by decide)
    | some known =>
      rw [there] at told
      obtain ⟨-,month,number⟩ := told_some known call.uid weather.curret_weather weather.future_weather
      refine (old known there).2 ?_ ?_
      · rw [← month,← told,← none_.1]
      · rw [← number,← told,← none_.2]
  obtain ⟨last,held,addressed,month,number⟩ : ∃ last, s'.user call.uid = some last ∧ last.toAddress = address ∧
      last.push_month = call.date.month ∧ last.push_day = call.date.day := by
    rw [users,Function.update_self]
    refine ⟨_,rfl,?_⟩
    split
    · exact ⟨rfl,rfl,rfl⟩
    · rename_i before
      rw [due,decide_eq_true_iff,not_or,not_not,not_not] at before
      exact ⟨rfl,before.1.symm,before.2.symm⟩
  have others {uid : Int64} (other : uid ≠ call.uid) : s'.user uid = s.user uid := by rw [users,Function.update_of_ne other]
  have kept_address : ∀ entry ∈ s.log, call.uid = entry.uid → entry.address.Complete → info.toAddress = entry.address := by
    intro entry listed user complete
    obtain ⟨known,there,same⟩ := kept.known entry listed complete
    rw [← user] at there
    rw [told,there,(told_some known call.uid weather.curret_weather weather.future_weather).1,same]
  refine ⟨⟨inv.below,inv.single⟩,⟨?_,?_,?_,?_⟩,?_,?_,?_⟩
  · intro uid date
    rw [pushes_append]
    split
    · rename_i here
      obtain ⟨rfl,rfl,-⟩ := here
      dsimp only
      obtain none_ | ⟨more,some_⟩ := kept.booked.pushes call.uid call.date
      · -- the first run of the day
        refine .inr ⟨0,?_⟩
        cases pushed with
        | true => rw [none_]; rfl
        | false =>
          obtain ⟨entry,listed,user,day,was⟩ := first rfl
          have replied : entry.weather.isSome = true := by
            by_contra without
            rw [Option.not_isSome_iff_eq_none] at without
            exact Bool.false_ne_true ((kept.booked.failed entry listed without).symm.trans was)
          have member : entry ∈ s.log.filter fun entry => entry.uid = call.uid ∧ entry.date = call.date ∧ entry.weather.isSome :=
            List.mem_filter.mpr ⟨listed,by rw [decide_eq_true_iff]; exact ⟨user,day,replied⟩⟩
          rw [pushes,List.map_eq_nil_iff] at none_
          rw [none_] at member
          cases member
      · obtain ⟨entry,listed,user,day,was⟩ := mem_pushes (some_ ▸ List.mem_cons_self : true ∈ pushes s.log call.uid call.date)
        refine .inr ⟨more + 1,?_⟩
        rw [some_,today entry listed user day was,List.replicate_succ']
        rfl
    · rw [List.append_nil]
      exact kept.booked.pushes uid date
  · rw [List.forall_mem_append,List.forall_mem_singleton]
    refine ⟨kept.booked.failed,fun without => ?_⟩
    cases without
  · rw [List.forall_mem_append,List.forall_mem_singleton]
    refine ⟨kept.booked.stored,fun given there => ?_⟩
    rw [← Option.some.inj there,stored]
  · rw [List.pairwise_append]
    refine ⟨kept.booked.addresses,List.pairwise_singleton _ _,fun earlier listed entry here user complete _ => ?_⟩
    rw [List.mem_singleton.mp here] at user ⊢
    have same := kept_address earlier listed user complete
    have whole : info.toAddress.Complete := same ▸ complete
    exact ⟨by rw [decide_eq_true whole]; rfl,(asked whole).trans same⟩
  · rw [List.forall_mem_append,List.forall_mem_singleton]
    exact ⟨fun entry listed => Date.le_trans (kept.dates entry listed) later,Date.le_refl _⟩
  · rw [List.forall_mem_append,List.forall_mem_singleton]
    refine ⟨fun entry listed complete => ?_,fun _ => ⟨last,held,addressed⟩⟩
    by_cases user : entry.uid = call.uid
    · have same := kept_address entry listed user.symm complete
      have whole : info.toAddress.Complete := same ▸ complete
      exact ⟨last,by rw [user]; exact held,addressed.trans ((asked whole).trans same)⟩
    · obtain ⟨known,there,same⟩ := kept.known entry listed complete
      exact ⟨known,(others user).trans there,same⟩
  · rw [List.forall_mem_append,List.forall_mem_singleton]
    refine ⟨fun entry listed was day => ?_,fun _ _ => ⟨last,held,month,number⟩⟩
    have day : entry.date = call.date := day
    by_cases user : entry.uid = call.uid
    · rw [user,day]
      exact ⟨last,held,month,number⟩
    · have same : entry.date = s.clock := Date.le_antisymm (kept.dates entry listed) (by rw [day]; exact later)
      obtain ⟨known,there,stamp⟩ := kept.stamped entry listed was same
      exact ⟨known,(others user).trans there,stamp⟩

theorem step_later (later : s.clock.le call.date) :
    State.step s call = some { (s.PackageWeatherInfo call).1 with clock := call.date,log := s.log ++ [(s.PackageWeatherInfo call).2] } :=
  if_pos later

theorem Kept.step {next : State} (kept : Kept s) (meets : Meets s call) (outcome : State.step s call = some next) : Kept next := by
  by_cases later : s.clock.le call.date
  · rw [step_later later] at outcome
    rw [← Option.some.inj outcome]
    obtain reply | ⟨weather,reply⟩ := Option.eq_none_or_eq_some call.weather
    · have same : (s.PackageWeatherInfo call).1 = s := by rw [State.PackageWeatherInfo,reply]
      rw [same]
      exact kept.failed later reply
    · exact kept.replied later meets reply
  · rw [State.step,if_neg later] at outcome
    cases outcome

end Step

theorem start_inv (data : Nat → UserBasicInfo) (clock : Date) : (State.start data clock).Inv where
  below held := by
    rw [State.start,Std.ExtTreeMap.getElem?_empty] at held
    cases held
  single held := by
    rw [State.start,Std.ExtTreeMap.getElem?_empty] at held
    cases held

theorem start_kept (data : Nat → UserBasicInfo) (clock : Date) : Kept (State.start data clock) where
  inv := start_inv data clock
  booked := ⟨fun _ _ => .inl rfl,List.forall_mem_nil _,List.forall_mem_nil _,List.Pairwise.nil⟩
  dates := List.forall_mem_nil _
  known := List.forall_mem_nil _
  stamped := List.forall_mem_nil _

/-- The first of June. -/
def june : Date := ⟨2015,6,1,by decide⟩

/-- Clear weather, then rain that is not expected to go on, for user 1. -/
def clear : Run := ⟨1,june,some ⟨20,101,1,0⟩,id⟩
def rain : Run := ⟨1,june,some ⟨20,100,0,0⟩,id⟩

def begin_ : State := State.start (fun _ => UserBasicInfo.new 0) june

theorem begin_unknown (uid : Int64) : begin_.user uid = none := by
  rw [State.user,begin_,State.start,Std.ExtTreeMap.getElem?_empty,Option.map_none]

/-- A known user that was last told neither weather of the reply keeps the old one. -/
theorem State.Inv.unstored {s : State} (inv : s.Inv) {call : Run} (later : s.clock.le call.date) (plain : narrow call.uid = call.uid)
    {weather : Forecast} (reply : call.weather = some weather) {known : UserBasicInfo} (held : s.user call.uid = some known)
    (future : known.last_weather_status ≠ weather.future_weather) (current : known.last_weather_status ≠ weather.curret_weather) :
    ∃ next, State.step s call = some next ∧ ¬Booked next.log := by
  obtain ⟨info,address,pushed,s',packed,told,-⟩ := State.PackageWeatherInfo_spec inv plain reply
  refine ⟨_,step_later later,fun booked => ?_⟩
  rw [packed] at booked
  have stored := booked.stored _ (List.mem_append_right _ (List.mem_singleton_self _)) weather rfl
  rw [told,held,State.told,if_pos future] at stored
  exact current (Option.some.inj stored)

end Migfm.Robot.WeatherPush
