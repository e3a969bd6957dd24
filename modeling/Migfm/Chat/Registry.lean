import Migfm.Library.Runs
import Migfm.Chat.UserConnection

/-! Who is online, by user and by socket. The two maps agree in every run in
which nobody takes a socket in use, leaves for somebody else or closes a socket
that was replaced. -/
namespace Migfm.Chat
open Basic Library.Runs

/-- What the caches say about users and sockets. -/
@[ext] structure Registry where
  user : Int64 → Int64 → Option UserInfo
  socket : Int32 → Option UserInfo
  data : UserInfo → Data
  fresh : UserInfo

/-- A user with a new `Data` on its socket. -/
def Registry.enter (registry : Registry) (data : Data) : Registry where
  user platform_id user_id :=
    if platform_id = data.platform_id ∧ user_id = data.user_id then some registry.fresh
    else registry.user platform_id user_id
  socket := Function.update registry.socket data.socket (some registry.fresh)
  data := Function.update registry.data registry.fresh data
  fresh := registry.fresh + 1

def Registry.leave (registry : Registry) (socket : Int32) (platform_id user_id : Int64) : Registry :=
  {registry with
    user := fun platform other =>
      if platform = platform_id ∧ other = user_id then none else registry.user platform other
    socket := Function.update registry.socket socket none}

/-- The socket of the last login of each user. -/
abbrev Latest := Int64 → Int64 → Option Int32

def Latest.login (latest : Latest) (socket : Int32) (platform_id user_id : Int64) : Latest :=
  fun platform other => if platform = platform_id ∧ other = user_id then some socket else latest platform other

/-! ### The invariant -/

/-- A user is under its own ids on the socket of its last login, and the socket
knows it; a socket knows whoever logged in on it last. -/
structure Registry.Inv (registry : Registry) (latest : Latest) : Prop where
  user_old : ∀ platform_id user_id userinfo, registry.user platform_id user_id = some userinfo →
    userinfo < registry.fresh
  socket_old : ∀ socket userinfo, registry.socket socket = some userinfo → userinfo < registry.fresh
  own : ∀ platform_id user_id userinfo, registry.user platform_id user_id = some userinfo →
    (registry.data userinfo).platform_id = platform_id ∧ (registry.data userinfo).user_id = user_id
  known : ∀ platform_id user_id userinfo, registry.user platform_id user_id = some userinfo →
    registry.socket (registry.data userinfo).socket = some userinfo ∧
      latest platform_id user_id = some (registry.data userinfo).socket
  socket : ∀ socket userinfo, registry.socket socket = some userinfo → (registry.data userinfo).socket = socket
  narrow : ∀ socket userinfo, registry.socket socket = some userinfo →
    Basic.narrow (registry.data userinfo).user_id = (registry.data userinfo).user_id
  online : ∀ socket userinfo, registry.socket socket = some userinfo →
    latest (registry.data userinfo).platform_id (registry.data userinfo).user_id = some socket →
      registry.user (registry.data userinfo).platform_id (registry.data userinfo).user_id = some userinfo

section Registry
variable {registry : Registry} {latest : Latest} (inv : registry.Inv latest)
include inv

/-- The socket is free or its last user is not online on it, or is the one who comes. -/
def Registry.Free (registry : Registry) (socket : Int32) (platform_id user_id : Int64) : Prop :=
  ∀ platform other userinfo, registry.user platform other = some userinfo →
    (registry.data userinfo).socket = socket → platform = platform_id ∧ other = user_id

theorem Registry.Inv.enter (data : Data) (fits : Basic.narrow data.user_id = data.user_id)
    (free : registry.Free data.socket data.platform_id data.user_id) :
    (registry.enter data).Inv (latest.login data.socket data.platform_id data.user_id) := by
  have new_data : (registry.enter data).data registry.fresh = data := Function.update_self ..
  have old_data {userinfo : UserInfo} (old : userinfo < registry.fresh) :
      (registry.enter data).data userinfo = registry.data userinfo := Function.update_of_ne (Nat.ne_of_lt old) ..
  have users (platform other : Int64) (userinfo : UserInfo)
      (found : (registry.enter data).user platform other = some userinfo) :
      (platform = data.platform_id ∧ other = data.user_id ∧ userinfo = registry.fresh) ∨
        (¬(platform = data.platform_id ∧ other = data.user_id) ∧ registry.user platform other = some userinfo) := by
    unfold Registry.enter at found
    simp only at found
    split at found
    · rename_i same
      exact .inl ⟨same.1,same.2,(Option.some.inj found).symm⟩
    · rename_i apart
      exact .inr ⟨apart,found⟩
  have sockets (socket : Int32) (userinfo : UserInfo) (found : (registry.enter data).socket socket = some userinfo) :
      (socket = data.socket ∧ userinfo = registry.fresh) ∨
        (socket ≠ data.socket ∧ registry.socket socket = some userinfo) := by
    unfold Registry.enter at found
    simp only [Function.update_apply] at found
    split at found
    · rename_i same
      exact .inl ⟨same,(Option.some.inj found).symm⟩
    · rename_i apart
      exact .inr ⟨apart,found⟩
  refine ⟨?_,?_,?_,?_,?_,?_,?_⟩
  · intro platform other userinfo found
    rcases users platform other userinfo found with ⟨_,_,rfl⟩ | ⟨_,before⟩
    · exact Nat.lt_succ_self _
    · exact Nat.lt_succ_of_lt (inv.user_old platform other userinfo before)
  · intro socket userinfo found
    rcases sockets socket userinfo found with ⟨_,rfl⟩ | ⟨_,before⟩
    · exact Nat.lt_succ_self _
    · exact Nat.lt_succ_of_lt (inv.socket_old socket userinfo before)
  · intro platform other userinfo found
    rcases users platform other userinfo found with ⟨rfl,rfl,rfl⟩ | ⟨_,before⟩
    · rw [new_data]
      exact ⟨rfl,rfl⟩
    · rw [old_data (inv.user_old platform other userinfo before)]
      exact inv.own platform other userinfo before
  · intro platform other userinfo found
    rcases users platform other userinfo found with ⟨rfl,rfl,rfl⟩ | ⟨apart,before⟩
    · rw [new_data]
      exact ⟨Function.update_self ..,if_pos ⟨rfl,rfl⟩⟩
    · rw [old_data (inv.user_old platform other userinfo before),Latest.login,if_neg apart]
      obtain ⟨there,last⟩ := inv.known platform other userinfo before
      refine ⟨?_,last⟩
      have elsewhere : (registry.data userinfo).socket ≠ data.socket := fun same =>
        apart (free platform other userinfo before same)
      exact (Function.update_of_ne elsewhere ..).trans there
  · intro socket userinfo found
    rcases sockets socket userinfo found with ⟨rfl,rfl⟩ | ⟨_,before⟩
    · rw [new_data]
    · rw [old_data (inv.socket_old socket userinfo before)]
      exact inv.socket socket userinfo before
  · intro socket userinfo found
    rcases sockets socket userinfo found with ⟨rfl,rfl⟩ | ⟨_,before⟩
    · rw [new_data]
      exact fits
    · rw [old_data (inv.socket_old socket userinfo before)]
      exact inv.narrow socket userinfo before
  · intro socket userinfo found last
    rcases sockets socket userinfo found with ⟨rfl,rfl⟩ | ⟨elsewhere,before⟩
    · rw [new_data]
      exact if_pos ⟨rfl,rfl⟩
    · rw [old_data (inv.socket_old socket userinfo before)] at last ⊢
      unfold Latest.login at last
      split at last
      · exact absurd (Option.some.inj last).symm elsewhere
      · rename_i apart
        exact (if_neg apart).trans (inv.online socket userinfo before last)

theorem Registry.Inv.leave {socket : Int32} {platform_id user_id : Int64}
    (there : ∀ userinfo, registry.socket socket = some userinfo →
      (registry.data userinfo).platform_id = platform_id ∧ (registry.data userinfo).user_id = user_id)
    (here : ∀ userinfo, registry.user platform_id user_id = some userinfo → (registry.data userinfo).socket = socket) :
    (registry.leave socket platform_id user_id).Inv latest := by
  have users (platform other : Int64) (userinfo : UserInfo)
      (found : (registry.leave socket platform_id user_id).user platform other = some userinfo) :
      ¬(platform = platform_id ∧ other = user_id) ∧ registry.user platform other = some userinfo := by
    unfold Registry.leave at found
    simp only at found
    split at found
    · exact absurd found (by simp)
    · rename_i apart
      exact ⟨apart,found⟩
  have sockets (other : Int32) (userinfo : UserInfo)
      (found : (registry.leave socket platform_id user_id).socket other = some userinfo) :
      other ≠ socket ∧ registry.socket other = some userinfo := by
    unfold Registry.leave at found
    simp only [Function.update_apply] at found
    split at found
    · exact absurd found (by simp)
    · rename_i apart
      exact ⟨apart,found⟩
  refine ⟨?_,?_,?_,?_,?_,?_,?_⟩
  · intro platform other userinfo found
    exact inv.user_old platform other userinfo (users platform other userinfo found).2
  · intro other userinfo found
    exact inv.socket_old other userinfo (sockets other userinfo found).2
  · intro platform other userinfo found
    exact inv.own platform other userinfo (users platform other userinfo found).2
  · intro platform other userinfo found
    obtain ⟨apart,before⟩ := users platform other userinfo found
    obtain ⟨known,last⟩ := inv.known platform other userinfo before
    obtain ⟨own_platform,own_user⟩ := inv.own platform other userinfo before
    refine ⟨?_,last⟩
    have elsewhere : (registry.data userinfo).socket ≠ socket := by
      intro same
      rw [same] at known
      obtain ⟨same_platform,same_user⟩ := there userinfo known
      exact apart ⟨own_platform.symm.trans same_platform,own_user.symm.trans same_user⟩
    exact (Function.update_of_ne elsewhere ..).trans known
  · intro other userinfo found
    exact inv.socket other userinfo (sockets other userinfo found).2
  · intro other userinfo found
    exact inv.narrow other userinfo (sockets other userinfo found).2
  · intro other userinfo found last
    obtain ⟨elsewhere,before⟩ := sockets other userinfo found
    have online := inv.online other userinfo before last
    have apart : ¬((registry.data userinfo).platform_id = platform_id ∧ (registry.data userinfo).user_id = user_id) := by
      rintro ⟨same_platform,same_user⟩
      rw [same_platform,same_user] at online
      have on_socket := here userinfo online
      rw [inv.socket other userinfo before] at on_socket
      exact elsewhere on_socket
    exact (if_neg apart).trans online

end Registry

/-! ### The handlers -/

section Handlers
variable {GroupInfo : Type}

def ChatServer.registry (server : ChatServer GroupInfo) : Registry where
  user platform_id user_id := (server.platform_cache_[platform_id]?).bind fun pl => pl.user_infos_map_[user_id]?
  socket := server.socket_infos_map_
  data := server.data
  fresh := server.fresh

theorem GetUserInfos_registry (server : ChatServer GroupInfo) (platform_id user_id : Int64) :
    server.GetUserInfos platform_id user_id = server.registry.user platform_id (narrow user_id) := rfl

/-- An operation that changes the users of a platform at most. -/
theorem onPlatform_registry (server : ChatServer GroupInfo) (platform_id : Int64)
    (operation : PlatformCache UserInfo GroupInfo → PlatformCache UserInfo GroupInfo) :
    (server.onPlatform platform_id operation).registry = {server.registry with
      user := fun platform other =>
        if platform = platform_id then
          (server.platform_cache_[platform_id]?).bind fun pl => (operation pl).user_infos_map_[other]?
        else server.registry.user platform other} := by
  have caches := onPlatform_cache server platform_id
  refine Registry.ext ?_ ?_ ?_ ?_
  · funext platform other
    simp only [ChatServer.registry,caches]
    by_cases same : platform = platform_id
    · rw [if_pos same,if_pos same,same,Option.bind_map]
      rfl
    · rw [if_neg same,if_neg same]
  all_goals
    unfold ChatServer.onPlatform
    split <;> rfl

theorem login_registry (server : ChatServer GroupInfo) (socket : Int32) {platform_id : Int64} (user_id : Int64)
    (row : UserRow) (chat_token : List UInt8) {pl : PlatformCache UserInfo GroupInfo}
    (known : server.platform_cache_[platform_id]? = some pl) :
    (OnUserLogin server socket platform_id user_id (some row) chat_token).1.registry =
      server.registry.enter
        {platform_id, user_id, nicknumber := row.nicknumber, nickname := row.nickname, head_url := row.head_url,
          socket, session := 0, chat_token} := by
  have added := onPlatform_registry (server.newUserInfo platform_id user_id socket row chat_token).1 platform_id
    (·.AddUserInfos user_id server.fresh)
  have users (platform other : Int64) :
      ((server.newUserInfo platform_id user_id socket row chat_token).1.onPlatform platform_id
        (·.AddUserInfos user_id server.fresh)).registry.user platform other =
      if platform = platform_id ∧ other = user_id then some server.fresh else server.registry.user platform other := by
    rw [added]
    by_cases same : platform = platform_id
    · subst same
      have stored := MapAdd_get pl.user_infos_map_ user_id other server.fresh
      simp only [if_true,ChatServer.newUserInfo,known,Option.bind_some,PlatformCache.AddUserInfos,stored,true_and]
      by_cases equal : other = user_id
      · rw [if_pos equal,if_pos equal]
      · rw [if_neg equal,if_neg equal]
        simp only [ChatServer.registry,known,Option.bind_some]
    · simp only [same,if_false,false_and]
      rfl
  have sockets := congrArg Registry.socket added
  have datas := congrArg Registry.data added
  have freshes := congrArg Registry.fresh added
  refine Registry.ext (funext fun platform => funext fun other => users platform other) ?_ datas freshes
  exact congrArg (fun sockets => Function.update sockets socket (some server.fresh)) sockets

/-- Meetings and offers do not matter here. -/
theorem clear_registry (server : ChatServer GroupInfo) (platform_id user_id session : Int64) :
    (ClearUserinfo server platform_id user_id session).1.registry = {server.registry with
      user := fun platform other =>
        if platform = platform_id ∧ other = user_id then none else server.registry.user platform other} := by
  have meetings : (server.onPlatform platform_id (·.DelMeetingInfos session user_id)).registry = server.registry := by
    rw [onPlatform_registry]
    simp only [PlatformCache.DelMeetingInfos_users]
    refine Registry.ext ?_ rfl rfl rfl
    funext platform other
    by_cases same : platform = platform_id
    · subst same
      exact if_pos rfl
    · exact if_neg same
  have users := congrArg Registry.user meetings
  unfold ClearUserinfo
  simp only
  rw [onPlatform_registry,meetings]
  refine Registry.ext ?_ rfl rfl rfl
  funext platform other
  simp only
  by_cases same : platform = platform_id
  · subst same
    have before := congrFun (congrFun users platform) other
    rw [if_pos rfl]
    simp only [true_and]
    rw [← before]
    simp only [ChatServer.registry]
    cases (server.onPlatform platform (·.DelMeetingInfos session user_id)).platform_cache_[platform]? with
    | none => simp
    | some pl =>
      have erased := MapDel_get pl.user_infos_map_ user_id other
      simp only [Option.bind_some,PlatformCache.DelUserInos,erased]
  · rw [if_neg same,if_neg (fun both => same both.1)]

theorem setPlatform_registry (server : ChatServer GroupInfo) (platform_id : Int64) :
    ChatServer.registry {server with platform_cache_ := SetPlatformInfo server.platform_cache_ platform_id} =
      server.registry := by
  refine Registry.ext ?_ rfl rfl rfl
  funext platform other
  simp only [ChatServer.registry,SetPlatformInfo]
  cases found : server.platform_cache_[platform_id]? with
  | some pl => rfl
  | none =>
    have stored := MapAdd_get server.platform_cache_ platform_id platform .empty
    rw [MapAdd] at stored
    simp only [stored]
    by_cases same : platform = platform_id
    · rw [if_pos same,same,found]
      exact Std.ExtTreeMap.getElem?_empty
    · rw [if_neg same]

/-! ### Runs -/

inductive Visit
  | setPlatform (platform_id : Int64)
  | login (socket : Int32) (platform_id user_id : Int64) (row : Option UserRow) (chat_token : List UInt8)
  | quit (socket : Int32) (platform_id user_id session : Int64)
  | close (socket : Int32)

def visit (server : ChatServer GroupInfo) : Visit → Option (ChatServer GroupInfo)
  | .setPlatform platform_id =>
    some {server with platform_cache_ := SetPlatformInfo server.platform_cache_ platform_id}
  | .login socket platform_id user_id row chat_token =>
    some (OnUserLogin server socket platform_id user_id row chat_token).1
  | .quit socket platform_id user_id session => some (OnUserQuit server socket platform_id user_id session).1
  | .close socket => some (OnAberrant server socket).1

def Latest.after (latest : Latest) : Visit → Latest
  | .login socket platform_id user_id (some _) _ => latest.login socket platform_id user_id
  | _ => latest

/-- `GetUserInfos` finds this user with this socket. -/
def ChatServer.Online (server : ChatServer GroupInfo) (platform_id user_id : Int64) (socket : Int32) : Prop :=
  ∃ userinfo, server.GetUserInfos platform_id user_id = some userinfo ∧
    (server.data userinfo).platform_id = platform_id ∧ (server.data userinfo).user_id = user_id ∧
    (server.data userinfo).socket = socket

/-- `GetSocket` finds this user. -/
def ChatServer.Connected (server : ChatServer GroupInfo) (socket : Int32) (platform_id user_id : Int64) : Prop :=
  ∃ userinfo, server.GetSocket socket = some userinfo ∧
    (server.data userinfo).platform_id = platform_id ∧ (server.data userinfo).user_id = user_id

def Agree (server : ChatServer GroupInfo) (latest : Latest) : Prop :=
  ∀ platform_id user_id socket, server.Online platform_id user_id socket ↔
    server.Connected socket platform_id user_id ∧ latest platform_id user_id = some socket

/-- A quit or a close on a socket logs nobody out who is online on another one. -/
def Spares (server next : ChatServer GroupInfo) (step : Visit) : Prop :=
  ∀ socket, (step = .close socket ∨ ∃ platform_id user_id session, step = .quit socket platform_id user_id session) →
    ∀ platform_id user_id other, other ≠ socket → server.Online platform_id user_id other →
      next.Online platform_id user_id other

/-- The two maps agree in every state of the run. -/
def Agreed (server : ChatServer GroupInfo) (latest : Latest) : List Visit → Prop
  | [] => Agree server latest
  | step::steps => Agree server latest ∧
      ∃ next, visit server step = some next ∧ Spares server next step ∧ Agreed next (latest.after step) steps

/-- The condition on a request: a login is to a known platform with an id that
`int` holds, on a socket where nobody else is online; a user quits on its own
socket; and the user of a socket that closes is not online on another one. -/
def Orderly (server : ChatServer GroupInfo) : Visit → Prop
  | .setPlatform _ => True
  | .login _ _ _ none _ => True
  | .login socket platform_id user_id (some _) _ =>
    (∃ pl, server.platform_cache_[platform_id]? = some pl) ∧ narrow user_id = user_id ∧
      ∀ userinfo, server.GetSocket socket = some userinfo →
        let data := server.data userinfo
        server.GetUserInfos data.platform_id data.user_id = some userinfo →
          data.platform_id = platform_id ∧ data.user_id = user_id
  | .quit socket platform_id user_id _ => ∀ userinfo, server.GetUserInfos platform_id user_id = some userinfo →
      (server.data userinfo).user_id = user_id ∧ (server.data userinfo).socket = socket
  | .close socket => ∀ userinfo, server.GetSocket socket = some userinfo →
      let data := server.data userinfo
      ∀ other, server.GetUserInfos data.platform_id data.user_id = some other → (server.data other).socket = socket

section Step
variable {server : ChatServer GroupInfo} {latest : Latest} (inv : server.registry.Inv latest)
include inv

theorem user_narrow {platform_id user_id : Int64} {userinfo : UserInfo}
    (found : server.registry.user platform_id user_id = some userinfo) : narrow user_id = user_id := by
  have known := (inv.known platform_id user_id userinfo found).1
  have fits := inv.narrow _ userinfo known
  rw [(inv.own platform_id user_id userinfo found).2] at fits
  exact fits

theorem agree : Agree server latest := by
  intro platform_id user_id socket
  constructor
  · rintro ⟨userinfo,found,_,same,rfl⟩
    rw [GetUserInfos_registry] at found
    have own := inv.own platform_id _ userinfo found
    obtain ⟨known,last⟩ := inv.known platform_id _ userinfo found
    have fits : narrow user_id = user_id := own.2.symm.trans same
    rw [fits] at last
    exact ⟨⟨userinfo,known,own.1,same⟩,last⟩
  · rintro ⟨⟨userinfo,found,rfl,rfl⟩,last⟩
    have online := inv.online socket userinfo found last
    refine ⟨userinfo,?_,rfl,rfl,inv.socket socket userinfo found⟩
    have fits : narrow (server.data userinfo).user_id = (server.data userinfo).user_id :=
      inv.narrow socket userinfo found
    rw [GetUserInfos_registry,fits]
    exact online

theorem login_inv {socket : Int32} {platform_id user_id : Int64} {row : UserRow} {chat_token : List UInt8}
    (orderly : Orderly server (.login socket platform_id user_id (some row) chat_token)) :
    (OnUserLogin server socket platform_id user_id (some row) chat_token).1.registry.Inv
      (latest.login socket platform_id user_id) := by
  obtain ⟨⟨pl,known⟩,fits,alone⟩ := orderly
  rw [login_registry server socket user_id row chat_token known]
  refine inv.enter _ fits ?_
  intro platform other userinfo online here
  have there := (inv.known platform other userinfo online).1
  obtain ⟨own_platform,own_user⟩ := inv.own platform other userinfo online
  have found : server.GetUserInfos (server.data userinfo).platform_id (server.data userinfo).user_id = some userinfo := by
    rw [GetUserInfos_registry]
    have same_user : (server.data userinfo).user_id = other := own_user
    have same_platform : (server.data userinfo).platform_id = platform := own_platform
    rw [same_user,same_platform,user_narrow inv online]
    exact online
  rw [here] at there
  have same := alone userinfo there found
  exact ⟨own_platform.symm.trans same.1,own_user.symm.trans same.2⟩

/-- What a quit and a close have in common. -/
theorem leave_step {socket : Int32} {platform_id user_id : Int64} (session : Int64)
    (there : ∀ userinfo, server.registry.socket socket = some userinfo →
      (server.data userinfo).platform_id = platform_id ∧ (server.data userinfo).user_id = user_id)
    (here : ∀ userinfo, server.registry.user platform_id user_id = some userinfo →
      (server.data userinfo).socket = socket) :
    let next := (ClearUserinfo (server.DelSocket socket) platform_id user_id session).1
    next.registry.Inv latest ∧
      ∀ platform other elsewhere, elsewhere ≠ socket → server.Online platform other elsewhere →
        next.Online platform other elsewhere := by
  intro next
  have registry : next.registry = server.registry.leave socket platform_id user_id := clear_registry ..
  refine ⟨?_,?_⟩
  · rw [registry]
    exact inv.leave there here
  · rintro platform other elsewhere apart ⟨userinfo,found,own_platform,own_user,on_socket⟩
    have data : next.data = server.data := congrArg Registry.data registry
    refine ⟨userinfo,?_,?_⟩
    · rw [GetUserInfos_registry] at found ⊢
      rw [registry]
      refine (if_neg ?_).trans found
      rintro ⟨same_platform,same_user⟩
      rw [same_platform,same_user] at found
      have on := here userinfo found
      rw [on_socket] at on
      exact apart on
    · rw [data]
      exact ⟨own_platform,own_user,on_socket⟩

theorem visit_step {step : Visit} (orderly : Orderly server step) :
    ∃ next, visit server step = some next ∧ next.registry.Inv (latest.after step) ∧ Spares server next step := by
  cases step with
  | setPlatform platform_id =>
    refine ⟨_,rfl,?_,?_⟩
    · rw [setPlatform_registry]
      exact inv
    · rintro socket (absurd | ⟨_,_,_,absurd⟩) <;> exact Visit.noConfusion absurd
  | login socket platform_id user_id row chat_token =>
    cases row with
    | none =>
      refine ⟨_,rfl,inv,?_⟩
      rintro other (absurd | ⟨_,_,_,absurd⟩) <;> exact Visit.noConfusion absurd
    | some row =>
      refine ⟨_,rfl,login_inv inv orderly,?_⟩
      rintro other (absurd | ⟨_,_,_,absurd⟩) <;> exact Visit.noConfusion absurd
  | quit socket platform_id user_id session =>
    simp only [visit,OnUserQuit]
    cases found : server.GetUserInfos platform_id user_id with
    | none => exact ⟨server,rfl,inv,fun _ _ _ _ _ _ online => online⟩
    | some userinfo =>
      obtain ⟨same,on_socket⟩ := orderly userinfo found
      rw [GetUserInfos_registry] at found
      have own := inv.own platform_id _ userinfo found
      have fits : narrow user_id = user_id := own.2.symm.trans same
      rw [fits] at found
      have known : server.registry.socket (server.data userinfo).socket = some userinfo :=
        (inv.known platform_id user_id userinfo found).1
      rw [on_socket] at known
      obtain ⟨inv',spares⟩ := @leave_step _ _ _ inv socket platform_id user_id session
        (by
          intro other there
          rw [known] at there
          cases there
          exact ⟨own.1,same⟩)
        (by
          intro other here
          rw [found] at here
          cases here
          exact on_socket)
      refine ⟨_,rfl,inv',?_⟩
      rintro other (absurd | ⟨_,_,_,same⟩)
      · exact Visit.noConfusion absurd
      · cases same
        exact spares
  | close socket =>
    simp only [visit,OnAberrant]
    cases found : server.GetSocket socket with
    | none => exact ⟨server,rfl,inv,fun _ _ _ _ _ _ online => online⟩
    | some userinfo =>
      have fits : narrow (server.data userinfo).user_id = (server.data userinfo).user_id :=
        inv.narrow socket userinfo found
      obtain ⟨inv',spares⟩ := @leave_step _ _ _ inv socket (server.data userinfo).platform_id
        (server.data userinfo).user_id (server.data userinfo).session
        (by
          intro other there
          have equal : some other = some userinfo := there.symm.trans found
          cases equal
          exact ⟨rfl,rfl⟩)
        (by
          intro other here
          refine orderly userinfo found other ?_
          rw [GetUserInfos_registry,fits]
          exact here)
      refine ⟨_,rfl,inv',?_⟩
      rintro other (same | ⟨_,_,_,absurd⟩)
      · cases same
        exact spares
      · exact Visit.noConfusion absurd

theorem agreed_from {steps : List Visit} (orderly : Along visit Orderly server steps) : Agreed server latest steps := by
  induction steps generalizing server latest with
  | nil => exact agree inv
  | cons step steps ih =>
    obtain ⟨next,outcome,inv',spares⟩ := visit_step inv orderly.1
    exact ⟨agree inv,next,outcome,spares,ih inv' (orderly.2 next outcome)⟩

end Step

/-- A server without users. -/
def ChatServer.start (data : UserInfo → Data) : ChatServer GroupInfo := ⟨∅,fun _ => none,data,0⟩

theorem start_user (data : UserInfo → Data) (platform_id user_id : Int64) :
    (ChatServer.start data : ChatServer GroupInfo).registry.user platform_id user_id = none := by
  simp only [ChatServer.registry,ChatServer.start,Std.ExtTreeMap.getElem?_empty,Option.bind_none]

theorem start_registry (data : UserInfo → Data) :
    (ChatServer.start data : ChatServer GroupInfo).registry.Inv fun _ _ => none := by
  have nobody {platform_id user_id : Int64} {userinfo : UserInfo}
      (found : (ChatServer.start data : ChatServer GroupInfo).registry.user platform_id user_id = some userinfo) :
      False := by
    rw [start_user] at found
    exact absurd found (by simp)
  have nowhere {socket : Int32} {userinfo : UserInfo}
      (found : (ChatServer.start data : ChatServer GroupInfo).registry.socket socket = some userinfo) : False :=
    absurd found (by simp [ChatServer.registry,ChatServer.start])
  exact ⟨fun _ _ _ found => (nobody found).elim,fun _ _ found => (nowhere found).elim,
    fun _ _ _ found => (nobody found).elim,fun _ _ _ found => (nobody found).elim,
    fun _ _ found => (nowhere found).elim,fun _ _ found => (nowhere found).elim,
    fun _ _ found => (nowhere found).elim⟩

/-- In every run of orderly requests the user map and the socket map agree. -/
theorem agreed (data : UserInfo → Data) (steps : List Visit)
    (orderly : Along visit Orderly (ChatServer.start data : ChatServer GroupInfo) steps) :
    Agreed (ChatServer.start data : ChatServer GroupInfo) (fun _ _ => none) steps :=
  agreed_from (start_registry data) orderly

end Handlers

def noData : Data := ⟨0,0,0,[],[],0,0,[]⟩

/-- A user logs in and quits. -/
def shortVisits : List Visit := [.setPlatform 10000,.login 5 10000 7 (some ⟨7,[],[]⟩) [],.quit 5 10000 7 0]

theorem short_agreed :
    Agreed (ChatServer.start fun _ => noData : ChatServer Unit) (fun _ _ => none) shortVisits := by
  apply agreed
  refine ⟨trivial,?_⟩
  rintro _ ⟨⟩
  refine ⟨⟨⟨_,rfl⟩,by decide,fun _ found => absurd found (by simp [ChatServer.GetSocket,ChatServer.start])⟩,?_⟩
  rintro _ ⟨⟩
  refine ⟨?_,fun _ _ => trivial⟩
  rintro _ ⟨⟩
  exact ⟨rfl,rfl⟩

/-- A user logs in again on another socket, and then the first one closes. -/
def lateVisits : List Visit :=
  [.setPlatform 10000,.login 5 10000 7 (some ⟨7,[],[]⟩) [],.login 6 10000 7 (some ⟨7,[],[]⟩) [],.close 5]

theorem late_disagreed :
    ¬Agreed (ChatServer.start fun _ => noData : ChatServer Unit) (fun _ _ => none) lateVisits := by
  rintro ⟨_,_,⟨⟩,_,_,_,⟨⟩,_,_,_,⟨⟩,_,_,_,⟨⟩,_,agree⟩
  obtain ⟨userinfo,found,_⟩ := (agree 10000 7 6).mpr ⟨⟨1,rfl,rfl,rfl⟩,rfl⟩
  cases found

end Migfm.Chat
