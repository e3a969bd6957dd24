import Migfm.Chat.CacheLaw
import Migfm.Chat.Registry

/-! Two users who ask for each other, among requests of others. A request takes
several operations of the manager, and between two of them others run. The two
meet in every run in which neither looks for an offer while the other one is
about to make it, and nobody else clears a pending offer to one of them, starts a
session under the id of theirs or passes for one of them. -/
namespace Migfm.Chat
open Basic Library.Runs

section Views
variable {GroupInfo : Type} (server : ChatServer GroupInfo)

/-- The session that `mid` offers to `tid`. -/
def ChatServer.offer (platform_id tid mid : Int64) : Option Int64 :=
  (server.platform_cache_[platform_id]?).bind fun pl =>
    (pl.leave_infos_map_[tid]?).bind fun session_infos => session_infos[mid]?

def ChatServer.meeting (platform_id session : Int64) : Option MeetingSession :=
  (server.platform_cache_[platform_id]?).bind fun pl => pl.meeting_infos_map_[session]?

theorem IsExitsLeaveInfos_offer (platform_id tid : Int64) {mid : Int64} (fits : narrow mid = mid) :
    server.IsExitsLeaveInfos platform_id tid mid = server.offer platform_id mid tid := by
  simp only [ChatServer.IsExitsLeaveInfos,PlatformCache.IsExitsLeaveInfos,MapGetInt,MapGet,fits,Option.bind_eq_bind]
  rfl

/-- What an operation on a platform does to something that is read there. -/
theorem onPlatform_read {Value : Type} (platform_id other : Int64)
    (operation : PlatformCache UserInfo GroupInfo → PlatformCache UserInfo GroupInfo)
    (read : PlatformCache UserInfo GroupInfo → Option Value) :
    ((server.onPlatform platform_id operation).platform_cache_[other]?).bind read =
      if other = platform_id then (server.platform_cache_[other]?).bind fun pl => read (operation pl)
      else (server.platform_cache_[other]?).bind read := by
  rw [onPlatform_cache]
  by_cases same : other = platform_id
  · rw [if_pos same,if_pos same,Option.bind_map]
    rfl
  · rw [if_neg same,if_neg same]

theorem onPlatform_kept {Value : Type} (platform_id other : Int64)
    {operation : PlatformCache UserInfo GroupInfo → PlatformCache UserInfo GroupInfo}
    {read : PlatformCache UserInfo GroupInfo → Option Value} (kept : ∀ pl, read (operation pl) = read pl) :
    ((server.onPlatform platform_id operation).platform_cache_[other]?).bind read =
      (server.platform_cache_[other]?).bind read := by
  rw [onPlatform_read]
  split
  · exact congrArg _ (funext kept)
  · rfl

theorem AddLeaveInfos_offer (platform_id session tid mid platform : Int64) {reader : Int64} (other : Int64)
    (fits : narrow reader = reader) :
    (server.onPlatform platform_id (·.AddLeaveInfos session tid mid)).offer platform reader other =
      if platform = platform_id ∧ reader = tid ∧ other = mid then (server.platform_cache_[platform]?).map fun _ => session
      else server.offer platform reader other := by
  have added (pl : PlatformCache UserInfo GroupInfo) :
      ((pl.AddLeaveInfos session tid mid).leave_infos_map_[reader]?).bind (fun session_infos => session_infos[other]?) =
        if reader = tid ∧ other = mid then some session
        else (pl.leave_infos_map_[reader]?).bind fun session_infos => session_infos[other]? := by
    simp only [PlatformCache.AddLeaveInfos,MapAdd_get]
    by_cases same : reader = tid
    · subst same
      have inserted := MapAdd_get ((pl.leave_infos_map_[reader]?).getD ∅) mid other session
      rw [MapAdd] at inserted
      simp only [if_true,Option.bind_some,MapGetInt,fits,inserted,true_and]
      split
      · rfl
      · cases pl.leave_infos_map_[reader]? with
        | none => exact Std.ExtTreeMap.getElem?_empty
        | some session_infos => rfl
    · simp only [same,if_false,false_and]
  unfold ChatServer.offer
  rw [onPlatform_read]
  simp only [added]
  by_cases here : platform = platform_id
  · by_cases same : reader = tid ∧ other = mid
    · simp only [here,same.1,same.2,and_self,if_true]
      cases server.platform_cache_[platform_id]? <;> rfl
    · simp only [here,same,true_and,if_true,if_false]
  · simp only [here,false_and,if_false]

theorem ClearLeaveInfos_offer (platform_id tid platform reader other : Int64) :
    (server.onPlatform platform_id fun pl => (pl.ClearLeaveInfos tid).1).offer platform reader other =
      if platform = platform_id ∧ reader = tid then none else server.offer platform reader other := by
  have erased (pl : PlatformCache UserInfo GroupInfo) : (pl.ClearLeaveInfos tid).1.leave_infos_map_[reader]? =
      if reader = tid then none else pl.leave_infos_map_[reader]? := MapDel_get ..
  unfold ChatServer.offer
  rw [onPlatform_read]
  simp only [erased]
  by_cases here : platform = platform_id
  · by_cases same : reader = tid
    · simp only [here,same,and_self,if_true,Option.bind_none]
      cases server.platform_cache_[platform_id]? <;> rfl
    · simp only [here,same,and_false,if_true,if_false]
  · simp only [here,false_and,if_false]

theorem AddMeetingPair_meeting (platform_id session tid mid platform other : Int64) :
    (server.onPlatform platform_id (·.AddMeetingPair session tid mid)).meeting platform other =
      if platform = platform_id ∧ other = session then
        (server.platform_cache_[platform]?).map fun _ => ((∅ : MeetingSession).insert tid tid).insert mid mid
      else server.meeting platform other := by
  have added (pl : PlatformCache UserInfo GroupInfo) : (pl.AddMeetingPair session tid mid).meeting_infos_map_[other]? =
      if other = session then some (((∅ : MeetingSession).insert tid tid).insert mid mid)
      else pl.meeting_infos_map_[other]? := MapAdd_get ..
  unfold ChatServer.meeting
  rw [onPlatform_read]
  simp only [added]
  by_cases here : platform = platform_id
  · by_cases same : other = session
    · simp only [here,same,and_self,if_true]
      cases server.platform_cache_[platform_id]? <;> rfl
    · simp only [here,same,and_false,if_true,if_false]
  · simp only [here,false_and,if_false]

/-- No `Data` gets another owner. -/
structure ChatServer.Grows (server next : ChatServer GroupInfo) : Prop where
  fresh : server.fresh ≤ next.fresh
  ids : ∀ userinfo, userinfo < server.fresh → (next.data userinfo).platform_id = (server.data userinfo).platform_id ∧
    (next.data userinfo).user_id = (server.data userinfo).user_id

theorem ChatServer.Grows.refl : server.Grows server := ⟨Nat.le_refl _,fun _ _ => ⟨rfl,rfl⟩⟩

theorem onPlatform_data (platform_id : Int64)
    (operation : PlatformCache UserInfo GroupInfo → PlatformCache UserInfo GroupInfo) :
    (server.onPlatform platform_id operation).data = server.data := by
  unfold ChatServer.onPlatform
  split <;> rfl

theorem onPlatform_fresh (platform_id : Int64)
    (operation : PlatformCache UserInfo GroupInfo → PlatformCache UserInfo GroupInfo) :
    (server.onPlatform platform_id operation).fresh = server.fresh := by
  unfold ChatServer.onPlatform
  split <;> rfl

theorem onPlatform_grows (platform_id : Int64)
    (operation : PlatformCache UserInfo GroupInfo → PlatformCache UserInfo GroupInfo) :
    server.Grows (server.onPlatform platform_id operation) := by
  refine ⟨(onPlatform_fresh ..).ge,?_⟩
  intro userinfo _
  rw [onPlatform_data]
  exact ⟨rfl,rfl⟩

theorem newUserInfo_data (platform_id user_id : Int64) (socket : Int32) (row : UserRow) (chat_token : List UInt8)
    {userinfo : UserInfo} (old : userinfo < server.fresh) :
    (server.newUserInfo platform_id user_id socket row chat_token).1.data userinfo = server.data userinfo :=
  Function.update_of_ne (Nat.ne_of_lt old) ..

theorem newUserInfo_grows (platform_id user_id : Int64) (socket : Int32) (row : UserRow) (chat_token : List UInt8) :
    server.Grows (server.newUserInfo platform_id user_id socket row chat_token).1 := by
  refine ⟨Nat.le_succ _,?_⟩
  intro userinfo old
  rw [newUserInfo_data _ _ _ _ _ _ old]
  exact ⟨rfl,rfl⟩

theorem SetSession_data (userinfo other : UserInfo) (session : Int64) :
    (server.SetSession userinfo session).data other =
      if other = userinfo then {server.data userinfo with session} else server.data other :=
  Function.update_apply ..

theorem SetSession_grows (userinfo : UserInfo) (session : Int64) : server.Grows (server.SetSession userinfo session) := by
  refine ⟨Nat.le_refl _,?_⟩
  intro other _
  rw [SetSession_data]
  split
  · rename_i same
    rw [same]
    exact ⟨rfl,rfl⟩
  · exact ⟨rfl,rfl⟩

end Views

/-! ### What one step of a request does to the server -/

section Effect
variable {GroupInfo : Type}

inductive Effect (server : ChatServer GroupInfo) (request : InfoRequest) (place : Place) : ChatServer GroupInfo → Prop
  | looked : Effect server request place server
  | fetched (row : UserRow) :
    Effect server request place (server.newUserInfo request.platform_id request.oppinfo_id 0 row []).1
  | offered (infos : Infos) (random : Int64) (here : place = .offering infos) :
    Effect server request place
      (server.onPlatform request.platform_id (·.AddLeaveInfos random request.oppinfo_id request.user_id))
  | recorded (infos : Infos) (session : Int64) (here : place = .offered infos session ∨ place = .matched infos session) :
    Effect server request place (server.SetSession infos.userinfo session)
  | cleared (infos : Infos) (session : Int64) (here : place = .marked infos session) :
    Effect server request place
      (server.onPlatform request.platform_id fun pl => (pl.ClearLeaveInfos request.oppinfo_id).1)
  | met (infos : Infos) (session : Int64) (here : place = .cleared infos session) :
    Effect server request place
      (server.onPlatform request.platform_id (·.AddMeetingPair session request.oppinfo_id request.user_id))

theorem OnGetUserInfo_effect {server next : ChatServer GroupInfo} {request : InfoRequest} {chance : Chance}
    {place place' : Place} (outcome : OnGetUserInfo server request chance place = some (next,place')) :
    Effect server request place next := by
  cases place with
  | begin =>
    simp only [OnGetUserInfo] at outcome
    split at outcome
    · cases outcome
      exact .looked
    · split at outcome
      · cases outcome
        exact .looked
      · cases outcome
        exact .fetched _
  | opponent | selecting =>
    simp only [OnGetUserInfo] at outcome
    split at outcome
    · cases outcome
      exact .looked
    · cases outcome
      exact .looked
  | offering infos =>
    cases outcome
    exact .offered infos _ rfl
  | offered infos session =>
    cases outcome
    exact .recorded infos session (.inl rfl)
  | matched infos session =>
    cases outcome
    exact .recorded infos session (.inr rfl)
  | marked infos session =>
    cases outcome
    exact .cleared infos session rfl
  | cleared infos session =>
    cases outcome
    exact .met infos session rfl
  | ready =>
    cases outcome
    exact .looked
  | answered => cases outcome

variable {server next : ChatServer GroupInfo} {request : InfoRequest} {place : Place}
  (effect : Effect server request place next)
include effect

theorem Effect.user : next.registry.user = server.registry.user := by
  cases effect with
  | looked | fetched | recorded => rfl
  | offered | cleared | met =>
    funext platform other
    exact onPlatform_kept _ _ _ fun _ => rfl

theorem Effect.offer {platform_id tid mid : Int64} (fits : narrow tid = tid)
    (foreign : request.platform_id = platform_id → request.user_id ≠ mid) :
    next.offer platform_id tid mid = server.offer platform_id tid mid ∨
      (∃ infos session, place = .marked infos session) ∧ request.platform_id = platform_id ∧
        request.oppinfo_id = tid ∧ next.offer platform_id tid mid = none := by
  cases effect with
  | looked | fetched | recorded => exact .inl rfl
  | offered infos random =>
    left
    rw [AddLeaveInfos_offer _ _ _ _ _ _ _ fits,if_neg]
    rintro ⟨platform,_,same⟩
    exact foreign platform.symm same.symm
  | cleared infos session here =>
    rw [ClearLeaveInfos_offer]
    split
    · rename_i same
      exact .inr ⟨⟨infos,session,here⟩,same.1.symm,same.2.symm,rfl⟩
    · exact .inl rfl
  | met => exact .inl (onPlatform_kept _ _ _ fun _ => rfl)

theorem Effect.meeting (platform_id session : Int64) :
    next.meeting platform_id session = server.meeting platform_id session ∨
      (∃ infos, place = .cleared infos session) ∧ request.platform_id = platform_id := by
  cases effect with
  | looked | fetched | recorded => exact .inl rfl
  | offered | cleared => exact .inl (onPlatform_kept _ _ _ fun _ => rfl)
  | met infos session here =>
    rw [AddMeetingPair_meeting]
    split
    · rename_i same
      refine .inr ⟨⟨infos,?_⟩,same.1.symm⟩
      rw [here,same.2]
    · exact .inl rfl

theorem Effect.grows : server.Grows next := by
  cases effect with
  | looked => exact .refl server
  | fetched row => exact newUserInfo_grows ..
  | offered | cleared | met => exact onPlatform_grows ..
  | recorded infos session => exact SetSession_grows ..

theorem Effect.session {userinfo : UserInfo} (old : userinfo < server.fresh) :
    (next.data userinfo).session = (server.data userinfo).session ∨
      ∃ infos session, (place = .offered infos session ∨ place = .matched infos session) ∧ infos.userinfo = userinfo := by
  cases effect with
  | looked => exact .inl rfl
  | fetched row =>
    rw [newUserInfo_data _ _ _ _ _ _ old]
    exact .inl rfl
  | offered | cleared | met =>
    left
    rw [onPlatform_data]
  | recorded infos session here =>
    by_cases same : infos.userinfo = userinfo
    · exact .inr ⟨infos,session,here,same⟩
    · left
      rw [SetSession_data,if_neg (Ne.symm same)]

end Effect

/-! ### Reachable states -/

section Reachable
variable {GroupInfo : Type}

/-- The server with the requests it handles. -/
structure Handling (GroupInfo : Type) where
  server : ChatServer GroupInfo
  place : Nat → Place

def Handling.step (requests : Nat → InfoRequest) (handling : Handling GroupInfo) (event : Nat × Chance) :
    Option (Handling GroupInfo) :=
  (OnGetUserInfo handling.server (requests event.1) event.2 (handling.place event.1)).map fun (server,place) =>
    {server, place := Function.update handling.place event.1 place}

/-- What the other handlers do: group requests, messages and confirmations
neither bring a user nor take one away. -/
structure Quiet (server next : ChatServer GroupInfo) : Prop where
  user : next.registry.user = server.registry.user
  grows : server.Grows next

inductive Reachable (requests : Nat → InfoRequest) : Handling GroupInfo → Prop
  | start (data : UserInfo → Data) : Reachable requests ⟨.start data,fun _ => .begin⟩
  | visit {handling : Handling GroupInfo} (visitor : Visit) {server : ChatServer GroupInfo}
    (before : Reachable requests handling) (outcome : visit handling.server visitor = some server) :
    Reachable requests {handling with server}
  | quiet {handling : Handling GroupInfo} {server : ChatServer GroupInfo} (before : Reachable requests handling)
    (quiet : Quiet handling.server server) : Reachable requests {handling with server}
  | step {handling next : Handling GroupInfo} (event : Nat × Chance) (before : Reachable requests handling)
    (outcome : handling.step requests event = some next) : Reachable requests next

theorem Reachable.visits {requests : Nat → InfoRequest} {server next : ChatServer GroupInfo} {place : Nat → Place}
    (reachable : Reachable requests ⟨server,place⟩) (visitors : List Visit)
    (outcome : run Chat.visit server visitors = some next) : Reachable requests ⟨next,place⟩ := by
  induction visitors generalizing server with
  | nil =>
    cases outcome
    exact reachable
  | cons visitor visitors ih =>
    obtain ⟨between,first,rest⟩ := Option.bind_eq_some_iff.mp outcome
    exact ih (reachable.visit visitor first) rest

theorem Reachable.steps {requests : Nat → InfoRequest} {handling next : Handling GroupInfo}
    (reachable : Reachable requests handling) (events : List (Nat × Chance))
    (outcome : run (Handling.step requests) handling events = some next) : Reachable requests next := by
  induction events generalizing handling with
  | nil =>
    cases outcome
    exact reachable
  | cons event events ih =>
    obtain ⟨between,first,rest⟩ := Option.bind_eq_some_iff.mp outcome
    exact ih (reachable.step event first) rest

/-- Users are stored under their own ids. -/
def Owned (server : ChatServer GroupInfo) : Prop :=
  ∀ platform_id user_id userinfo, server.registry.user platform_id user_id = some userinfo →
    userinfo < server.fresh ∧ (server.data userinfo).platform_id = platform_id ∧
      (server.data userinfo).user_id = user_id

theorem Owned.keep {server next : ChatServer GroupInfo} (owned : Owned server) (grows : server.Grows next)
    (users : ∀ platform_id user_id userinfo, next.registry.user platform_id user_id = some userinfo →
      server.registry.user platform_id user_id = some userinfo) : Owned next := by
  intro platform_id user_id userinfo found
  obtain ⟨old,own_platform,own_user⟩ := owned platform_id user_id userinfo (users platform_id user_id userinfo found)
  obtain ⟨same_platform,same_user⟩ := grows.ids userinfo old
  exact ⟨Nat.lt_of_lt_of_le old grows.fresh,same_platform.trans own_platform,same_user.trans own_user⟩

theorem login_user {server : ChatServer GroupInfo} {socket : Int32} {platform_id user_id : Int64} {row : UserRow}
    {chat_token : List UInt8} {platform other : Int64} {userinfo : UserInfo}
    (found : (OnUserLogin server socket platform_id user_id (some row) chat_token).1.registry.user platform other =
      some userinfo) :
    (platform = platform_id ∧ other = user_id ∧ userinfo = server.fresh) ∨
      server.registry.user platform other = some userinfo := by
  have read := onPlatform_read (server.newUserInfo platform_id user_id socket row chat_token).1 platform_id platform
    (·.AddUserInfos user_id server.fresh) fun pl => pl.user_infos_map_[other]?
  have found := read.symm.trans found
  by_cases here : platform = platform_id
  · rw [if_pos here] at found
    obtain ⟨pl,known,stored⟩ := Option.bind_eq_some_iff.mp found
    rw [PlatformCache.AddUserInfos,MapAdd_get] at stored
    by_cases same : other = user_id
    · rw [if_pos same] at stored
      exact .inl ⟨here,same,(Option.some.inj stored).symm⟩
    · rw [if_neg same] at stored
      exact .inr (Option.bind_eq_some_iff.mpr ⟨pl,known,stored⟩)
  · rw [if_neg here] at found
    exact .inr found

theorem login_data (server : ChatServer GroupInfo) (socket : Int32) (platform_id user_id : Int64) (row : UserRow)
    (chat_token : List UInt8) :
    (OnUserLogin server socket platform_id user_id (some row) chat_token).1.data =
      (server.newUserInfo platform_id user_id socket row chat_token).1.data :=
  onPlatform_data ..

theorem login_fresh (server : ChatServer GroupInfo) (socket : Int32) (platform_id user_id : Int64) (row : UserRow)
    (chat_token : List UInt8) :
    (OnUserLogin server socket platform_id user_id (some row) chat_token).1.fresh = server.fresh + 1 :=
  onPlatform_fresh ..

theorem login_owned {server : ChatServer GroupInfo} (owned : Owned server) (socket : Int32) (platform_id user_id : Int64)
    (row : UserRow) (chat_token : List UInt8) :
    Owned (OnUserLogin server socket platform_id user_id (some row) chat_token).1 := by
  intro platform other userinfo found
  rw [login_data,login_fresh]
  rcases login_user found with ⟨rfl,rfl,rfl⟩ | before
  · simp only [ChatServer.newUserInfo,Function.update_self,and_self,and_true]
    exact Nat.lt_succ_self _
  · obtain ⟨old,own⟩ := owned platform other userinfo before
    rw [newUserInfo_data _ _ _ _ _ _ old]
    exact ⟨Nat.lt_succ_of_lt old,own⟩

theorem clear_owned {server : ChatServer GroupInfo} (owned : Owned server) (platform_id user_id session : Int64) :
    Owned (ClearUserinfo server platform_id user_id session).1 := by
  have registry := clear_registry server platform_id user_id session
  have data : (ClearUserinfo server platform_id user_id session).1.data = server.data := congrArg Registry.data registry
  have fresh : (ClearUserinfo server platform_id user_id session).1.fresh = server.fresh :=
    congrArg Registry.fresh registry
  intro platform other userinfo found
  rw [registry] at found
  rw [data,fresh]
  simp only at found
  split at found
  · cases found
  · exact owned platform other userinfo found

theorem visit_owned {server next : ChatServer GroupInfo} (owned : Owned server) {visitor : Visit}
    (outcome : visit server visitor = some next) : Owned next := by
  cases visitor with
  | setPlatform platform_id =>
    cases outcome
    intro platform user_id userinfo found
    rw [setPlatform_registry] at found
    exact owned platform user_id userinfo found
  | login socket platform_id user_id row chat_token =>
    cases outcome
    cases row with
    | none => exact owned
    | some row => exact login_owned owned socket platform_id user_id row chat_token
  | quit socket platform_id user_id session =>
    cases outcome
    unfold OnUserQuit
    have dropped : Owned (server.DelSocket socket) := owned
    split
    · exact owned
    · exact clear_owned dropped _ _ _
  | close socket =>
    cases outcome
    unfold OnAberrant
    have dropped : Owned (server.DelSocket socket) := owned
    split
    · exact owned
    · exact clear_owned dropped _ _ _

theorem step_effect {requests : Nat → InfoRequest} {handling next : Handling GroupInfo} {event : Nat × Chance}
    (outcome : handling.step requests event = some next) :
    Effect handling.server (requests event.1) (handling.place event.1) next.server ∧
      ∀ thread, thread ≠ event.1 → next.place thread = handling.place thread := by
  obtain ⟨⟨server,place⟩,handled,rfl⟩ := Option.map_eq_some_iff.mp outcome
  exact ⟨OnGetUserInfo_effect handled,fun thread apart => Function.update_of_ne apart ..⟩

theorem Reachable.owned {requests : Nat → InfoRequest} {handling : Handling GroupInfo}
    (reachable : Reachable requests handling) : Owned handling.server := by
  induction reachable with
  | start data =>
    intro platform_id user_id userinfo found
    rw [start_user] at found
    exact absurd found (by simp)
  | visit visitor _ outcome owned => exact visit_owned owned outcome
  | quiet _ quiet owned => exact owned.keep quiet.grows fun _ _ _ found => quiet.user ▸ found
  | step event _ outcome owned =>
    have effect := (step_effect outcome).1
    exact owned.keep effect.grows fun _ _ _ found => effect.user ▸ found

end Reachable

/-! ### The pair -/

/-- Two users and their requests. -/
structure Pair where
  platform_id : Int64
  user_id : Int64
  oppinfo_id : Int64
  one : Nat
  two : Nat

def Pair.swap (pair : Pair) : Pair := ⟨pair.platform_id,pair.oppinfo_id,pair.user_id,pair.two,pair.one⟩

def InfoRequest.Asks (request : InfoRequest) (platform_id user_id oppinfo_id : Int64) : Prop :=
  request.platform_id = platform_id ∧ request.user_id = user_id ∧ request.oppinfo_id = oppinfo_id

/-- The request has not looked for an offer yet. -/
def Place.Early : Place → Prop
  | .begin | .opponent _ | .selecting _ => True
  | _ => False

/-- The message tells this session. -/
def Tells (message : Option Body) (session : Int64) : Prop :=
  ∃ info, message = some (.oppositionInfo info) ∧ info.session = session

section Pair
variable {GroupInfo : Type}

/-- The members of the session are this user and this opponent. -/
def ChatServer.Meets (server : ChatServer GroupInfo) (pair : Pair) (session : Int64) : Prop :=
  ∃ meeting, server.meeting pair.platform_id session = some meeting ∧ Members meeting {pair.user_id,pair.oppinfo_id}

/-- The session recorded for a user. -/
def ChatServer.recorded (server : ChatServer GroupInfo) (platform_id user_id : Int64) : Option Int64 :=
  (server.GetUserInfos platform_id user_id).map fun userinfo => (server.data userinfo).session

/-- The two users are online, without an offer or a session between them, each
about to ask for the other one; other requests of them are answered. -/
structure Ready (requests : Nat → InfoRequest) (pair : Pair) (handling : Handling GroupInfo) : Prop where
  reachable : Reachable requests handling
  users : pair.user_id ≠ pair.oppinfo_id
  threads : pair.one ≠ pair.two
  asks : (requests pair.one).Asks pair.platform_id pair.user_id pair.oppinfo_id
  asks' : (requests pair.two).Asks pair.platform_id pair.oppinfo_id pair.user_id
  begins : handling.place pair.one = .begin
  begins' : handling.place pair.two = .begin
  others : ∀ thread, thread ≠ pair.one → thread ≠ pair.two → (requests thread).platform_id = pair.platform_id →
    (requests thread).user_id = pair.user_id ∨ (requests thread).user_id = pair.oppinfo_id →
      ∃ message, handling.place thread = .answered message
  online : ∃ socket, handling.server.Online pair.platform_id pair.user_id socket
  online' : ∃ socket, handling.server.Online pair.platform_id pair.oppinfo_id socket
  unoffered : handling.server.offer pair.platform_id pair.user_id pair.oppinfo_id = none
  unoffered' : handling.server.offer pair.platform_id pair.oppinfo_id pair.user_id = none
  parted : ∀ session, ¬handling.server.Meets pair session

/-- Once both are answered, both replies carry the session that is recorded for
both users and has them as its members. -/
def Rendezvous (requests : Nat → InfoRequest) (pair : Pair) (handling : Handling GroupInfo)
    (events : List (Nat × Chance)) : Prop :=
  ∀ final, run (Handling.step requests) handling events = some final → ∀ message message',
    final.place pair.one = .answered message → final.place pair.two = .answered message' →
      ∃ session, Tells message session ∧ Tells message' session ∧
        final.server.recorded pair.platform_id pair.user_id = some session ∧
        final.server.recorded pair.platform_id pair.oppinfo_id = some session ∧ final.server.Meets pair session

/-- The step is none that hurts the first user. -/
def Heeds (requests : Nat → InfoRequest) (pair : Pair) (handling : Handling GroupInfo) (event : Nat × Chance) : Prop :=
  let request := requests event.1
  if event.1 = pair.one then
    ∀ infos other, handling.place pair.one = .selecting infos → handling.place pair.two ≠ .offering other
  else if event.1 = pair.two then True
  else match handling.place event.1 with
    | .offered infos _ | .matched infos _ =>
      let data := handling.server.data infos.userinfo
      data.platform_id = pair.platform_id → data.user_id ≠ pair.user_id
    | .marked _ _ => request.platform_id = pair.platform_id → request.oppinfo_id = pair.user_id →
      (handling.place pair.one).Early → handling.server.offer pair.platform_id pair.user_id pair.oppinfo_id = none
    | .cleared _ session => request.platform_id = pair.platform_id → ¬handling.server.Meets pair session
    | _ => True

/-- The condition on a step. A user of the pair does not look for an offer while
the other one is about to make it. Nobody else records a session for one of them,
clears an offer that one of them has still to look for, or starts a session under
the id of theirs. -/
def Undisturbed (requests : Nat → InfoRequest) (pair : Pair) (handling : Handling GroupInfo) (event : Nat × Chance) :
    Prop :=
  Heeds requests pair handling event ∧ Heeds requests pair.swap handling event

theorem Meets_swap (server : ChatServer GroupInfo) (pair : Pair) (session : Int64) :
    server.Meets pair.swap session ↔ server.Meets pair session := by
  unfold ChatServer.Meets
  rw [Pair.swap,Finset.pair_comm]

theorem Heeds.look {requests : Nat → InfoRequest} {pair : Pair} {handling : Handling GroupInfo} {event : Nat × Chance}
    (heeds : Heeds requests pair handling event) (own : event.1 = pair.one) {infos other : Infos}
    (looks : handling.place pair.one = .selecting infos) : handling.place pair.two ≠ .offering other := by
  unfold Heeds at heeds
  simp only [if_pos own] at heeds
  exact heeds infos other looks

/-! ### The invariant -/

/-- What does not change while the requests are handled. -/
structure Setting (requests : Nat → InfoRequest) (pair : Pair) (handling : Handling GroupInfo)
    (userinfo oppinfo : UserInfo) : Prop where
  users : pair.user_id ≠ pair.oppinfo_id
  threads : pair.one ≠ pair.two
  asks : (requests pair.one).Asks pair.platform_id pair.user_id pair.oppinfo_id
  asks' : (requests pair.two).Asks pair.platform_id pair.oppinfo_id pair.user_id
  others : ∀ thread, thread ≠ pair.one → thread ≠ pair.two → (requests thread).platform_id = pair.platform_id →
    (requests thread).user_id = pair.user_id ∨ (requests thread).user_id = pair.oppinfo_id →
      ∃ message, handling.place thread = .answered message
  owned : Owned handling.server
  user : handling.server.registry.user pair.platform_id pair.user_id = some userinfo
  user' : handling.server.registry.user pair.platform_id pair.oppinfo_id = some oppinfo
  fits : narrow pair.user_id = pair.user_id
  fits' : narrow pair.oppinfo_id = pair.oppinfo_id

def Place.EarlyOf (userinfo : UserInfo) : Place → Prop
  | .begin | .opponent _ => True
  | .selecting infos => infos.userinfo = userinfo
  | _ => False

/-- The one who makes the offer. -/
def Place.Offerer (server : ChatServer GroupInfo) (session : Int64) (userinfo : UserInfo) : Place → Prop
  | .offered infos own => infos.userinfo = userinfo ∧ own = session
  | .ready infos own => infos.userinfo = userinfo ∧ own = session ∧ (server.data userinfo).session = session
  | .answered message => Tells message session ∧ (server.data userinfo).session = session
  | _ => False

/-- The one who finds it. -/
def Place.Taker (server : ChatServer GroupInfo) (pair : Pair) (session : Int64) (userinfo : UserInfo) : Place → Prop
  | .matched infos own => infos.userinfo = userinfo ∧ own = session
  | .marked infos own | .cleared infos own =>
    infos.userinfo = userinfo ∧ own = session ∧ (server.data userinfo).session = session
  | .ready infos own =>
    infos.userinfo = userinfo ∧ own = session ∧ (server.data userinfo).session = session ∧ server.Meets pair session
  | .answered message => Tells message session ∧ (server.data userinfo).session = session ∧ server.Meets pair session
  | _ => False

/-- How far the two are, if the first one makes the offer. -/
inductive Stage (pair : Pair) (handling : Handling GroupInfo) (userinfo oppinfo : UserInfo) : Prop
  | apart (one : (handling.place pair.one).EarlyOf userinfo) (two : (handling.place pair.two).EarlyOf oppinfo)
    (unoffered : handling.server.offer pair.platform_id pair.user_id pair.oppinfo_id = none)
    (unoffered' : handling.server.offer pair.platform_id pair.oppinfo_id pair.user_id = none)
  | offering (infos : Infos) (one : handling.place pair.one = .offering infos) (own : infos.userinfo = userinfo)
    (two : (handling.place pair.two).EarlyOf oppinfo)
  | offered (session : Int64) (one : (handling.place pair.one).Offerer handling.server session userinfo)
    (two : (handling.place pair.two).EarlyOf oppinfo)
    (offer : handling.server.offer pair.platform_id pair.oppinfo_id pair.user_id = some session)
  | agreed (session : Int64) (one : (handling.place pair.one).Offerer handling.server session userinfo)
    (two : (handling.place pair.two).Taker handling.server pair session oppinfo)

theorem Place.EarlyOf.early {place : Place} {userinfo : UserInfo} (early : place.EarlyOf userinfo) : place.Early := by
  cases place <;> first | exact trivial | exact early.elim

theorem Place.Offerer.keep {server next : ChatServer GroupInfo} {place : Place} {session : Int64} {userinfo : UserInfo}
    (offerer : place.Offerer server session userinfo)
    (kept : (next.data userinfo).session = (server.data userinfo).session) : place.Offerer next session userinfo := by
  cases place with
  | offered => exact offerer
  | ready => exact ⟨offerer.1,offerer.2.1,kept.trans offerer.2.2⟩
  | answered => exact ⟨offerer.1,kept.trans offerer.2⟩
  | _ => exact offerer.elim

theorem Place.Taker.keep {server next : ChatServer GroupInfo} {place : Place} {pair pair' : Pair} {session : Int64}
    {userinfo : UserInfo} (taker : place.Taker server pair session userinfo)
    (kept : (next.data userinfo).session = (server.data userinfo).session)
    (meets : server.Meets pair session → next.Meets pair' session) : place.Taker next pair' session userinfo := by
  cases place with
  | matched => exact taker
  | marked | cleared => exact ⟨taker.1,taker.2.1,kept.trans taker.2.2⟩
  | ready => exact ⟨taker.1,taker.2.1,kept.trans taker.2.2.1,meets taker.2.2.2⟩
  | answered => exact ⟨taker.1,kept.trans taker.2.1,meets taker.2.2⟩
  | _ => exact taker.elim

section Setting
variable {requests : Nat → InfoRequest} {pair : Pair} {handling next : Handling GroupInfo} {userinfo oppinfo : UserInfo}
  {event : Nat × Chance} (setting : Setting requests pair handling userinfo oppinfo)
include setting

theorem Setting.swap : Setting requests pair.swap handling oppinfo userinfo where
  users := setting.users.symm
  threads := setting.threads.symm
  asks := setting.asks'
  asks' := setting.asks
  others thread apart apart' here own := setting.others thread apart' apart here own.symm
  owned := setting.owned
  user := setting.user'
  user' := setting.user
  fits := setting.fits'
  fits' := setting.fits

theorem Setting.differ : userinfo ≠ oppinfo := by
  rintro rfl
  have one := (setting.owned _ _ _ setting.user).2.2
  have two := (setting.owned _ _ _ setting.user').2.2
  exact setting.users (one.symm.trans two)

theorem Setting.step (outcome : handling.step requests event = some next) :
    Setting requests pair next userinfo oppinfo := by
  obtain ⟨effect,elsewhere⟩ := step_effect outcome
  refine {setting with others := ?_, owned := ?_, user := ?_, user' := ?_}
  · intro thread apart apart' here own
    obtain ⟨message,answered⟩ := setting.others thread apart apart' here own
    refine ⟨message,?_⟩
    rw [elsewhere thread ?_,answered]
    rintro rfl
    rw [Handling.step,answered] at outcome
    cases outcome
  · exact setting.owned.keep effect.grows fun _ _ _ found => effect.user ▸ found
  · rw [effect.user]
    exact setting.user
  · rw [effect.user]
    exact setting.user'

/-! A step of somebody else. -/

theorem other_session (outcome : handling.step requests event = some next) (apart : event.1 ≠ pair.one)
    (apart' : event.1 ≠ pair.two) (heeds : Heeds requests pair handling event) :
    (next.server.data userinfo).session = (handling.server.data userinfo).session := by
  obtain ⟨old,own_platform,own_user⟩ := setting.owned _ _ _ setting.user
  rcases (step_effect outcome).1.session old with same | ⟨infos,session,here,rfl⟩
  · exact same
  · unfold Heeds at heeds
    simp only [if_neg apart,if_neg apart'] at heeds
    rcases here with here | here <;> rw [here] at heeds <;> exact absurd own_user (heeds own_platform)

theorem other_offer (outcome : handling.step requests event = some next) (apart : event.1 ≠ pair.one)
    (apart' : event.1 ≠ pair.two) (heeds : Heeds requests pair handling event)
    (early : (handling.place pair.one).Early) :
    next.server.offer pair.platform_id pair.user_id pair.oppinfo_id =
      handling.server.offer pair.platform_id pair.user_id pair.oppinfo_id := by
  have foreign : (requests event.1).platform_id = pair.platform_id → (requests event.1).user_id ≠ pair.oppinfo_id := by
    intro here own
    obtain ⟨message,answered⟩ := setting.others event.1 apart apart' here (.inr own)
    rw [Handling.step,answered] at outcome
    cases outcome
  rcases (step_effect outcome).1.offer setting.fits foreign with same | ⟨⟨infos,session,here⟩,platform,opponent,gone⟩
  · exact same
  · unfold Heeds at heeds
    simp only [if_neg apart,if_neg apart',here] at heeds
    rw [gone,heeds platform opponent early]

omit setting in
theorem other_meets (outcome : handling.step requests event = some next) (apart : event.1 ≠ pair.one)
    (apart' : event.1 ≠ pair.two) (heeds : Heeds requests pair handling event) {session : Int64}
    (meets : handling.server.Meets pair session) : next.server.Meets pair session := by
  obtain ⟨meeting,found,members⟩ := meets
  rcases (step_effect outcome).1.meeting pair.platform_id session with same | ⟨⟨infos,here⟩,platform⟩
  · exact ⟨meeting,same.trans found,members⟩
  · unfold Heeds at heeds
    simp only [if_neg apart,if_neg apart',here] at heeds
    exact absurd ⟨meeting,found,members⟩ (heeds platform)

theorem Stage.other (stage : Stage pair handling userinfo oppinfo) (outcome : handling.step requests event = some next)
    (apart : event.1 ≠ pair.one) (apart' : event.1 ≠ pair.two) (undisturbed : Undisturbed requests pair handling event) :
    Stage pair next userinfo oppinfo := by
  have elsewhere := (step_effect outcome).2
  have place := elsewhere pair.one apart.symm
  have place' := elsewhere pair.two apart'.symm
  have session := other_session setting outcome apart apart' undisturbed.1
  have session' := other_session setting.swap outcome apart' apart undisturbed.2
  cases stage with
  | apart one two unoffered unoffered' =>
    refine .apart (place ▸ one) (place' ▸ two) ?_ ?_
    · rw [other_offer setting outcome apart apart' undisturbed.1 one.early]
      exact unoffered
    · exact (other_offer setting.swap outcome apart' apart undisturbed.2 two.early).trans unoffered'
  | offering infos one own two => exact .offering infos (place.trans one) own (place' ▸ two)
  | offered own one two offer =>
    refine .offered own ?_ (place' ▸ two) ?_
    · rw [place]
      exact one.keep session
    · exact (other_offer setting.swap outcome apart' apart undisturbed.2 two.early).trans offer
  | agreed own one two =>
    refine .agreed own ?_ ?_
    · rw [place]
      exact one.keep session
    · rw [place']
      exact two.keep session' (other_meets outcome apart apart' undisturbed.1)

/-! A step of the first user. -/

theorem early_step (outcome : handling.step requests event = some next) (own : event.1 = pair.one)
    (early : (handling.place pair.one).EarlyOf userinfo) :
    next.server = handling.server ∧ ((next.place pair.one).EarlyOf userinfo ∨
      ∃ infos, handling.place pair.one = .selecting infos ∧ infos.userinfo = userinfo ∧
        next.place pair.one = match handling.server.offer pair.platform_id pair.user_id pair.oppinfo_id with
          | none => .offering infos
          | some session => .matched infos session) := by
  obtain ⟨asks_platform,asks_user,asks_opponent⟩ := setting.asks
  have found : handling.server.GetUserInfos pair.platform_id pair.user_id = some userinfo := by
    rw [GetUserInfos_registry,setting.fits]
    exact setting.user
  have found' : handling.server.GetUserInfos pair.platform_id pair.oppinfo_id = some oppinfo := by
    rw [GetUserInfos_registry,setting.fits']
    exact setting.user'
  unfold Handling.step at outcome
  rw [own] at outcome
  cases here : handling.place pair.one with
  | begin =>
    simp only [here,OnGetUserInfo,asks_platform,asks_opponent,found',Option.map_some,Option.some.injEq] at outcome
    subst outcome
    refine ⟨rfl,.inl ?_⟩
    simp only [Function.update_self]
    exact trivial
  | opponent oppinfo_user_info =>
    simp only [here,OnGetUserInfo,asks_platform,asks_user,found,Option.map_some,Option.some.injEq] at outcome
    subst outcome
    refine ⟨rfl,.inl ?_⟩
    simp only [Function.update_self]
    rfl
  | selecting infos =>
    rw [here] at early
    simp only [here,OnGetUserInfo,asks_platform,asks_user,asks_opponent,
      IsExitsLeaveInfos_offer _ _ _ setting.fits] at outcome
    cases offer : handling.server.offer pair.platform_id pair.user_id pair.oppinfo_id with
    | none =>
      simp only [offer,Option.map_some,Option.some.injEq] at outcome
      subst outcome
      exact ⟨rfl,.inr ⟨infos,rfl,early,Function.update_self ..⟩⟩
    | some session =>
      simp only [offer,Option.map_some,Option.some.injEq] at outcome
      subst outcome
      exact ⟨rfl,.inr ⟨infos,rfl,early,Function.update_self ..⟩⟩
  | _ =>
    rw [here] at early
    exact early.elim

theorem offering_step (outcome : handling.step requests event = some next) (own : event.1 = pair.one) {infos : Infos}
    (offering : handling.place pair.one = .offering infos) :
    ∃ session, next.place pair.one = .offered infos session ∧
      next.server.offer pair.platform_id pair.oppinfo_id pair.user_id = some session := by
  obtain ⟨asks_platform,asks_user,asks_opponent⟩ := setting.asks
  obtain ⟨pl,known,_⟩ := Option.bind_eq_some_iff.mp setting.user
  unfold Handling.step at outcome
  rw [own,offering] at outcome
  cases outcome
  refine ⟨event.2.random,Function.update_self ..,?_⟩
  simp only [asks_platform,asks_user,asks_opponent]
  rw [AddLeaveInfos_offer _ _ _ _ _ _ _ setting.fits',if_pos ⟨rfl,rfl,rfl⟩,known,Option.map_some]

omit setting in
theorem offerer_step (outcome : handling.step requests event = some next) (own : event.1 = pair.one) {session : Int64}
    (offerer : (handling.place pair.one).Offerer handling.server session userinfo) :
    (next.place pair.one).Offerer next.server session userinfo ∧
      (next.server = handling.server ∨ next.server = handling.server.SetSession userinfo session) := by
  unfold Handling.step at outcome
  rw [own] at outcome
  cases here : handling.place pair.one with
  | offered infos drawn =>
    rw [here] at offerer outcome
    obtain ⟨rfl,rfl⟩ := offerer
    cases outcome
    refine ⟨?_,.inr rfl⟩
    simp only [Function.update_self]
    refine ⟨rfl,rfl,?_⟩
    rw [SetSession_data,if_pos rfl]
  | ready infos drawn =>
    rw [here] at offerer outcome
    obtain ⟨rfl,rfl,recorded⟩ := offerer
    cases outcome
    refine ⟨?_,.inl rfl⟩
    simp only [Function.update_self]
    exact ⟨⟨_,rfl,rfl⟩,recorded⟩
  | answered message =>
    rw [here] at outcome
    cases outcome
  | _ =>
    rw [here] at offerer
    exact offerer.elim

theorem taker_step (outcome : handling.step requests event = some next) (own : event.1 = pair.one) {session : Int64}
    (taker : (handling.place pair.one).Taker handling.server pair session userinfo) :
    (next.place pair.one).Taker next.server pair session userinfo ∧
      (next.server.data oppinfo).session = (handling.server.data oppinfo).session := by
  obtain ⟨asks_platform,asks_user,asks_opponent⟩ := setting.asks
  obtain ⟨pl,known,_⟩ := Option.bind_eq_some_iff.mp setting.user
  unfold Handling.step at outcome
  rw [own] at outcome
  cases here : handling.place pair.one with
  | matched infos found =>
    rw [here] at taker outcome
    obtain ⟨rfl,rfl⟩ := taker
    cases outcome
    simp only [Function.update_self]
    refine ⟨⟨rfl,rfl,?_⟩,?_⟩
    · rw [SetSession_data,if_pos rfl]
    · rw [SetSession_data,if_neg setting.differ.symm]
  | marked infos found =>
    rw [here] at taker outcome
    obtain ⟨same,rfl,recorded⟩ := taker
    cases outcome
    simp only [Function.update_self,onPlatform_data,and_true]
    refine ⟨same,rfl,?_⟩
    rw [onPlatform_data]
    exact recorded
  | cleared infos found =>
    rw [here] at taker outcome
    obtain ⟨same,rfl,recorded⟩ := taker
    cases outcome
    simp only [Function.update_self,asks_platform,asks_user,asks_opponent]
    refine ⟨⟨same,rfl,?_,?_⟩,?_⟩
    · rw [onPlatform_data]
      exact recorded
    · rw [← Meets_swap]
      refine ⟨_,?_,Members.pair pair.oppinfo_id pair.user_id⟩
      show ChatServer.meeting _ pair.platform_id found = _
      rw [AddMeetingPair_meeting,if_pos ⟨rfl,rfl⟩,known,Option.map_some]
    · rw [onPlatform_data]
  | ready infos found =>
    rw [here] at taker outcome
    obtain ⟨same,rfl,recorded,meets⟩ := taker
    cases outcome
    simp only [Function.update_self,and_true]
    exact ⟨⟨_,rfl,rfl⟩,recorded,meets⟩
  | answered message =>
    rw [here] at outcome
    cases outcome
  | _ =>
    rw [here] at taker
    exact taker.elim

/-- Both are early, or the first one has moved and the second one is early. -/
theorem Stage.first (stage : Stage pair handling userinfo oppinfo) (outcome : handling.step requests event = some next)
    (own : event.1 = pair.one) : Stage pair next userinfo oppinfo := by
  have place' : next.place pair.two = handling.place pair.two :=
    (step_effect outcome).2 pair.two (own ▸ setting.threads.symm)
  cases stage with
  | apart one two unoffered unoffered' =>
    obtain ⟨same,still | ⟨infos,_,userinfo',moved⟩⟩ := early_step setting outcome own one
    · refine .apart still (place' ▸ two) ?_ ?_ <;> rw [same] <;> assumption
    · rw [unoffered] at moved
      exact .offering infos moved userinfo' (place' ▸ two)
  | offering infos one userinfo' two =>
    obtain ⟨session,moved,offer⟩ := offering_step setting outcome own one
    refine .offered session ?_ (place' ▸ two) offer
    rw [moved]
    exact ⟨userinfo',rfl⟩
  | offered session one two offer =>
    obtain ⟨one',same | recorded⟩ := offerer_step outcome own one
    · refine .offered session one' (place' ▸ two) ?_
      rw [same]
      exact offer
    · refine .offered session one' (place' ▸ two) ?_
      rw [recorded]
      exact offer
  | agreed session one two =>
    obtain ⟨one',same | recorded⟩ := offerer_step outcome own one
    · refine .agreed session one' ?_
      rw [place',same]
      exact two
    · refine .agreed session one' ?_
      rw [place',recorded]
      refine two.keep ?_ id
      rw [SetSession_data,if_neg setting.differ.symm]

theorem Stage.second (stage : Stage pair handling userinfo oppinfo) (outcome : handling.step requests event = some next)
    (own : event.1 = pair.two) (undisturbed : Undisturbed requests pair handling event) :
    Stage pair next userinfo oppinfo ∨ Stage pair.swap next oppinfo userinfo := by
  have place : next.place pair.one = handling.place pair.one :=
    (step_effect outcome).2 pair.one (own ▸ setting.threads)
  cases stage with
  | apart one two unoffered unoffered' =>
    have apart : Stage pair.swap handling oppinfo userinfo := .apart two one unoffered' unoffered
    exact .inr (Stage.first setting.swap apart outcome own)
  | offering infos one userinfo' two =>
    left
    obtain ⟨_,still | ⟨other,here,_⟩⟩ := early_step setting.swap outcome own two
    · exact .offering infos (place.trans one) userinfo' still
    · exact absurd one (undisturbed.2.look own here)
  | offered session one two offer =>
    left
    obtain ⟨same,still | ⟨infos,_,userinfo',moved⟩⟩ := early_step setting.swap outcome own two
    · refine .offered session ?_ still ?_
      · rw [place,same]
        exact one
      · rw [same]
        exact offer
    · refine .agreed session ?_ ?_
      · rw [place,same]
        exact one
      · rw [show handling.server.offer pair.swap.platform_id pair.swap.user_id pair.swap.oppinfo_id = some session from
          offer] at moved
        rw [show next.place pair.two = .matched infos session from moved]
        exact ⟨userinfo',rfl⟩
  | agreed session one two =>
    left
    have taker : (handling.place pair.two).Taker handling.server pair.swap session oppinfo :=
      two.keep rfl (Meets_swap ..).mpr
    obtain ⟨two',kept⟩ := taker_step setting.swap outcome own taker
    refine .agreed session ?_ (two'.keep rfl (Meets_swap ..).mp)
    rw [place]
    exact one.keep kept

/-- The invariant of a run. -/
theorem stage_step (stage : Stage pair handling userinfo oppinfo ∨ Stage pair.swap handling oppinfo userinfo)
    (outcome : handling.step requests event = some next) (undisturbed : Undisturbed requests pair handling event) :
    Stage pair next userinfo oppinfo ∨ Stage pair.swap next oppinfo userinfo := by
  by_cases own : event.1 = pair.one
  · rcases stage with stage | stage
    · exact .inl (stage.first setting outcome own)
    · exact (stage.second setting.swap outcome own undisturbed.symm).symm
  · by_cases own' : event.1 = pair.two
    · rcases stage with stage | stage
      · exact stage.second setting outcome own' undisturbed
      · exact .inr (stage.first setting.swap outcome own')
    · rcases stage with stage | stage
      · exact .inl (stage.other setting outcome own own' undisturbed)
      · exact .inr (stage.other setting.swap outcome own' own undisturbed.symm)

omit setting in
/-- Of two answered requests, one made the offer and the other one found it. -/
theorem Stage.answered (stage : Stage pair handling userinfo oppinfo) {message message' : Option Body}
    (one : handling.place pair.one = .answered message) (two : handling.place pair.two = .answered message') :
    ∃ session, Tells message session ∧ Tells message' session ∧ (handling.server.data userinfo).session = session ∧
      (handling.server.data oppinfo).session = session ∧ handling.server.Meets pair session := by
  cases stage with
  | apart early =>
    rw [one] at early
    exact early.elim
  | offering infos offering =>
    rw [one] at offering
    cases offering
  | offered session offerer early =>
    rw [two] at early
    exact early.elim
  | agreed session offerer taker =>
    rw [one] at offerer
    rw [two] at taker
    exact ⟨session,offerer.1,taker.1,offerer.2,taker.2⟩

theorem Setting.recorded :
    handling.server.recorded pair.platform_id pair.user_id = some (handling.server.data userinfo).session := by
  rw [ChatServer.recorded,GetUserInfos_registry,setting.fits,setting.user,Option.map_some]

end Setting

theorem Ready.setting {requests : Nat → InfoRequest} {pair : Pair} {handling : Handling GroupInfo}
    (ready : Ready requests pair handling) : ∃ userinfo oppinfo, Setting requests pair handling userinfo oppinfo := by
  have owned := ready.reachable.owned
  obtain ⟨_,userinfo,found,_,own,_⟩ := ready.online
  obtain ⟨_,oppinfo,found',_,own',_⟩ := ready.online'
  rw [GetUserInfos_registry] at found found'
  have fits : narrow pair.user_id = pair.user_id := (owned _ _ _ found).2.2.symm.trans own
  have fits' : narrow pair.oppinfo_id = pair.oppinfo_id := (owned _ _ _ found').2.2.symm.trans own'
  rw [fits] at found
  rw [fits'] at found'
  exact ⟨userinfo,oppinfo,ready.users,ready.threads,ready.asks,ready.asks',ready.others,owned,found,found',fits,fits'⟩

/-- In every run without a disturbance the two meet. -/
theorem rendezvous {requests : Nat → InfoRequest} {pair : Pair} {handling : Handling GroupInfo}
    {events : List (Nat × Chance)} (ready : Ready requests pair handling)
    (undisturbed : Along (Handling.step requests) (Undisturbed requests pair) handling events) :
    Rendezvous requests pair handling events := by
  obtain ⟨userinfo,oppinfo,setting⟩ := ready.setting
  intro final ends message message' one two
  have apart : Stage pair handling userinfo oppinfo :=
    .apart (ready.begins ▸ trivial) (ready.begins' ▸ trivial) ready.unoffered ready.unoffered'
  obtain ⟨setting',stage⟩ := @run_invariant _ _ _ _
    (fun handling => Setting requests pair handling userinfo oppinfo ∧
      (Stage pair handling userinfo oppinfo ∨ Stage pair.swap handling oppinfo userinfo))
    (fun inv meets outcome => ⟨inv.1.step outcome,stage_step inv.1 inv.2 outcome meets⟩)
    _ _ ⟨setting,.inl apart⟩ _ undisturbed ends
  have recorded := setting'.recorded
  have recorded' := setting'.swap.recorded
  rcases stage with stage | stage
  · obtain ⟨session,tells,tells',rfl,same,meets⟩ := stage.answered one two
    refine ⟨_,tells,tells',recorded,?_,meets⟩
    rw [← same]
    exact recorded'
  · obtain ⟨session,tells',tells,rfl,same,meets⟩ := stage.answered two one
    refine ⟨_,tells,tells',?_,recorded',(Meets_swap ..).mp meets⟩
    rw [← same]
    exact recorded

/-- While the other one does nothing, the first user may ask. -/
theorem undisturbed_alone {requests : Nat → InfoRequest} {pair : Pair} (threads : pair.one ≠ pair.two)
    {events : List (Nat × Chance)} (alone : ∀ event ∈ events, event.1 = pair.one) {handling : Handling GroupInfo}
    (still : ∀ infos, handling.place pair.two ≠ .offering infos) :
    Along (Handling.step requests) (Undisturbed requests pair) handling events := by
  induction events generalizing handling with
  | nil => exact trivial
  | cons event events ih =>
    have own : event.1 = pair.one := alone event List.mem_cons_self
    have own' : event.1 ≠ pair.two := own ▸ threads
    refine ⟨⟨?_,?_⟩,?_⟩
    · unfold Heeds
      simp only [if_pos own]
      exact fun _ other _ => still other
    · have own : event.1 = pair.swap.two := own
      have own' : event.1 ≠ pair.swap.one := own'
      unfold Heeds
      simp only [if_neg own',if_pos own]
    · intro next outcome
      refine ih (fun event member => alone event (List.mem_cons_of_mem _ member)) ?_
      intro infos
      rw [(step_effect outcome).2 pair.two own'.symm]
      exact still infos

end Pair

/-- Users 7 and 8 ask for each other, user 9 for others. -/
def hallRequests : Nat → InfoRequest
  | 0 => ⟨5,10000,7,8,0⟩
  | 1 => ⟨6,10000,8,7,0⟩
  | _ => ⟨4,10000,9,8,0⟩

def hallPair : Pair := ⟨10000,7,8,0,1⟩

def hallVisits : List Visit :=
  [.setPlatform 10000,.login 5 10000 7 (some ⟨7,[],[]⟩) [],.login 6 10000 8 (some ⟨8,[],[]⟩) []]

/-- Users 7 and 8 have logged in. -/
def hall : ChatServer Unit := ((run visit (.start fun _ => noData) hallVisits).get rfl)

theorem hall_ready : Ready hallRequests hallPair ⟨hall,fun _ => .begin⟩ where
  reachable := (Reachable.start fun _ => noData).visits hallVisits rfl
  users := by decide
  threads := by decide
  asks := ⟨rfl,rfl,rfl⟩
  asks' := ⟨rfl,rfl,rfl⟩
  begins := rfl
  begins' := rfl
  others := by
    intro thread apart apart' _ own
    have user : (hallRequests thread).user_id = 9 := by
      match thread with
      | 0 => exact absurd rfl apart
      | 1 => exact absurd rfl apart'
      | _+2 => rfl
    rw [user] at own
    exact absurd own (by decide)
  online := ⟨5,0,rfl,rfl,rfl,rfl⟩
  online' := ⟨6,1,rfl,rfl,rfl,rfl⟩
  unoffered := rfl
  unoffered' := rfl
  parted := by
    rintro session ⟨meeting,found,_⟩
    cases found

def nothing : Chance := ⟨none,0⟩

/-- The first user is answered before the second one asks. -/
def shortEvents : List (Nat × Chance) := List.replicate 6 (0,⟨none,100⟩) ++ List.replicate 7 (1,nothing)

theorem short_rendezvous : Rendezvous hallRequests hallPair ⟨hall,fun _ => .begin⟩ shortEvents := by
  apply rendezvous hall_ready
  refine Along.append (undisturbed_alone (by decide) (by simp [hallPair]) (by simp)) ?_
  rintro _ ⟨⟩
  have alone := @undisturbed_alone Unit hallRequests hallPair.swap (by decide) (List.replicate 7 (1,nothing))
    (by simp [Pair.swap,hallPair])
  exact (alone (by intro infos absurd; cases absurd)).imp fun _ _ undisturbed => undisturbed.symm

/-- Both look for an offer before either makes one. -/
def raceEvents : List (Nat × Chance) :=
  List.replicate 3 (0,nothing) ++ List.replicate 3 (1,nothing) ++ (0,⟨none,100⟩) :: (1,⟨none,200⟩) ::
    List.replicate 2 (0,nothing) ++ List.replicate 2 (1,nothing)

theorem race_missed : Ready hallRequests hallPair ⟨hall,fun _ => .begin⟩ ∧
    ¬Rendezvous hallRequests hallPair ⟨hall,fun _ => .begin⟩ raceEvents := by
  refine ⟨hall_ready,?_⟩
  intro meet
  obtain ⟨session,⟨_,⟨⟩,one⟩,⟨_,⟨⟩,two⟩,_⟩ := meet _ rfl _ _ rfl rfl
  have equal : (100 : Int64) = 200 := one.trans two.symm
  exact absurd equal (by decide)

end Migfm.Chat
