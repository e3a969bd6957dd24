import Migfm.Chat.Group

/-! Pending offers of private chats. An offer of one user to another is an entry
of the map of the latter. `OnGetUserInfo` clears the map of the user it asks for
where the entry it found is in its own; `DelMeetingInfos` replaces a map by the
one entry that it leaves. -/
namespace Migfm.Chat
open Basic Library.Runs

/-! ### What each operation does to the offers -/

section Offers
variable {GroupInfo : Type}

/-- Of all offers at most that of `mid` to `tid` changes. -/
def ChatServer.Sole (server next : ChatServer GroupInfo) (platform_id tid mid : Int64) (session : Option Int64) : Prop :=
  next.offer platform_id tid mid = session ∧
    ∀ platform reader other, ¬(platform = platform_id ∧ reader = tid ∧ other = mid) →
      next.offer platform reader other = server.offer platform reader other

variable (server : ChatServer GroupInfo)

/-- The map is copied from under the narrowed id. -/
theorem AddLeaveInfos_offers (platform_id session tid mid platform reader other : Int64) :
    (server.onPlatform platform_id (·.AddLeaveInfos session tid mid)).offer platform reader other =
      if platform = platform_id ∧ reader = tid then
        if other = mid then (server.platform_cache_[platform]?).map fun _ => session
        else server.offer platform (narrow tid) other
      else server.offer platform reader other := by
  have added (pl : PlatformCache UserInfo GroupInfo) :
      ((pl.AddLeaveInfos session tid mid).leave_infos_map_[reader]?).bind (fun session_infos => session_infos[other]?) =
        if reader = tid then
          if other = mid then some session
          else (pl.leave_infos_map_[narrow tid]?).bind fun session_infos => session_infos[other]?
        else (pl.leave_infos_map_[reader]?).bind fun session_infos => session_infos[other]? := by
    simp only [PlatformCache.AddLeaveInfos,MapAdd_get]
    by_cases same : reader = tid
    · have inserted := MapAdd_get ((pl.leave_infos_map_[narrow tid]?).getD ∅) mid other session
      rw [MapAdd] at inserted
      simp only [same,if_true,Option.bind_some,MapGetInt,inserted]
      split
      · rfl
      · cases pl.leave_infos_map_[narrow tid]? with
        | none => exact Std.ExtTreeMap.getElem?_empty
        | some session_infos => rfl
    · simp only [same,if_false]
  unfold ChatServer.offer
  rw [onPlatform_read]
  simp only [added]
  by_cases here : platform = platform_id
  · by_cases same : reader = tid
    · by_cases own : other = mid
      · simp only [here,same,own,and_self,if_true]
        cases server.platform_cache_[platform_id]? <;> rfl
      · simp only [here,same,own,and_self,if_true,if_false]
    · simp only [here,same,and_false,if_true,if_false]
  · simp only [here,false_and,if_false]

/-- The member that the loop ends with. -/
def Partner (set : Finset Int64) (uid tid : Int64) : Prop :=
  tid ∈ set ∧ tid ≠ uid ∧ ∀ other ∈ set, other ≠ uid → other ≤ tid

theorem partner_of {ids : List Int64} (ordered : ids.Pairwise (compare · · = .lt)) (two : ids.length = 2) (uid : Int64) :
    Partner ids.toFinset uid (ids.foldl (fun tid id => if id ≠ uid then id else tid) 0) := by
  match ids,two with
  | [first,second],_ =>
    have less : first < second := Std.compare_eq_lt.mp (List.rel_of_pairwise_cons ordered (List.mem_singleton_self _))
    have apart : first ≠ second := Int64.ne_of_lt less
    simp only [List.foldl_cons,List.foldl_nil,List.toFinset_cons,List.toFinset_nil,Partner]
    by_cases last : second = uid
    · have own : first ≠ uid := by rwa [← last]
      simp only [last,ne_eq,not_true,if_false,own,not_false_eq_true,if_true]
      refine ⟨Finset.mem_insert_self ..,trivial,?_⟩
      intro other member differ
      obtain rfl | same := Finset.mem_insert.mp member
      · exact Int64.le_refl _
      · exact absurd (by simpa using same) differ
    · rw [if_pos last]
      refine ⟨by simp,last,?_⟩
      intro other member _
      obtain rfl | same := Finset.mem_insert.mp member
      · exact Int64.le_of_lt less
      · have equal : other = second := by simpa using same
        rw [equal]
        exact Int64.le_refl _

theorem Partner.unique {set : Finset Int64} {uid one other : Int64} (first : Partner set uid one) (second : Partner set uid other) :
    one = other :=
  Int64.le_antisymm (second.2.2 one first.1 first.2.1) (first.2.2 other second.1 second.2.1)

/-- A session of two leaves one offer to whoever leaves, in the place of all others. -/
theorem DelMeetingInfos_offers {pl : PlatformCache UserInfo GroupInfo} {session uid tid : Int64} (two : (pl.members session).card = 2)
    (partner : Partner (pl.members session) uid tid) (reader other : Int64) :
    ((pl.DelMeetingInfos session uid).leave_infos_map_[reader]?).bind (fun session_infos => session_infos[other]?) =
      if reader = uid then if other = tid then some session else none
      else (pl.leave_infos_map_[reader]?).bind fun session_infos => session_infos[other]? := by
  have size := keys_card ((pl.meeting_infos_map_[session]?).getD ∅)
  have count : ((pl.meeting_infos_map_[session]?).getD ∅).size = 2 := size.symm.trans two
  have keys : ((pl.meeting_infos_map_[session]?).getD ∅).keys.length = 2 := by rw [Std.ExtTreeMap.length_keys,count]
  have found := (partner_of Std.ExtTreeMap.ordered_keys keys uid).unique partner
  have single := MapAdd_get (∅ : SessionInfosMap) tid other session
  rw [MapAdd,Std.ExtTreeMap.getElem?_empty] at single
  simp only [PlatformCache.DelMeetingInfos,MapGet,count,Nat.lt_irrefl,if_false,if_true,MapAdd_get,found]
  by_cases same : reader = uid
  · simp only [same,if_true,Option.bind_some,single]
  · simp only [same,if_false]

/-! ### When a change is the only one -/

theorem clear_sole_iff (platform_id user_id oppinfo_id : Int64) :
    server.Sole (server.onPlatform platform_id fun pl => (pl.ClearLeaveInfos oppinfo_id).1) platform_id user_id oppinfo_id none ↔
      (oppinfo_id = user_id ∨ server.offer platform_id user_id oppinfo_id = none) ∧
        ∀ mid, ¬(oppinfo_id = user_id ∧ mid = oppinfo_id) → server.offer platform_id oppinfo_id mid = none := by
  simp only [ChatServer.Sole,ClearLeaveInfos_offer]
  constructor
  · rintro ⟨gone,others⟩
    refine ⟨?_,?_⟩
    · by_cases self : oppinfo_id = user_id
      · exact .inl self
      · rw [if_neg (fun same => self same.2.symm)] at gone
        exact .inr gone
    · intro mid apart
      have kept := others platform_id oppinfo_id mid (fun same => apart same.2)
      rw [if_pos ⟨rfl,rfl⟩] at kept
      exact kept.symm
  · rintro ⟨own,others⟩
    refine ⟨?_,?_⟩
    · split
      · rfl
      · rename_i apart
        exact own.resolve_left fun same => apart ⟨trivial,same.symm⟩
    · intro platform reader other apart
      split
      · rename_i same
        rw [same.1,same.2]
        refine (others other ?_).symm
        rintro ⟨self,rfl⟩
        exact apart ⟨same.1,same.2.trans self,rfl⟩
      · rfl

theorem add_sole_iff {platform_id : Int64} (known : (server.platform_cache_[platform_id]?).isSome) (session tid mid : Int64) :
    server.Sole (server.onPlatform platform_id (·.AddLeaveInfos session tid mid)) platform_id tid mid (some session) ↔
      ∀ other, other ≠ mid → server.offer platform_id (narrow tid) other = server.offer platform_id tid other := by
  obtain ⟨pl,found⟩ := Option.isSome_iff_exists.mp known
  simp only [ChatServer.Sole,AddLeaveInfos_offers,and_self,if_true,found,Option.map_some,true_and]
  constructor
  · intro others other differ
    have kept := others platform_id tid other (fun same => differ same.2.2)
    simpa only [and_self,if_true,differ,if_false] using kept
  · intro same platform reader other apart
    split
    · rename_i here
      obtain ⟨rfl,rfl⟩ := here
      have differ : other ≠ mid := fun equal => apart ⟨rfl,rfl,equal⟩
      rw [if_neg differ]
      exact same other differ
    · rfl

/-! ### Leaving -/

/-- Whom `ClearUserinfo` is called for, with the session it is told. -/
def ChatServer.clears : Visit → Option (Int64 × Int64 × Int64)
  | .quit _ platform_id user_id session => (server.GetUserInfos platform_id user_id).map fun _ => (platform_id,user_id,session)
  | .close socket => (server.GetSocket socket).map fun user_info =>
    let data := server.data user_info
    (data.platform_id,data.user_id,data.session)
  | _ => none

theorem visit_clears {visitor : Visit} {platform_id uid session : Int64} (clears : server.clears visitor = some (platform_id,uid,session)) :
    ∃ socket, visit server visitor = some (ClearUserinfo (server.DelSocket socket) platform_id uid session).1 := by
  cases visitor with
  | setPlatform | login => cases clears
  | quit socket platform user_id named =>
    obtain ⟨userinfo,found,same⟩ := Option.map_eq_some_iff.mp clears
    cases same
    refine ⟨socket,?_⟩
    simp only [visit,OnUserQuit,found]
  | close socket =>
    obtain ⟨userinfo,found,same⟩ := Option.map_eq_some_iff.mp clears
    cases same
    refine ⟨socket,?_⟩
    simp only [visit,OnAberrant,found]

theorem ClearUserinfo_offer (socket : Int32) (platform_id uid session platform reader other : Int64) :
    (ClearUserinfo (server.DelSocket socket) platform_id uid session).1.offer platform reader other =
      (server.onPlatform platform_id (·.DelMeetingInfos session uid)).offer platform reader other := by
  let read (pl : PlatformCache UserInfo GroupInfo) : Option Int64 :=
    (pl.leave_infos_map_[reader]?).bind fun session_infos => session_infos[other]?
  have users : ∀ pl : PlatformCache UserInfo GroupInfo, read (pl.DelUserInos uid).1 = read pl := fun _ => rfl
  refine (onPlatform_kept _ platform_id platform users).trans ?_
  exact (onPlatform_read (server.DelSocket socket) platform_id platform _ read).trans (onPlatform_read server platform_id platform _ read).symm

section Two
variable {platform_id session : Int64} (two : (server.members platform_id session).card = 2)
include two

theorem pair_known : ∃ pl, server.platform_cache_[platform_id]? = some pl ∧ server.members platform_id session = pl.members session := by
  cases known : server.platform_cache_[platform_id]? with
  | none =>
    have empty : server.members platform_id session = ∅ := by
      simp only [ChatServer.members,ChatServer.meeting,known,Option.bind_none]
      rfl
    rw [empty] at two
    cases two
  | some pl => exact ⟨pl,rfl,members_known known session⟩

theorem partner_exists (uid : Int64) : ∃ tid, Partner (server.members platform_id session) uid tid := by
  obtain ⟨pl,_,same⟩ := pair_known server two
  have size := keys_card ((pl.meeting_infos_map_[session]?).getD ∅)
  rw [same] at two ⊢
  have keys : ((pl.meeting_infos_map_[session]?).getD ∅).keys.length = 2 := by
    rw [Std.ExtTreeMap.length_keys,← size]
    exact two
  exact ⟨_,partner_of Std.ExtTreeMap.ordered_keys keys uid⟩

theorem onPlatform_DelMeetingInfos_offer {uid tid : Int64} (partner : Partner (server.members platform_id session) uid tid)
    (platform reader other : Int64) :
    (server.onPlatform platform_id (·.DelMeetingInfos session uid)).offer platform reader other =
      if platform = platform_id ∧ reader = uid then if other = tid then some session else none
      else server.offer platform reader other := by
  obtain ⟨pl,known,same⟩ := pair_known server two
  rw [same] at two partner
  unfold ChatServer.offer
  rw [onPlatform_read]
  by_cases here : platform = platform_id
  · simp only [here,known,Option.bind_some,DelMeetingInfos_offers two partner,if_true,true_and]
  · simp only [here,false_and,if_false]

theorem leave_sole_iff (uid : Int64) :
    (∃ tid ∈ server.members platform_id session, tid ≠ uid ∧
      server.Sole (server.onPlatform platform_id (·.DelMeetingInfos session uid)) platform_id uid tid (some session)) ↔
    ∃ tid, Partner (server.members platform_id session) uid tid ∧ ∀ mid, mid ≠ tid → server.offer platform_id uid mid = none := by
  obtain ⟨partner_,partner⟩ := partner_exists server two uid
  simp only [ChatServer.Sole,onPlatform_DelMeetingInfos_offer server two partner,and_self,if_true]
  constructor
  · rintro ⟨tid,_,_,left,others⟩
    have same : tid = partner_ := by
      by_contra differ
      rw [if_neg differ] at left
      cases left
    refine ⟨tid,same ▸ partner,?_⟩
    intro mid differ
    have kept := others platform_id uid mid (fun equal => differ equal.2.2)
    rw [← same] at kept
    simp only [and_self,if_true,differ,if_false] at kept
    exact kept.symm
  · rintro ⟨tid,partner',none_⟩
    have same := partner'.unique partner
    refine ⟨tid,partner'.1,partner'.2.1,if_pos same,?_⟩
    intro platform reader other apart
    split
    · rename_i here
      obtain ⟨rfl,rfl⟩ := here
      have differ : other ≠ tid := fun equal => apart ⟨rfl,rfl,equal⟩
      rw [if_neg (same ▸ differ)]
      exact (none_ other differ).symm
    · rfl

end Two

/-! ### Platforms stay -/

def ChatServer.Knows (platform_id : Int64) : Prop := (server.platform_cache_[platform_id]?).isSome

theorem onPlatform_knows (platform_id platform : Int64) (operation : PlatformCache UserInfo GroupInfo → PlatformCache UserInfo GroupInfo) :
    (server.onPlatform platform_id operation).Knows platform ↔ server.Knows platform := by
  rw [ChatServer.Knows,ChatServer.Knows,onPlatform_cache]
  split
  · rw [Option.isSome_map]
  · rfl

theorem ClearUserinfo_knows (platform_id uid session platform : Int64) :
    (ClearUserinfo server platform_id uid session).1.Knows platform ↔ server.Knows platform :=
  (onPlatform_knows ..).trans (onPlatform_knows ..)

theorem visit_knows {next : ChatServer GroupInfo} {visitor : Visit} (outcome : visit server visitor = some next) {platform : Int64}
    (knows : server.Knows platform) : next.Knows platform := by
  cases visitor with
  | setPlatform platform_id =>
    cases outcome
    unfold ChatServer.Knows SetPlatformInfo
    cases found : server.platform_cache_[platform_id]? with
    | some pl => exact knows
    | none =>
      have stored := MapAdd_get server.platform_cache_ platform_id platform .empty
      rw [MapAdd] at stored
      simp only [stored]
      split
      · rfl
      · exact knows
  | login socket platform_id user_id row chat_token =>
    cases outcome
    cases row with
    | none => exact knows
    | some row => exact (onPlatform_knows (server.newUserInfo platform_id user_id socket row chat_token).1 ..).mpr knows
  | quit socket platform_id user_id session =>
    cases outcome
    rw [OnUserQuit]
    split
    · exact knows
    · exact (ClearUserinfo_knows (server.DelSocket socket) ..).mpr knows
  | close socket =>
    cases outcome
    rw [OnAberrant]
    split
    · exact knows
    · exact (ClearUserinfo_knows (server.DelSocket socket) ..).mpr knows

theorem Effect.knows {next : ChatServer GroupInfo} {request : InfoRequest} {place : Place} (effect : Effect server request place next)
    (platform : Int64) : next.Knows platform ↔ server.Knows platform := by
  cases effect with
  | looked | fetched | recorded => rfl
  | offered | cleared | met => exact onPlatform_knows ..

end Offers

theorem OnGetGroupInfo_knows (server : ChatServer GroupInfo) (socket : Int32) (platform_id user_id oppinfo_id : Int64) (type : Int32)
    (platform : Int64) : (OnGetGroupInfo server socket platform_id user_id oppinfo_id type).1.Knows platform ↔ server.Knows platform := by
  unfold OnGetGroupInfo
  split
  · rfl
  · split
    · exact onPlatform_knows ..
    · split
      · rfl
      · split
        · exact (onPlatform_knows ..).trans (onPlatform_knows ..)
        · exact onPlatform_knows ..

/-! ### Runs -/

/-- What the server handles next. -/
inductive Deed
  | visit (visitor : Visit)
  | group (socket : Int32) (platform_id user_id oppinfo_id : Int64) (type : Int32)
  | serve (thread : Nat) (chance : Chance)

section Runs
variable (requests : Nat → InfoRequest)

def Handling.after (handling : Handling GroupInfo) : Deed → Option (Handling GroupInfo)
  | .visit visitor => (visit handling.server visitor).map fun server => {handling with server}
  | .group socket platform_id user_id oppinfo_id type =>
    some {handling with server := (OnGetGroupInfo handling.server socket platform_id user_id oppinfo_id type).1}
  | .serve thread chance => handling.step requests (thread,chance)

/-- The deed takes away the offer that was found, or adds its own, and keeps all others. -/
structure Handling.Keeps (handling next : Handling GroupInfo) (deed : Deed) : Prop where
  consumed : ∀ thread chance infos session, deed = .serve thread chance → handling.place thread = .marked infos session →
    handling.server.Sole next.server (requests thread).platform_id (narrow (requests thread).user_id) (requests thread).oppinfo_id none
  recorded : ∀ thread chance infos, deed = .serve thread chance → handling.place thread = .offering infos →
    handling.server.Sole next.server (requests thread).platform_id (requests thread).oppinfo_id (requests thread).user_id
      (some chance.random)
  left : ∀ visitor platform_id uid session, deed = .visit visitor →
    handling.server.clears visitor = some (platform_id,uid,session) → (handling.server.members platform_id session).card = 2 →
      ∃ tid ∈ handling.server.members platform_id session, tid ≠ uid ∧
        handling.server.Sole next.server platform_id uid tid (some session)

/-- What the offers are to be before. A request that found an offer asks for its own user, or the offer is gone again, and
no other offer was made to whom it asks for; one that makes an offer copies a map with the same other entries; who leaves
a session of two has no offer but from the other member. -/
structure Handling.Spares (handling : Handling GroupInfo) (deed : Deed) : Prop where
  consumed : ∀ thread chance infos session, deed = .serve thread chance → handling.place thread = .marked infos session →
    let request := requests thread
    (request.oppinfo_id = narrow request.user_id ∨
      handling.server.offer request.platform_id (narrow request.user_id) request.oppinfo_id = none) ∧
      ∀ mid, ¬(request.oppinfo_id = narrow request.user_id ∧ mid = request.oppinfo_id) →
        handling.server.offer request.platform_id request.oppinfo_id mid = none
  recorded : ∀ thread chance infos, deed = .serve thread chance → handling.place thread = .offering infos →
    let request := requests thread
    ∀ mid, mid ≠ request.user_id → handling.server.offer request.platform_id (narrow request.oppinfo_id) mid =
      handling.server.offer request.platform_id request.oppinfo_id mid
  left : ∀ visitor platform_id uid session, deed = .visit visitor →
    handling.server.clears visitor = some (platform_id,uid,session) → (handling.server.members platform_id session).card = 2 →
      ∃ tid, Partner (handling.server.members platform_id session) uid tid ∧
        ∀ mid, mid ≠ tid → handling.server.offer platform_id uid mid = none

/-- The request has seen a user of its platform. -/
def Place.Inside : Place → Prop
  | .begin | .opponent _ | .answered _ => False
  | _ => True

def Handling.Known (handling : Handling GroupInfo) : Prop :=
  ∀ thread, (handling.place thread).Inside → handling.server.Knows (requests thread).platform_id

variable {requests} {handling next : Handling GroupInfo} {deed : Deed} (outcome : handling.after requests deed = some next)
include outcome

theorem after_knows {platform : Int64} (knows : handling.server.Knows platform) : next.server.Knows platform := by
  cases deed with
  | visit visitor =>
    obtain ⟨server,visits,same⟩ := Option.map_eq_some_iff.mp outcome
    cases same
    exact visit_knows handling.server visits knows
  | group =>
    cases outcome
    exact (OnGetGroupInfo_knows ..).mpr knows
  | serve thread chance =>
    obtain ⟨⟨server,place⟩,serves,same⟩ := Option.map_eq_some_iff.mp outcome
    cases same
    exact ((OnGetUserInfo_effect serves).knows _ _).mpr knows

omit outcome in
/-- A request comes inside when it finds its user. -/
theorem inside_of {server after : ChatServer GroupInfo} {request : InfoRequest} {chance : Chance} {place place' : Place}
    (serves : OnGetUserInfo server request chance place = some (after,place')) (inside : place'.Inside) :
    place.Inside ∨ server.Knows request.platform_id := by
  cases place with
  | begin =>
    simp only [OnGetUserInfo] at serves
    split at serves
    · cases serves
      exact inside.elim
    · split at serves
      · cases serves
        exact inside.elim
      · cases serves
        exact inside.elim
  | opponent oppinfo_user_info =>
    simp only [OnGetUserInfo] at serves
    split at serves
    · cases serves
      exact inside.elim
    · rename_i userinfo found
      right
      obtain ⟨pl,known,_⟩ := Option.bind_eq_some_iff.mp found
      rw [ChatServer.Knows,known]
      rfl
  | answered => cases serves
  | _ => exact .inl trivial

theorem after_known (known : handling.Known requests) : next.Known requests := by
  intro thread inside
  apply after_knows outcome
  cases deed with
  | visit visitor =>
    obtain ⟨server,_,same⟩ := Option.map_eq_some_iff.mp outcome
    cases same
    exact known thread inside
  | group =>
    cases outcome
    exact known thread inside
  | serve own chance =>
    obtain ⟨⟨server,place⟩,serves,same⟩ := Option.map_eq_some_iff.mp outcome
    cases same
    by_cases equal : thread = own
    · rw [equal] at inside ⊢
      have inside' : place.Inside := by simpa using inside
      rcases inside_of serves inside' with before | knows
      · exact known own before
      · exact knows
    · simp only [Function.update_of_ne equal] at inside
      exact known thread inside

/-- One deed, from a state in which the requests under way know their platform. -/
theorem keeps_iff_spares (known : handling.Known requests) : handling.Keeps requests next deed ↔ handling.Spares requests deed := by
  have consumed {thread : Nat} {chance : Chance} {infos : Infos} {session : Int64} (same : deed = .serve thread chance)
      (here : handling.place thread = .marked infos session) :
      next.server = handling.server.onPlatform (requests thread).platform_id
        fun pl => (pl.ClearLeaveInfos (requests thread).oppinfo_id).1 := by
    subst same
    obtain ⟨⟨server,place⟩,serves,same⟩ := Option.map_eq_some_iff.mp outcome
    rw [here] at serves
    cases serves
    cases same
    rfl
  have recorded {thread : Nat} {chance : Chance} {infos : Infos} (same : deed = .serve thread chance)
      (here : handling.place thread = .offering infos) :
      next.server = handling.server.onPlatform (requests thread).platform_id
        (·.AddLeaveInfos chance.random (requests thread).oppinfo_id (requests thread).user_id) ∧
      handling.server.Knows (requests thread).platform_id := by
    subst same
    have inside : handling.server.Knows (requests thread).platform_id := by
      apply known thread
      rw [here]
      trivial
    obtain ⟨⟨server,place⟩,serves,same⟩ := Option.map_eq_some_iff.mp outcome
    rw [here] at serves
    cases serves
    cases same
    exact ⟨rfl,inside⟩
  have left {visitor : Visit} {platform_id uid session : Int64} (same : deed = .visit visitor)
      (clears : handling.server.clears visitor = some (platform_id,uid,session)) (tid : Int64) (found : Option Int64) :
      handling.server.Sole next.server platform_id uid tid found ↔
        handling.server.Sole (handling.server.onPlatform platform_id (·.DelMeetingInfos session uid)) platform_id uid tid found := by
    subst same
    obtain ⟨server,visits,same⟩ := Option.map_eq_some_iff.mp outcome
    obtain ⟨socket,departs⟩ := visit_clears handling.server clears
    rw [departs] at visits
    cases visits
    cases same
    simp only [ChatServer.Sole,ClearUserinfo_offer]
  constructor
  · intro keeps
    refine ⟨?_,?_,?_⟩
    · intro thread chance infos session same here
      have sole := keeps.consumed thread chance infos session same here
      rw [consumed same here] at sole
      exact (clear_sole_iff ..).mp sole
    · intro thread chance infos same here
      have sole := keeps.recorded thread chance infos same here
      rw [(recorded same here).1] at sole
      exact (add_sole_iff _ (recorded same here).2 ..).mp sole
    · intro visitor platform_id uid session same clears two
      obtain ⟨tid,member,differ,sole⟩ := keeps.left visitor platform_id uid session same clears two
      exact (leave_sole_iff _ two uid).mp ⟨tid,member,differ,(left same clears tid _).mp sole⟩
  · intro spares
    refine ⟨?_,?_,?_⟩
    · intro thread chance infos session same here
      rw [consumed same here]
      exact (clear_sole_iff ..).mpr (spares.consumed thread chance infos session same here)
    · intro thread chance infos same here
      rw [(recorded same here).1]
      exact (add_sole_iff _ (recorded same here).2 ..).mpr (spares.recorded thread chance infos same here)
    · intro visitor platform_id uid session same clears two
      obtain ⟨tid,member,differ,sole⟩ := (leave_sole_iff _ two uid).mpr (spares.left visitor platform_id uid session same clears two)
      exact ⟨tid,member,differ,(left same clears tid _).mpr sole⟩

omit outcome in
/-- A deed that cannot be done concerns no offer. -/
theorem spares_of_none (stuck : handling.after requests deed = none) : handling.Spares requests deed := by
  refine ⟨?_,?_,?_⟩
  · rintro thread chance infos session rfl here
    simp [Handling.after,Handling.step,here,OnGetUserInfo] at stuck
  · rintro thread chance infos rfl here
    simp [Handling.after,Handling.step,here,OnGetUserInfo] at stuck
  · rintro visitor platform_id uid session rfl clears _
    obtain ⟨socket,departs⟩ := visit_clears handling.server clears
    simp [Handling.after,departs] at stuck

end Runs

/-- A run keeps the offers exactly if each of its steps spares them. -/
theorem offers_kept_iff (requests : Nat → InfoRequest) (data : UserInfo → Data) (deeds : List Deed) :
    Along (Handling.after requests) (fun handling deed => ∀ next, handling.after requests deed = some next → handling.Keeps requests next deed)
      ⟨.start data,fun _ => .begin⟩ deeds ↔
    Along (Handling.after requests) (fun handling deed => handling.Spares requests deed) ⟨.start data,fun _ => .begin⟩ deeds := by
  have start : Handling.Known requests (⟨.start data,fun _ => .begin⟩ : Handling GroupInfo) := fun _ inside => inside.elim
  generalize (⟨.start data,fun _ => .begin⟩ : Handling GroupInfo) = handling at start ⊢
  induction deeds generalizing handling with
  | nil => exact Iff.rfl
  | cons deed deeds ih =>
    have this : (∀ next, handling.after requests deed = some next → handling.Keeps requests next deed) ↔ handling.Spares requests deed := by
      cases outcome : handling.after requests deed with
      | none => exact iff_of_true (fun _ absurd => by cases absurd) (spares_of_none outcome)
      | some next =>
        have exact_ := keeps_iff_spares outcome start
        constructor
        · intro keeps
          exact exact_.mp (keeps next rfl)
        · rintro spares _ ⟨⟩
          exact exact_.mpr spares
    refine and_congr this ?_
    refine forall_congr' fun next => ?_
    refine forall_congr' fun outcome => ?_
    exact ih next (after_known outcome start)

/-- User 7 offers session 100 to user 8, whose request finds it. -/
def foundDeeds : List Deed :=
  hallVisits.map .visit ++ List.replicate 6 (.serve 0 ⟨none,100⟩) ++ List.replicate 4 (.serve 1 nothing)

/-- The offer is there after it was taken. -/
theorem offer_stays : ¬ ∀ requests data deeds, Along (Handling.after requests)
    (fun handling deed => ∀ next, handling.after requests deed = some next → handling.Keeps requests next deed)
      ⟨.start data,fun _ => .begin⟩ deeds := by
  intro every
  have along := (every hallRequests (fun _ => noData) (foundDeeds ++ [.serve 1 nothing])).parts.2 _ rfl
  have keeps := along.1 _ rfl
  have gone := (keeps.consumed 1 nothing _ _ rfl rfl).1
  cases gone

end Migfm.Chat
