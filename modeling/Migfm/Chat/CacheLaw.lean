import Migfm.Library.Runs
import Migfm.Chat.CacheManager

/-! What the cache is for: under every full key a lookup finds what was added
last and not deleted since. The cache does so as long as no narrowed key meets
another one and no member is deleted from a session of one or of more than two. -/
namespace Migfm.Chat
open Basic Library.Runs

/-- The entries of a platform by their full keys. -/
structure Law (UserInfo GroupInfo : Type) where
  users : Int64 → Option UserInfo
  groups : Int64 → Option GroupInfo
  members : Int64 → Finset Int64
  offers : Int64 → Int64 → Option Int64

section Law
variable {UserInfo GroupInfo : Type}

def Law.empty : Law UserInfo GroupInfo := ⟨fun _ => none,fun _ => none,fun _ => ∅,fun _ _ => none⟩

/-- A member leaves a session. A session of two ends, and the one who leaves is
left an offer of it to the other; one without a partner has no offers left. -/
def Law.leave (law : Law UserInfo GroupInfo) (session uid : Int64) : Law UserInfo GroupInfo :=
  let members := law.members session
  if members.card > 2 then {law with members := Function.update law.members session (members.erase uid)}
  else if members.card = 2 then
    {law with
      members := Function.update law.members session ∅
      offers := Function.update law.offers uid fun other =>
        if other ∈ members ∧ other ≠ uid then some session else none}
  else
    {law with
      members := Function.update law.members session (members.erase uid)
      offers := Function.update law.offers uid fun _ => none}

def Law.apply (law : Law UserInfo GroupInfo) : Operation UserInfo GroupInfo → Law UserInfo GroupInfo
  | .addGroupInfos group_id groupinfo => {law with groups := Function.update law.groups group_id (some groupinfo)}
  | .delGroupInfos group_id => {law with groups := Function.update law.groups group_id none}
  | .addUserInfos user_id userinfo => {law with users := Function.update law.users user_id (some userinfo)}
  | .delUserInos user_id => {law with users := Function.update law.users user_id none}
  | .addMeetingInfos session uid =>
    {law with members := Function.update law.members session (insert uid (law.members session))}
  | .addMeetingPair session tid mid => {law with members := Function.update law.members session {tid,mid}}
  | .delMeetingInfos session uid => law.leave session uid
  | .addLeaveInfos session tid mid =>
    {law with offers := Function.update law.offers tid (Function.update (law.offers tid) mid (some session))}
  | .clearLeaveInfos tid => {law with offers := Function.update law.offers tid fun _ => none}
  | .delLeaveInfos tid mid =>
    {law with offers := Function.update law.offers tid (Function.update (law.offers tid) mid none)}
  | _ => law

/-- The elements of a set in ascending order. -/
def Lists (set : Finset Int64) (ids : List Int64) : Prop :=
  ids.Pairwise (fun one other => compare one other = .lt) ∧ ∀ id, id ∈ ids ↔ id ∈ set

/-- The right reply to a lookup. -/
def Law.Answers (user_id : UserInfo → Int64) (law : Law UserInfo GroupInfo) (operation : Operation UserInfo GroupInfo)
    (reply : Reply UserInfo GroupInfo) : Prop :=
  match operation with
  | .getUserInfos uid => reply = .user (law.users uid)
  | .getGroupInfos group_id => reply = .group (law.groups group_id)
  | .checkMeetingInfos session uid => reply = .done (decide (uid ∈ law.members session))
  | .isExitsLeaveInfos tid mid => reply = .session (law.offers mid tid)
  | .sendMeetingMessage session =>
    ∃ ids, Lists (law.members session) ids ∧ reply = .list (some (ids.filterMap law.users))
  | .sendMeetingNotSelf session send_id =>
    ∃ ids, Lists (law.members session) ids ∧
      reply = .list (some ((ids.filterMap law.users).filter fun userinfo => user_id userinfo ≠ send_id))
  | .getGroupListUserInfo session =>
    if law.members session = ∅ then reply = .list none
    else ∃ ids, Lists (law.members session) ids ∧ reply = .list (some (ids.filterMap law.users))
  | .getGroupListUserInfoNotSelf session send_id =>
    if law.members session = ∅ then reply = .list none
    else ∃ ids, Lists ((law.members session).erase send_id) ids ∧ reply = .list (some (ids.filterMap law.users))
  | _ => True

end Law

/-! ### A session as a set -/

/-- The members of a session, each under its own id. -/
def Members (meeting_session : MeetingSession) (set : Finset Int64) : Prop :=
  ∀ uid, meeting_session[uid]? = if uid ∈ set then some uid else none

section Members
variable {meeting_session : MeetingSession} {set : Finset Int64}

theorem Members.empty : Members ∅ ∅ := by
  intro uid
  rw [Std.ExtTreeMap.getElem?_empty,if_neg (Finset.notMem_empty uid)]

/-- Of a session of two, the loop over the members finds the other one. -/
theorem partner {ids : List Int64} (lists : Lists set ids) (two : ids.length = 2) {uid : Int64}
    (member : uid ∈ set) (other : Int64) :
    other = ids.foldl (fun tid id => if id ≠ uid then id else tid) 0 ↔ other ∈ set ∧ other ≠ uid := by
  match ids,two with
  | [first,second],_ =>
    have apart : first ≠ second := by
      rintro rfl
      have less := List.rel_of_pairwise_cons lists.1 (List.mem_singleton_self _)
      rw [Std.compare_self] at less
      exact absurd less (by decide)
    rw [← lists.2 other]
    rcases List.mem_pair.mp ((lists.2 uid).mpr member) with rfl | rfl
    · simp only [List.foldl_cons,List.foldl_nil,ne_eq,not_true,if_false,Ne.symm apart,not_false_eq_true,if_true]
      simp
      grind
    · simp only [List.foldl_cons,List.foldl_nil,ne_eq,not_true,if_false,apart,not_false_eq_true,if_true]
      simp
      grind

variable (members : Members meeting_session set)
include members

theorem Members.insert (uid : Int64) : Members (meeting_session.insert uid uid) (insert uid set) := by
  intro other
  have found := MapAdd_get meeting_session uid other uid
  rw [MapAdd] at found
  rw [found,members other]
  by_cases same : other = uid
  · simp [same]
  · simp [same]

theorem Members.mem_iff (uid : Int64) : uid ∈ meeting_session ↔ uid ∈ set := by
  rw [Std.ExtTreeMap.mem_iff_isSome_getElem?,members uid]
  split <;> simp_all

theorem Members.lists : Lists set meeting_session.keys := by
  refine ⟨Std.ExtTreeMap.ordered_keys,?_⟩
  intro id
  rw [Std.ExtTreeMap.mem_keys,members.mem_iff]

theorem Members.erase_lists (send_id : Int64) :
    Lists (set.erase send_id) (meeting_session.keys.filter (· ≠ send_id)) := by
  refine ⟨members.lists.1.filter _,?_⟩
  intro id
  rw [List.mem_filter,members.lists.2 id,Finset.mem_erase,and_comm]
  simp

theorem Members.size : meeting_session.size = set.card := by
  have same : meeting_session.keys.toFinset = set := by
    ext id
    rw [List.mem_toFinset,members.lists.2 id]
  rw [← keys_card,same]

theorem Members.values : meeting_session.toList.map Prod.snd = meeting_session.keys := by
  rw [← Std.ExtTreeMap.map_fst_toList_eq_keys]
  apply List.map_congr_left
  rintro ⟨key,value⟩ member
  have found := Std.ExtTreeMap.mem_toList_iff_getElem?_eq_some.mp member
  rw [members key] at found
  split at found
  · exact (Option.some.inj found).symm
  · exact absurd found (by simp)

end Members

theorem Members.pair (one other : Int64) :
    Members (((∅ : MeetingSession).insert one one).insert other other) {one,other} := by
  have members := (Members.empty.insert one).insert other
  have same : Insert.insert other (Insert.insert one (∅ : Finset Int64)) = {one,other} := by
    ext uid
    simp [or_comm]
  rwa [same] at members

/-! ### One operation -/

section Platform
variable {UserInfo GroupInfo : Type}

structure Represents (pl : PlatformCache UserInfo GroupInfo) (law : Law UserInfo GroupInfo) : Prop where
  users : ∀ uid, pl.user_infos_map_[uid]? = law.users uid
  groups : ∀ group_id, pl.group_infos_map_[group_id]? = law.groups group_id
  offers : ∀ tid mid, ((pl.leave_infos_map_[tid]?).getD ∅)[mid]? = law.offers tid mid
  members : ∀ session, Members ((pl.meeting_infos_map_[session]?).getD ∅) (law.members session)
  live : ∀ session meeting_session, pl.meeting_infos_map_[session]? = some meeting_session → law.members session ≠ ∅

/-- The condition on the cache before an operation: the keys that pass through
`int` meet no other key, and a member leaves a session of two. -/
def Clear (pl : PlatformCache UserInfo GroupInfo) : Operation UserInfo GroupInfo → Prop
  | .getGroupInfos group_id => Plain pl.group_infos_map_ group_id
  | .getUserInfos uid => Plain pl.user_infos_map_ uid
  | .checkMeetingInfos session _ => Plain pl.meeting_infos_map_ session
  | .addMeetingInfos session _ => Plain pl.meeting_infos_map_ session
  | .delMeetingInfos session uid =>
    let meeting_session := (pl.meeting_infos_map_[session]?).getD ∅
    uid ∈ meeting_session ↔ meeting_session.size = 2
  | .sendMeetingMessage session | .sendMeetingNotSelf session _
  | .getGroupListUserInfo session | .getGroupListUserInfoNotSelf session _ =>
    Plain pl.meeting_infos_map_ session ∧
      ∀ uid ∈ (pl.meeting_infos_map_[session]?).getD ∅, Plain pl.user_infos_map_ uid
  | .addLeaveInfos _ tid _ => Plain pl.leave_infos_map_ tid
  | .isExitsLeaveInfos _ mid => Plain pl.leave_infos_map_ mid
  | .delLeaveInfos tid _ => Plain pl.leave_infos_map_ tid
  | _ => True

theorem represents_empty : Represents (PlatformCache.empty : PlatformCache UserInfo GroupInfo) .empty := by
  refine ⟨fun _ => Std.ExtTreeMap.getElem?_empty,fun _ => Std.ExtTreeMap.getElem?_empty,?_,?_,?_⟩
  · intro tid mid
    rw [PlatformCache.empty,Std.ExtTreeMap.getElem?_empty]
    exact Std.ExtTreeMap.getElem?_empty
  · intro session
    rw [PlatformCache.empty,Std.ExtTreeMap.getElem?_empty]
    exact Members.empty
  · intro session meeting_session found
    rw [PlatformCache.empty,Std.ExtTreeMap.getElem?_empty] at found
    exact absurd found (by simp)

variable {pl : PlatformCache UserInfo GroupInfo} {law : Law UserInfo GroupInfo} (represents : Represents pl law)
include represents

theorem Represents.withUsers {user_infos_map_ : Map UserInfo} {users : Int64 → Option UserInfo}
    (same : ∀ uid, user_infos_map_[uid]? = users uid) : Represents {pl with user_infos_map_} {law with users} :=
  ⟨same,represents.groups,represents.offers,represents.members,represents.live⟩

theorem Represents.withGroups {group_infos_map_ : Map GroupInfo} {groups : Int64 → Option GroupInfo}
    (same : ∀ group_id, group_infos_map_[group_id]? = groups group_id) :
    Represents {pl with group_infos_map_} {law with groups} :=
  ⟨represents.users,same,represents.offers,represents.members,represents.live⟩

/-- The offers under one id change. -/
theorem Represents.withOffers {leave_infos_map_ : Map SessionInfosMap} {tid : Int64} {offers : Int64 → Option Int64}
    (others : ∀ other, other ≠ tid → leave_infos_map_[other]? = pl.leave_infos_map_[other]?)
    (same : ∀ mid, ((leave_infos_map_[tid]?).getD ∅)[mid]? = offers mid) :
    Represents {pl with leave_infos_map_} {law with offers := Function.update law.offers tid offers} := by
  refine ⟨represents.users,represents.groups,?_,represents.members,represents.live⟩
  intro other mid
  show ((leave_infos_map_[other]?).getD ∅)[mid]? = Function.update law.offers tid offers other mid
  by_cases equal : other = tid
  · subst equal
    rw [Function.update_self]
    exact same mid
  · rw [Function.update_of_ne equal,← represents.offers other mid,others other equal]

/-- A session is stored with at least one member. -/
theorem Represents.withSession (session : Int64) {meeting_session : MeetingSession} {set : Finset Int64}
    (members : Members meeting_session set) (some : set ≠ ∅) :
    Represents {pl with meeting_infos_map_ := MapAdd pl.meeting_infos_map_ session meeting_session}
      {law with members := Function.update law.members session set} := by
  refine ⟨represents.users,represents.groups,represents.offers,?_,?_⟩
  · intro other
    simp only [MapAdd_get]
    by_cases equal : other = session
    · subst equal
      rw [if_pos rfl,Function.update_self]
      exact members
    · rw [if_neg equal,Function.update_of_ne equal]
      exact represents.members other
  · intro other stored
    simp only [MapAdd_get]
    by_cases equal : other = session
    · subst equal
      rw [Function.update_self]
      exact fun _ => some
    · rw [if_neg equal,Function.update_of_ne equal]
      exact represents.live other stored

theorem Represents.withoutSession (session : Int64) :
    Represents {pl with meeting_infos_map_ := (MapDel pl.meeting_infos_map_ session).1}
      {law with members := Function.update law.members session ∅} := by
  refine ⟨represents.users,represents.groups,represents.offers,?_,?_⟩
  · intro other
    simp only [MapDel_get]
    by_cases equal : other = session
    · subst equal
      rw [if_pos rfl,Function.update_self]
      exact Members.empty
    · rw [if_neg equal,Function.update_of_ne equal]
      exact represents.members other
  · intro other stored
    simp only [MapDel_get]
    by_cases equal : other = session
    · rw [if_pos equal]
      exact fun absurd => by simp at absurd
    · rw [if_neg equal,Function.update_of_ne equal]
      exact represents.live other stored

theorem Represents.session_none {session : Int64} (absent : pl.meeting_infos_map_[session]? = none) :
    law.members session = ∅ := by
  have members := represents.members session
  rw [absent] at members
  ext uid
  rw [← members.mem_iff]
  simp

theorem Represents.withoutOffers (tid : Int64) :
    Represents {pl with leave_infos_map_ := (MapDel pl.leave_infos_map_ tid).1}
      {law with offers := Function.update law.offers tid fun _ => none} := by
  refine represents.withOffers ?_ ?_
  · intro other apart
    rw [MapDel_get,if_neg apart]
  · intro mid
    rw [MapDel_get,if_pos rfl]
    exact Std.ExtTreeMap.getElem?_empty

/-! The operations that read before they write. -/

theorem represents_addMeetingInfos {session : Int64} (plain : Plain pl.meeting_infos_map_ session) (uid : Int64) :
    Represents (pl.AddMeetingInfos session uid) (law.apply (.addMeetingInfos session uid)) := by
  have members := (represents.members session).insert uid
  rw [← MapGetInt_plain plain] at members
  exact represents.withSession session members (Finset.insert_ne_empty _ _)

theorem represents_addMeetingPair (session tid mid : Int64) :
    Represents (pl.AddMeetingPair session tid mid) (law.apply (.addMeetingPair session tid mid)) :=
  represents.withSession session (Members.pair tid mid) (Finset.insert_ne_empty _ _)

theorem represents_addLeaveInfos {tid : Int64} (plain : Plain pl.leave_infos_map_ tid) (session mid : Int64) :
    Represents (pl.AddLeaveInfos session tid mid) (law.apply (.addLeaveInfos session tid mid)) := by
  have found := MapGetInt_plain plain
  refine represents.withOffers ?_ ?_
  · intro other apart
    rw [MapAdd_get,if_neg apart]
  · intro other
    rw [MapAdd_get,if_pos rfl,Option.getD_some,found]
    have inserted := MapAdd_get ((pl.leave_infos_map_[tid]?).getD ∅) mid other session
    rw [MapAdd] at inserted
    rw [inserted,represents.offers tid other]
    by_cases same : other = mid
    · subst same
      rw [if_pos rfl,Function.update_self]
    · rw [if_neg same,Function.update_of_ne same]

theorem represents_delLeaveInfos {tid : Int64} (plain : Plain pl.leave_infos_map_ tid) (mid : Int64) :
    Represents (pl.DelLeaveInfos tid mid).1 (law.apply (.delLeaveInfos tid mid)) := by
  have found := MapGetInt_plain plain
  have offers := represents.offers tid
  unfold PlatformCache.DelLeaveInfos
  rw [found]
  cases stored : pl.leave_infos_map_[tid]? with
  | none =>
    have same : Function.update law.offers tid (Function.update (law.offers tid) mid none) = law.offers := by
      rw [stored] at offers
      rw [Function.update_eq_self_iff,Function.update_eq_self_iff,← offers mid]
      exact Std.ExtTreeMap.getElem?_empty.symm
    rw [Law.apply,same]
    exact represents
  | some session_infos =>
    rw [stored,Option.getD_some] at offers
    have deleted (other : Int64) :
        (MapDel session_infos mid).1[other]? = Function.update (law.offers tid) mid none other := by
      rw [MapDel_get,offers other]
      by_cases same : other = mid
      · subst same
        rw [if_pos rfl,Function.update_self]
      · rw [if_neg same,Function.update_of_ne same]
    by_cases more : (MapDel session_infos mid).1.size > 0
    · simp only [more,if_true]
      refine represents.withOffers ?_ ?_
      · intro other apart
        rw [MapAdd_get,if_neg apart]
      · intro other
        rw [MapAdd_get,if_pos rfl,Option.getD_some,deleted other]
    · simp only [more,if_false]
      have none_left : (MapDel session_infos mid).1 = ∅ := by
        rw [← Std.ExtTreeMap.isEmpty_iff,Std.ExtTreeMap.isEmpty_eq_size_beq_zero]
        simpa using more
      have cleared : Function.update (law.offers tid) mid none = fun _ => none := by
        funext other
        rw [← deleted other,none_left]
        exact Std.ExtTreeMap.getElem?_empty
      rw [Law.apply,cleared]
      exact represents.withoutOffers tid

theorem represents_delMeetingInfos {session uid : Int64} (clear : Clear pl (.delMeetingInfos session uid)) :
    Represents (pl.DelMeetingInfos session uid) (law.apply (.delMeetingInfos session uid)) := by
  have members := represents.members session
  have size := members.size
  have belongs := members.mem_iff uid
  have clear' : uid ∈ law.members session ↔ (law.members session).card = 2 := by
    rw [← belongs,← size]
    exact clear
  simp only [PlatformCache.DelMeetingInfos,Law.apply,Law.leave,MapGet,size]
  by_cases many : (law.members session).card > 2
  · have stranger : uid ∉ law.members session := by
      rw [clear']
      omega
    simp only [many,if_true,Finset.erase_eq_of_notMem stranger,Function.update_eq_self]
    exact represents
  · simp only [many,if_false]
    by_cases two : (law.members session).card = 2
    · simp only [two,if_true]
      have member := clear'.mpr two
      refine (represents.withoutSession session).withOffers ?_ ?_
      · intro other apart
        rw [MapAdd_get,if_neg apart]
      · intro other
        rw [MapAdd_get,if_pos rfl,Option.getD_some]
        have inserted := MapAdd_get (∅ : SessionInfosMap)
          ((((pl.meeting_infos_map_[session]?).getD ∅).keys).foldl (fun tid id => if id ≠ uid then id else tid) 0)
          other session
        rw [MapAdd] at inserted
        rw [inserted]
        have keys : ((pl.meeting_infos_map_[session]?).getD ∅).keys.length = 2 := by
          rw [Std.ExtTreeMap.length_keys,size,two]
        simp only [partner members.lists keys member other,Std.ExtTreeMap.getElem?_empty]
    · simp only [two,if_false]
      have stranger : uid ∉ law.members session := by
        rw [clear']
        exact two
      simp only [Finset.erase_eq_of_notMem stranger,Function.update_eq_self]
      exact represents.withoutOffers uid

/-- An operation in a clear state leaves the entries the law says. -/
theorem represents_perform (user_id : UserInfo → Int64) {operation : Operation UserInfo GroupInfo}
    (clear : Clear pl operation) : Represents (pl.perform user_id operation).1 (law.apply operation) := by
  cases operation with
  | addGroupInfos group_id groupinfo =>
    refine represents.withGroups ?_
    intro other
    rw [MapAdd_get,represents.groups other,Function.update_apply]
  | delGroupInfos group_id =>
    refine represents.withGroups ?_
    intro other
    have erased := MapDel_get pl.group_infos_map_ group_id other
    rw [represents.groups other,← Function.update_apply] at erased
    exact erased
  | addUserInfos uid userinfo =>
    refine represents.withUsers ?_
    intro other
    rw [MapAdd_get,represents.users other,Function.update_apply]
  | delUserInos uid =>
    refine represents.withUsers ?_
    intro other
    have erased := MapDel_get pl.user_infos_map_ uid other
    rw [represents.users other,← Function.update_apply] at erased
    exact erased
  | addMeetingInfos session uid => exact represents_addMeetingInfos represents clear uid
  | addMeetingPair session tid mid => exact represents_addMeetingPair represents session tid mid
  | delMeetingInfos session uid => exact represents_delMeetingInfos represents clear
  | addLeaveInfos session tid mid => exact represents_addLeaveInfos represents clear session mid
  | clearLeaveInfos tid => exact represents.withoutOffers tid
  | delLeaveInfos tid mid => exact represents_delLeaveInfos represents clear mid
  | getGroupInfos | getUserInfos | checkMeetingInfos | sendMeetingMessage | sendMeetingNotSelf | isExitsLeaveInfos
  | getGroupListUserInfo | getGroupListUserInfoNotSelf => exact represents

theorem Represents.found_members {session : Int64} {meeting_session : MeetingSession}
    (found : pl.meeting_infos_map_[session]? = some meeting_session) :
    Members meeting_session (law.members session) := by
  have members := represents.members session
  rw [found] at members
  exact members

theorem Represents.filterMap_users {ids : List Int64} (plain : ∀ uid ∈ ids, Plain pl.user_infos_map_ uid) :
    ids.filterMap (MapGetInt pl.user_infos_map_) = ids.filterMap law.users := by
  apply List.filterMap_congr
  intro uid member
  rw [MapGetInt_plain (plain uid member),represents.users uid]

theorem sendMeetingMessage_answers {session : Int64} (clear : Clear pl (.sendMeetingMessage session)) :
    ∃ ids, Lists (law.members session) ids ∧ pl.SendMeetingMessage session = ids.filterMap law.users := by
  obtain ⟨plain,plains⟩ := clear
  have members := represents.members session
  refine ⟨_,members.lists,?_⟩
  rw [PlatformCache.SendMeetingMessage,MapGetInt_plain plain]
  apply List.filterMap_congr
  intro uid member
  rw [MapGetInt_narrow (plains uid (Std.ExtTreeMap.mem_keys.mp member)),represents.users uid]

/-- A lookup in a clear state answers what the law says. -/
theorem answers_perform (user_id : UserInfo → Int64) {operation : Operation UserInfo GroupInfo}
    (clear : Clear pl operation) : law.Answers user_id operation (pl.perform user_id operation).2 := by
  cases operation with
  | getGroupInfos group_id =>
    show Reply.group (pl.GetGroupInfos group_id) = _
    rw [PlatformCache.GetGroupInfos,MapGetInt_plain clear,represents.groups group_id]
  | getUserInfos uid =>
    show Reply.user (pl.GetUserInfos uid) = _
    rw [PlatformCache.GetUserInfos,MapGetInt_plain clear,represents.users uid]
  | checkMeetingInfos session uid =>
    show Reply.done (pl.CheckMeetingInfos session uid) = _
    have members := represents.members session
    rw [PlatformCache.CheckMeetingInfos,MapGetInt_plain clear]
    cases found : pl.meeting_infos_map_[session]? with
    | none =>
      rw [represents.session_none found]
      simp
    | some meeting_session =>
      have member := represents.found_members found uid
      simp only [MapGet,member]
      split <;> simp_all
  | isExitsLeaveInfos tid mid =>
    show Reply.session (pl.IsExitsLeaveInfos tid mid) = _
    have offers := represents.offers mid tid
    rw [PlatformCache.IsExitsLeaveInfos,MapGetInt_plain clear,← offers]
    cases pl.leave_infos_map_[mid]? with
    | none => rw [Option.getD_none,Std.ExtTreeMap.getElem?_empty]; rfl
    | some session_infos => rfl
  | sendMeetingMessage session =>
    obtain ⟨ids,lists,sent⟩ := sendMeetingMessage_answers represents clear
    exact ⟨ids,lists,congrArg (fun list => Reply.list (some list)) sent⟩
  | sendMeetingNotSelf session send_id =>
    obtain ⟨ids,lists,sent⟩ := sendMeetingMessage_answers represents clear
    refine ⟨ids,lists,?_⟩
    show Reply.list (some (pl.SendMeetingNotSelf user_id session send_id)) = _
    rw [PlatformCache.SendMeetingNotSelf,sent]
  | getGroupListUserInfo session =>
    obtain ⟨plain,plains⟩ := clear
    show if law.members session = ∅ then Reply.list (pl.GetGroupListUserInfo session) = .list none
      else ∃ ids, Lists (law.members session) ids ∧
        Reply.list (pl.GetGroupListUserInfo session) = .list (some (ids.filterMap law.users))
    rw [PlatformCache.GetGroupListUserInfo,MapGetInt_plain plain]
    cases found : pl.meeting_infos_map_[session]? with
    | none =>
      rw [if_pos (represents.session_none found)]
      rfl
    | some meeting_session =>
      have members := represents.found_members found
      rw [found] at plains
      rw [if_neg (represents.live session meeting_session found)]
      refine ⟨_,members.lists,?_⟩
      have users := @Represents.filterMap_users _ _ _ _ represents meeting_session.keys
        (fun uid member => plains uid (Std.ExtTreeMap.mem_keys.mp member))
      simp only [Option.bind_eq_bind,Option.bind_some,members.values,users]
      rfl
  | getGroupListUserInfoNotSelf session send_id =>
    obtain ⟨plain,plains⟩ := clear
    show if law.members session = ∅ then Reply.list (pl.GetGroupListUserInfoNotSelf session send_id) = .list none
      else ∃ ids, Lists ((law.members session).erase send_id) ids ∧
        Reply.list (pl.GetGroupListUserInfoNotSelf session send_id) = .list (some (ids.filterMap law.users))
    rw [PlatformCache.GetGroupListUserInfoNotSelf,MapGetInt_plain plain]
    cases found : pl.meeting_infos_map_[session]? with
    | none =>
      rw [if_pos (represents.session_none found)]
      rfl
    | some meeting_session =>
      have members := represents.found_members found
      rw [found] at plains
      rw [if_neg (represents.live session meeting_session found)]
      refine ⟨_,members.erase_lists send_id,?_⟩
      have users := @Represents.filterMap_users _ _ _ _ represents (meeting_session.keys.filter (· ≠ send_id))
        (fun uid member => plains uid (Std.ExtTreeMap.mem_keys.mp (List.mem_of_mem_filter member)))
      simp only [Option.bind_eq_bind,Option.bind_some,members.values,users]
      rfl
  | _ => exact trivial

end Platform

/-! ### All platforms -/

section Manager
variable {UserInfo GroupInfo : Type} (user_id : UserInfo → Int64)

/-- The entries of the platforms that are known. -/
abbrev Laws (UserInfo GroupInfo : Type) := Int64 → Option (Law UserInfo GroupInfo)

def Laws.apply (laws : Laws UserInfo GroupInfo) : Request UserInfo GroupInfo → Laws UserInfo GroupInfo
  | .setPlatformInfo platform_id => Function.update laws platform_id (some ((laws platform_id).getD .empty))
  | .operate platform_id operation =>
    Function.update laws platform_id ((laws platform_id).map fun law => law.apply operation)

def Laws.Answers (laws : Laws UserInfo GroupInfo) (request : Request UserInfo GroupInfo)
    (reply : Reply UserInfo GroupInfo) : Prop :=
  match request with
  | .setPlatformInfo _ => True
  | .operate platform_id operation =>
    match laws platform_id with
    | none => reply = operation.failed
    | some law => law.Answers user_id operation reply

/-- Every lookup of the run answers what was added last under its key and not deleted since. -/
def Lawful (manager : PlatformChatCacheManager UserInfo GroupInfo) (laws : Laws UserInfo GroupInfo) :
    List (Request UserInfo GroupInfo) → Prop
  | [] => True
  | request::requests =>
    laws.Answers user_id request (perform user_id manager request).2 ∧
      Lawful (perform user_id manager request).1 (laws.apply request) requests

def handle (manager : PlatformChatCacheManager UserInfo GroupInfo) (request : Request UserInfo GroupInfo) :
    Option (PlatformChatCacheManager UserInfo GroupInfo) :=
  some (perform user_id manager request).1

def ClearRequest (manager : PlatformChatCacheManager UserInfo GroupInfo) : Request UserInfo GroupInfo → Prop
  | .setPlatformInfo _ => True
  | .operate platform_id operation => ∀ pl, manager[platform_id]? = some pl → Clear pl operation

/-- The same platforms are known, each with the entries of its law. -/
def Stands (manager : PlatformChatCacheManager UserInfo GroupInfo) (laws : Laws UserInfo GroupInfo) : Prop :=
  ∀ platform_id, (manager[platform_id]? = none ∧ laws platform_id = none) ∨
    ∃ pl law, manager[platform_id]? = some pl ∧ laws platform_id = some law ∧ Represents pl law

theorem stands_empty : Stands (∅ : PlatformChatCacheManager UserInfo GroupInfo) fun _ => none :=
  fun _ => .inl ⟨Std.ExtTreeMap.getElem?_empty,rfl⟩

section Step
variable {manager : PlatformChatCacheManager UserInfo GroupInfo} {laws : Laws UserInfo GroupInfo}
  (stands : Stands manager laws)
include stands

theorem Stands.insert (platform_id : Int64) {pl : PlatformCache UserInfo GroupInfo} {law : Law UserInfo GroupInfo}
    (represents : Represents pl law) :
    Stands (manager.insert platform_id pl) (Function.update laws platform_id (some law)) := by
  intro other
  have stored := MapAdd_get manager platform_id other pl
  rw [MapAdd] at stored
  rw [stored,Function.update_apply]
  split
  · exact .inr ⟨pl,law,rfl,rfl,represents⟩
  · exact stands other

theorem stands_perform {request : Request UserInfo GroupInfo} (clear : ClearRequest manager request) :
    Stands (perform user_id manager request).1 (laws.apply request) ∧
      laws.Answers user_id request (perform user_id manager request).2 := by
  cases request with
  | setPlatformInfo platform_id =>
    refine ⟨?_,trivial⟩
    rcases stands platform_id with ⟨absent,unknown⟩ | ⟨pl,law,found,known,represents⟩
    · simp only [perform,SetPlatformInfo,absent,Laws.apply,unknown,Option.getD_none]
      exact stands.insert platform_id represents_empty
    · simp only [perform,SetPlatformInfo,found,Laws.apply,Option.getD_some,known]
      rw [← known,Function.update_eq_self]
      exact stands
  | operate platform_id operation =>
    rcases stands platform_id with ⟨absent,unknown⟩ | ⟨pl,law,found,known,represents⟩
    · simp only [perform,absent,Laws.apply,unknown,Laws.Answers,Option.map_none,and_true]
      rw [← unknown,Function.update_eq_self]
      exact stands
    · have clear' := clear pl found
      simp only [perform,found,Laws.apply,known,Laws.Answers,Option.map_some]
      exact ⟨stands.insert platform_id (represents_perform represents user_id clear'),
        answers_perform represents user_id clear'⟩

theorem lawful_from {requests : List (Request UserInfo GroupInfo)}
    (clear : Along (handle user_id) ClearRequest manager requests) : Lawful user_id manager laws requests := by
  induction requests generalizing manager laws with
  | nil => exact trivial
  | cons request requests ih =>
    obtain ⟨stands',answers⟩ := stands_perform user_id stands clear.1
    exact ⟨answers,ih stands' (clear.2 _ rfl)⟩

end Step

end Manager

/-- A user is added and found. -/
def shortRequests : List (Request Nat Nat) :=
  [.setPlatformInfo 10000,.operate 10000 (.addUserInfos 7 1),.operate 10000 (.getUserInfos 7)]

/-- A user is added, and one that differs from it in the high half is looked up. -/
def wideRequests : List (Request Nat Nat) :=
  [.setPlatformInfo 10000,.operate 10000 (.addUserInfos 7 1),.operate 10000 (.getUserInfos 4294967303)]

end Migfm.Chat
