import Migfm.Chat.Rendezvous

/-! Leaving a session. A member is taken out of a session of two and out of no
other one: of a session of more the copy is edited, and a session of one stays. -/
namespace Migfm.Chat
open Basic Library.Runs

section Departure
variable {UserInfo GroupInfo : Type}

namespace PlatformCache

/-- Who is stored in a session. -/
def members (pl : PlatformCache UserInfo GroupInfo) (session : Int64) : Finset Int64 :=
  ((pl.meeting_infos_map_[session]?).getD ∅).keys.toFinset

theorem mem_members (pl : PlatformCache UserInfo GroupInfo) (session uid : Int64) :
    uid ∈ pl.members session ↔ uid ∈ (pl.meeting_infos_map_[session]?).getD ∅ := by
  rw [members,List.mem_toFinset,Std.ExtTreeMap.mem_keys]

/-- Every session has members, each under its own id. -/
def Rooms (pl : PlatformCache UserInfo GroupInfo) : Prop :=
  ∀ (session : Int64) meeting_session, pl.meeting_infos_map_[session]? = some meeting_session →
    Members meeting_session meeting_session.keys.toFinset

end PlatformCache

/-- What leaving a session is to do. The member is in it no more, nor does
anything that is sent to the session or listed of it reach it; the others stay, or
the one who remains is recorded with an offer to the one who left. -/
structure Left (pl : PlatformCache UserInfo GroupInfo) (session uid : Int64) : Prop where
  gone : uid ∉ (pl.DelMeetingInfos session uid).members session
  check : (pl.DelMeetingInfos session uid).CheckMeetingInfos session uid = false
  fanout : ∃ ids : List Int64,
    (∀ id ∈ ids, id ≠ uid ∧ (pl.DelMeetingInfos session uid).CheckMeetingInfos session id) ∧
      (pl.DelMeetingInfos session uid).SendMeetingMessage session =
        ids.filterMap fun id => MapGetInt pl.user_infos_map_ (narrow id)
  list : ∀ list, ((pl.DelMeetingInfos session uid).GetGroupListUserInfo session = some list ∨
      ∃ send_id, (pl.DelMeetingInfos session uid).GetGroupListUserInfoNotSelf session send_id = some list) →
    ∃ ids : List Int64, (∀ id ∈ ids, id ≠ uid ∧ (pl.DelMeetingInfos session uid).CheckMeetingInfos session id) ∧
      list = ids.filterMap (MapGetInt pl.user_infos_map_)
  others : 2 < (pl.members session).card → ∀ other, other ≠ uid →
    (other ∈ (pl.DelMeetingInfos session uid).members session ↔ other ∈ pl.members session)
  dissolved : (pl.members session).card = 2 → (pl.DelMeetingInfos session uid).members session = ∅ ∧
    ∀ other ∈ pl.members session, other ≠ uid →
      ((pl.DelMeetingInfos session uid).leave_infos_map_[uid]?).bind (fun session_infos => session_infos[other]?) =
        some session
  elsewhere : ∀ other, other ≠ session →
    (pl.DelMeetingInfos session uid).meeting_infos_map_[other]? = pl.meeting_infos_map_[other]?

theorem DelMeetingInfos_meetings (pl : PlatformCache UserInfo GroupInfo) (session uid : Int64) :
    (pl.DelMeetingInfos session uid).meeting_infos_map_ =
      if (pl.members session).card = 2 then (MapDel pl.meeting_infos_map_ session).1 else pl.meeting_infos_map_ := by
  have size := keys_card ((pl.meeting_infos_map_[session]?).getD ∅)
  simp only [PlatformCache.DelMeetingInfos,MapGet,← size]
  rw [← PlatformCache.members]
  by_cases two : (pl.members session).card = 2
  · simp only [two,if_true,Nat.lt_irrefl,if_false]
  · simp only [two,if_false]
    split <;> rfl

/-! ### Sessions in reachable caches -/

section Rooms
variable {pl : PlatformCache UserInfo GroupInfo} (rooms : pl.Rooms)
include rooms

theorem PlatformCache.Rooms.members_at (session : Int64) :
    Members ((pl.meeting_infos_map_[session]?).getD ∅) (pl.members session) := by
  unfold PlatformCache.members
  cases found : pl.meeting_infos_map_[session]? with
  | some meeting_session => exact rooms session meeting_session found
  | none => exact Members.empty

/-- A session gets these members. -/
theorem PlatformCache.Rooms.set {meeting_session : MeetingSession} {set : Finset Int64} (session : Int64)
    (members : Members meeting_session set) :
    PlatformCache.Rooms {pl with meeting_infos_map_ := MapAdd pl.meeting_infos_map_ session meeting_session} := by
  intro other stored found
  rcases MapAdd_found found with ⟨rfl,rfl⟩ | before
  · have same_set : stored.keys.toFinset = set := by
      ext id
      rw [List.mem_toFinset,members.lists.2 id]
    rw [same_set]
    exact members
  · exact rooms other stored before

theorem PlatformCache.Rooms.del (session uid : Int64) : (pl.DelMeetingInfos session uid).Rooms := by
  simp only [PlatformCache.DelMeetingInfos]
  split
  · exact rooms
  · split
    · intro other stored found
      exact rooms other stored (MapDel_found found)
    · exact rooms

theorem PlatformCache.Rooms.perform (user_id : UserInfo → Int64) (operation : Operation UserInfo GroupInfo) :
    (pl.perform user_id operation).1.Rooms := by
  cases operation with
  | addMeetingInfos session uid => exact rooms.set session ((rooms.members_at (narrow session)).insert uid)
  | addMeetingPair session tid mid => exact rooms.set session (Members.pair tid mid)
  | delMeetingInfos session uid => exact rooms.del session uid
  | delLeaveInfos tid mid =>
    simp only [PlatformCache.perform,PlatformCache.DelLeaveInfos]
    split
    · exact rooms
    · split <;> exact rooms
  | _ => exact rooms

theorem PlatformCache.Rooms.performs (user_id : UserInfo → Int64) (operations : List (Operation UserInfo GroupInfo)) :
    (operations.foldl (fun pl operation => (pl.perform user_id operation).1) pl).Rooms := by
  induction operations generalizing pl with
  | nil => exact rooms
  | cons operation operations ih => exact ih (rooms.perform user_id operation)

/-! ### One departure -/

theorem DelMeetingInfos_offer {session uid : Int64} (member : uid ∈ pl.members session)
    (two : (pl.members session).card = 2) {other : Int64} (other_member : other ∈ pl.members session)
    (apart : other ≠ uid) :
    ((pl.DelMeetingInfos session uid).leave_infos_map_[uid]?).bind (fun session_infos => session_infos[other]?) =
      some session := by
  have members := rooms.members_at session
  have size := members.size
  have keys : ((pl.meeting_infos_map_[session]?).getD ∅).keys.length = 2 := by
    rw [Std.ExtTreeMap.length_keys,size,two]
  have found := (partner members.lists keys member other).mpr ⟨other_member,apart⟩
  simp only [PlatformCache.DelMeetingInfos,MapGet,size,two,Nat.lt_irrefl,if_false,if_true,MapAdd_get,Option.bind_some]
  rw [← found]
  exact Std.ExtTreeMap.getElem?_insert_self

omit rooms in
/-- Whatever is left under the narrowed number are members that can be asked for. -/
theorem check_of_read {session id : Int64} (read : id ∈ (MapGetInt pl.meeting_infos_map_ session).getD ∅) :
    pl.CheckMeetingInfos session id = true := by
  rw [PlatformCache.CheckMeetingInfos]
  cases found : MapGetInt pl.meeting_infos_map_ session with
  | none =>
    rw [found] at read
    exact absurd read Std.ExtTreeMap.not_mem_empty
  | some meeting_session =>
    rw [found,Option.getD_some] at read
    exact Std.ExtTreeMap.mem_iff_isSome_getElem?.mp read

theorem left_of {session uid : Int64} (member : uid ∈ pl.members session) (two : (pl.members session).card = 2)
    (apart : narrow session ≠ session → pl.CheckMeetingInfos session uid = false) : Left pl session uid := by
  have meetings := DelMeetingInfos_meetings pl session uid
  rw [if_pos two] at meetings
  have rooms' := rooms.del session uid
  have erased (other : Int64) : (pl.DelMeetingInfos session uid).meeting_infos_map_[other]? =
      if other = session then none else pl.meeting_infos_map_[other]? := by
    rw [meetings,MapDel_get]
  have empty : (pl.DelMeetingInfos session uid).members session = ∅ := by
    rw [PlatformCache.members,erased,if_pos rfl]
    rfl
  have check : (pl.DelMeetingInfos session uid).CheckMeetingInfos session uid = false := by
    by_cases fits : narrow session = session
    · rw [PlatformCache.CheckMeetingInfos,MapGetInt,erased,if_pos fits]
    · rw [PlatformCache.CheckMeetingInfos,MapGetInt,erased,if_neg fits]
      exact apart fits
  have reached {id : Int64} (read : id ∈ (MapGetInt (pl.DelMeetingInfos session uid).meeting_infos_map_ session).getD ∅) :
      id ≠ uid ∧ (pl.DelMeetingInfos session uid).CheckMeetingInfos session id := by
    have found := check_of_read read
    refine ⟨?_,found⟩
    rintro rfl
    rw [check] at found
    cases found
  have users := PlatformCache.DelMeetingInfos_users pl session uid
  refine ⟨?_,check,?_,?_,?_,?_,?_⟩
  · rw [empty]
    exact Finset.notMem_empty uid
  · refine ⟨_,?_,congrArg (fun users => List.filterMap (fun id => MapGetInt users (narrow id)) _) users⟩
    intro id listed
    exact reached (Std.ExtTreeMap.mem_keys.mp listed)
  · have values {meeting_session : MeetingSession}
        (found : MapGetInt (pl.DelMeetingInfos session uid).meeting_infos_map_ session = some meeting_session) :
        meeting_session.toList.map Prod.snd = meeting_session.keys ∧ ∀ id ∈ meeting_session.keys,
          id ≠ uid ∧ (pl.DelMeetingInfos session uid).CheckMeetingInfos session id := by
      refine ⟨(rooms' _ meeting_session found).values,?_⟩
      intro id listed
      refine reached ?_
      rw [found]
      exact Std.ExtTreeMap.mem_keys.mp listed
    rintro list (listed | ⟨send_id,listed⟩)
    · obtain ⟨meeting_session,found,listed⟩ := Option.bind_eq_some_iff.mp listed
      cases listed
      exact ⟨_,(values found).2,by rw [(values found).1,users]⟩
    · obtain ⟨meeting_session,found,listed⟩ := Option.bind_eq_some_iff.mp listed
      cases listed
      refine ⟨meeting_session.keys.filter (· ≠ send_id),?_,by rw [(values found).1,users]⟩
      intro id listed
      exact (values found).2 id (List.mem_of_mem_filter listed)
  · intro many
    omega
  · intro _
    exact ⟨empty,fun other other_member differ => DelMeetingInfos_offer rooms member two other_member differ⟩
  · intro other differ
    rw [erased,if_neg differ]

omit rooms in
theorem left_only {session uid : Int64} (member : uid ∈ pl.members session) (left : Left pl session uid) :
    (pl.members session).card = 2 ∧ (narrow session ≠ session → pl.CheckMeetingInfos session uid = false) := by
  have meetings := DelMeetingInfos_meetings pl session uid
  have two : (pl.members session).card = 2 := by
    by_contra other
    rw [if_neg other] at meetings
    have still : uid ∈ (pl.DelMeetingInfos session uid).members session := by
      rw [PlatformCache.members,meetings]
      exact member
    exact left.gone still
  refine ⟨two,?_⟩
  intro wide
  have check := left.check
  rw [if_pos two] at meetings
  rw [PlatformCache.CheckMeetingInfos,meetings,MapGetInt,MapDel_get,if_neg wide] at check
  exact check

end Rooms

end Departure

/-! ### Quitting and closing -/

inductive Departure
  | quit (socket : Int32) (platform_id user_id session : Int64)
  | close (socket : Int32)

section Farewell
variable {GroupInfo : Type}

def depart (server : ChatServer GroupInfo) : Departure → ChatServer GroupInfo × List Sent
  | .quit socket platform_id user_id session => OnUserQuit server socket platform_id user_id session
  | .close socket => OnAberrant server socket

def ChatServer.members (server : ChatServer GroupInfo) (platform_id session : Int64) : Finset Int64 :=
  ((server.meeting platform_id session).getD ∅).keys.toFinset

/-- The user who leaves, and the session that the request or the user's `Data` names. -/
def Leaver (server : ChatServer GroupInfo) (departure : Departure) (platform_id uid named : Int64) : Prop :=
  match departure with
  | .quit _ platform user_id session => platform = platform_id ∧ user_id = uid ∧ session = named ∧
    ∃ userinfo, server.registry.user platform_id uid = some userinfo
  | .close socket => ∃ userinfo, server.GetSocket socket = some userinfo ∧
    (server.data userinfo).platform_id = platform_id ∧ (server.data userinfo).user_id = uid ∧
      (server.data userinfo).session = named

/-- The other members who are online. -/
def ChatServer.OnlineOther (server : ChatServer GroupInfo) (platform_id session uid : Int64) (userinfo : UserInfo) : Prop :=
  ∃ other ∈ server.members platform_id session, other ≠ uid ∧ server.registry.user platform_id other = some userinfo

/-- The list has each of these once. -/
def Once (list : List UserInfo) (these : UserInfo → Prop) : Prop :=
  list.Nodup ∧ ∀ userinfo, userinfo ∈ list ↔ these userinfo

/-- The others of the session are told once that the user leaves, nobody else is,
and the user is in no session any more. -/
structure Farewell (server : ChatServer GroupInfo) (departure : Departure) (platform_id session uid : Int64) : Prop where
  told : ∃ audience, Once audience (server.OnlineOther platform_id session uid) ∧
    (depart server departure).2.Perm (audience.map fun userinfo =>
      ((server.data userinfo).socket,.userQuitNotification {platform_id, user_id := uid}))
  gone : ∀ other, uid ∉ (depart server departure).1.members platform_id other

/-- `OnUserQuit` looks for the user under the narrowed id. -/
def Heard (server : ChatServer GroupInfo) : Departure → Prop
  | .quit _ platform_id user_id _ => server.GetUserInfos platform_id user_id ≠ none
  | .close _ => True

/-- Whom a session number that `int` does not hold finds: the online members of
the session stored under the narrowed number. -/
def ChatServer.echo (server : ChatServer GroupInfo) (platform_id session uid : Int64) : List UserInfo :=
  if narrow session = session then []
  else
    let meeting_session := (server.meeting platform_id (narrow session)).getD ∅
    (meeting_session.keys.filterMap (server.GetUserInfos platform_id)).filter fun userinfo =>
      (server.data userinfo).user_id ≠ narrow uid

/-- The leaver names the session, which has one other member, and is in no other
one; the other member is offline, or is who a wide number finds. -/
structure Unnoticed (server : ChatServer GroupInfo) (departure : Departure) (platform_id session uid named : Int64) :
    Prop where
  heard : Heard server departure
  named : named = session
  pair : (server.members platform_id session).card = 2
  single : ∀ other, other ≠ session → uid ∉ server.members platform_id other
  reached : ∃ audience, Once audience (server.OnlineOther platform_id session uid) ∧ (audience = [] ∨ narrow uid = uid) ∧
    ((server.echo platform_id session uid).map fun userinfo => (server.data userinfo).socket).Perm
      (audience.map fun userinfo => (server.data userinfo).socket)

theorem depart_heard {server : ChatServer GroupInfo} {departure : Departure} {platform_id uid named : Int64}
    (leaver : Leaver server departure platform_id uid named) (heard : Heard server departure) :
    ∃ socket, depart server departure = ClearUserinfo (server.DelSocket socket) platform_id uid named := by
  cases departure with
  | quit socket platform user_id session =>
    obtain ⟨rfl,rfl,rfl,_⟩ := leaver
    obtain ⟨userinfo,found⟩ := Option.ne_none_iff_exists'.mp heard
    refine ⟨socket,?_⟩
    simp only [depart,OnUserQuit,found]
  | close socket =>
    obtain ⟨userinfo,found,rfl,rfl,rfl⟩ := leaver
    refine ⟨socket,?_⟩
    simp only [depart,OnAberrant,found]

theorem depart_unheard {server : ChatServer GroupInfo} {departure : Departure} (unheard : ¬Heard server departure) :
    depart server departure = (server,[]) := by
  cases departure with
  | quit socket platform_id user_id session => simp only [depart,OnUserQuit,not_not.mp unheard]
  | close socket => exact absurd trivial unheard

section Clear
variable {server : ChatServer GroupInfo} {platform_id : Int64} {pl : PlatformCache UserInfo GroupInfo}
  (known : server.platform_cache_[platform_id]? = some pl)
include known

theorem members_known (session : Int64) : server.members platform_id session = pl.members session := by
  rw [ChatServer.members,ChatServer.meeting,known]
  rfl

theorem ClearUserinfo_sent (uid named : Int64) :
    (ClearUserinfo server platform_id uid named).2 =
      ((pl.DelMeetingInfos named uid).SendMeetingNotSelf (fun userinfo => (server.data userinfo).user_id) named
        (narrow uid)).map fun userinfo =>
          ((server.data userinfo).socket,.userQuitNotification {platform_id, user_id := narrow uid}) := by
  have after := onPlatform_cache server platform_id platform_id (·.DelMeetingInfos named uid)
  rw [if_pos rfl,known,Option.map_some] at after
  simp only [ClearUserinfo,ChatServer.SendQuitInfoSession,after,onPlatform_data]

theorem ClearUserinfo_members (uid named other : Int64) :
    (ClearUserinfo server platform_id uid named).1.members platform_id other =
      (pl.DelMeetingInfos named uid).members other := by
  have after := onPlatform_cache server platform_id platform_id (·.DelMeetingInfos named uid)
  rw [if_pos rfl,known,Option.map_some] at after
  have kept := onPlatform_cache (server.onPlatform platform_id (·.DelMeetingInfos named uid)) platform_id platform_id
    fun pl => (pl.DelUserInos uid).1
  rw [if_pos rfl,after,Option.map_some] at kept
  exact members_known kept other

end Clear

/-- Once the session is dissolved, its number finds nobody but the echo. -/
theorem dissolved_echo {server : ChatServer GroupInfo} {platform_id session uid : Int64}
    {pl : PlatformCache UserInfo GroupInfo} (known : server.platform_cache_[platform_id]? = some pl)
    (two : (pl.members session).card = 2) :
    (pl.DelMeetingInfos session uid).SendMeetingNotSelf (fun userinfo => (server.data userinfo).user_id) session
      (narrow uid) = server.echo platform_id session uid := by
  have meetings := DelMeetingInfos_meetings pl session uid
  rw [if_pos two] at meetings
  have users (id : Int64) : server.GetUserInfos platform_id id = MapGetInt pl.user_infos_map_ (narrow id) := by
    rw [ChatServer.GetUserInfos,known,MapGetInt,narrow_narrow]
    rfl
  simp only [PlatformCache.SendMeetingNotSelf,PlatformCache.SendMeetingMessage,meetings,
    PlatformCache.DelMeetingInfos_users,MapGetInt,MapDel_get,ChatServer.echo,ChatServer.meeting,known]
  by_cases fits : narrow session = session
  · rw [if_pos fits,if_pos fits]
    rfl
  · rw [if_neg fits,if_neg fits]
    simp only [funext users,MapGetInt]
    rfl

theorem member_known {server : ChatServer GroupInfo} {platform_id session uid : Int64}
    (member : uid ∈ server.members platform_id session) : ∃ pl, server.platform_cache_[platform_id]? = some pl := by
  rw [← Option.ne_none_iff_exists']
  intro unknown
  rw [ChatServer.members,ChatServer.meeting,unknown,List.mem_toFinset,Std.ExtTreeMap.mem_keys] at member
  exact absurd member Std.ExtTreeMap.not_mem_empty

/-- A departure is what it is meant to be exactly if nobody has to be told of it. -/
theorem farewell_iff {server : ChatServer GroupInfo} {departure : Departure} {platform_id session uid named : Int64}
    (leaver : Leaver server departure platform_id uid named) (member : uid ∈ server.members platform_id session) :
    Farewell server departure platform_id session uid ↔ Unnoticed server departure platform_id session uid named := by
  obtain ⟨pl,known⟩ := member_known member
  have members := members_known known
  have gone (two : (pl.members named).card = 2) (other : Int64) :
      (pl.DelMeetingInfos named uid).members other = if other = named then ∅ else pl.members other := by
    rw [PlatformCache.members,DelMeetingInfos_meetings,if_pos two,MapDel_get]
    split
    · rfl
    · rfl
  constructor
  · intro farewell
    have heard : Heard server departure := by
      by_contra unheard
      have still := farewell.gone session
      rw [depart_unheard unheard] at still
      exact still member
    obtain ⟨socket,departs⟩ := depart_heard leaver heard
    have left : (server.DelSocket socket).platform_cache_[platform_id]? = some pl := known
    have after : ∀ other, uid ∉ (pl.DelMeetingInfos named uid).members other := by
      intro other
      rw [← ClearUserinfo_members left uid named other,← departs]
      exact farewell.gone other
    rw [members] at member
    have two : (pl.members named).card = 2 := by
      by_contra many
      have still := after session
      rw [PlatformCache.members,DelMeetingInfos_meetings,if_neg many] at still
      exact still member
    have same : named = session := by
      by_contra differ
      have still := after session
      rw [gone two,if_neg (Ne.symm differ)] at still
      exact still member
    subst same
    have sent := ClearUserinfo_sent left uid named
    rw [dissolved_echo left two,← departs] at sent
    obtain ⟨audience,once,told⟩ := farewell.told
    rw [sent] at told
    refine ⟨heard,rfl,members named ▸ two,?_,audience,once,?_,?_⟩
    · intro other differ
      have absent := after other
      rwa [gone two,if_neg differ,← members] at absent
    · rcases audience with _ | ⟨userinfo,audience⟩
      · exact .inl rfl
      · right
        have first := told.mem_iff.mpr (List.mem_cons_self ..)
        obtain ⟨_,_,same⟩ := List.mem_map.mp first
        have same := congrArg Prod.snd same
        injection same with same
        exact congrArg UserQuitNotification.user_id same
    · have sockets := told.map Prod.fst
      rwa [List.map_map,List.map_map] at sockets
  · intro unnoticed
    obtain ⟨socket,departs⟩ := depart_heard leaver unnoticed.heard
    have left : (server.DelSocket socket).platform_cache_[platform_id]? = some pl := known
    obtain rfl := unnoticed.named
    have two : (pl.members named).card = 2 := members named ▸ unnoticed.pair
    have sent := ClearUserinfo_sent left uid named
    rw [dissolved_echo left two,← departs] at sent
    constructor
    · obtain ⟨audience,once,fits,sockets⟩ := unnoticed.reached
      refine ⟨audience,once,?_⟩
      rw [sent]
      have told := sockets.map fun socket => ((socket,.userQuitNotification ⟨platform_id,narrow uid⟩) : Sent)
      rw [List.map_map,List.map_map] at told
      refine told.trans ?_
      rcases fits with rfl | fits
      · exact .nil
      · rw [fits]
        exact .refl _
    · intro other
      rw [departs,ClearUserinfo_members left,gone two]
      split
      · exact Finset.notMem_empty uid
      · rename_i differ
        rw [← members]
        exact unnoticed.single other differ

end Farewell

/-- Users 7 and 8 have met in session 100. -/
def booth : Handling Unit := (run (Handling.step hallRequests) ⟨hall,fun _ => .begin⟩ shortEvents).get rfl

theorem booth_meeting (other : Int64) : booth.server.meeting 10000 other =
    if other = 100 then some (((∅ : MeetingSession).insert 7 7).insert 8 8) else none := by
  have stored := MapAdd_get (∅ : Map MeetingSession) 100 other (((∅ : MeetingSession).insert 7 7).insert 8 8)
  rw [Std.ExtTreeMap.getElem?_empty] at stored
  exact stored

/-- User 8 left, but named another session. -/
def lone : ChatServer Unit := (OnUserQuit booth.server 6 10000 8 0).1

theorem lone_farewell :
    (7 ∈ lone.members 10000 100 ∧ Leaver lone (.quit 5 10000 7 100) 10000 7 100) ∧
      Farewell lone (.quit 5 10000 7 100) 10000 100 7 := by
  have members (other : Int64) : lone.members 10000 other = booth.server.members 10000 other := rfl
  have pair : lone.members 10000 100 = {7,8} := by decide
  have member : 7 ∈ lone.members 10000 100 := by
    rw [pair]
    exact Finset.mem_insert_self ..
  have leaver : Leaver lone (.quit 5 10000 7 100) 10000 7 100 := ⟨rfl,rfl,rfl,0,rfl⟩
  refine ⟨⟨member,leaver⟩,(farewell_iff leaver member).mpr ⟨nofun,rfl,?_,?_,[],⟨List.nodup_nil,?_⟩,.inl rfl,.nil⟩⟩
  · rw [pair]
    rfl
  · intro other differ
    rw [members,ChatServer.members,booth_meeting,if_neg differ]
    exact Finset.notMem_empty 7
  · intro userinfo
    constructor
    · intro listed
      cases listed
    · rintro ⟨other,other_member,differ,online⟩
      rw [pair,Finset.mem_insert,Finset.mem_singleton] at other_member
      obtain rfl := other_member.resolve_left differ
      cases online

/-- User 8 is not told that user 7 quits. -/
theorem booth_silent : Reachable hallRequests booth ∧ 7 ∈ booth.server.members 10000 100 ∧
    Leaver booth.server (.quit 5 10000 7 100) 10000 7 100 ∧
      ¬Farewell booth.server (.quit 5 10000 7 100) 10000 100 7 := by
  have pair : booth.server.members 10000 100 = {7,8} := by decide
  refine ⟨hall_ready.reachable.steps shortEvents rfl,?_,⟨rfl,rfl,rfl,0,rfl⟩,?_⟩
  · rw [pair]
    exact Finset.mem_insert_self ..
  · intro farewell
    obtain ⟨audience,once,told⟩ := farewell.told
    have online : booth.server.OnlineOther 10000 100 7 1 := by
      refine ⟨8,?_,by decide,rfl⟩
      rw [pair]
      decide
    have sent := told.mem_iff.mpr (List.mem_map_of_mem ((once.2 1).mpr online))
    cases sent

end Migfm.Chat
