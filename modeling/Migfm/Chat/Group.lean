import Migfm.Chat.Departure

/-! Group chat: OnGetGroupInfo of chat/chat/user_connection.cc, OnGroupMessage
of im_mgr.cc and OnGroupSound of file_mgr.cc. Who gets a message is decided by
the session number in the packet; the group itself is looked up for a text only,
and nobody looks whether the sender is a member. -/
namespace Migfm.Chat
open Basic Library.Runs

def TEMP_GROUP_CHAT : Int32 := 2
def DIMENSION_GROUP_CHAT : Int32 := 3

structure GroupInfo where
  platform_id : Int64
  group_id : Int64
  group_type : Int16
  nicknumber : Int64
  session : Int64
  name : List UInt8
  head_url : List UInt8

/-- The `Data` of a default `GroupInfo`. -/
def noGroupInfo : GroupInfo := ⟨0,0,0,0,0,[],[]⟩

def default_group_name : List UInt8 := "临时讨论组".toUTF8.toList
def default_group_url : List UInt8 := "http://face.miu.miglab.com/default.jpg".toUTF8.toList
def sound_url : List UInt8 := "http://sound.miglab.com/".toUTF8.toList

/-- A message for a user; it goes to the socket of its `Data`. -/
abbrev Delivery := UserInfo × Body

def ChatServer.sends {GroupInfo : Type} (server : ChatServer GroupInfo) (deliveries : List Delivery) : List Sent :=
  deliveries.map fun (userinfo,packet) => ((server.data userinfo).socket,packet)

section Handlers
variable (server : ChatServer GroupInfo)

def ChatServer.GetGroupInfos (platform_id group_id : Int64) : Option GroupInfo := do
  let pl ← server.platform_cache_[platform_id]?
  pl.GetGroupInfos group_id

def OnCreateGroupInfo (platform_id group_id : Int64) (type : Int32) (session : Int64) : ChatServer GroupInfo × GroupInfo :=
  let temp_group_info : GroupInfo :=
    {platform_id, group_id, group_type := type.toInt16, nicknumber := group_id, session, name := default_group_name,
      head_url := default_group_url}
  (server.onPlatform platform_id (·.AddGroupInfos group_id temp_group_info),temp_group_info)

def ChatServer.oppinfo (userinfo : UserInfo) : Oppinfo :=
  let data := server.data userinfo
  {user_id := data.user_id, user_nicknumber := data.nicknumber, nickname := SafeStrncpy NICKNAME_LEN data.nickname,
    user_head := SafeStrncpy HEAD_URL_LEN data.head_url}

/-- `AddMeetingInfos`, `set_session` and the answer. -/
def enterGroup (socket : Int32) (platform_id user_id oppinfo_id : Int64) (type : Int32) (userinfo : UserInfo)
    (groupinfo : GroupInfo) : ChatServer GroupInfo × List Sent :=
  let server := server.onPlatform platform_id (·.AddMeetingInfos oppinfo_id user_id)
  let server := server.SetSession userinfo oppinfo_id
  let list := (server.platform_cache_[platform_id]?).bind (·.GetGroupListUserInfoNotSelf oppinfo_id user_id)
  let opposition_info : OppositionInfo :=
    {platform_id, oppo_id := groupinfo.group_id, oppo_nick_number := groupinfo.nicknumber, session := oppinfo_id,
      oppo_type := type.toInt16, oppo_nickname := SafeStrncpy NICKNAME_LEN groupinfo.name,
      oppo_user_head := SafeStrncpy HEAD_URL_LEN groupinfo.head_url,
      opponfo_list := (list.getD []).map server.oppinfo}
  (server,[(socket,.oppositionInfo opposition_info)])

def OnGetGroupInfo (socket : Int32) (platform_id user_id oppinfo_id : Int64) (type : Int32) :
    ChatServer GroupInfo × List Sent :=
  match server.GetUserInfos platform_id user_id with
  | none => (server,[])
  | some userinfo =>
    match server.GetGroupInfos platform_id oppinfo_id with
    | some groupinfo => enterGroup server socket platform_id user_id oppinfo_id type userinfo groupinfo
    | none =>
      if type = DIMENSION_GROUP_CHAT then (server,[])
      else if type = TEMP_GROUP_CHAT then
        let (server,groupinfo) := OnCreateGroupInfo server platform_id oppinfo_id type oppinfo_id
        enterGroup server socket platform_id user_id oppinfo_id type userinfo groupinfo
      else enterGroup server socket platform_id user_id oppinfo_id type userinfo noGroupInfo

def OnGroupMessage (vMultiChatSend : MultiChatSend) : List Delivery :=
  match server.GetGroupInfos vMultiChatSend.platform_id vMultiChatSend.multi_id with
  | none => []
  | some _ =>
    match server.GetUserInfos vMultiChatSend.platform_id vMultiChatSend.send_user_id with
    | none => []
    | some send_user_info =>
      let multi_chat_recv : MultiChatRecv :=
        {platform_id := vMultiChatSend.platform_id, multi_id := vMultiChatSend.multi_id,
          send_user_id := vMultiChatSend.send_user_id,
          send_nickname := SafeStrncpy NICKNAME_LEN (server.data send_user_info).nickname,
          content := vMultiChatSend.content}
      match server.platform_cache_[vMultiChatSend.platform_id]? with
      | none => []
      | some pl =>
        (pl.SendMeetingNotSelf (fun userinfo => (server.data userinfo).user_id) vMultiChatSend.session
          vMultiChatSend.send_user_id).map fun userinfo => (userinfo,.multiChatRecv multi_chat_recv)

/-- Neither the group nor the sender is looked up. -/
def OnGroupSound (multi_sound_send : MultiSoundSend) : List Delivery :=
  let multi_sound_recv : MultiSoundRecv :=
    {platform_id := multi_sound_send.platform_id, multi_id := multi_sound_send.multi_id,
      send_user_id := multi_sound_send.send_user_id, sound_path := sound_url ++ multi_sound_send.sound_path}
  match server.platform_cache_[multi_sound_send.platform_id]? with
  | none => []
  | some pl =>
    (pl.SendMeetingMessage multi_sound_send.session).map fun userinfo => (userinfo,.multiSoundRecv multi_sound_recv)

end Handlers

/-! ### A group request keeps who is online -/

section Quiet
variable {GroupInfo : Type} {server next final : ChatServer GroupInfo}

theorem Quiet.refl (server : ChatServer GroupInfo) : Quiet server server := ⟨rfl,.refl server⟩

theorem Quiet.trans (first : Quiet server next) (second : Quiet next final) : Quiet server final := by
  refine ⟨second.user.trans first.user,first.grows.fresh.trans second.grows.fresh,?_⟩
  intro userinfo old
  obtain ⟨platform,user⟩ := first.grows.ids userinfo old
  obtain ⟨platform',user'⟩ := second.grows.ids userinfo (old.trans_le first.grows.fresh)
  exact ⟨platform'.trans platform,user'.trans user⟩

theorem onPlatform_quiet (server : ChatServer GroupInfo) (platform_id : Int64)
    {operation : PlatformCache UserInfo GroupInfo → PlatformCache UserInfo GroupInfo}
    (kept : ∀ pl, (operation pl).user_infos_map_ = pl.user_infos_map_) :
    Quiet server (server.onPlatform platform_id operation) := by
  refine ⟨?_,onPlatform_grows ..⟩
  funext platform other
  exact onPlatform_kept _ _ _ fun pl => by rw [kept]

theorem SetSession_quiet (server : ChatServer GroupInfo) (userinfo : UserInfo) (session : Int64) :
    Quiet server (server.SetSession userinfo session) :=
  ⟨rfl,SetSession_grows ..⟩

end Quiet

theorem enterGroup_quiet (server : ChatServer GroupInfo) (socket : Int32) (platform_id user_id oppinfo_id : Int64)
    (type : Int32) (userinfo : UserInfo) (groupinfo : GroupInfo) :
    Quiet server (enterGroup server socket platform_id user_id oppinfo_id type userinfo groupinfo).1 := by
  refine Quiet.trans ?_ (SetSession_quiet _ userinfo oppinfo_id)
  exact onPlatform_quiet server platform_id fun _ => rfl

theorem OnGetGroupInfo_quiet (server : ChatServer GroupInfo) (socket : Int32) (platform_id user_id oppinfo_id : Int64)
    (type : Int32) : Quiet server (OnGetGroupInfo server socket platform_id user_id oppinfo_id type).1 := by
  unfold OnGetGroupInfo
  split
  · exact .refl server
  · split
    · exact enterGroup_quiet ..
    · split
      · exact .refl server
      · split
        · refine Quiet.trans ?_ (enterGroup_quiet ..)
          exact onPlatform_quiet server platform_id fun _ => rfl
        · exact enterGroup_quiet ..

/-! ### Who is to get a message -/

inductive GroupSend
  | text (vMultiChatSend : MultiChatSend)
  | sound (multi_sound_send : MultiSoundSend)

namespace GroupSend

def platform_id : GroupSend → Int64
  | text v => v.platform_id
  | sound v => v.platform_id

def multi_id : GroupSend → Int64
  | text v => v.multi_id
  | sound v => v.multi_id

def send_user_id : GroupSend → Int64
  | text v => v.send_user_id
  | sound v => v.send_user_id

def session : GroupSend → Int64
  | text v => v.session
  | sound v => v.session

def deliver (server : ChatServer GroupInfo) : GroupSend → List Delivery
  | text v => OnGroupMessage server v
  | sound v => OnGroupSound server v

/-- A text does not come back to its sender. -/
def To (send : GroupSend) (id : Int64) : Prop :=
  match send with
  | text v => id ≠ v.send_user_id
  | sound _ => True

def Carries (send : GroupSend) (packet : Body) : Prop :=
  match send with
  | text v => ∃ send_nickname, packet = .multiChatRecv
    {platform_id := v.platform_id, multi_id := v.multi_id, send_user_id := v.send_user_id, send_nickname, content := v.content}
  | sound v => packet = .multiSoundRecv
    {platform_id := v.platform_id, multi_id := v.multi_id, send_user_id := v.send_user_id,
      sound_path := sound_url ++ v.sound_path}

variable (server : ChatServer GroupInfo) (send : GroupSend)

def Online (id : Int64) : Prop := server.registry.user send.platform_id id ≠ none

/-- An online member of the group. -/
def Member (id : Int64) : Prop := id ∈ server.members send.platform_id send.multi_id ∧ send.Online server id

/-- The message reaches the online members of the group, each once, and nobody
else, and nobody at all if the sender is none of them. -/
structure Fanout : Prop where
  once : Once ((send.deliver server).map Prod.fst) fun userinfo =>
    send.Member server send.send_user_id ∧ ∃ id, send.Member server id ∧ send.To id ∧
      server.registry.user send.platform_id id = some userinfo
  carried : ∀ delivery ∈ send.deliver server, send.Carries delivery.2

/-- A text needs its group and its sender, under narrowed ids. -/
def Passes : Prop :=
  match send with
  | text v => server.GetGroupInfos v.platform_id v.multi_id ≠ none ∧ server.GetUserInfos v.platform_id v.send_user_id ≠ none
  | sound _ => True

/-- An online user whose id comes out of narrowing an id that is stored under the
narrowed session number of the packet. -/
def Reaches (id : Int64) : Prop :=
  (∃ stored ∈ server.members send.platform_id (narrow send.session), narrow stored = id) ∧ send.Online server id ∧ send.To id

/-- The session of the packet stands for the group: it reaches the same users,
each through one stored id, or nobody where nobody is to be reached. -/
structure Aimed : Prop where
  same : ∀ id, (send.Passes server ∧ send.Reaches server id) ↔
    (send.Member server send.send_user_id ∧ send.Member server id ∧ send.To id)
  single : send.Passes server → ∀ one ∈ server.members send.platform_id (narrow send.session),
    ∀ other ∈ server.members send.platform_id (narrow send.session),
      narrow one = narrow other → send.Reaches server (narrow one) → one = other

/-! ### What a message reaches -/

/-- The user a stored id leads to. -/
def reach (id : Int64) : Option UserInfo :=
  (server.registry.user send.platform_id (narrow id)).filter fun userinfo =>
    match send with
    | text v => (server.data userinfo).user_id ≠ v.send_user_id
    | sound _ => true

theorem reach_known {pl : PlatformCache UserInfo GroupInfo} (known : server.platform_cache_[send.platform_id]? = some pl)
    (id : Int64) : server.registry.user send.platform_id (narrow id) = MapGetInt pl.user_infos_map_ (narrow id) := by
  rw [ChatServer.registry,MapGetInt,narrow_narrow]
  simp only [known]
  rfl

theorem meeting_known {pl : PlatformCache UserInfo GroupInfo} (known : server.platform_cache_[send.platform_id]? = some pl) :
    server.meeting send.platform_id (narrow send.session) = MapGetInt pl.meeting_infos_map_ send.session := by
  rw [ChatServer.meeting,known]
  rfl

theorem deliver_users (passes : send.Passes server) :
    (send.deliver server).map Prod.fst =
      ((server.meeting send.platform_id (narrow send.session)).getD ∅).keys.filterMap (send.reach server) := by
  cases known : server.platform_cache_[send.platform_id]? with
  | none =>
    have nobody : server.meeting send.platform_id (narrow send.session) = none := by
      rw [ChatServer.meeting,known]
      rfl
    have unlisted : (∅ : MeetingSession).keys = [] := rfl
    rw [nobody,Option.getD_none,unlisted,List.filterMap_nil,List.map_eq_nil_iff]
    cases send with
    | text v =>
      obtain ⟨groupinfo,group⟩ := Option.ne_none_iff_exists'.mp passes.1
      obtain ⟨userinfo,sender⟩ := Option.ne_none_iff_exists'.mp passes.2
      simp only [platform_id] at known
      simp only [deliver,OnGroupMessage,group,sender,known]
    | sound v =>
      simp only [platform_id] at known
      simp only [deliver,OnGroupSound,known]
  | some pl =>
    rw [meeting_known server send known]
    have found := reach_known server send known
    cases send with
    | text v =>
      obtain ⟨groupinfo,group⟩ := Option.ne_none_iff_exists'.mp passes.1
      obtain ⟨userinfo,sender⟩ := Option.ne_none_iff_exists'.mp passes.2
      simp only [platform_id] at known
      simp only [deliver,OnGroupMessage,group,sender,known,List.map_map,Function.comp_def,List.map_id',
        PlatformCache.SendMeetingNotSelf,PlatformCache.SendMeetingMessage,List.filter_filterMap]
      refine congrArg (fun find => List.filterMap find _) (funext fun id => ?_)
      rw [reach,found]
    | sound v =>
      simp only [platform_id] at known
      simp only [deliver,OnGroupSound,known,List.map_map,Function.comp_def,List.map_id',PlatformCache.SendMeetingMessage]
      refine congrArg (fun find => List.filterMap find _) (funext fun id => ?_)
      rw [reach,found]
      cases MapGetInt pl.user_infos_map_ (narrow id) with
      | none => rfl
      | some userinfo => rfl

theorem deliver_carries : ∀ delivery ∈ send.deliver server, send.Carries delivery.2 := by
  intro delivery listed
  cases send with
  | text v =>
    simp only [deliver,OnGroupMessage] at listed
    split at listed
    · cases listed
    · split at listed
      · cases listed
      · split at listed
        · cases listed
        · obtain ⟨userinfo,_,rfl⟩ := List.mem_map.mp listed
          exact ⟨_,rfl⟩
  | sound v =>
    simp only [deliver,OnGroupSound] at listed
    split at listed
    · cases listed
    · obtain ⟨userinfo,_,rfl⟩ := List.mem_map.mp listed
      rfl

theorem deliver_refused (refused : ¬send.Passes server) : send.deliver server = [] := by
  cases send with
  | text v =>
    simp only [deliver,OnGroupMessage]
    split
    · rfl
    · split
      · rfl
      · rename_i groupinfo group _ userinfo sender
        refine absurd ⟨?_,?_⟩ refused
        · rw [group]
          exact Option.some_ne_none _
        · rw [sender]
          exact Option.some_ne_none _
  | sound v => exact absurd trivial refused

variable {server send}

theorem reach_some (owned : Owned server) {id : Int64} {userinfo : UserInfo} :
    send.reach server id = some userinfo ↔
      server.registry.user send.platform_id (narrow id) = some userinfo ∧ send.To (narrow id) := by
  rw [reach,Option.filter_eq_some_iff]
  refine and_congr_right fun found => ?_
  have own := (owned _ _ _ found).2.2
  cases send with
  | text v =>
    rw [To,← own]
    exact decide_eq_true_iff
  | sound v => exact iff_of_true rfl trivial

theorem delivers (owned : Owned server) (passes : send.Passes server) (userinfo : UserInfo) :
    userinfo ∈ (send.deliver server).map Prod.fst ↔
      ∃ id, send.Reaches server id ∧ server.registry.user send.platform_id id = some userinfo := by
  rw [deliver_users server send passes,List.mem_filterMap]
  simp only [reach_some owned]
  constructor
  · rintro ⟨stored,listed,found,to_it⟩
    refine ⟨narrow stored,⟨⟨stored,List.mem_toFinset.mpr listed,rfl⟩,?_,to_it⟩,found⟩
    rw [Online,found]
    exact Option.some_ne_none _
  · rintro ⟨_,⟨⟨stored,member,rfl⟩,_,to_it⟩,found⟩
    exact ⟨stored,List.mem_toFinset.mp member,found,to_it⟩

theorem same_id (owned : Owned server) {id other : Int64} {userinfo : UserInfo}
    (found : server.registry.user send.platform_id id = some userinfo)
    (found' : server.registry.user send.platform_id other = some userinfo) : id = other :=
  (owned _ _ _ found).2.2.symm.trans (owned _ _ _ found').2.2

/-- Each user is sent the message once exactly if no two stored ids lead to it. -/
theorem deliver_nodup (owned : Owned server) (passes : send.Passes server) :
    ((send.deliver server).map Prod.fst).Nodup ↔
      ∀ one ∈ server.members send.platform_id (narrow send.session),
        ∀ other ∈ server.members send.platform_id (narrow send.session),
          narrow one = narrow other → send.Reaches server (narrow one) → one = other := by
  rw [deliver_users server send passes,List.Nodup,List.pairwise_filterMap]
  simp only [reach_some owned,ChatServer.members,List.mem_toFinset]
  constructor
  · intro pairwise one listed other listed' same reaches
    by_contra differ
    have symmetric : Std.Symm fun one other => ∀ userinfo,
        server.registry.user send.platform_id (narrow one) = some userinfo ∧ send.To (narrow one) →
          ∀ userinfo', server.registry.user send.platform_id (narrow other) = some userinfo' ∧ send.To (narrow other) →
            userinfo ≠ userinfo' :=
      ⟨fun one other apart userinfo found userinfo' found' => (apart userinfo' found' userinfo found).symm⟩
    obtain ⟨userinfo,found⟩ := Option.ne_none_iff_exists'.mp reaches.2.1
    refine pairwise.forall listed listed' differ userinfo ⟨found,reaches.2.2⟩ userinfo ?_ rfl
    rw [← same]
    exact ⟨found,reaches.2.2⟩
  · intro single
    refine (keys_nodup _).pairwise_of_forall_ne ?_
    rintro one listed other listed' differ userinfo ⟨found,to_it⟩ _ ⟨found',_⟩ rfl
    have online : send.Online server (narrow one) := by
      rw [Online,found]
      exact Option.some_ne_none _
    exact differ (single one listed other listed' (same_id owned found found')
      ⟨⟨one,List.mem_toFinset.mpr listed,rfl⟩,online,to_it⟩)

theorem aimed_of_fanout (owned : Owned server) (fanout : send.Fanout server) : send.Aimed server := by
  obtain ⟨nodup,sent⟩ := fanout.once
  constructor
  · intro id
    constructor
    · rintro ⟨passes,reaches⟩
      obtain ⟨userinfo,found⟩ := Option.ne_none_iff_exists'.mp reaches.2.1
      have reached := (delivers owned passes userinfo).mpr ⟨id,reaches,found⟩
      obtain ⟨sender,member,is_member,to_it,found'⟩ := (sent userinfo).mp reached
      obtain rfl := same_id owned found' found
      exact ⟨sender,is_member,to_it⟩
    · rintro ⟨sender,is_member,to_it⟩
      obtain ⟨userinfo,found⟩ := Option.ne_none_iff_exists'.mp is_member.2
      have reached := (sent userinfo).mpr ⟨sender,id,is_member,to_it,found⟩
      have passes : send.Passes server := by
        by_contra refused
        rw [deliver_refused server send refused] at reached
        cases reached
      obtain ⟨other,reaches,found'⟩ := (delivers owned passes userinfo).mp reached
      obtain rfl := same_id owned found' found
      exact ⟨passes,reaches⟩
  · intro passes
    exact (deliver_nodup owned passes).mp nodup

theorem fanout_of_aimed (owned : Owned server) (aimed : send.Aimed server) : send.Fanout server := by
  refine ⟨?_,deliver_carries server send⟩
  by_cases passes : send.Passes server
  · refine ⟨(deliver_nodup owned passes).mpr (aimed.single passes),?_⟩
    intro userinfo
    rw [delivers owned passes]
    constructor
    · rintro ⟨id,reaches,found⟩
      obtain ⟨sender,member,to_it⟩ := (aimed.same id).mp ⟨passes,reaches⟩
      exact ⟨sender,id,member,to_it,found⟩
    · rintro ⟨sender,id,member,to_it,found⟩
      exact ⟨id,((aimed.same id).mpr ⟨sender,member,to_it⟩).2,found⟩
  · rw [deliver_refused server send passes]
    refine ⟨List.nodup_nil,?_⟩
    intro userinfo
    constructor
    · intro listed
      cases listed
    · rintro ⟨sender,id,member,to_it,_⟩
      exact absurd ((aimed.same id).mpr ⟨sender,member,to_it⟩).1 passes

end GroupSend

/-- In every reachable state a group message goes where it is meant to exactly
if the session of its packet stands for the group. -/
theorem fanout_iff {requests : Nat → InfoRequest} {handling : Handling GroupInfo} (reachable : Reachable requests handling)
    (send : GroupSend) : send.Fanout handling.server ↔ send.Aimed handling.server :=
  ⟨GroupSend.aimed_of_fanout reachable.owned,GroupSend.fanout_of_aimed reachable.owned⟩

def lobby : ChatServer GroupInfo := (run visit (.start fun _ => noData) hallVisits).get rfl

/-- User 7 is alone in group 200, user 8 is online. -/
def parlor : ChatServer GroupInfo := (OnGetGroupInfo lobby 5 10000 7 200 TEMP_GROUP_CHAT).1

theorem parlor_reachable : Reachable hallRequests ⟨parlor,fun _ => .begin⟩ :=
  .quiet ((Reachable.start fun _ => noData).visits hallVisits rfl) (OnGetGroupInfo_quiet ..)

theorem parlor_members : parlor.members 10000 200 = {7} := by
  decide

theorem parlor_heard : Reachable hallRequests ⟨parlor,fun _ => .begin⟩ ∧
    (GroupSend.sound ⟨10000,200,2,7,200,SafeStrncpy TOKEN_LEN [],[]⟩).Fanout parlor := by
  refine ⟨parlor_reachable,(fanout_iff parlor_reachable _).mpr ⟨?_,?_⟩⟩
  · intro id
    have online : parlor.registry.user 10000 7 ≠ none := nofun
    have fits : narrow 200 = 200 := rfl
    have fits' : narrow 7 = 7 := rfl
    simp [GroupSend.Reaches,GroupSend.Member,GroupSend.Online,GroupSend.To,GroupSend.Passes,GroupSend.platform_id,
      GroupSend.multi_id,GroupSend.send_user_id,GroupSend.session,fits,fits',parlor_members,online,@eq_comm _ 7 id]
  · intro _ one member other member' _ _
    have members : parlor.members 10000 (narrow 200) = {7} := parlor_members
    simp only [GroupSend.platform_id,GroupSend.session,members,Finset.mem_singleton] at member member'
    rw [member,member']

/-- User 8 is in no group and is heard in group 200. -/
theorem parlor_overheard : Reachable hallRequests ⟨parlor,fun _ => .begin⟩ ∧
    ¬(GroupSend.text ⟨10000,200,8,200,SafeStrncpy TOKEN_LEN [],[]⟩).Fanout parlor := by
  refine ⟨parlor_reachable,?_⟩
  intro fanout
  have sent : (0 : UserInfo) ∈ ((GroupSend.text ⟨10000,200,8,200,SafeStrncpy TOKEN_LEN [],[]⟩).deliver parlor).map Prod.fst :=
    List.mem_singleton_self 0
  obtain ⟨⟨member,_⟩,_⟩ := (fanout.once.2 0).mp sent
  simp only [GroupSend.platform_id,GroupSend.multi_id,GroupSend.send_user_id] at member
  rw [parlor_members,Finset.mem_singleton] at member
  exact absurd member (by decide)

end Migfm.Chat
