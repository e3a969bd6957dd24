import Migfm.Chat.Offers
import Migfm.Chat.Token

/-! The messages that wait for a confirmation: OnMessage and OnConfirmMessage of
chat/chat/im_mgr.cc over the map of chat_cache_manager.cc. A message is sent first
and recorded after that, with other requests between the two. -/
namespace Migfm.Chat
open Basic Library.Runs

/-! ### The handlers -/

def AddConfirmMessage (caches : ChatCaches) (platform_id msg_id : Int64) (user_info : UserInfo) : ChatCaches :=
  match caches.server.platform_cache_[platform_id]? with
  | none => caches
  | some _ =>
    let confirm_message_map_ := MapAdd (caches.confirm_message_map_ platform_id) msg_id user_info
    {caches with confirm_message_map_ := Function.update caches.confirm_message_map_ platform_id confirm_message_map_}

def DelConfirmMessage (caches : ChatCaches) (platform_id msg_id : Int64) : ChatCaches :=
  match caches.server.platform_cache_[platform_id]? with
  | none => caches
  | some _ =>
    let (confirm_message_map_,_) := MapDel (caches.confirm_message_map_ platform_id) msg_id
    {caches with confirm_message_map_ := Function.update caches.confirm_message_map_ platform_id confirm_message_map_}

/-- `OnMessage` up to `SendMessage`, with the sender where the message was sent. -/
def sendText (server : ChatServer GroupInfo) (socket : Int32) (private_send : TextChatPrivateSend) (outside : Outside) :
    ChatServer GroupInfo × List Sent × Option UserInfo :=
  match server.sender private_send.platform_id private_send.send_user_id outside.sender with
  | none => (server,[(socket,.chatFailed userNoExist)],none)
  | some (server,send_user_info) =>
    match server.GetUserInfos private_send.platform_id private_send.recv_user_id with
    | none =>
      match outside.row with
      | none => (server,[(socket,.chatFailed userNoExist)],none)
      | some row => ((server.newUserInfo private_send.platform_id private_send.recv_user_id 0 row []).1,[],none)
    | some recv_user_info =>
      if (server.data recv_user_info).session ≠ private_send.session then (server,[],none)
      else
        let private_recv : TextChatPrivateRecv :=
          {platform_id := private_send.platform_id, send_user_id := private_send.send_user_id,
            recv_user_id := private_send.recv_user_id, content := private_send.content}
        (server,[((server.data recv_user_info).socket,.textChatPrivateRecv private_recv)],some send_user_info)

/-- A confirmation that is passed on, with its `msg_id` and its `reserverd`. The other fields of its body are not set. -/
structure Confirm where
  socket : Int32
  msg_id : Int64
  reserverd : Int32
  platform_id : Int64
  recv_user_id : Int64
  send_user_id : Int64

/-- `msg_id` is that of the packet's own head. -/
def OnConfirmMessage (caches : ChatCaches) (msg_id : Int64) (vPacketConfirm : PacketConfirm) : ChatCaches × List Confirm :=
  let caches := DelConfirmMessage caches vPacketConfirm.platform_id msg_id
  match caches.server.GetUserInfos vPacketConfirm.platform_id vPacketConfirm.send_user_id with
  | none => (caches,[])
  | some recv_user_info =>
    let data := caches.server.data recv_user_info
    let confirm : Confirm :=
      {socket := data.socket, msg_id := vPacketConfirm.private_msg_id, reserverd := data.session.toInt32,
        platform_id := vPacketConfirm.platform_id, recv_user_id := vPacketConfirm.recv_user_id,
        send_user_id := vPacketConfirm.send_user_id}
    (caches,[confirm])

section Parts
variable {server next : ChatServer GroupInfo} {socket : Int32} {private_send : TextChatPrivateSend} {outside : Outside}

theorem sender_cache {platform_id send_user_id : Int64} {row : Option UserRow} {userinfo : UserInfo}
    (found : server.sender platform_id send_user_id row = some (next,userinfo)) :
    next.platform_cache_ = server.platform_cache_ := by
  unfold ChatServer.sender at found
  split at found
  · obtain ⟨_,-,same⟩ := Option.map_eq_some_iff.mp found
    cases same
    rfl
  · split at found
    · cases found
      rfl
    · cases found
      rfl

theorem sendText_cache : (sendText server socket private_send outside).1.platform_cache_ = server.platform_cache_ := by
  rw [sendText]
  split
  · rfl
  · rename_i next userinfo found
    have same := sender_cache found
    split
    · split
      · exact same
      · exact same
    · split
      · exact same
      · exact same

/-- A text goes to users of known platforms. -/
theorem sendText_knows {send_user_info : UserInfo}
    (sent : (sendText server socket private_send outside).2.2 = some send_user_info) : server.Knows private_send.platform_id := by
  rw [sendText] at sent
  split at sent
  · cases sent
  · rename_i next userinfo found
    rw [ChatServer.Knows,← sender_cache found]
    split at sent
    · split at sent
      · cases sent
      · cases sent
    · rename_i recv_user_info online
      obtain ⟨pl,known,-⟩ := Option.bind_eq_some_iff.mp online
      rw [known]
      rfl

theorem AddConfirmMessage_known {caches : ChatCaches} {platform_id : Int64} (knows : caches.server.Knows platform_id)
    (msg_id : Int64) (user_info : UserInfo) : (AddConfirmMessage caches platform_id msg_id user_info).confirm_message_map_ =
      Function.update caches.confirm_message_map_ platform_id (MapAdd (caches.confirm_message_map_ platform_id) msg_id user_info) := by
  obtain ⟨pl,known⟩ := Option.isSome_iff_exists.mp knows
  rw [AddConfirmMessage,known]

theorem AddConfirmMessage_server (caches : ChatCaches) (platform_id msg_id : Int64) (user_info : UserInfo) :
    (AddConfirmMessage caches platform_id msg_id user_info).server = caches.server := by
  rw [AddConfirmMessage]
  split <;> rfl

/-- Without another request between the two, the text is sent and recorded. -/
theorem sendPrivate_eq (caches : ChatCaches) : sendPrivate caches socket private_send outside =
    let (server,sent,sender) := sendText caches.server socket private_send outside
    (sender.elim {caches with server} (AddConfirmMessage {caches with server} private_send.platform_id outside.msg_id),sent) := by
  have knows (send_user_info : UserInfo) := @sendText_knows caches.server socket private_send outside send_user_info
  rw [sendPrivate,sendText] at *
  cases found : caches.server.sender private_send.platform_id private_send.send_user_id outside.sender with
  | none => rfl
  | some next =>
    obtain ⟨next,send_user_info⟩ := next
    have same := sender_cache found
    simp only [found] at knows ⊢
    cases online : next.GetUserInfos private_send.platform_id private_send.recv_user_id with
    | none =>
      cases outside.row with
      | none => rfl
      | some row => rfl
    | some recv_user_info =>
      simp only [online] at knows ⊢
      by_cases apart : (next.data recv_user_info).session ≠ private_send.session
      · simp only [if_pos apart]
        rfl
      · simp only [if_neg apart] at knows ⊢
        have known : next.Knows private_send.platform_id := by
          rw [ChatServer.Knows,same]
          exact knows send_user_info rfl
        obtain ⟨pl,there⟩ := Option.isSome_iff_exists.mp known
        simp only [Option.elim_some,AddConfirmMessage,there]

end Parts

/-! ### Runs -/

/-- A message that was sent and is to be recorded. -/
structure Recording where
  platform_id : Int64
  msg_id : Int64
  send_user_info : UserInfo

/-- The server with what its threads are about to record, and which messages were delivered and are not confirmed. -/
structure Delivering where
  handling : Handling GroupInfo
  confirm_message_map_ : Int64 → Map UserInfo
  recording : Nat → Option Recording
  delivered : Int64 → Int64 → Bool

/-- What the server does next: part of a request without messages, a text up to `SendMessage`, its record, or a
confirmation with the `msg_id` of its head. -/
inductive Service
  | deed (deed : Deed)
  | text (thread : Nat) (socket : Int32) (private_send : TextChatPrivateSend) (outside : Outside)
  | record (thread : Nat)
  | confirm (msg_id : Int64) (vPacketConfirm : PacketConfirm)

namespace Delivering

def mark (delivered : Int64 → Int64 → Bool) (platform_id msg_id : Int64) (value : Bool) : Int64 → Int64 → Bool :=
  fun platform other => if platform = platform_id ∧ other = msg_id then value else delivered platform other

variable (requests : Nat → InfoRequest) (state : Delivering)

def caches : ChatCaches := ⟨state.handling.server,state.confirm_message_map_⟩

/-- A thread that is to record takes no text. -/
def step : Service → Option Delivering
  | .deed deed => (state.handling.after requests deed).map fun handling => {state with handling}
  | .text thread socket private_send outside =>
    match state.recording thread with
    | some _ => none
    | none =>
      let (server,_,sender) := sendText state.handling.server socket private_send outside
      let state := {state with handling := {state.handling with server}}
      match sender with
      | none => some state
      | some send_user_info => some {state with
          recording := Function.update state.recording thread
            (some ⟨private_send.platform_id,outside.msg_id,send_user_info⟩)
          delivered := mark state.delivered private_send.platform_id outside.msg_id true}
  | .record thread =>
    match state.recording thread with
    | none => none
    | some call =>
      let caches := AddConfirmMessage state.caches call.platform_id call.msg_id call.send_user_info
      some {state with
        confirm_message_map_ := caches.confirm_message_map_
        recording := Function.update state.recording thread none}
  | .confirm msg_id vPacketConfirm =>
    let (caches,_) := OnConfirmMessage state.caches msg_id vPacketConfirm
    some {state with
      confirm_message_map_ := caches.confirm_message_map_
      delivered := mark state.delivered vPacketConfirm.platform_id vPacketConfirm.private_msg_id false}

/-- Who sent the message that waits. -/
def pending (platform_id msg_id : Int64) : Option UserInfo := (state.confirm_message_map_ platform_id)[msg_id]?

/-! ### What is asked -/

/-- The messages that wait are those delivered and not confirmed, but for those whose record is still to come. -/
def Law : Prop := ∀ platform_id msg_id, ((state.pending platform_id msg_id).isSome → state.delivered platform_id msg_id = true) ∧
  (state.delivered platform_id msg_id = true → (state.pending platform_id msg_id).isSome ∨
    ∃ thread call, state.recording thread = some call ∧ call.platform_id = platform_id ∧ call.msg_id = msg_id)

/-- A confirmation takes the message it names from those that wait and no other, and is passed on with it to the sender,
where the sender is online. -/
structure Confirms (msg_id : Int64) (vPacketConfirm : PacketConfirm) : Prop where
  removed : ∀ platform other,
    ((OnConfirmMessage state.caches msg_id vPacketConfirm).1.confirm_message_map_ platform)[other]? =
      if platform = vPacketConfirm.platform_id ∧ other = vPacketConfirm.private_msg_id then none else state.pending platform other
  relayed : ∀ sender, state.pending vPacketConfirm.platform_id vPacketConfirm.private_msg_id = some sender →
    (OnConfirmMessage state.caches msg_id vPacketConfirm).2.map (fun confirm => (confirm.socket,confirm.msg_id)) =
      (state.handling.server.registry.user vPacketConfirm.platform_id (state.handling.server.data sender).user_id).toList.map
        fun userinfo => ((state.handling.server.data userinfo).socket,vPacketConfirm.private_msg_id)

def Right : Service → Prop
  | .confirm msg_id vPacketConfirm => state.Confirms msg_id vPacketConfirm
  | _ => True

/-- In every state of the run and at each of its confirmations. -/
def Kept (state : Delivering) : List Service → Prop
  | [] => state.Law
  | service::services => state.Law ∧ state.Right service ∧ ∀ next, state.step requests service = some next → Kept next services

/-- What a confirmation and a record have to be. The head's own `msg_id` is the one confirmed, or neither of the two waits,
and the user named is where the sender is; a message that is recorded was not confirmed before. -/
def Meets : Service → Prop
  | .confirm msg_id vPacketConfirm =>
    (msg_id = vPacketConfirm.private_msg_id ∨
      (state.pending vPacketConfirm.platform_id msg_id = none ∧
        state.pending vPacketConfirm.platform_id vPacketConfirm.private_msg_id = none)) ∧
      ∀ sender, state.pending vPacketConfirm.platform_id vPacketConfirm.private_msg_id = some sender →
        (state.handling.server.GetUserInfos vPacketConfirm.platform_id vPacketConfirm.send_user_id).map
            (fun userinfo => (state.handling.server.data userinfo).socket) =
          (state.handling.server.registry.user vPacketConfirm.platform_id (state.handling.server.data sender).user_id).map
            fun userinfo => (state.handling.server.data userinfo).socket
  | .record thread => ∀ call, state.recording thread = some call → state.delivered call.platform_id call.msg_id = true
  | _ => True

def start (data : UserInfo → Data) : Delivering := ⟨⟨.start data,fun _ => .begin⟩,fun _ => ∅,fun _ => none,fun _ _ => false⟩

/-! ### Steps -/

section Step
variable {requests : Nat → InfoRequest} {state next : Delivering} {service : Service}

/-- With the law, that every message waits on a known platform. -/
structure Inv (state : Delivering) : Prop where
  law : state.Law
  pending : ∀ platform msg_id, (state.pending platform msg_id).isSome → state.handling.server.Knows platform
  recording : ∀ thread call, state.recording thread = some call → state.handling.server.Knows call.platform_id

theorem OnConfirmMessage_pending (inv : state.Inv) (msg_id : Int64) (vPacketConfirm : PacketConfirm) (platform other : Int64) :
    ((OnConfirmMessage state.caches msg_id vPacketConfirm).1.confirm_message_map_ platform)[other]? =
      if platform = vPacketConfirm.platform_id ∧ other = msg_id then none else state.pending platform other := by
  have first : (OnConfirmMessage state.caches msg_id vPacketConfirm).1 =
      DelConfirmMessage state.caches vPacketConfirm.platform_id msg_id := by
    rw [OnConfirmMessage]
    dsimp only
    split <;> rfl
  rw [first,DelConfirmMessage]
  split
  · rename_i unknown
    split
    · rename_i same
      obtain ⟨rfl,rfl⟩ := same
      -- nothing waits on an unknown platform
      by_contra waits
      have known := inv.pending _ _ (Option.isSome_iff_ne_none.mpr waits)
      rw [ChatServer.Knows,show state.handling.server.platform_cache_[vPacketConfirm.platform_id]? = none from unknown] at known
      cases known
    · rfl
  · dsimp only
    by_cases same : platform = vPacketConfirm.platform_id
    · subst same
      rw [Function.update_self,MapDel_get]
      simp only [true_and]
      rfl
    · rw [Function.update_of_ne same,if_neg fun both => same both.1]
      rfl

/-- What is passed on depends on the user that the packet names. -/
theorem OnConfirmMessage_relayed (msg_id : Int64) (vPacketConfirm : PacketConfirm) :
    (OnConfirmMessage state.caches msg_id vPacketConfirm).2.map (fun confirm => (confirm.socket,confirm.msg_id)) =
      ((state.handling.server.GetUserInfos vPacketConfirm.platform_id vPacketConfirm.send_user_id).map
        fun userinfo => (state.handling.server.data userinfo).socket).toList.map fun socket => (socket,vPacketConfirm.private_msg_id) := by
  have same : (DelConfirmMessage state.caches vPacketConfirm.platform_id msg_id).server = state.handling.server := by
    rw [DelConfirmMessage]
    split <;> rfl
  rw [OnConfirmMessage]
  simp only [same]
  cases state.handling.server.GetUserInfos vPacketConfirm.platform_id vPacketConfirm.send_user_id with
  | none => rfl
  | some recv_user_info => rfl

theorem sockets_iff {first second : Option Int32} (msg_id : Int64) :
    first.toList.map (fun socket => (socket,msg_id)) = second.toList.map (fun socket => (socket,msg_id)) ↔ first = second := by
  refine ⟨fun same => ?_,fun same => by rw [same]⟩
  have sockets := congrArg (List.map Prod.fst) same
  simp only [List.map_map,Function.comp_def,List.map_id'] at sockets
  cases first <;> cases second <;> simp_all

theorem confirms_iff (inv : state.Inv) (msg_id : Int64) (vPacketConfirm : PacketConfirm) :
    state.Confirms msg_id vPacketConfirm ↔ state.Meets (.confirm msg_id vPacketConfirm) := by
  have erased := OnConfirmMessage_pending inv msg_id vPacketConfirm
  have removed : (∀ platform other, ((OnConfirmMessage state.caches msg_id vPacketConfirm).1.confirm_message_map_ platform)[other]? =
      if platform = vPacketConfirm.platform_id ∧ other = vPacketConfirm.private_msg_id then none else state.pending platform other) ↔
      (msg_id = vPacketConfirm.private_msg_id ∨ (state.pending vPacketConfirm.platform_id msg_id = none ∧
        state.pending vPacketConfirm.platform_id vPacketConfirm.private_msg_id = none)) := by
    constructor
    · intro removed
      by_cases same : msg_id = vPacketConfirm.private_msg_id
      · exact .inl same
      · have own := (erased vPacketConfirm.platform_id msg_id).symm.trans (removed _ _)
        have named := (erased vPacketConfirm.platform_id vPacketConfirm.private_msg_id).symm.trans (removed _ _)
        rw [if_pos ⟨rfl,rfl⟩,if_neg fun both => same both.2] at own
        rw [if_neg fun both => same both.2.symm,if_pos ⟨rfl,rfl⟩] at named
        exact .inr ⟨own.symm,named⟩
    · rintro (rfl | ⟨own,named⟩) platform other
      · exact erased platform other
      · rw [erased]
        by_cases here : platform = vPacketConfirm.platform_id
        · subst here
          simp only [true_and]
          split
          · rename_i same
            subst same
            rw [own,ite_self]
          · split
            · rename_i same
              subst same
              exact named
            · rfl
        · rw [if_neg fun both => here both.1,if_neg fun both => here both.1]
  have relayed (sender : UserInfo) : (OnConfirmMessage state.caches msg_id vPacketConfirm).2.map (fun confirm => (confirm.socket,confirm.msg_id)) =
      (state.handling.server.registry.user vPacketConfirm.platform_id (state.handling.server.data sender).user_id).toList.map
        (fun userinfo => ((state.handling.server.data userinfo).socket,vPacketConfirm.private_msg_id)) ↔
      (state.handling.server.GetUserInfos vPacketConfirm.platform_id vPacketConfirm.send_user_id).map
          (fun userinfo => (state.handling.server.data userinfo).socket) =
        (state.handling.server.registry.user vPacketConfirm.platform_id (state.handling.server.data sender).user_id).map
          fun userinfo => (state.handling.server.data userinfo).socket := by
    have sent (user : Option UserInfo) :
        user.toList.map (fun userinfo => ((state.handling.server.data userinfo).socket,vPacketConfirm.private_msg_id)) =
          (user.map fun userinfo => (state.handling.server.data userinfo).socket).toList.map
            fun socket => (socket,vPacketConfirm.private_msg_id) := by
      cases user <;> rfl
    rw [OnConfirmMessage_relayed,sent,sockets_iff]
  constructor
  · intro confirms
    exact ⟨removed.mp confirms.removed,fun sender waits => (relayed sender).mp (confirms.relayed sender waits)⟩
  · rintro ⟨own,named⟩
    exact ⟨removed.mpr own,fun sender waits => (relayed sender).mpr (named sender waits)⟩

/-- The law looks at what waits, what is to be recorded and what was delivered. -/
theorem Law.congr (law : state.Law) (waits : next.confirm_message_map_ = state.confirm_message_map_)
    (recording : next.recording = state.recording) (delivered : next.delivered = state.delivered) : next.Law := by
  intro platform msg_id
  rw [Delivering.pending,waits,recording,delivered]
  exact law platform msg_id

/-- What a text leaves. -/
theorem step_text {thread : Nat} {socket : Int32} {private_send : TextChatPrivateSend} {outside : Outside}
    (outcome : state.step requests (.text thread socket private_send outside) = some next) :
    state.recording thread = none ∧ next.confirm_message_map_ = state.confirm_message_map_ ∧
      next.handling.server = (sendText state.handling.server socket private_send outside).1 ∧
      ((next.recording = state.recording ∧ next.delivered = state.delivered) ∨
        ∃ send_user_info, (sendText state.handling.server socket private_send outside).2.2 = some send_user_info ∧
          next.recording = Function.update state.recording thread (some ⟨private_send.platform_id,outside.msg_id,send_user_info⟩) ∧
          next.delivered = mark state.delivered private_send.platform_id outside.msg_id true) := by
  rw [step] at outcome
  split at outcome
  · cases outcome
  · rename_i idle
    generalize sendText state.handling.server socket private_send outside = result at outcome ⊢
    obtain ⟨server,messages,_ | send_user_info⟩ := result
    · cases outcome
      exact ⟨idle,rfl,rfl,.inl ⟨rfl,rfl⟩⟩
    · cases outcome
      exact ⟨idle,rfl,rfl,.inr ⟨send_user_info,rfl,rfl,rfl⟩⟩

theorem step_confirm (msg_id : Int64) (vPacketConfirm : PacketConfirm) :
    state.step requests (.confirm msg_id vPacketConfirm) = some {state with
      confirm_message_map_ := (OnConfirmMessage state.caches msg_id vPacketConfirm).1.confirm_message_map_
      delivered := mark state.delivered vPacketConfirm.platform_id vPacketConfirm.private_msg_id false} := rfl

theorem step_iff (inv : state.Inv) : (state.Right service ∧ ∀ next, state.step requests service = some next → next.Law) ↔ state.Meets service := by
  have law := inv.law
  cases service with
  | deed deed =>
    refine iff_of_true ⟨trivial,fun next outcome => ?_⟩ trivial
    obtain ⟨handling,-,rfl⟩ := Option.map_eq_some_iff.mp outcome
    exact law.congr rfl rfl rfl
  | text thread socket private_send outside =>
    refine iff_of_true ⟨trivial,fun next outcome => ?_⟩ trivial
    obtain ⟨idle,waits,-,⟨recording,delivered⟩ | ⟨send_user_info,sent,recording,delivered⟩⟩ := step_text outcome
    · exact law.congr waits recording delivered
    · intro platform msg_id
      have before := law platform msg_id
      rw [Delivering.pending,waits,recording,delivered,mark]
      refine ⟨fun held => ?_,fun now => ?_⟩
      · rw [before.1 held,ite_self]
      · by_cases here : platform = private_send.platform_id ∧ msg_id = outside.msg_id
        · exact .inr ⟨thread,_,Function.update_self _ _ _,here.1.symm,here.2.symm⟩
        · rw [if_neg here] at now
          refine (before.2 now).imp_right ?_
          rintro ⟨other,call,recorded,same⟩
          refine ⟨other,call,?_,same⟩
          have apart : other ≠ thread := by
            rintro rfl
            cases idle.symm.trans recorded
          exact (Function.update_of_ne apart _ _).trans recorded
  | record thread =>
    show (True ∧ _) ↔ ∀ call, state.recording thread = some call → state.delivered call.platform_id call.msg_id = true
    rw [true_and]
    cases held : state.recording thread with
    | none =>
      refine iff_of_true (fun next outcome => ?_) nofun
      rw [step,held] at outcome
      cases outcome
    | some call =>
      have added := @AddConfirmMessage_known state.caches _ (inv.recording thread call held) call.msg_id call.send_user_info
      have after : state.step requests (.record thread) = some {state with
          confirm_message_map_ := (AddConfirmMessage state.caches call.platform_id call.msg_id call.send_user_info).confirm_message_map_
          recording := Function.update state.recording thread none} := by
        rw [step,held]
      rw [after,added]
      have waiting (platform msg_id : Int64) : (Function.update state.confirm_message_map_ call.platform_id
          (MapAdd (state.confirm_message_map_ call.platform_id) call.msg_id call.send_user_info) platform)[msg_id]? =
          if platform = call.platform_id ∧ msg_id = call.msg_id then some call.send_user_info else state.pending platform msg_id := by
        by_cases here : platform = call.platform_id
        · subst here
          rw [Function.update_self,MapAdd_get]
          simp only [true_and]
          rfl
        · rw [Function.update_of_ne here,if_neg fun both => here both.1]
          rfl
      constructor
      · rintro kept _ ⟨⟩
        refine (kept _ rfl call.platform_id call.msg_id).1 ?_
        rw [Delivering.pending]
        exact (congrArg Option.isSome (waiting _ _)).trans (by rw [if_pos ⟨rfl,rfl⟩]; rfl)
      · rintro met next ⟨⟩ platform msg_id
        obtain ⟨waits,delivered⟩ := law platform msg_id
        rw [Delivering.pending]
        dsimp only [caches]
        rw [waiting]
        by_cases here : platform = call.platform_id ∧ msg_id = call.msg_id
        · rw [if_pos here,here.1,here.2]
          exact ⟨fun _ => met call rfl,fun _ => .inl rfl⟩
        · rw [if_neg here]
          refine ⟨waits,fun now => (delivered now).imp_right ?_⟩
          rintro ⟨other,recording,recorded,same⟩
          refine ⟨other,recording,?_,same⟩
          have apart : other ≠ thread := by
            rintro rfl
            cases held.symm.trans recorded
            exact here ⟨same.1.symm,same.2.symm⟩
          exact (Function.update_of_ne apart _ _).trans recorded
  | confirm msg_id vPacketConfirm =>
    rw [← confirms_iff inv,Right]
    refine and_iff_left_of_imp fun confirms next outcome => ?_
    rw [step_confirm] at outcome
    cases outcome
    intro platform other
    obtain ⟨waits,delivered⟩ := law platform other
    have left := confirms.removed platform other
    rw [Delivering.pending]
    dsimp only
    rw [left,mark]
    split
    · exact ⟨nofun,nofun⟩
    · exact ⟨waits,delivered⟩

theorem Inv.step (inv : state.Inv) (law : next.Law) (outcome : state.step requests service = some next) : next.Inv := by
  cases service with
  | deed deed =>
    obtain ⟨handling,after,rfl⟩ := Option.map_eq_some_iff.mp outcome
    refine ⟨law,fun platform msg_id held => ?_,fun thread call held => ?_⟩
    · exact after_knows after (inv.pending platform msg_id held)
    · exact after_knows after (inv.recording thread call held)
  | text thread socket private_send outside =>
    obtain ⟨-,waits,server,rest⟩ := step_text outcome
    have same (platform : Int64) : next.handling.server.Knows platform ↔ state.handling.server.Knows platform := by
      rw [ChatServer.Knows,ChatServer.Knows,server,sendText_cache]
    refine ⟨law,fun platform msg_id held => ?_,fun other call held => ?_⟩
    · rw [Delivering.pending,waits] at held
      exact (same platform).mpr (inv.pending platform msg_id held)
    · refine (same call.platform_id).mpr ?_
      obtain ⟨recording,-⟩ | ⟨send_user_info,sent,recording,-⟩ := rest
      · rw [recording] at held
        exact inv.recording other call held
      · rw [recording,Function.update_apply] at held
        split at held
        · cases held
          exact sendText_knows sent
        · exact inv.recording other call held
  | record thread =>
    rw [Delivering.step] at outcome
    split at outcome
    · cases outcome
    · rename_i call held
      cases outcome
      have knows := inv.recording thread call held
      refine ⟨law,fun platform msg_id waits => ?_,fun other recording recorded => ?_⟩
      · rw [Delivering.pending,@AddConfirmMessage_known state.caches _ knows] at waits
        dsimp only at waits
        by_cases here : platform = call.platform_id
        · rw [here]
          exact knows
        · rw [Function.update_of_ne here] at waits
          exact inv.pending platform msg_id waits
      · simp only [Function.update_apply] at recorded
        split at recorded
        · cases recorded
        · exact inv.recording other recording recorded
  | confirm msg_id vPacketConfirm =>
    rw [step_confirm] at outcome
    cases outcome
    refine ⟨law,fun platform other waits => ?_,inv.recording⟩
    have left := OnConfirmMessage_pending inv msg_id vPacketConfirm platform other
    rw [Delivering.pending] at waits
    dsimp only at waits
    rw [left] at waits
    split at waits
    · cases waits
    · exact inv.pending platform other waits

theorem kept_of (inv : state.Inv) (services : List Service) : Kept requests state services ↔ Along (step requests) Meets state services := by
  induction services generalizing state with
  | nil => exact iff_of_true inv.law trivial
  | cons service services ih =>
    have here := @step_iff requests state service inv
    constructor
    · rintro ⟨-,right,rest⟩
      have lawful (next : Delivering) (outcome : state.step requests service = some next) : next.Law := by
        have kept := rest next outcome
        cases services with
        | nil => exact kept
        | cons => exact kept.1
      refine ⟨here.mp ⟨right,lawful⟩,fun next outcome => ?_⟩
      exact (ih (inv.step (lawful next outcome) outcome)).mp (rest next outcome)
    · rintro ⟨this,rest⟩
      obtain ⟨right,lawful⟩ := here.mpr this
      refine ⟨inv.law,right,fun next outcome => ?_⟩
      exact (ih (inv.step (lawful next outcome) outcome)).mpr (rest next outcome)

end Step

theorem start_inv (data : UserInfo → Data) : (start data).Inv where
  law platform msg_id := by
    rw [Delivering.pending,start,Std.ExtTreeMap.getElem?_empty]
    exact ⟨nofun,nofun⟩
  pending platform msg_id held := by
    rw [Delivering.pending,start,Std.ExtTreeMap.getElem?_empty] at held
    cases held
  recording _ _ held := nomatch held

/-- What is asked, of every run of the server from its start. -/
theorem waiting_iff (requests : Nat → InfoRequest) (data : UserInfo → Data) (services : List Service) :
    Kept requests (start data) services ↔ Along (step requests) Meets (start data) services := kept_of (start_inv data) services

/-- User 7 writes to user 8, who confirms message 100. -/
def twoFriends : List Service :=
  [.deed (.visit (.setPlatform 10000)),.deed (.visit (.login 5 10000 7 (some ⟨7,[],[]⟩) [])),
    .deed (.visit (.login 6 10000 8 (some ⟨8,[],[]⟩) [])),
    .text 0 5 ⟨10000,7,8,0,SafeStrncpy TOKEN_LEN [],[104]⟩ ⟨none,none,0,100⟩,.record 0,
    .confirm 1 ⟨10000,7,8,100,0,SafeStrncpy TOKEN_LEN []⟩]

/-- Message 100 waits on. -/
theorem friends_wait : ¬Kept hallRequests (start fun _ => noData) twoFriends := by
  rintro ⟨-,-,kept⟩
  obtain ⟨-,-,kept⟩ := kept _ rfl
  obtain ⟨-,-,kept⟩ := kept _ rfl
  obtain ⟨-,-,kept⟩ := kept _ rfl
  obtain ⟨-,-,kept⟩ := kept _ rfl
  obtain ⟨-,right,-⟩ := kept _ rfl
  have removed := right.removed 10000 100
  cases removed

end Delivering

end Migfm.Chat
