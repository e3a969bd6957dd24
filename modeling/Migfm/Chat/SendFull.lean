import Migfm.Library.Runs

/-! SendFull of chat/base/logic_comm.cc, called by the handler threads for one
non-blocking socket. The socket takes any prefix of what is offered or nothing at
all, and no lock keeps the calls apart. -/
namespace Migfm.Chat.SendFull
open Library.Runs

/-- The variables of the loop. -/
structure Sending where
  buffer : List UInt8
  total : Nat

/-- `wire` is what the socket has accepted, `frames` what it was to be sent. -/
structure Socket where
  wire : List UInt8
  frames : List (List UInt8)
  thread : Nat → Option Sending

def Socket.start : Socket := ⟨[],[],fun _ => none⟩

inductive Event
  | sendMessage (thread : Nat) (packet_stream : List UInt8)
  /-- `send`, which returns -1 where there is no amount -/
  | send (thread : Nat) (amt : Option Nat)

/-- `PackStream` gives at least a head. On -1 the loop ends, whatever was sent. -/
def Socket.step (socket : Socket) : Event → Option Socket
  | .sendMessage thread packet_stream =>
    match socket.thread thread with
    | some _ => none
    | none =>
      if packet_stream = [] then none
      else some {socket with
        frames := packet_stream :: socket.frames
        thread := Function.update socket.thread thread (some ⟨packet_stream,0⟩)}
  | .send thread amt =>
    match socket.thread thread,amt with
    | none,_ => none
    | some _,none => some {socket with thread := Function.update socket.thread thread none}
    | some sending,some amt =>
      let buf := sending.buffer.drop sending.total
      if amt ≤ buf.length then
        let total := sending.total + amt
        let sending := if total < sending.buffer.length then some {sending with total} else none
        some {socket with wire := socket.wire ++ buf.take amt, thread := Function.update socket.thread thread sending}
      else none

/-- What the socket has accepted of the frame that a thread is sending. -/
def Socket.accepted (socket : Socket) (thread : Nat) : List UInt8 :=
  match socket.thread thread with
  | none => []
  | some sending => sending.buffer.take sending.total

/-- Complete frames, and at most a prefix of one that is still being sent. -/
def Socket.Whole (socket : Socket) : Prop :=
  ∃ (frames : List (List UInt8)) (thread : Nat), (∀ frame ∈ frames, frame ∈ socket.frames) ∧
    socket.wire = frames.flatten ++ socket.accepted thread

/-- Nothing is sent while another thread is in the middle of a frame, and no
frame is given up in the middle. -/
def Socket.Orderly (socket : Socket) : Event → Prop
  | .sendMessage _ _ => True
  | .send thread none => socket.accepted thread = []
  | .send thread (some amt) => amt = 0 ∨ ∀ other, other ≠ thread → socket.accepted other = []

structure Socket.Inv (socket : Socket) : Prop where
  called : ∀ thread sending, socket.thread thread = some sending →
    sending.buffer ∈ socket.frames ∧ sending.total < sending.buffer.length
  line : ∃ (frames : List (List UInt8)) (thread : Nat), (∀ frame ∈ frames, frame ∈ socket.frames) ∧
    socket.wire = frames.flatten ++ socket.accepted thread ∧ ∀ other, other ≠ thread → socket.accepted other = []

section Step
variable {socket next : Socket}

theorem accepted_update (socket : Socket) (thread other : Nat) (sending : Option Sending) (wire : List UInt8)
    (frames : List (List UInt8)) :
    Socket.accepted ⟨wire,frames,Function.update socket.thread thread sending⟩ other =
      if other = thread then sending.elim [] fun sending => sending.buffer.take sending.total
      else socket.accepted other := by
  unfold Socket.accepted
  simp only [Function.update_apply]
  by_cases same : other = thread
  · rw [if_pos same,if_pos same]
    cases sending with
    | none => rfl
    | some sending => rfl
  · rw [if_neg same,if_neg same]

/-- The one who may be in the middle of a frame, if nobody else is. -/
theorem Socket.Inv.owner (inv : socket.Inv) {thread : Nat}
    (quiet : ∀ other, other ≠ thread → socket.accepted other = []) :
    ∃ frames : List (List UInt8), (∀ frame ∈ frames, frame ∈ socket.frames) ∧ socket.wire = frames.flatten ++ socket.accepted thread := by
  obtain ⟨frames,owner,known,wire,others⟩ := inv.line
  refine ⟨frames,known,?_⟩
  by_cases same : owner = thread
  · rw [wire,same]
  · rw [wire,quiet owner same,others thread (Ne.symm same)]

theorem sendMessage_inv (inv : socket.Inv) {thread : Nat} {packet_stream : List UInt8}
    (outcome : socket.step (.sendMessage thread packet_stream) = some next) : next.Inv := by
  simp only [Socket.step] at outcome
  split at outcome
  · cases outcome
  · rename_i idle
    split at outcome
    · cases outcome
    · rename_i filled
      cases outcome
      have same (other : Nat) : Socket.accepted ⟨socket.wire,packet_stream :: socket.frames,
          Function.update socket.thread thread (some ⟨packet_stream,0⟩)⟩ other = socket.accepted other := by
        rw [accepted_update]
        split
        · rename_i same
          rw [same,Socket.accepted,idle]
          rfl
        · rfl
      refine ⟨?_,?_⟩
      · intro other sending found
        simp only [Function.update_apply] at found
        split at found
        · cases found
          exact ⟨List.mem_cons_self ..,List.length_pos_iff.mpr filled⟩
        · obtain ⟨member,short⟩ := inv.called other sending found
          exact ⟨List.mem_cons_of_mem _ member,short⟩
      · obtain ⟨frames,owner,known,wire,others⟩ := inv.line
        refine ⟨frames,owner,fun frame member => List.mem_cons_of_mem _ (known frame member),?_,?_⟩
        · rw [same]
          exact wire
        · intro other apart
          rw [same]
          exact others other apart

theorem giveUp_inv (inv : socket.Inv) {thread : Nat} (orderly : socket.accepted thread = [])
    (outcome : socket.step (.send thread none) = some next) : next.Inv := by
  simp only [Socket.step] at outcome
  split at outcome
  · cases outcome
  · cases outcome
    have same (other : Nat) : Socket.accepted {socket with thread := Function.update socket.thread thread none} other =
        socket.accepted other := by
      rw [accepted_update]
      split
      · rename_i same
        rw [same,orderly]
        rfl
      · rfl
    refine ⟨?_,?_⟩
    · intro other sending found
      simp only [Function.update_apply] at found
      split at found
      · cases found
      · exact inv.called other sending found
    · obtain ⟨frames,owner,known,wire,others⟩ := inv.line
      refine ⟨frames,owner,known,?_,?_⟩
      · rw [same]
        exact wire
      · intro other apart
        rw [same]
        exact others other apart
  · cases ‹none = some _›

theorem send_inv (inv : socket.Inv) {thread amt : Nat} (orderly : socket.Orderly (.send thread (some amt)))
    (outcome : socket.step (.send thread (some amt)) = some next) : next.Inv := by
  simp only [Socket.step] at outcome
  split at outcome
  · cases outcome
  · cases ‹some amt = none›
  · rename_i sending _ sends given
    cases given
    obtain ⟨member,short⟩ := inv.called thread sending sends
    split at outcome
    · rename_i offered
      cases outcome
      have mine : socket.accepted thread = sending.buffer.take sending.total := by
        rw [Socket.accepted,sends]
      have grown : sending.buffer.take sending.total ++ (sending.buffer.drop sending.total).take amt =
          sending.buffer.take (sending.total + amt) := List.take_add.symm
      have called' : ∀ other found, Function.update socket.thread thread
          (if sending.total + amt < sending.buffer.length then some {sending with total := sending.total + amt} else none)
            other = some found → found.buffer ∈ socket.frames ∧ found.total < found.buffer.length := by
        intro other found sends'
        rw [Function.update_apply] at sends'
        split at sends'
        · split at sends'
          · rename_i less
            cases sends'
            exact ⟨member,less⟩
          · cases sends'
        · exact inv.called other found sends'
      refine ⟨called',?_⟩
      simp only [accepted_update]
      rcases orderly with rfl | quiet
      · obtain ⟨frames,owner,known,wire,others⟩ := inv.line
        have same (other : Nat) : (if other = thread then Option.elim (if sending.total + 0 < sending.buffer.length then
            some {sending with total := sending.total + 0} else none) [] fun sending => sending.buffer.take sending.total
              else socket.accepted other) = socket.accepted other := by
          split
          · rename_i same
            rw [same,mine,Nat.add_zero,if_pos short]
            rfl
          · rfl
        refine ⟨frames,owner,known,?_,?_⟩
        · rw [same,List.take_zero,List.append_nil]
          exact wire
        · intro other apart
          rw [same]
          exact others other apart
      · obtain ⟨frames,known,wire⟩ := inv.owner quiet
        rw [wire,mine,List.append_assoc,grown]
        by_cases less : sending.total + amt < sending.buffer.length
        · refine ⟨frames,thread,known,?_,?_⟩
          · rw [if_pos rfl,if_pos less]
            rfl
          · intro other apart
            rw [if_neg apart]
            exact quiet other apart
        · have whole : sending.buffer.take (sending.total + amt) = sending.buffer :=
            List.take_of_length_le (Nat.le_of_not_lt less)
          refine ⟨frames ++ [sending.buffer],thread,?_,?_,?_⟩
          · intro frame listed
            rcases List.mem_append.mp listed with old | new
            · exact known frame old
            · rw [List.mem_singleton.mp new]
              exact member
          · rw [whole,if_pos rfl,if_neg less,List.flatten_append,List.flatten_singleton]
            exact (List.append_nil _).symm
          · intro other apart
            rw [if_neg apart]
            exact quiet other apart
    · cases outcome

theorem step_inv {event : Event} (inv : socket.Inv) (orderly : socket.Orderly event)
    (outcome : socket.step event = some next) : next.Inv := by
  cases event with
  | sendMessage thread packet_stream => exact sendMessage_inv inv outcome
  | send thread amt =>
    cases amt with
    | none => exact giveUp_inv inv orderly outcome
    | some amt => exact send_inv inv orderly outcome

end Step

theorem start_inv : Socket.start.Inv := by
  refine ⟨?_,[],0,?_,rfl,fun _ _ => rfl⟩
  · intro thread sending found
    cases found
  · intro frame member
    cases member

theorem Socket.Inv.whole {socket : Socket} (inv : socket.Inv) : socket.Whole := by
  obtain ⟨frames,thread,known,wire,_⟩ := inv.line
  exact ⟨frames,thread,known,wire⟩

/-- In every orderly run the socket has whole frames at every time. -/
theorem whole_frames {events : List Event} (orderly : Along Socket.step Socket.Orderly .start events) {socket : Socket}
    (ends : run Socket.step .start events = some socket) : socket.Whole :=
  (run_invariant step_inv start_inv orderly ends).whole

/-- A USER_NOTIFICATION_QUIT for a user of platform 0. -/
def quitFrame (user_id : UInt8) : List UInt8 :=
  [47,0,0,0,243,3,0,0,16,0,0,0] ++ List.replicate 27 0 ++ user_id :: List.replicate 7 0

/-- A frame goes out in two pieces; the next one finds no room and is dropped. -/
def turns : List Event :=
  [.sendMessage 0 (quitFrame 7),.send 0 (some 1),.send 0 (some 46),.sendMessage 1 (quitFrame 8),.send 1 none]

def turnsEnd : Socket := (run Socket.step .start turns).get rfl

theorem turns_whole : run Socket.step .start turns = some turnsEnd ∧ turnsEnd.Whole := by
  have orderly : Along Socket.step Socket.Orderly .start turns := by
    refine ⟨trivial,?_⟩
    rintro _ ⟨⟩
    refine ⟨.inr ?_,?_⟩
    · intro other apart
      rw [Socket.accepted]
      simp only [Function.update_of_ne apart]
      rfl
    rintro _ ⟨⟩
    refine ⟨.inr ?_,?_⟩
    · intro other apart
      rw [Socket.accepted]
      simp only [Function.update_of_ne apart]
      rfl
    rintro _ ⟨⟩
    refine ⟨trivial,?_⟩
    rintro _ ⟨⟩
    exact ⟨rfl,fun _ _ => trivial⟩
  exact ⟨rfl,whole_frames orderly rfl⟩

/-- The second frame goes out after the first byte of the first one. -/
def mixed : List Event :=
  [.sendMessage 0 (quitFrame 7),.sendMessage 1 (quitFrame 8),.send 0 (some 1),.send 1 (some 47),.send 0 (some 46)]

def mixedEnd : Socket := (run Socket.step .start mixed).get rfl

theorem mixed_broken : run Socket.step .start mixed = some mixedEnd ∧ ¬mixedEnd.Whole := by
  refine ⟨rfl,?_⟩
  rintro ⟨frames,thread,known,wire⟩
  have given : mixedEnd.frames = [quitFrame 8,quitFrame 7] := rfl
  have idle : mixedEnd.accepted thread = [] := by
    match thread with
    | 0 => rfl
    | 1 => rfl
    | _+2 => rfl
  rw [idle,List.append_nil] at wire
  -- The second byte is the first one of the other frame.
  have second : mixedEnd.wire[1]? = some 47 := rfl
  cases frames with
  | nil =>
    rw [wire] at second
    cases second
  | cons frame frames =>
    have listed := known frame (List.mem_cons_self ..)
    rw [given,List.mem_cons,List.mem_singleton] at listed
    rw [wire] at second
    rcases listed with rfl | rfl
    · cases second
    · cases second

end Migfm.Chat.SendFull
