import Migfm.Comm.FixedBuf
import Migfm.Master.Lines
import Migfm.Public.Members

/-! A program under http and its connection to a master: `core_get` of public/comm/core_interface.cc at one end, the lines
that core/network.c cuts and the threads that answer them at the other. No response says where it ends: `core_get` takes
what has come when `FIONREAD` finds no more. -/
namespace Migfm.System.Gateway
open Library.Runs
open Comm (FixedBuf Failure stringAt)
open Master (EchoConn Fresh Between newline cut)
open Public.Json (c_str)

/-! ### The buffer of `core_get` -/

def recv_buffer : FixedBuf := ⟨List.replicate 4096 none,0,4096,0,Comm.STATE_NONE⟩

theorem recv_buffer_created : FixedBuf.create 4096 = .ok recv_buffer := rfl

/-- From `wlock` to `wunlock`, with what `recv` puts between them. -/
def receive (buf : FixedBuf) (wlen : Nat) (bytes : List UInt8) : Except Failure FixedBuf := do
  match ← buf.wlock wlen with
  | (none,_) => .error .outside
  | (some wbuf,buf) =>
    let buf ← buf.put wbuf bytes
    return (buf.wunlock wbuf bytes.length).2

/-- After the loop. -/
def assign (buf : FixedBuf) : Except Failure (List UInt8 × FixedBuf) := do
  let (_,buf) ← buf.write [some 0]
  match stringAt buf._data with
  | none => .error .outside
  | some value => return (value,buf)

section Buffer
variable {buf : FixedBuf} {unread : List UInt8} (holds : buf.Holds unread)
include holds

theorem receive_spec {wlen : Nat} (fits : wlen < 2^63) {bytes : List UInt8} (inside : bytes.length ≤ wlen) :
    receive buf wlen bytes = .error .allocation ∨ ∃ next, receive buf wlen bytes = .ok next ∧ next.Holds (unread ++ bytes) := by
  rw [receive]
  rcases holds.wlock_spec fits with failed | ⟨locked,locks,placed,room,state⟩
  · rw [failed]
    exact .inl rfl
  · obtain ⟨filled,next,puts,unlocks,kept,free⟩ := placed.put_spec (by omega : locked._ppos + bytes.length ≤ locked._total) state
    rw [locks]
    dsimp only [bind,Except.bind]
    rw [puts]
    refine .inr ⟨next,?_,kept,free⟩
    dsimp only [pure,Except.pure]
    rw [unlocks]

/-- The value is the C string of what was received. -/
theorem assign_spec : assign buf = .error .allocation ∨ ∃ next, assign buf = .ok (c_str unread,next) ∧ next.Holds (unread ++ [0]) := by
  rw [assign]
  rcases holds.write_spec holds.unlocked.1 ⟨[0],by decide⟩ with failed | ⟨next,writes,placed,state⟩
  · left
    change (buf.write (List.map some [0])).bind _ = _
    rw [failed]
    rfl
  · refine .inr ⟨next,?_,placed,state.trans holds.free⟩
    change (buf.write (List.map some [0])).bind _ = _
    rw [writes]
    dsimp only [Except.bind]
    rw [Comm.stringAt_ended placed.queue]
    rfl

end Buffer

/-! ### The connection -/

/-- Where `core_get` is: not called, in front of `recv`, or in front of `ioctl`. -/
inductive Phase
  | idle
  | receiving (wlen : Nat)
  | counting

/-- What the thread of a task sends, and how much of it the socket has accepted. -/
structure Sending where
  response : List UInt8
  total : Nat

/-- The bytes in `up` were sent by `core_get` and not yet received by the master, those in `down` the other way. A task is
known by its place among the tasks of `conn`. The last three fields are history: what the call of `core_get` in progress
has received, and the keys and values of the calls over this connection. -/
structure State where
  recv_buffer : FixedBuf
  phase : Phase
  up : List UInt8
  conn : EchoConn
  sending : Nat → Option Sending
  down : List UInt8
  received : List UInt8
  keys : List (List UInt8)
  values : List (List UInt8)

def State.start (fresh : Fresh) : State := ⟨Gateway.recv_buffer,.idle,[],.start fresh,fun _ => none,[],[],[],[]⟩

/-- What `send` answers; after `ECONNRESET` and `ENOTCONN` also what `connect` does. -/
inductive Sent
  | accepted (n : Nat)
  | reset (connected : Option Fresh)
  | refused

inductive Event
  | core_get (key : List UInt8) (sents : List Sent)
  | recv (n : Nat)
  | recvFails
  | ioctl (ok : Bool)
  | receive (n : Nat) (fresh : Fresh) (past : List UInt8)
  | handle (task : Nat) (response : List UInt8)
  | send (task n : Nat)

/-- Why a step has no outcome: it cannot happen, or the buffer fails. -/
inductive Stop
  | never
  | failure (cause : Failure)

/-- What follows a call of the buffer. -/
def after {Value : Type} (outcome : Except Failure Value) (next : Value → State) : Except Stop State :=
  match outcome with
  | .ok value => .ok (next value)
  | .error cause => .error (.failure cause)

namespace State
variable (s : State)

/-- A new connection. -/
def connected (fresh : Fresh) : State :=
  { s with up := [], conn := .start fresh, sending := fun _ => none, down := [], keys := [], values := [] }

def RETRY_COUNT : Nat := 1

/-- With no attempt left it answers as if the key was sent. -/
def _try_send (key : List UInt8) : Nat → List Sent → State → Option (Bool × State)
  | 0,_,s => some (true,s)
  | _ + 1,[],_ => none
  | _ + 1,.accepted n::_,s => if 0 < n ∧ n ≤ key.length then some (true,{ s with up := s.up ++ key.take n }) else none
  | attempts + 1,.reset (some fresh)::sents,s => _try_send key attempts sents (s.connected fresh)
  | _ + 1,.reset none::_,s => some (false,s)
  | _ + 1,.refused::_,s => some (false,s)

def step : Event → Except Stop State
  | .core_get key sents =>
    match s.phase,_try_send key (1 + RETRY_COUNT) sents s with
    | .idle,some (true,s) =>
      .ok { s with recv_buffer := s.recv_buffer.clear.2, phase := .receiving 1024, received := [], keys := s.keys ++ [key] }
    | .idle,some (false,s) => .ok s
    | _,_ => .error .never
  | .recv n =>
    match s.phase with
    | .receiving wlen =>
      if 0 < n ∧ n ≤ wlen ∧ n ≤ s.down.length then
        after (Gateway.receive s.recv_buffer wlen (s.down.take n)) fun recv_buffer =>
          { s with recv_buffer, phase := .counting, down := s.down.drop n, received := s.received ++ s.down.take n }
      else .error .never
    | _ => .error .never
  | .recvFails =>
    match s.phase with
    | .receiving wlen => after (Gateway.receive s.recv_buffer wlen []) fun recv_buffer => { s with recv_buffer, phase := .idle }
    | _ => .error .never
  | .ioctl ok =>
    match s.phase with
    | .counting =>
      if ok = false ∨ s.down = [] then
        after (assign s.recv_buffer) fun (value,recv_buffer) =>
          { s with recv_buffer, phase := .idle, values := s.values ++ [value] }
      else if s.down.length < 2^31 then .ok { s with phase := .receiving s.down.length }
      else .error .never
    | _ => .error .never
  | .receive n fresh past =>
    if 0 < n ∧ n ≤ s.conn.psc_rx_size ∧ n ≤ s.up.length then
      match Master.receive s.conn (.data (s.up.take n) fresh past) with
      | some conn => .ok { s with conn, up := s.up.drop n }
      | none => .error .never
    else .error .never
  | .handle task response =>
    if task < s.conn.tasks.length ∧ s.sending task = none then
      .ok { s with sending := Function.update s.sending task (some ⟨response,0⟩) }
    else .error .never
  | .send task n =>
    match s.sending task with
    | some ⟨response,total⟩ =>
      if 0 < n ∧ total + n ≤ response.length then
        .ok { s with
          sending := Function.update s.sending task (some ⟨response,total + n⟩)
          down := s.down ++ (response.drop total).take n }
      else .error .never
    | none => .error .never

/-- The state after a step that has an outcome. -/
def next (event : Event) : Option State := (s.step event).toOption

end State

/-! ### The value is what was received -/

/-- The buffer is unlocked, and has in it what the call in progress has received. -/
structure State.Sound (s : State) : Prop where
  buffer : ∃ unread, s.recv_buffer.Holds unread ∧ (s.phase = .idle ∨ unread = s.received)
  wlen : ∀ wlen, s.phase = .receiving wlen → wlen < 2^63

def Safe (outcome : Except Stop State) : Prop := outcome ≠ .error (.failure .outside) ∧ ∀ next, outcome = .ok next → next.Sound

theorem never_safe : Safe (.error .never) := by
  constructor
  · intro same
    cases same
  · intro next same
    cases same

theorem ok_safe {next : State} (sound : next.Sound) : Safe (.ok next) := by
  constructor
  · intro same
    cases same
  · intro other same
    cases same
    exact sound

theorem after_safe {Value : Type} {outcome : Except Failure Value} {next : Value → State}
    (spec : outcome = .error .allocation ∨ ∃ value, outcome = .ok value ∧ (next value).Sound) : Safe (after outcome next) := by
  rcases spec with failed | ⟨value,returns,sound⟩
  · rw [failed]
    constructor
    · intro same
      cases same
    · intro other same
      cases same
  · rw [returns]
    exact ok_safe sound

namespace State

theorem try_send_kept {key : List UInt8} {attempts : Nat} {sents : List Sent} {s s' : State} {ok : Bool}
    (outcome : _try_send key attempts sents s = some (ok,s')) : s'.recv_buffer = s.recv_buffer ∧ s'.phase = s.phase := by
  induction attempts generalizing sents s with
  | zero =>
    cases outcome
    exact ⟨rfl,rfl⟩
  | succ attempts ih =>
    cases sents with
    | nil => cases outcome
    | cons sent sents =>
      cases sent with
      | accepted n =>
        rw [_try_send] at outcome
        split at outcome
        · cases outcome
          exact ⟨rfl,rfl⟩
        · cases outcome
      | reset connected =>
        cases connected with
        | none =>
          cases outcome
          exact ⟨rfl,rfl⟩
        | some fresh =>
          have kept := ih outcome
          exact kept
      | refused =>
        cases outcome
        exact ⟨rfl,rfl⟩

namespace Sound
variable {s : State} (sound : s.Sound)
include sound

/-- A step that leaves `core_get` where it is. -/
theorem elsewhere {next : State} (buffer : next.recv_buffer = s.recv_buffer) (phase : next.phase = s.phase)
    (received : next.received = s.received) : next.Sound := by
  constructor
  · rw [buffer,phase,received]
    exact sound.buffer
  · rw [phase]
    exact sound.wlen

theorem receive_spec {wlen : Nat} (phase : s.phase = .receiving wlen) {bytes : List UInt8} (inside : bytes.length ≤ wlen) :
    Gateway.receive s.recv_buffer wlen bytes = .error .allocation ∨
      ∃ recv_buffer, Gateway.receive s.recv_buffer wlen bytes = .ok recv_buffer ∧ recv_buffer.Holds (s.received ++ bytes) := by
  obtain ⟨unread,holds,idle | rfl⟩ := sound.buffer
  · cases phase.symm.trans idle
  · exact Gateway.receive_spec holds (sound.wlen wlen phase) inside

theorem step_safe (event : Event) : Safe (s.step event) := by
  cases event with
  | core_get key sents =>
    rw [step]
    split
    · rename_i s' idle outcome
      obtain ⟨buffer,_⟩ := try_send_kept outcome
      obtain ⟨unread,holds,_⟩ := sound.buffer
      refine ok_safe ⟨⟨[],?_,.inr rfl⟩,?_⟩
      · change s'.recv_buffer.clear.2.Holds []
        rw [buffer,FixedBuf.clear,holds.unlocked.1]
        exact ⟨holds.cleared,holds.free⟩
      · intro wlen same
        cases same
        decide
    · rename_i s' idle outcome
      obtain ⟨buffer,phase⟩ := try_send_kept outcome
      obtain ⟨unread,holds,_⟩ := sound.buffer
      refine ok_safe ⟨⟨unread,buffer ▸ holds,.inl (phase.trans idle)⟩,?_⟩
      intro wlen same
      cases same.symm.trans (phase.trans idle)
    · exact never_safe
  | recv n =>
    rw [step]
    split
    · rename_i wlen phase
      split
      · rename_i given
        have inside : (s.down.take n).length ≤ wlen := (List.length_take_le ..).trans given.2.1
        apply after_safe
        rcases sound.receive_spec phase inside with failed | ⟨recv_buffer,receives,holds⟩
        · exact .inl failed
        · refine .inr ⟨recv_buffer,receives,⟨_,holds,.inr rfl⟩,?_⟩
          intro wlen same
          cases same
      · exact never_safe
    · exact never_safe
  | recvFails =>
    rw [step]
    split
    · rename_i wlen phase
      apply after_safe
      rcases @receive_spec s sound wlen phase [] (Nat.zero_le wlen) with failed | ⟨recv_buffer,receives,holds⟩
      · exact .inl failed
      · refine .inr ⟨recv_buffer,receives,⟨_,holds,.inl rfl⟩,?_⟩
        intro wlen same
        cases same
    · exact never_safe
  | ioctl ok =>
    rw [step]
    split
    · rename_i phase
      obtain ⟨unread,holds,idle | received⟩ := sound.buffer
      · cases phase.symm.trans idle
      split
      · apply after_safe
        rcases assign_spec holds with failed | ⟨recv_buffer,assigns,kept⟩
        · exact .inl failed
        · refine .inr ⟨_,assigns,⟨_,kept,.inl rfl⟩,?_⟩
          intro wlen same
          cases same
      · split
        · rename_i small
          refine ok_safe ⟨⟨unread,holds,.inr received⟩,?_⟩
          intro wlen same
          cases same
          omega
        · exact never_safe
    · exact never_safe
  | receive n fresh past =>
    rw [step]
    split
    · split
      · exact ok_safe (sound.elsewhere rfl rfl rfl)
      · exact never_safe
    · exact never_safe
  | handle task response =>
    rw [step]
    split
    · exact ok_safe (sound.elsewhere rfl rfl rfl)
    · exact never_safe
  | send task n =>
    rw [step]
    split
    · split
      · exact ok_safe (sound.elsewhere rfl rfl rfl)
      · exact never_safe
    · exact never_safe

/-- All that `ioctl` can lead to. -/
theorem ioctl_cases {ok : Bool} {next : State} (outcome : s.step (.ioctl ok) = .ok next) : s.phase = .counting ∧
    ((∃ recv_buffer, next = { s with recv_buffer, phase := .idle, values := s.values ++ [c_str s.received] }) ∨
      next = { s with phase := .receiving s.down.length }) := by
  obtain ⟨unread,holds,place⟩ := sound.buffer
  rw [step] at outcome
  split at outcome
  · rename_i phase
    refine ⟨phase,?_⟩
    split at outcome
    · rcases place with other | rfl
      · cases phase.symm.trans other
      rcases assign_spec holds with failed | ⟨recv_buffer,assigns,_⟩
      · rw [failed] at outcome
        cases outcome
      · rw [assigns] at outcome
        cases outcome
        exact .inl ⟨recv_buffer,rfl⟩
    · split at outcome
      · cases outcome
        exact .inr rfl
      · cases outcome
  · cases outcome

end Sound

theorem start_sound (fresh : Fresh) : (start fresh).Sound := by
  refine ⟨⟨[],FixedBuf.create_holds recv_buffer_created,.inl rfl⟩,?_⟩
  intro wlen same
  cases same

theorem next_eq_some {s next : State} {event : Event} (outcome : s.next event = some next) : s.step event = .ok next := by
  cases stepped : s.step event with
  | error stop =>
    rw [State.next,stepped] at outcome
    cases outcome
  | ok other =>
    rw [State.next,stepped] at outcome
    cases outcome
    rfl

theorem next_of_step {s next : State} {event : Event} (outcome : s.step event = .ok next) : s.next event = some next := by
  rw [State.next,outcome]
  rfl

/-- In every run, whatever the socket does and the master sends: the buffer is never left, it is unlocked between two
calls, and a value is the C string of what its call has received. -/
theorem core_get_received (fresh : Fresh) {events : List Event} {s : State} (ends : run State.next (start fresh) events = some s) :
    (∀ event, s.step event ≠ .error (.failure .outside)) ∧ (s.phase = .idle → s.recv_buffer.any_locked = false) ∧
      ∀ ok next, s.step (.ioctl ok) = .ok next → next.phase = .idle → next.values = s.values ++ [c_str s.received] := by
  have sound : s.Sound := run_keeps (fun sound outcome => (sound.step_safe _).2 _ (next_eq_some outcome)) (start_sound fresh) ends
  obtain ⟨unread,holds,_⟩ := sound.buffer
  refine ⟨fun event => (sound.step_safe event).1,fun _ => holds.unlocked.1,?_⟩
  intro ok next outcome idle
  obtain ⟨_,⟨recv_buffer,rfl⟩ | rfl⟩ := sound.ioctl_cases outcome
  · rfl
  · cases idle

/-- A key is sent and received, the first half of its response comes, and `core_get` returns it. -/
def twoParts : List Event := [
  .core_get [97,10] [.accepted 2],
  .receive 2 Master.zeroed [0],
  .handle 0 [120,121],
  .send 0 1,
  .recv 1,
  .ioctl true]

set_option maxRecDepth 40000 in
theorem twoParts_cut : ∃ s next, run State.next (start Master.zeroed) (twoParts.take 5) = some s ∧ s.step (.ioctl true) = .ok next ∧
    next.values = [[120]] ∧ next.sending 0 = some ⟨[120,121],1⟩ := by
  refine ⟨_,_,rfl,rfl,?_,rfl⟩
  exact (@core_get_received Master.zeroed (twoParts.take 5) _ rfl).2.2 true _ rfl rfl

/-! ### Whose response the value is -/

/-- The response of a task is out. -/
def Done (s : State) (task : Nat) : Prop := ∃ sending, s.sending task = some sending ∧ sending.total = sending.response.length

/-- Every value is the response to its key. -/
def Right (s : State) : Prop :=
  ∀ call value, s.values[call]? = some value → ∃ key, s.keys[call]? = some key ∧ s.conn.tasks[call]? = some key ∧
    ∃ sending, s.sending call = some sending ∧ sending.response = value

/-- One line for each key, sent whole over one connection, responses without a zero byte, and no newline behind the bytes
that the master receives. -/
def Promised (s : State) : Event → Prop
  | .core_get key sents => (∃ body, newline ∉ body ∧ key = body ++ [newline]) ∧ sents.head? = some (.accepted key.length)
  | .recvFails => False
  | .receive n fresh past => Master.Spared s.conn (.data (s.up.take n) fresh past)
  | .handle _ response => 0 ∉ response
  | _ => True

/-- When `core_get` returns with a value, nothing is on its way. -/
def Alone (s : State) (event : Event) : Prop :=
  ∀ next, s.next event = some next → s.phase = .counting → next.phase = .idle →
    s.up = [] ∧ s.down = [] ∧ ∀ task < s.conn.tasks.length, s.Done task

/-- Nothing else returns a value. -/
theorem ioctl_of_returns {s next : State} {event : Event} (outcome : s.step event = .ok next) (phase : s.phase = .counting)
    (idle : next.phase = .idle) : ∃ ok, event = .ioctl ok := by
  cases event with
  | ioctl ok => exact ⟨ok,rfl⟩
  | core_get key sents =>
    rw [step,phase] at outcome
    cases outcome
  | recv n =>
    rw [step,phase] at outcome
    cases outcome
  | recvFails =>
    rw [step,phase] at outcome
    cases outcome
  | receive n fresh past =>
    rw [step] at outcome
    split at outcome
    · split at outcome
      · cases outcome
        cases phase.symm.trans idle
      · cases outcome
    · cases outcome
  | handle task response =>
    rw [step] at outcome
    split at outcome
    · cases outcome
      cases phase.symm.trans idle
    · cases outcome
  | send task n =>
    rw [step] at outcome
    split at outcome
    · split at outcome
      · cases outcome
        cases phase.symm.trans idle
      · cases outcome
    · cases outcome

/-- What has been sent for a task. -/
def out (s : State) (task : Nat) : List UInt8 := (s.sending task).elim [] fun sending => sending.response.take sending.total

/-- The master has answered all that it got. -/
structure Idle (s : State) : Prop where
  phase : s.phase = .idle
  keys : s.conn.tasks = s.keys
  answered : s.values.length = s.conn.tasks.length
  up : s.up = []
  down : s.down = []
  between : Between s.conn []

/-- The master has not got the whole key. -/
structure Coming (s : State) : Prop where
  answered : s.values.length = s.conn.tasks.length
  key : ∃ held rest, Between s.conn held ∧ newline ∉ rest ∧ s.up = rest ++ [newline] ∧ s.keys = s.conn.tasks ++ [held ++ s.up]

/-- The key is the last task of the master. -/
structure Handed (s : State) : Prop where
  answered : s.values.length + 1 = s.conn.tasks.length
  keys : s.conn.tasks = s.keys
  up : s.up = []
  between : Between s.conn []

/-- Behind the values, all that was sent belongs to the call in progress. -/
structure Inv (s : State) : Prop where
  sound : s.Sound
  right : s.Right
  done : ∀ task < s.values.length, s.Done task
  known : ∀ task sending, s.sending task = some sending →
    task < s.conn.tasks.length ∧ 0 ∉ sending.response ∧ sending.total ≤ sending.response.length
  some_ : s.phase = .counting → s.received ≠ []
  place : s.Idle ∨ s.phase ≠ .idle ∧ s.received ++ s.down = s.out s.values.length ∧ (s.Coming ∨ s.Handed)

namespace Inv
variable {s next : State} (inv : s.Inv)
include inv

/-- A task that is not done is the one of the call in progress. -/
theorem current {task : Nat} (known : task < s.conn.tasks.length) (unfinished : ¬s.Done task) :
    task = s.values.length ∧ s.phase ≠ .idle ∧ s.received ++ s.down = s.out s.values.length ∧ s.Handed := by
  have behind : s.values.length ≤ task := by
    by_contra before
    exact unfinished (inv.done task (Nat.lt_of_not_le before))
  rcases inv.place with idle | ⟨busy,flow,coming | handed⟩
  · have answered := idle.answered
    omega
  · have answered := coming.answered
    omega
  · have answered := handed.answered
    exact ⟨by omega,busy,flow,handed⟩

/-- In front of the task in progress nothing changes. -/
theorem update_sending (busy : s.phase ≠ .idle) (handed : s.Handed) {sending : Sending} {down : List UInt8}
    (clean : 0 ∉ sending.response ∧ sending.total ≤ sending.response.length)
    (flow : s.received ++ down = sending.response.take sending.total) :
    Inv { s with sending := Function.update s.sending s.values.length (some sending), down } := by
  have front (task : Nat) (before : task < s.values.length) :
      Function.update s.sending s.values.length (some sending) task = s.sending task :=
    Function.update_of_ne before.ne ..
  refine ⟨inv.sound.elsewhere rfl rfl rfl,?_,?_,?_,inv.some_,.inr ⟨busy,?_,.inr ⟨handed.answered,handed.keys,handed.up,handed.between⟩⟩⟩
  · intro call value named
    obtain ⟨key,keyed,tasked,other,sends,same⟩ := inv.right call value named
    obtain ⟨before,_⟩ := List.getElem?_eq_some_iff.mp named
    exact ⟨key,keyed,tasked,other,(front call before).trans sends,same⟩
  · intro task before
    obtain ⟨other,sends,whole⟩ := inv.done task before
    exact ⟨other,(front task before).trans sends,whole⟩
  · intro task other sends
    by_cases current : task = s.values.length
    · rw [current] at sends ⊢
      cases (Function.update_self ..).symm.trans sends
      exact ⟨handed.answered ▸ Nat.lt_succ_self _,clean⟩
    · exact inv.known task other ((Function.update_of_ne current ..).symm.trans sends)
  · rw [out]
    change _ = (Function.update s.sending s.values.length (some sending) s.values.length).elim [] _
    rw [Function.update_self]
    exact flow

theorem core_get {key : List UInt8} {sents : List Sent} (promised : s.Promised (.core_get key sents))
    (outcome : s.step (.core_get key sents) = .ok next) : next.Inv := by
  have sound := (inv.sound.step_safe _).2 _ outcome
  obtain ⟨⟨body,open_,rfl⟩,first⟩ := promised
  obtain ⟨rest,rfl⟩ := List.head?_eq_some_iff.mp first
  have sends : _try_send (body ++ [newline]) (1 + RETRY_COUNT) (.accepted (body ++ [newline]).length::rest) s =
      some (true,{ s with up := s.up ++ (body ++ [newline]) }) := by
    have given : 0 < (body ++ [newline]).length ∧ (body ++ [newline]).length ≤ (body ++ [newline]).length := by
      rw [List.length_append]
      exact ⟨Nat.succ_pos _,le_rfl⟩
    change (if _ then _ else _) = _
    rw [if_pos given,List.take_length]
  rw [step,sends] at outcome
  rcases inv.place with idle | ⟨busy,_⟩
  · rw [idle.phase] at outcome
    cases outcome
    have nothing : s.out s.values.length = [] := by
      rw [out]
      cases sending : s.sending s.values.length with
      | none => rfl
      | some other =>
        obtain ⟨known,_⟩ := inv.known _ other sending
        exact absurd known (idle.answered ▸ Nat.lt_irrefl _)
    refine ⟨sound,?_,inv.done,inv.known,fun same => Phase.noConfusion same,.inr ⟨fun same => Phase.noConfusion same,?_,.inl ⟨idle.answered,?_⟩⟩⟩
    · intro call value named
      obtain ⟨old,keyed,rest⟩ := inv.right call value named
      obtain ⟨before,_⟩ := List.getElem?_eq_some_iff.mp keyed
      exact ⟨old,(List.getElem?_append_left before).trans keyed,rest⟩
    · change [] ++ s.down = s.out s.values.length
      rw [nothing,idle.down]
      rfl
    · refine ⟨[],body,idle.between,open_,?_,?_⟩
      · change s.up ++ _ = _
        rw [idle.up]
        rfl
      · change s.keys ++ [_] = s.conn.tasks ++ [[] ++ (s.up ++ _)]
        rw [idle.up,idle.keys]
        rfl
  · cases phase : s.phase with
    | idle => exact absurd phase busy
    | receiving wlen =>
      rw [phase] at outcome
      cases outcome
    | counting =>
      rw [phase] at outcome
      cases outcome

theorem recv {n : Nat} (outcome : s.step (.recv n) = .ok next) : next.Inv := by
  have sound := (inv.sound.step_safe _).2 _ outcome
  rw [step] at outcome
  split at outcome
  · rename_i wlen phase
    split_ifs at outcome with given
    cases received : Gateway.receive s.recv_buffer wlen (s.down.take n) with
    | error cause =>
      rw [received] at outcome
      cases outcome
    | ok recv_buffer =>
      rw [received] at outcome
      cases outcome
      rcases inv.place with idle | ⟨_,flow,place⟩
      · cases phase.symm.trans idle.phase
      refine ⟨sound,inv.right,inv.done,inv.known,?_,.inr ⟨fun same => Phase.noConfusion same,?_,?_⟩⟩
      · intro _ nothing
        have length := congrArg List.length (List.append_eq_nil_iff.mp nothing).2
        rw [List.length_take,List.length_nil] at length
        omega
      · change s.received ++ s.down.take n ++ s.down.drop n = s.out s.values.length
        rw [List.append_assoc,List.take_append_drop,flow]
      · apply place.imp
        · intro coming
          exact ⟨coming.answered,coming.key⟩
        · intro handed
          exact ⟨handed.answered,handed.keys,handed.up,handed.between⟩
  · cases outcome

/-- The master gets more of the key, and perhaps the task. -/
theorem receive_kept {conn : EchoConn} {up : List UInt8} {more : List (List UInt8)}
    (sound : Sound { s with conn, up }) (tasks : conn.tasks = s.conn.tasks ++ more) (busy : s.phase ≠ .idle)
    (flow : s.received ++ s.down = s.out s.values.length) (place : Coming { s with conn, up } ∨ Handed { s with conn, up }) :
    Inv { s with conn, up } := by
  refine ⟨sound,?_,inv.done,?_,inv.some_,.inr ⟨busy,flow,place⟩⟩
  · intro call value named
    obtain ⟨key,keyed,tasked,sends⟩ := inv.right call value named
    obtain ⟨before,_⟩ := List.getElem?_eq_some_iff.mp tasked
    refine ⟨key,keyed,?_,sends⟩
    change conn.tasks[call]? = some key
    rw [tasks,List.getElem?_append_left before,tasked]
  · intro task sending sends
    obtain ⟨known,clean⟩ := inv.known task sending sends
    refine ⟨?_,clean⟩
    change task < conn.tasks.length
    rw [tasks,List.length_append]
    exact Nat.lt_add_right _ known

theorem receive {n : Nat} {fresh : Fresh} {past : List UInt8} (promised : s.Promised (.receive n fresh past))
    (outcome : s.step (.receive n fresh past) = .ok next) : next.Inv := by
  have sound := (inv.sound.step_safe _).2 _ outcome
  rw [step] at outcome
  split_ifs at outcome with given
  obtain ⟨positive,window,there⟩ := given
  rcases inv.place with idle | ⟨busy,flow,coming | handed⟩
  · rw [idle.up] at there
    exact absurd positive (Nat.not_lt.mpr there)
  · obtain ⟨held,rest,between,open_,up,keys⟩ := coming.key
    have length : (s.up.take n).length = n := by rw [List.length_take,min_eq_left there]
    have serves : Master.Served s.conn (.data (s.up.take n) fresh past) := by
      refine ⟨?_,?_⟩
      · rw [← List.length_pos_iff,length]
        exact positive
      · rw [length]
        exact window
    obtain ⟨conn,receives,tasks,between'⟩ := Master.receive_spec between serves promised
    rw [receives] at outcome
    cases outcome
    rw [up,List.length_append,List.length_singleton] at there
    change conn.tasks = s.conn.tasks ++ (cut held (s.up.take n)).1 at tasks
    change Between conn (cut held (s.up.take n)).2 at between'
    by_cases whole : n = rest.length + 1
    · have all : s.up.take n = rest ++ [newline] := by
        rw [up,whole]
        exact List.take_of_length_le List.length_append.le
      have nothing : s.up.drop n = [] := by
        rw [up,whole]
        exact List.drop_of_length_le List.length_append.le
      rw [all,Master.cut_line open_] at tasks between'
      change conn.tasks = s.conn.tasks ++ [held ++ rest ++ [newline]] at tasks
      refine inv.receive_kept sound tasks busy flow (.inr ⟨?_,?_,nothing,between'⟩)
      · change s.values.length + 1 = conn.tasks.length
        rw [tasks,List.length_append,← coming.answered]
        rfl
      · change conn.tasks = s.keys
        rw [tasks,keys,up,List.append_assoc]
    · have part : n ≤ rest.length := by omega
      have piece : s.up.take n = rest.take n := by rw [up,List.take_append_of_le_length part]
      have left : s.up.drop n = rest.drop n ++ [newline] := by rw [up,List.drop_append_of_le_length part]
      have still : newline ∉ rest.take n := fun member => open_ (List.mem_of_mem_take member)
      rw [piece,Master.cut_open still] at tasks between'
      refine inv.receive_kept sound tasks busy flow (.inl ⟨?_,held ++ rest.take n,rest.drop n,between',?_,left,?_⟩)
      · change s.values.length = conn.tasks.length
        rw [tasks,List.append_nil,coming.answered]
      · exact fun member => open_ (List.mem_of_mem_drop member)
      · change s.keys = conn.tasks ++ [held ++ rest.take n ++ s.up.drop n]
        rw [tasks,List.append_nil,left,List.append_assoc,← List.append_assoc (rest.take n),List.take_append_drop,keys,up]
  · rw [handed.up] at there
    exact absurd positive (Nat.not_lt.mpr there)

theorem handle {task : Nat} {response : List UInt8} (clean : 0 ∉ response)
    (outcome : s.step (.handle task response) = .ok next) : next.Inv := by
  rw [step] at outcome
  split_ifs at outcome with given
  cases outcome
  obtain ⟨known,free⟩ := given
  have unfinished : ¬s.Done task := by
    rintro ⟨sending,sends,_⟩
    cases free.symm.trans sends
  obtain ⟨rfl,busy,flow,handed⟩ := inv.current known unfinished
  refine inv.update_sending busy handed ⟨clean,Nat.zero_le _⟩ ?_
  rw [flow,out,free]
  rfl

theorem send {task n : Nat} (outcome : s.step (.send task n) = .ok next) : next.Inv := by
  rw [step] at outcome
  split at outcome
  · rename_i response total sends
    split_ifs at outcome with given
    cases outcome
    obtain ⟨known,clean,_⟩ := inv.known _ _ sends
    have unfinished : ¬s.Done task := by
      rintro ⟨sending,sends',whole⟩
      cases sends.symm.trans sends'
      change total = response.length at whole
      omega
    obtain ⟨rfl,busy,flow,handed⟩ := inv.current known unfinished
    refine inv.update_sending busy handed ⟨clean,given.2⟩ ?_
    rw [← List.append_assoc,flow,out,sends]
    exact List.take_add.symm
  · cases outcome

/-- Where `core_get` counts, it has received something, and all of it belongs to the task of its key. -/
theorem counting (phase : s.phase = .counting) : s.Handed ∧ ∃ sending, s.sending s.values.length = some sending ∧
    s.received ++ s.down = sending.response.take sending.total ∧ sending.total ≤ sending.response.length ∧
    c_str s.received = s.received := by
  rcases inv.place with idle | ⟨_,flow,place⟩
  · cases phase.symm.trans idle.phase
  rw [out] at flow
  cases sends : s.sending s.values.length with
  | none =>
    rw [sends] at flow
    exact absurd (List.append_eq_nil_iff.mp flow).1 (inv.some_ phase)
  | some sending =>
    rw [sends] at flow
    change s.received ++ s.down = sending.response.take sending.total at flow
    obtain ⟨known,clean,short⟩ := inv.known _ _ sends
    have clean' : 0 ∉ s.received := by
      intro member
      have all : 0 ∈ sending.response.take sending.total := flow ▸ List.mem_append_left s.down member
      exact clean (List.mem_of_mem_take all)
    refine ⟨?_,sending,rfl,flow,short,Public.Json.c_str_nonzero clean'⟩
    rcases place with coming | handed
    · exact absurd known (coming.answered ▸ Nat.lt_irrefl _)
    · exact handed

theorem ioctl {ok : Bool} (alone : s.Alone (.ioctl ok)) (outcome : s.step (.ioctl ok) = .ok next) : next.Inv := by
  have sound := (inv.sound.step_safe _).2 _ outcome
  obtain ⟨phase,place⟩ := inv.sound.ioctl_cases outcome
  obtain ⟨handed,sending,sends,flow,short,same⟩ := inv.counting phase
  rcases place with ⟨recv_buffer,rfl⟩ | rfl
  · rw [same] at sound outcome ⊢
    obtain ⟨up,down,done⟩ := alone _ (next_of_step outcome) phase rfl
    obtain ⟨other,sends',whole⟩ := done s.values.length (handed.answered ▸ Nat.lt_succ_self _)
    cases sends.symm.trans sends'
    rw [down,List.append_nil,whole,List.take_length] at flow
    have length : (s.values ++ [s.received]).length = s.conn.tasks.length := by
      rw [List.length_append,← handed.answered]
      rfl
    refine ⟨sound,?_,?_,inv.known,fun same => Phase.noConfusion same,.inl ⟨rfl,handed.keys,length,up,down,handed.between⟩⟩
    · intro call value named
      rcases Nat.lt_trichotomy call s.values.length with before | rfl | behind
      · exact inv.right call value ((List.getElem?_append_left before).symm.trans named)
      · have value_eq : s.received = value := Option.some.inj (List.getElem?_concat_length.symm.trans named)
        have there : s.values.length < s.conn.tasks.length := handed.answered ▸ Nat.lt_succ_self _
        refine ⟨_,?_,List.getElem?_eq_getElem there,sending,sends,flow.symm.trans value_eq⟩
        change s.keys[s.values.length]? = _
        rw [← handed.keys]
        exact List.getElem?_eq_getElem there
      · obtain ⟨inside,_⟩ := List.getElem?_eq_some_iff.mp named
        change call < (s.values ++ [s.received]).length at inside
        rw [List.length_append,List.length_singleton] at inside
        omega
    · intro task before
      exact done task (length ▸ before)
  · refine ⟨sound,inv.right,inv.done,inv.known,fun same => Phase.noConfusion same,.inr ⟨fun same => Phase.noConfusion same,?_,
      .inr ⟨handed.answered,handed.keys,handed.up,handed.between⟩⟩⟩
    rw [out]
    change s.received ++ s.down = (s.sending s.values.length).elim [] _
    rw [sends]
    exact flow

/-- A value that is right leaves nothing on the way. -/
theorem alone_of_right {ok : Bool} (outcome : s.step (.ioctl ok) = .ok next) (phase : s.phase = .counting) (idle : next.phase = .idle)
    (right : next.Right) : s.up = [] ∧ s.down = [] ∧ ∀ task < s.conn.tasks.length, s.Done task := by
  obtain ⟨handed,sending,sends,flow,short,clean⟩ := inv.counting phase
  obtain ⟨_,⟨recv_buffer,rfl⟩ | rfl⟩ := inv.sound.ioctl_cases outcome
  · obtain ⟨_,_,_,other,sends',same⟩ := right s.values.length (c_str s.received) List.getElem?_concat_length
    cases sends.symm.trans sends'
    rw [clean] at same
    have length := congrArg List.length flow
    rw [← same,List.length_append,List.length_take,min_eq_left short] at length
    refine ⟨handed.up,List.eq_nil_of_length_eq_zero (by omega),?_⟩
    intro task known
    have before := handed.answered
    by_cases current : task = s.values.length
    · exact ⟨sending,current ▸ sends,by omega⟩
    · exact inv.done task (by omega)
  · cases idle

theorem kept {event : Event} (promised : s.Promised event) (alone : s.Alone event) (outcome : s.step event = .ok next) : next.Inv := by
  cases event with
  | core_get key sents => exact inv.core_get promised outcome
  | recv n => exact inv.recv outcome
  | recvFails => exact promised.elim
  | ioctl ok => exact inv.ioctl alone outcome
  | receive n fresh past => exact inv.receive promised outcome
  | handle task response => exact inv.handle promised outcome
  | send task n => exact inv.send outcome

theorem alone_iff {event : Event} (promised : s.Promised event) :
    (∀ next, s.next event = some next → next.Right) ↔ s.Alone event := by
  constructor
  · intro right next outcome phase idle
    have stepped := next_eq_some outcome
    obtain ⟨ok,rfl⟩ := ioctl_of_returns stepped phase idle
    exact inv.alone_of_right stepped phase idle (right next outcome)
  · intro alone next outcome
    exact (inv.kept promised alone (next_eq_some outcome)).right

end Inv

theorem start_inv (fresh : Fresh) : (start fresh).Inv := by
  refine ⟨start_sound fresh,?_,?_,?_,fun same => Phase.noConfusion same,.inl ⟨rfl,rfl,rfl,rfl,rfl,Master.start_between fresh⟩⟩
  · intro call value named
    cases named
  · intro task before
    cases before
  · intro task sending sends
    cases sends

end State

end Migfm.System.Gateway
