import Migfm.Library.Runs

/-! The lifetime of a connection in the event loop of chat/core/network.c: its
reference count, the list of the scheduler and what `recv` answers. Access to a
freed connection has no outcome. -/
namespace Migfm.Net.Lifetime
open Library.Runs

def EAGAIN : Nat := 11
def EPROTO : Nat := 71
def ESHUTDOWN : Nat := 108

structure PsockConn where
  psc_refcount : Int
  psc_closing : Bool
  psc_rx_started : Bool
  psc_rx_ready : Bool
  psc_rx_scheduled : Bool

/-- Where the event loop is: outside, at the head of the loop of
`sockbase_schedule`, at `again` in `sockbase_process_receive`, or back from it. -/
inductive Place
  | waiting
  | scheduling
  | receiving
  | returned (rc : Int)

/-- `conn` is gone once freed; `pss_rx_conns` says whether the list of the
scheduler holds it; `closes` counts the calls of the close callback. -/
structure Reactor where
  conn : Option PsockConn
  pss_rx_conns : Bool
  closes : Nat
  place : Place

def create_sock_conn : Reactor := ⟨some ⟨1,false,false,false,false⟩,false,0,.waiting⟩

def sock_conn_decref (reactor : Reactor) : Option Reactor := do
  let conn ← reactor.conn
  if conn.psc_refcount - 1 = 0 then return {reactor with conn := none, closes := reactor.closes + 1}
  else return {reactor with conn := some {conn with psc_refcount := conn.psc_refcount - 1}}

def server_read_buffer (reactor : Reactor) : Option Reactor := do
  let conn ← reactor.conn
  if conn.psc_rx_scheduled then
    return {reactor with conn := some {conn with psc_rx_ready := true}, place := .scheduling}
  else
    let conn := {conn with
      psc_rx_ready := true
      psc_rx_scheduled := true
      psc_refcount := conn.psc_refcount + 1}
    return {reactor with conn := some conn, pss_rx_conns := true, place := .scheduling}

/-- The head of the loop of `sockbase_schedule`. -/
def sockbase_schedule (reactor : Reactor) : Option Reactor :=
  if reactor.pss_rx_conns then do
    let conn ← reactor.conn
    return {reactor with conn := some {conn with psc_rx_ready := false}, pss_rx_conns := false, place := .receiving}
  else return {reactor with place := .waiting}

/-- What one pass of `sockbase_process_receive` meets: nothing is wanted and
`rc` is returned as it is, or `recv` answers with data, for which `echo_forward`
returns `status`, with the end of the stream or with an error. -/
inductive Answer
  | unwanted (rc : Int)
  | data (status : Int)
  | eof
  | error (errno : Nat)

/-- `sockbase_process_receive` after a `recv` without data. -/
def receive_failed (reactor : Reactor) (rc : Int) : Option Reactor := do
  let conn ← reactor.conn
  if rc = -EAGAIN then return {reactor with place := .returned rc}
  else
    let reactor ← if rc = 0 ∨ ¬conn.psc_closing then sock_conn_decref reactor else some reactor
    let reactor ← sock_conn_decref reactor
    return {reactor with place := .returned (if rc = 0 then -ESHUTDOWN else rc)}

def sockbase_process_receive (reactor : Reactor) : Answer → Option Reactor
  | .unwanted rc => do
    let _ ← reactor.conn
    return {reactor with place := .returned rc}
  | .data status => do
    let conn ← reactor.conn
    let reactor := {reactor with conn := some {conn with psc_rx_started := true}}
    if status = -EAGAIN then return reactor else return {reactor with place := .returned status}
  | .eof => do
    let conn ← reactor.conn
    receive_failed reactor (if conn.psc_rx_started then -EPROTO else 0)
  | .error errno => receive_failed reactor (-errno)

/-- The rest of the loop of `sockbase_schedule`. -/
def schedule_again (reactor : Reactor) (rc : Int) : Option Reactor := do
  let conn ← reactor.conn
  let conn := if rc = 0 then {conn with psc_rx_ready := true} else conn
  if conn.psc_rx_ready then return {reactor with conn := some conn, pss_rx_conns := true, place := .scheduling}
  else
    let reactor ← sock_conn_decref {reactor with conn := some {conn with psc_rx_scheduled := false}}
    return {reactor with place := .scheduling}

inductive Event
  | read
  | schedule
  | answer (answer : Answer)
  | resume

def step (reactor : Reactor) (event : Event) : Option Reactor :=
  match reactor.place, event with
  | .waiting, .read => server_read_buffer reactor
  | .scheduling, .schedule => sockbase_schedule reactor
  | .receiving, .answer answer => sockbase_process_receive reactor answer
  | .returned rc, .resume => schedule_again reactor rc
  | _, _ => none

/-- Events come where the loop is; `destroy_sock_conn` removes the read event. -/
def Offered (reactor : Reactor) (event : Event) : Prop :=
  match reactor.place, event with
  | .waiting, .read => reactor.conn ≠ none
  | .scheduling, .schedule => True
  | .receiving, .answer _ => True
  | .returned _, .resume => True
  | _, _ => False

/-! ### What the count has to be -/

/-- The scheduler holds the connection. -/
def Reactor.scheduled (reactor : Reactor) : Bool :=
  match reactor.place with
  | .waiting => false
  | .scheduling => reactor.pss_rx_conns
  | .receiving => true
  | .returned _ => true

/-- The socket holds the connection until it has `ended`. -/
def holders (ended : Bool) (reactor : Reactor) : Nat :=
  (if ended then 0 else 1) + (if reactor.scheduled then 1 else 0)

structure Counted (ended : Bool) (reactor : Reactor) : Prop where
  count : ∀ conn, reactor.conn = some conn →
    conn.psc_refcount = holders ended reactor ∧ conn.psc_rx_scheduled = reactor.scheduled
  freed : reactor.conn = none ↔ holders ended reactor = 0
  closes : reactor.closes = if holders ended reactor = 0 then 1 else 0

/-- The socket reports its end. -/
def Event.ends : Event → Bool
  | .answer .eof => true
  | .answer (.error errno) => errno != EAGAIN
  | _ => false

/-- The run never touches a freed connection and counts its holders in every state. -/
def Sound (ended : Bool) (reactor : Reactor) : List Event → Prop
  | [] => Counted ended reactor
  | event::events => Counted ended reactor ∧
      ∃ next, step reactor event = some next ∧ Sound (ended || event.ends) next events

theorem Sound.counted {ended : Bool} {reactor : Reactor} {events : List Event} (sound : Sound ended reactor events) :
    Counted ended reactor := by
  cases events with
  | nil => exact sound
  | cons event events => exact sound.1

/-! ### Runs -/

/-- The states of a connection whose socket has not ended. -/
inductive Alive : Reactor → Prop
  | waiting (started ready : Bool) : Alive ⟨some ⟨1,false,started,ready,false⟩,false,0,.waiting⟩
  | released (started ready : Bool) : Alive ⟨some ⟨1,false,started,ready,false⟩,false,0,.scheduling⟩
  | listed (started ready : Bool) : Alive ⟨some ⟨2,false,started,ready,true⟩,true,0,.scheduling⟩
  | receiving (started ready : Bool) : Alive ⟨some ⟨2,false,started,ready,true⟩,false,0,.receiving⟩
  | returned (started ready : Bool) (rc : Int) : Alive ⟨some ⟨2,false,started,ready,true⟩,false,0,.returned rc⟩

theorem Alive.counted {reactor : Reactor} (alive : Alive reactor) : Counted false reactor := by
  cases alive <;>
  · refine ⟨?_,by simp [holders],by simp [holders]⟩
    rintro _ ⟨⟩
    exact ⟨rfl,rfl⟩

theorem process_receive_alive {started ready : Bool} {answer : Answer}
    (lasting : (Event.answer answer).ends = false) :
    ∃ next, sockbase_process_receive ⟨some ⟨2,false,started,ready,true⟩,false,0,.receiving⟩ answer = some next ∧
      Alive next := by
  cases answer with
  | unwanted rc => exact ⟨_,rfl,.returned started ready rc⟩
  | data status =>
    by_cases again : status = -EAGAIN
    · exact ⟨_,by simp [sockbase_process_receive,again],.receiving true ready⟩
    · exact ⟨_,by simp [sockbase_process_receive,again],.returned true ready status⟩
  | eof => exact absurd lasting (by decide)
  | error errno =>
    have same : errno = EAGAIN := by simpa [Event.ends] using lasting
    subst same
    exact ⟨_,rfl,.returned started ready (-EAGAIN)⟩

theorem schedule_again_alive (started ready : Bool) (rc : Int) :
    ∃ next, schedule_again ⟨some ⟨2,false,started,ready,true⟩,false,0,.returned rc⟩ rc = some next ∧ Alive next := by
  by_cases more : rc = 0
  · exact ⟨_,by simp [schedule_again,more],.listed started true⟩
  · cases ready with
    | true => exact ⟨_,by simp [schedule_again,more],.listed started true⟩
    | false => exact ⟨_,by simp [schedule_again,sock_conn_decref,more],.released started false⟩

theorem step_alive {reactor : Reactor} (alive : Alive reactor) {event : Event} (offered : Offered reactor event)
    (lasting : event.ends = false) : ∃ next, step reactor event = some next ∧ Alive next := by
  cases alive <;> cases event <;> try exact offered.elim
  case waiting.read started ready => exact ⟨_,rfl,.listed started true⟩
  case released.schedule started ready => exact ⟨_,rfl,.waiting started ready⟩
  case listed.schedule started ready => exact ⟨_,rfl,.receiving started false⟩
  case receiving.answer started ready answer => exact process_receive_alive lasting
  case returned.resume started ready rc => exact schedule_again_alive started ready rc

/-- The failure gives back two references where the socket holds one, and the
scheduler goes on with a freed connection. -/
theorem receive_failed_frees (started ready : Bool) {rc : Int} (failed : rc ≠ -EAGAIN) :
    ∃ next, receive_failed ⟨some ⟨2,false,started,ready,true⟩,false,0,.receiving⟩ rc = some next ∧
      ¬Counted true next := by
  refine ⟨⟨none,false,1,.returned (if rc = 0 then -ESHUTDOWN else rc)⟩,?_,?_⟩
  · simp [receive_failed,sock_conn_decref,failed]
  · intro counted
    exact absurd (counted.freed.mp rfl) (by simp [holders,Reactor.scheduled])

theorem step_ends {reactor : Reactor} (alive : Alive reactor) {event : Event} (offered : Offered reactor event)
    (ends : event.ends = true) : ∃ next, step reactor event = some next ∧ ¬Counted true next := by
  match event with
  | .answer .eof =>
    cases alive <;> try exact offered.elim
    case receiving started ready =>
      have protocol : -(EPROTO : Int) ≠ -EAGAIN := by decide
      have plain : (0 : Int) ≠ -EAGAIN := by decide
      cases started with
      | true => exact receive_failed_frees true ready protocol
      | false => exact receive_failed_frees false ready plain
  | .answer (.error errno) =>
    cases alive <;> try exact offered.elim
    case receiving started ready =>
      apply receive_failed_frees started ready
      have apart : errno ≠ EAGAIN := by simpa [Event.ends] using ends
      intro same
      exact apart (by omega)

theorem sound_from {reactor : Reactor} (alive : Alive reactor) {events : List Event}
    (offered : Along step Offered reactor events) :
    Sound false reactor events ↔ ∀ event ∈ events, event.ends = false := by
  induction events generalizing reactor with
  | nil => exact ⟨fun _ _ member => absurd member List.not_mem_nil,fun _ => alive.counted⟩
  | cons event events ih =>
    rw [List.forall_mem_cons]
    cases ends : event.ends with
    | true =>
      obtain ⟨next,outcome,uncounted⟩ := step_ends alive offered.1 ends
      refine ⟨?_,fun lasting => absurd lasting.1 (by decide)⟩
      rintro ⟨_,other,reached,sound⟩
      rw [outcome] at reached
      cases reached
      rw [ends] at sound
      exact absurd sound.counted uncounted
    | false =>
      obtain ⟨next,outcome,alive'⟩ := step_alive alive offered.1 ends
      have rest := ih alive' (offered.2 next outcome)
      constructor
      · rintro ⟨_,other,reached,sound⟩
        rw [outcome] at reached
        cases reached
        rw [ends] at sound
        exact ⟨rfl,rest.mp sound⟩
      · rintro ⟨_,lasting⟩
        refine ⟨alive.counted,next,outcome,?_⟩
        rw [ends]
        exact rest.mpr lasting

/-- The count is right and no freed connection is touched exactly in the runs
where the socket reports neither an end of the stream nor an error. -/
theorem sound_iff (events : List Event) (offered : Along step Offered create_sock_conn events) :
    Sound false create_sock_conn events ↔ ∀ event ∈ events, event.ends = false :=
  sound_from (.waiting false false) offered

/-- A read event with data. -/
def dataEvents : List Event := [.read,.schedule,.answer (.data 0),.resume,.schedule,.answer (.error EAGAIN),.resume,.schedule]

theorem data_sound : Sound false create_sock_conn dataEvents := by
  have offered : Along step Offered create_sock_conn dataEvents := by
    refine ⟨by simp [Offered,create_sock_conn],?_⟩
    rintro _ ⟨⟩
    refine ⟨trivial,?_⟩
    rintro _ ⟨⟩
    refine ⟨trivial,?_⟩
    rintro _ ⟨⟩
    refine ⟨trivial,?_⟩
    rintro _ ⟨⟩
    refine ⟨trivial,?_⟩
    rintro _ ⟨⟩
    refine ⟨trivial,?_⟩
    rintro _ ⟨⟩
    refine ⟨trivial,?_⟩
    rintro _ ⟨⟩
    exact ⟨trivial,fun _ _ => trivial⟩
  exact (sound_iff dataEvents offered).mpr (by decide)

/-- The peer closes the stream before any data. -/
def eofEvents : List Event := [.read,.schedule,.answer .eof,.resume]

theorem eof_unsound : Along step Offered create_sock_conn eofEvents ∧ run step create_sock_conn eofEvents = none ∧
    ¬Sound false create_sock_conn eofEvents := by
  refine ⟨?_,rfl,?_⟩
  · refine ⟨by simp [Offered,create_sock_conn],?_⟩
    rintro _ ⟨⟩
    refine ⟨trivial,?_⟩
    rintro _ ⟨⟩
    refine ⟨trivial,?_⟩
    rintro _ ⟨⟩
    exact ⟨trivial,fun _ _ => trivial⟩
  · rintro ⟨_,_,⟨⟩,_,_,⟨⟩,_,_,⟨⟩,counted,_⟩
    exact absurd (counted.freed.mp rfl) (by decide)

end Migfm.Net.Lifetime
