import Migfm.Net.Reassembly

/-! The receive window of every connection of a server. No length word is
checked: a word of at most 4 opens a window that is empty or reaches outside the
block, or is taken for a length near 2^31, and closes nothing. -/
namespace Migfm.Net
open Library.LittleEndian Library.Words Library.Runs

/-- What a connection has to be at each `recv`: the request is positive and
ends inside the current block, and `sockbase_process_receive` returns what it
assigned. -/
structure Secure (conn : EchoConn) : Prop where
  positive : 0 < conn.psc_rx_size.toInt
  inside : conn.psc_rx_size.toInt ≤ BLOCK_LENGTH - conn.offset
  buffer : ∃ block b, conn.block = some block ∧ conn.blocks block = some b ∧ b.address.length = BLOCK_LENGTH ∧
    conn.psc_rx_buffer = (block,conn.offset)
  assigned : ∀ answers final rc rest, sockbase_process_receive conn none answers = some (final,rc,rest) → rc ≠ none

theorem process_assigned {conn final : EchoConn} {value : Int} {answers rest : List Answer} {rc : Option Int}
    (outcome : sockbase_process_receive conn (some value) answers = some (final,rc,rest)) : rc ≠ none := by
  induction answers generalizing conn value with
  | nil =>
    unfold sockbase_process_receive at outcome
    split at outcome
    · exact absurd outcome (by simp)
    · cases outcome
      exact Option.some_ne_none _
  | cons answer answers ih =>
    unfold sockbase_process_receive at outcome
    split at outcome
    · cases answer with
      | again =>
        cases outcome
        exact Option.some_ne_none _
      | data bytes stale =>
        simp only [Option.bind_eq_bind,Option.bind_eq_some_iff] at outcome
        obtain ⟨stored,_,⟨next,status⟩,_,outcome⟩ := outcome
        split at outcome
        · exact ih outcome
        · cases outcome
          exact Option.some_ne_none _
    · cases outcome
      exact Option.some_ne_none _

/-- The value is assigned before it is returned unless nothing is wanted. -/
theorem process_wanted {conn final : EchoConn} (wanted : conn.psc_rx_nob_wanted ≠ 0) {answers rest : List Answer}
    {rc : Option Int} (outcome : sockbase_process_receive conn none answers = some (final,rc,rest)) : rc ≠ none := by
  unfold sockbase_process_receive at outcome
  rw [if_pos wanted] at outcome
  match answers with
  | .again::answers =>
    cases outcome
    exact Option.some_ne_none _
  | .data bytes stale::answers =>
    simp only [Option.bind_eq_bind,Option.bind_eq_some_iff] at outcome
    obtain ⟨stored,_,⟨next,status⟩,_,outcome⟩ := outcome
    split at outcome
    · exact process_assigned outcome
    · cases outcome
      exact Option.some_ne_none _

theorem EchoConn.Inv.secure {conn : EchoConn} {held : List UInt8} (inv : conn.Inv held) : Secure conn := by
  obtain ⟨positive,inside,_,_⟩ := window_inside inv
  obtain ⟨parts,head,block,address,loose,posted,_,expecting⟩ := inv
  refine ⟨positive,inside,⟨block,_,loose.current,loose.live,loose.size,posted.buffer⟩,?_⟩
  intro answers final rc rest outcome
  refine process_wanted ?_ outcome
  unfold EchoConn.Expecting at expecting
  cases state : conn.psc_rx_state with
  | STATE_NEW =>
    rw [state] at expecting
    obtain ⟨_,_,_,_,wanted⟩ := expecting
    rw [wanted]
    decide
  | STATE_READ_HEADER =>
    rw [state] at expecting
    obtain ⟨_,wanted,wide,_⟩ := expecting
    intro zero
    rw [← wanted,zero] at wide
    exact absurd wide (by decide)
  | STATE_READ_PAY_LOAD =>
    rw [state] at expecting
    exact expecting.elim

/-! ### The server -/

/-- The connections of a server by socket. -/
abbrev Conns := Nat → Option EchoConn

inductive Event
  | accept (sock : Nat)
  | recv (sock : Nat) (answer : Answer)

def serve (conns : Conns) : Event → Option Conns
  | .accept sock => some (Function.update conns sock (some EchoConn.start))
  | .recv sock answer => do
    let conn ← conns sock
    let conn ← receive conn answer
    return Function.update conns sock (some conn)

/-- The bytes of the frame in progress that lie in the current block. -/
def EchoConn.pending (conn : EchoConn) : List UInt8 :=
  match conn.block.bind conn.blocks with
  | some b => slice b.address conn.prev_packet_offset conn.offset
  | none => []

/-- `bytes` complete a length word that no frame has: one of at most 4. -/
def EchoConn.Impossible (conn : EchoConn) (bytes : List UInt8) : Prop :=
  conn.psc_rx_state = .STATE_NEW ∧ (conn.pending ++ bytes).length = 4 ∧ (word (conn.pending ++ bytes)).toInt < 5

/-- What the kernel promises of an event. -/
def Offered (conns : Conns) : Event → Prop
  | .accept sock => conns sock = none
  | .recv sock answer => ∃ conn, conns sock = some conn ∧ Served conn answer

/-- No impossible length comes and no dropped block reads as a block of length 0. -/
def Benign (conns : Conns) : Event → Prop
  | .accept _ => True
  | .recv sock answer => ∀ conn, conns sock = some conn →
      Spared conn answer ∧ ∀ bytes stale, answer = .data bytes stale → ¬conn.Impossible bytes

def Event.sock : Event → Nat
  | accept sock => sock
  | recv sock _ => sock

/-- An impossible length closes its connection. -/
def Closes (conns : Conns) (event : Event) (next : Conns) : Prop :=
  ∀ sock bytes stale conn, event = .recv sock (.data bytes stale) → conns sock = some conn →
    conn.Impossible bytes → next sock = none

/-- Every connection is secure in every state of the run, impossible lengths
close, and an event leaves every other connection untouched. -/
def Guarded (conns : Conns) : List Event → Prop
  | [] => ∀ sock conn, conns sock = some conn → Secure conn
  | event::events => (∀ sock conn, conns sock = some conn → Secure conn) ∧
      ∃ next, serve conns event = some next ∧ Closes conns event next ∧
        (∀ sock, sock ≠ event.sock → next sock = conns sock) ∧ Guarded next events

/-! ### Benign events -/

theorem EchoConn.Inv.pending {conn : EchoConn} {held : List UInt8} (inv : conn.Inv held)
    (state : conn.psc_rx_state = .STATE_NEW) : conn.pending = held := by
  obtain ⟨parts,head,block,address,loose,_,same,expecting⟩ := inv
  unfold EchoConn.Expecting at expecting
  rw [state] at expecting
  obtain ⟨_,none,_⟩ := expecting
  subst none
  rw [← same,EchoConn.pending,loose.current,Option.bind_some,loose.live,EchoConn.held]
  simp [partBytes]

/-- Every connection is in the middle of some frame. -/
def Serving (conns : Conns) : Prop := ∀ sock conn, conns sock = some conn → ∃ held, conn.Inv held

section Step
variable {conns : Conns} (serving : Serving conns)
include serving

theorem Serving.update {sock : Nat} {conn : EchoConn} {held : List UInt8} (inv : conn.Inv held) :
    Serving (Function.update conns sock (some conn)) := by
  intro other found same
  by_cases equal : other = sock
  · subst equal
    rw [Function.update_self] at same
    cases same
    exact ⟨held,inv⟩
  · rw [Function.update_of_ne equal] at same
    exact serving other found same

theorem serve_benign {event : Event} (offered : Offered conns event) (benign : Benign conns event) :
    ∃ next, serve conns event = some next ∧ Serving next ∧ ∀ sock, sock ≠ event.sock → next sock = conns sock := by
  cases event with
  | accept sock => exact ⟨_,rfl,serving.update start_inv,fun other apart => Function.update_of_ne apart ..⟩
  | recv sock answer =>
    obtain ⟨conn,found,served⟩ := offered
    obtain ⟨held,inv⟩ := serving sock conn found
    obtain ⟨spared,possible⟩ := benign conn found
    cases answer with
    | again =>
      refine ⟨_,?_,serving.update inv,fun other apart => Function.update_of_ne apart ..⟩
      simp only [serve,found,receive,Option.bind_eq_bind,Option.bind_some]
      rfl
    | data bytes stale =>
      obtain ⟨arrived,window⟩ := served
      have word_wide (short : held.length < 4) (enough : 4 ≤ (held ++ bytes).length) :
          5 ≤ (word (held ++ bytes)).toInt := by
        have ends := (window_frame inv).1 short
        have total : (held ++ bytes).length = held.length + bytes.length := List.length_append
        have state : conn.psc_rx_state = .STATE_NEW := by
          cases state : conn.psc_rx_state with
          | STATE_NEW => rfl
          | STATE_READ_HEADER => exact absurd (inv.expecting.2.1 state) (Nat.not_le_of_lt short)
          | STATE_READ_PAY_LOAD => exact absurd state inv.expecting.2.2
        have allowed := possible bytes stale rfl
        by_contra narrow
        refine allowed ⟨state,?_,?_⟩
        · rw [inv.pending state]
          omega
        · rw [inv.pending state]
          omega
      obtain ⟨next,outcome,finished,unfinished⟩ := receive_data inv window arrived word_wide spared
      have kept : ∃ held', next.Inv held' := by
        by_cases finishes : Finishes held bytes
        · exact ⟨_,(finished finishes).2⟩
        · exact ⟨_,(unfinished finishes).2⟩
      obtain ⟨held',inv'⟩ := kept
      refine ⟨_,?_,serving.update inv',fun other apart => Function.update_of_ne apart ..⟩
      simp only [serve,found,outcome,Option.bind_eq_bind,Option.bind_some]
      rfl

theorem Serving.secure (sock : Nat) (conn : EchoConn) (found : conns sock = some conn) : Secure conn := by
  obtain ⟨held,inv⟩ := serving sock conn found
  exact inv.secure

/-- A step that closes what it has to was benign. -/
theorem benign_of_closes {event : Event} {next : Conns} (offered : Offered conns event)
    (outcome : serve conns event = some next) (closes : Closes conns event next) : Benign conns event := by
  cases event with
  | accept sock => exact trivial
  | recv sock answer =>
    intro conn found
    simp only [serve,found,Option.bind_eq_bind,Option.bind_some,Option.bind_eq_some_iff] at outcome
    obtain ⟨after,arrived,updated⟩ := outcome
    cases updated
    obtain ⟨held,inv⟩ := serving sock conn found
    refine ⟨?_,?_⟩
    · cases answer with
      | again => exact trivial
      | data bytes stale =>
        obtain ⟨conn',found',served⟩ := offered
        rw [found] at found'
        cases found'
        rintro drops rfl
        rw [receive_stale inv served.2 drops] at arrived
        exact absurd arrived (by simp)
    · rintro bytes stale rfl impossible
      have closed := closes sock bytes stale conn rfl found impossible
      rw [Function.update_self] at closed
      exact absurd closed (by simp)

end Step

theorem guarded_from {conns : Conns} (serving : Serving conns) {events : List Event}
    (offered : Along serve Offered conns events) : Guarded conns events ↔ Along serve Benign conns events := by
  induction events generalizing conns with
  | nil => exact ⟨fun _ => trivial,fun _ => serving.secure⟩
  | cons event events ih =>
    constructor
    · rintro ⟨_,next,outcome,closes,_,rest⟩
      have benign := benign_of_closes serving offered.1 outcome closes
      obtain ⟨same,outcome',serving',_⟩ := serve_benign serving offered.1 benign
      rw [outcome] at outcome'
      cases outcome'
      refine ⟨benign,?_⟩
      rintro other reached
      rw [outcome] at reached
      cases reached
      exact (ih serving' (offered.2 next outcome)).mp rest
    · rintro ⟨benign,rest⟩
      obtain ⟨next,outcome,serving',untouched⟩ := serve_benign serving offered.1 benign
      refine ⟨serving.secure,next,outcome,?_,untouched,
        (ih serving' (offered.2 next outcome)).mpr (rest next outcome)⟩
      rintro sock bytes stale conn rfl found impossible
      exact absurd impossible ((benign conn found).2 bytes stale rfl)

/-- Windows are safe, impossible lengths close and connections are independent
exactly in the runs where no impossible length comes and no dropped block reads
as a block of length 0. -/
theorem guarded_iff (events : List Event) (offered : Along serve Offered (fun _ => none) events) :
    Guarded (fun _ => none) events ↔ Along serve Benign (fun _ => none) events :=
  guarded_from (fun _ _ found => absurd found (by simp)) offered

/-- One frame of five bytes on one of two connections. -/
def shortEvents : List Event :=
  [.accept 3,.accept 4,.recv 3 (.data [5,0,0,0] 1),.recv 4 .again,.recv 3 (.data [9] 1)]

theorem short_guarded : Guarded (fun _ => none) shortEvents := by
  have offered : Along serve Offered (fun _ => none) shortEvents := by
    refine ⟨rfl,?_⟩
    rintro _ ⟨⟩
    refine ⟨rfl,?_⟩
    rintro _ ⟨⟩
    refine ⟨⟨_,rfl,by decide,by decide⟩,?_⟩
    rintro _ ⟨⟩
    refine ⟨⟨_,rfl,trivial⟩,?_⟩
    rintro _ ⟨⟩
    exact ⟨⟨_,rfl,by decide,by decide⟩,fun _ _ => trivial⟩
  have benign : Along serve Benign (fun _ => none) shortEvents := by
    refine ⟨trivial,?_⟩
    rintro _ ⟨⟩
    refine ⟨trivial,?_⟩
    rintro _ ⟨⟩
    refine ⟨?_,?_⟩
    · rintro _ ⟨⟩
      refine ⟨fun _ => by decide,?_⟩
      rintro _ _ ⟨⟩ ⟨_,_,narrow⟩
      exact absurd narrow (by decide)
    rintro _ ⟨⟩
    refine ⟨?_,?_⟩
    · rintro _ ⟨⟩
      exact ⟨trivial,fun _ _ absurd => by simp at absurd⟩
    rintro _ ⟨⟩
    refine ⟨?_,fun _ _ => trivial⟩
    rintro _ ⟨⟩
    refine ⟨fun _ => by decide,?_⟩
    rintro _ _ ⟨⟩ ⟨state,_⟩
    exact absurd state (by decide)
  exact (guarded_iff shortEvents offered).mpr benign

/-- A length word of 0. -/
def zeroEvents : List Event := [.accept 3,.recv 3 (.data [0,0,0,0] 1)]

theorem zero_unguarded : Along serve Offered (fun _ => none) zeroEvents ∧ ¬Guarded (fun _ => none) zeroEvents := by
  refine ⟨⟨rfl,?_⟩,?_⟩
  · rintro _ ⟨⟩
    exact ⟨⟨_,rfl,by decide,by decide⟩,fun _ _ => trivial⟩
  · rintro ⟨_,opened,⟨⟩,_,_,_,last,⟨⟩,_,_,secure⟩
    have positive := (secure 3 _ rfl).positive
    exact absurd positive (by decide)

end Migfm.Net
