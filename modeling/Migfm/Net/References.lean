import Migfm.Net.Reassembly

/-! The references to the blocks of a connection in chat/core/network.c, until the
connection is freed. Those who hold a block are listed, the current block and those
of the packet, and a count is how often its block is in the list. -/
namespace Migfm.Net
open Library.Runs

/-- A block lives as long as somebody holds it, and counts them. -/
def Counts (blocks : Blocks) (holders : List Nat) : Prop :=
  ∀ id, match blocks id with
    | none => holders.count id = 0
    | some b => b.refcount = holders.count id ∧ 0 < holders.count id

section Counts
variable {blocks : Blocks} {block : Nat} {holders : List Nat}

theorem Counts.perm {others : List Nat} (counts : Counts blocks holders) (perm : holders.Perm others) : Counts blocks others := by
  intro id
  rw [← perm.count_eq]
  exact counts id

/-- What is held lives. -/
theorem Counts.live (counts : Counts blocks holders) (held : block ∈ holders) :
    ∃ b, blocks block = some b ∧ b.refcount = holders.count block := by
  have here := counts block
  cases found : blocks block with
  | none =>
    rw [found] at here
    exact absurd held (List.count_eq_zero.mp here)
  | some b =>
    rw [found] at here
    exact ⟨b,rfl,here.1⟩

/-- Another entry for one block, where the others stay as they are held. -/
theorem Counts.update (counts : Counts blocks holders) {others : List Nat} {b : EchoBlock} (refs : b.refcount = others.count block)
    (some_ : 0 < b.refcount) (same : ∀ id, id ≠ block → others.count id = holders.count id) :
    Counts (Function.update blocks block (some b)) others := by
  intro id
  by_cases here : id = block
  · subst here
    rw [Function.update_self]
    exact ⟨refs,refs ▸ some_⟩
  · rw [Function.update_of_ne here,same id here]
    exact counts id

theorem Counts.addref (counts : Counts blocks holders) (held : block ∈ holders) :
    ∃ blocks', echo_block_addref blocks block = some blocks' ∧ Counts blocks' (block::holders) := by
  obtain ⟨b,live,refs⟩ := counts.live held
  refine ⟨_,by rw [echo_block_addref,live]; rfl,counts.update ?_ (Nat.succ_pos _) ?_⟩
  · rw [List.count_cons_self,refs]
  · intro id apart
    exact List.count_cons_of_ne (Ne.symm apart)

/-- The last holder frees the block. -/
theorem Counts.decref (counts : Counts blocks (block::holders)) :
    ∃ blocks', echo_block_decref blocks block = some blocks' ∧ Counts blocks' holders := by
  obtain ⟨b,live,refs⟩ := counts.live List.mem_cons_self
  rw [List.count_cons_self] at refs
  have same (id : Nat) (apart : id ≠ block) : holders.count id = (block::holders).count id :=
    (List.count_cons_of_ne (Ne.symm apart)).symm
  by_cases last : b.refcount = 1
  · refine ⟨Function.update blocks block none,?_,?_⟩
    · simp [echo_block_decref,live,last]
    · intro id
      by_cases here : id = block
      · subst here
        rw [Function.update_self]
        omega
      · rw [Function.update_of_ne here,same id here]
        exact counts id
  · refine ⟨Function.update blocks block (some {b with refcount := b.refcount - 1}),?_,counts.update ?_ ?_ same⟩
    · simp [echo_block_decref,live,last]
    · simp only
      omega
    · simp only
      omega

theorem Counts.alloc (counts : Counts blocks holders) (fresh : block ∉ holders) (address : List UInt8) :
    Counts (Function.update blocks block (some ⟨address,1⟩)) (block::holders) := by
  refine counts.update ?_ Nat.one_pos ?_
  · rw [List.count_cons_self,List.count_eq_zero.mpr fresh]
  · intro id apart
    exact List.count_cons_of_ne (Ne.symm apart)

theorem Counts.gather {ids : List Nat} (counts : Counts blocks (ids ++ holders)) (tail_offset : Nat) :
    ∃ bytes blocks', Net.gather tail_offset blocks ids = some (bytes,blocks') ∧ Counts blocks' holders := by
  induction ids generalizing blocks with
  | nil => exact ⟨[],blocks,rfl,counts⟩
  | cons id ids ih =>
    obtain ⟨b,live,_⟩ := counts.live (show id ∈ id::ids ++ holders from List.mem_cons_self)
    obtain ⟨blocks',released,counts'⟩ := counts.decref
    obtain ⟨bytes,blocks'',gathered,counts''⟩ := ih counts'
    refine ⟨(if ids = [] then b.address.take tail_offset else b.address) ++ bytes,blocks'',?_,counts''⟩
    simp only [Net.gather,live,released,gathered,Option.bind_eq_bind,Option.bind_some]
    rfl

/-- The blocks that are linked to the packet. -/
def EchoPacket.ids : EchoPacket → List Nat
  | .empty => []
  | .one_block block _ _ => [block]
  | .blocks blocks _ _ => blocks

theorem ids_add (packet : EchoPacket) (block offset length : Nat) : (packet.add block offset length).ids = packet.ids ++ [block] := by
  cases packet <;> rfl

/-- A packet gives back what it holds. -/
theorem Counts.handle {packet : EchoPacket} (counts : Counts blocks (packet.ids ++ holders)) :
    ∃ bytes blocks', echo_handle_packet blocks packet = some (bytes,blocks') ∧ Counts blocks' holders := by
  match packet with
  | .empty => exact ⟨[],blocks,rfl,counts⟩
  | .one_block block offset length =>
    obtain ⟨b,live,_⟩ := @Counts.live _ block _ counts (by simp [EchoPacket.ids])
    obtain ⟨blocks',released,counts'⟩ := counts.decref
    refine ⟨(b.address.drop offset).take length,blocks',?_,counts'⟩
    simp only [echo_handle_packet,live,released,Option.bind_eq_bind,Option.bind_some]
    rfl
  | .blocks [] _ _ => exact ⟨[],blocks,rfl,counts⟩
  | .blocks (block::rest) head_position tail_offset =>
    obtain ⟨b,live,_⟩ := @Counts.live _ block _ counts (by simp [EchoPacket.ids])
    obtain ⟨blocks',released,counts'⟩ := counts.decref
    obtain ⟨bytes,blocks'',gathered,counts''⟩ := counts'.gather tail_offset
    refine ⟨b.address.drop head_position ++ bytes,blocks'',?_,counts''⟩
    simp only [echo_handle_packet,live,released,gathered,Option.bind_eq_bind,Option.bind_some]
    rfl

theorem Counts.add_tail (counts : Counts blocks holders) (held : block ∈ holders) (packet : EchoPacket) (offset length : Nat) :
    ∃ blocks', block_add_tail blocks packet block offset length = some (blocks',packet.add block offset length) ∧
      Counts blocks' (block::holders) := by
  obtain ⟨blocks',added,counts'⟩ := counts.addref held
  exact ⟨blocks',by simp [block_add_tail,added],counts'⟩

end Counts

/-! ### The receiver -/

/-- The blocks that the connection holds: its current one, and those of the packet. -/
def EchoConn.holders (conn : EchoConn) : List Nat := conn.block.toList ++ (conn.packet.getD .empty).ids

/-- A connection that `echo_post_recv` can be called for. -/
structure Ready (conn : EchoConn) : Prop where
  counts : Counts conn.blocks conn.holders
  allocated : ∀ id ∈ conn.holders, id < conn.nextBlock
  room : conn.offset < BLOCK_LENGTH
  state : conn.psc_rx_state ≠ .STATE_READ_PAY_LOAD
  header : conn.psc_rx_state = .STATE_NEW → conn.offset + conn.psc_rx_nob_left.toInt ≤ BLOCK_LENGTH

/-- And one that it was called for. -/
structure Held (conn : EchoConn) (block : Nat) : Prop extends Ready conn where
  current : conn.block = some block
  buffer : conn.psc_rx_buffer = (block,conn.offset)
  size : conn.psc_rx_size = conn.rxSize

theorem Ready.post {conn : EchoConn} (ready : Ready conn) : ∃ block, Held (echo_post_recv conn) block := by
  cases current : conn.block with
  | some block =>
    refine ⟨block,?_⟩
    rw [post_kept current]
    exact ⟨⟨ready.counts,ready.allocated,ready.room,ready.state,ready.header⟩,current,rfl,(rxSize_posted conn _).symm⟩
  | none =>
    have held : conn.holders = (conn.packet.getD .empty).ids := by simp [EchoConn.holders,current]
    have fresh : conn.nextBlock ∉ conn.holders := fun member => Nat.lt_irrefl _ (ready.allocated _ member)
    refine ⟨conn.nextBlock,⟨?_,?_,?_,?_,?_⟩,?_,?_,posted_size conn⟩
    · have counts := ready.counts.alloc fresh (List.replicate BLOCK_LENGTH 0)
      rw [held] at counts
      simpa [echo_post_recv,EchoConn.ensureBlock,current,EchoConn.holders] using counts
    · intro id member
      have shape : id = conn.nextBlock ∨ id ∈ conn.holders := by
        simpa [echo_post_recv,EchoConn.ensureBlock,current,EchoConn.holders] using member
      have next : (echo_post_recv conn).nextBlock = conn.nextBlock + 1 := by simp [echo_post_recv,EchoConn.ensureBlock,current]
      rw [next]
      rcases shape with rfl | old
      · exact Nat.lt_succ_self _
      · exact Nat.lt_succ_of_lt (ready.allocated id old)
    · simpa [echo_post_recv,EchoConn.ensureBlock,current] using ready.room
    · simpa [echo_post_recv,EchoConn.ensureBlock,current] using ready.state
    · simpa [echo_post_recv,EchoConn.ensureBlock,current] using ready.header
    · simp [echo_post_recv,EchoConn.ensureBlock,current]
    · simp [echo_post_recv,EchoConn.ensureBlock,current]

theorem start_held : ∃ block, Held EchoConn.start block := by
  apply Ready.post
  refine ⟨fun _ => rfl,?_,by decide,by decide,fun _ => by decide⟩
  intro id member
  cases member

/-- A connection in `echo_forward`, with its packet. -/
structure Forwarding (conn : EchoConn) (block : Nat) (packet : EchoPacket) : Prop where
  counts : Counts conn.blocks (block::packet.ids)
  allocated : ∀ id ∈ block::packet.ids, id < conn.nextBlock
  current : conn.block = some block
  packet : conn.packet = some packet
  inside : conn.offset ≤ BLOCK_LENGTH
  state : conn.psc_rx_state ≠ .STATE_READ_PAY_LOAD
  header : conn.psc_rx_state = .STATE_NEW → conn.offset + conn.psc_rx_nob_left.toInt ≤ BLOCK_LENGTH

section Forwarding
variable {conn : EchoConn} {block : Nat} {packet : EchoPacket} (forwarding : Forwarding conn block packet)
include forwarding

/-- What was the current block is the packet's then. -/
theorem Forwarding.moveFull (status : Int) :
    ∃ moved, conn.moveFull block packet status = some moved ∧ Ready moved.1 := by
  obtain ⟨counts,allocated,current,held,inside,state,header⟩ := forwarding
  by_cases full : conn.offset = BLOCK_LENGTH
  · obtain ⟨blocks',added,counts'⟩ := counts.add_tail List.mem_cons_self packet conn.prev_packet_offset
      (BLOCK_LENGTH - conn.prev_packet_offset)
    obtain ⟨blocks'',released,counts''⟩ := counts'.decref
    have moves : (block::packet.ids).Perm (packet.ids ++ [block]) := (List.perm_append_singleton block packet.ids).symm
    refine ⟨({conn with
      blocks := blocks''
      packet := some (packet.add block conn.prev_packet_offset (BLOCK_LENGTH - conn.prev_packet_offset))
      prev_packet_offset := 0
      offset := 0
      block := none},-EAGAIN),?_,?_⟩
    · simp only [EchoConn.moveFull,full,if_true,added,released,Option.bind_eq_bind,Option.bind_some]
      rfl
    · refine ⟨?_,?_,show 0 < BLOCK_LENGTH by decide,state,?_⟩
      · simp only [EchoConn.holders,Option.toList_none,List.nil_append,Option.getD_some,ids_add]
        exact counts''.perm moves
      · intro id member
        simp only [EchoConn.holders,Option.toList_none,List.nil_append,Option.getD_some,ids_add] at member
        exact allocated id (moves.mem_iff.mpr member)
      · intro new
        have short := header new
        simp only at short ⊢
        omega
  · refine ⟨(conn,status),by simp [EchoConn.moveFull,full],?_,?_,Nat.lt_of_le_of_ne inside full,state,header⟩
    · simpa [EchoConn.holders,current,held] using counts
    · simpa [EchoConn.holders,current,held] using allocated

/-- The packet gives its blocks back, and the current one keeps its reference. -/
theorem Forwarding.complete : (conn.offset + 4 ≤ BLOCK_LENGTH → ∀ stale, ∃ done, conn.complete block packet stale = some done ∧ Ready done.1) ∧
    (BLOCK_LENGTH < conn.offset + 4 → conn.complete block packet 0 = none) := by
  obtain ⟨counts,allocated,current,held,inside,state,header⟩ := forwarding
  obtain ⟨blocks',added,counts'⟩ := counts.add_tail List.mem_cons_self packet conn.prev_packet_offset
    (conn.offset - conn.prev_packet_offset)
  have moves : (block::block::packet.ids).Perm ((packet.ids ++ [block]) ++ [block]) := by
    refine ((List.perm_append_singleton block packet.ids).symm.cons block).trans ?_
    exact (List.perm_append_singleton block _).symm
  have counts' := counts'.perm moves
  rw [← ids_add packet block conn.prev_packet_offset (conn.offset - conn.prev_packet_offset)] at counts'
  obtain ⟨bytes,blocks'',handled,counts''⟩ := counts'.handle
  constructor
  · intro fits stale
    have stays : ¬conn.offset + 4 > BLOCK_LENGTH := Nat.not_lt_of_le fits
    refine ⟨({conn with
      blocks := blocks''
      prev_packet_offset := conn.offset
      packet := none
      tasks := conn.tasks ++ [bytes]
      psc_rx_state := .STATE_NEW
      psc_rx_nob_wanted := 4
      psc_rx_nob_left := 4},0),?_,?_⟩
    · simp only [EchoConn.complete,added,handled,stays,if_false,Option.bind_eq_bind,Option.bind_some]
      rfl
    · refine ⟨?_,?_,by simp only; omega,by simp,?_⟩
      · simpa [EchoConn.holders,current,EchoPacket.ids] using counts''
      · have here := allocated block List.mem_cons_self
        simpa [EchoConn.holders,current,EchoPacket.ids] using here
      · intro _
        have four : (4 : Int32).toInt = 4 := rfl
        simp only [four]
        omega
  · intro full
    obtain ⟨last,released,_⟩ := counts''.decref
    have drops : conn.offset + 4 > BLOCK_LENGTH := full
    simp only [EchoConn.complete,added,handled,drops,if_true,released,Option.bind_eq_bind,Option.bind_some]

end Forwarding

section Data
variable {conn : EchoConn} {block : Nat} (held : Held conn block) {bytes : List UInt8}
  (window : bytes.length ≤ conn.psc_rx_size.toInt)
include held window

/-- `recv` is asked for nothing past the block. -/
theorem Held.fits : conn.offset + bytes.length ≤ BLOCK_LENGTH := by
  have room := held.room
  have exact_ := room_toInt room
  rw [held.size] at window
  cases state : conn.psc_rx_state with
  | STATE_NEW =>
    have header := held.header state
    simp only [EchoConn.rxSize,state] at window
    omega
  | STATE_READ_HEADER =>
    simp only [EchoConn.rxSize,state] at window
    split at window
    · omega
    · rename_i large
      unfold Net.room at large
      omega
  | STATE_READ_PAY_LOAD => exact absurd state held.state

/-- The bytes are in the block and counted. -/
def EchoConn.arriving (conn : EchoConn) (block : Nat) (b : EchoBlock) (bytes : List UInt8) : EchoConn :=
  {conn with
    blocks := Function.update conn.blocks block
      (some {b with address := b.address.take conn.offset ++ bytes ++ b.address.drop (conn.offset + bytes.length)})
    offset := conn.offset + bytes.length
    packet := some (conn.packet.getD .empty)}

omit window in
theorem Held.counts_block : Counts conn.blocks (block::(conn.packet.getD .empty).ids) := by
  have counts := held.counts
  rw [EchoConn.holders,held.current] at counts
  exact counts

/-- `receive` is the loop of `echo_forward` where the bytes have arrived. -/
theorem Held.receive_loop : ∃ b address, conn.blocks block = some b ∧ ∀ stale, receive conn (.data bytes stale) =
    ((conn.arriving block b bytes).forwardLoop block address (conn.packet.getD .empty) bytes.length stale).map
      fun (result : EchoConn × Int) => echo_post_recv result.1 := by
  obtain ⟨b,live,_⟩ := held.counts_block.live List.mem_cons_self
  refine ⟨b,b.address.take conn.offset ++ bytes ++ b.address.drop (conn.offset + bytes.length),live,?_⟩
  intro stale
  have stored : conn.store bytes = some {conn with
      blocks := Function.update conn.blocks block
        (some {b with address := b.address.take conn.offset ++ bytes ++ b.address.drop (conn.offset + bytes.length)})} := by
    simp only [EchoConn.store,held.buffer,live,Option.bind_eq_bind,Option.bind_some,held.fits window,if_true]
    rfl
  simp only [receive,stored,Option.bind_eq_bind,Option.bind_some,echo_forward,held.current,Function.update_self,EchoConn.arriving]
  cases EchoConn.forwardLoop _ _ _ _ _ _ <;> rfl

/-- The counts do not change by what arrives. -/
theorem Held.forwarding {b : EchoBlock} (live : conn.blocks block = some b) (state : PacketState) (kind : state ≠ .STATE_READ_PAY_LOAD)
    (left : Int32) (header : state = .STATE_NEW → (conn.offset + bytes.length : Nat) + left.toInt ≤ BLOCK_LENGTH) (wanted : Int32) :
    Forwarding {conn.arriving block b bytes with psc_rx_state := state, psc_rx_nob_left := left, psc_rx_nob_wanted := wanted} block
      (conn.packet.getD .empty) := by
  have counts := held.counts_block
  have refs := counts block
  rw [live] at refs
  refine ⟨counts.update refs.1 (refs.1 ▸ refs.2) fun _ _ => rfl,?_,held.current,rfl,held.fits window,kind,header⟩
  intro id member
  apply held.allocated
  simpa [EchoConn.holders,held.current] using member

/-- Nothing that was freed is read, exactly if the block is not dropped. -/
theorem Held.receive_iff (arrived : bytes ≠ []) : (¬conn.Drops bytes.length → ∀ stale, ∃ next block, receive conn (.data bytes stale) = some next ∧ Held next block) ∧
    (conn.Drops bytes.length → receive conn (.data bytes 0) = none) := by
  have fits := held.fits window
  obtain ⟨b,address,live,loop⟩ := held.receive_loop window
  have length := @ofNat_toInt bytes.length (by omega)
  have some_ := List.length_pos_of_ne_nil arrived
  cases state : conn.psc_rx_state with
  | STATE_NEW =>
    have kept : (conn.arriving block b bytes).psc_rx_state = .STATE_NEW := state
    have size : conn.psc_rx_size = conn.psc_rx_nob_left := by
      rw [held.size]
      simp only [EchoConn.rxSize,state]
    have header := held.header state
    refine ⟨?_,?_⟩
    · intro _ stale
      rw [loop stale]
      by_cases all : Int32.ofNat bytes.length = conn.psc_rx_size
      · have whole : Int32.ofNat bytes.length = (conn.arriving block b bytes).psc_rx_size := all
        obtain ⟨moved,outcome,ready⟩ := (held.forwarding window live .STATE_READ_HEADER (by decide)
          (lengthWord address conn.prev_packet_offset - 4) (by simp) (lengthWord address conn.prev_packet_offset)).moveFull 0
        obtain ⟨block',held'⟩ := ready.post
        refine ⟨_,block',?_,held'⟩
        rw [loop_word kept whole]
        exact congrArg (Option.map _) outcome
      · have part : Int32.ofNat bytes.length ≠ (conn.arriving block b bytes).psc_rx_size := all
        have left : (conn.psc_rx_size - Int32.ofNat bytes.length).toInt = conn.psc_rx_size.toInt - bytes.length := by
          rw [Library.Words.toInt_sub_exact (by rw [length]; omega) (by rw [length]; have top := conn.psc_rx_size.toInt_lt; omega),length]
        obtain ⟨moved,outcome,ready⟩ := (held.forwarding window live .STATE_NEW (by decide)
          (conn.psc_rx_size - Int32.ofNat bytes.length) (by rw [left,size]; omega) conn.psc_rx_nob_wanted).moveFull (-EAGAIN)
        obtain ⟨block',held'⟩ := ready.post
        refine ⟨_,block',?_,held'⟩
        rw [loop_short kept part]
        exact congrArg (Option.map _) outcome
    · rintro ⟨header,_⟩
      rw [state] at header
      cases header
  | STATE_READ_HEADER =>
    have kept : (conn.arriving block b bytes).psc_rx_state = .STATE_READ_HEADER := state
    have last_iff : conn.psc_rx_nob_left - Int32.ofNat bytes.length = 0 ↔ conn.psc_rx_nob_left.toInt = bytes.length := by
      rw [← length,Int32.toInt_inj,Int32.sub_eq_iff_eq_add,Int32.zero_add]
    by_cases last : conn.psc_rx_nob_left.toInt = bytes.length
    · have ends : (conn.arriving block b bytes).psc_rx_nob_left - Int32.ofNat bytes.length = 0 := last_iff.mpr last
      have completes := (held.forwarding window live .STATE_READ_HEADER (by decide) 0 (by simp)
        conn.psc_rx_nob_wanted).complete
      refine ⟨?_,?_⟩
      · intro stays stale
        have room : conn.offset + bytes.length + 4 ≤ BLOCK_LENGTH := by
          apply Nat.le_of_not_lt
          intro full
          exact stays ⟨state,last,full⟩
        obtain ⟨done,outcome,ready⟩ := completes.1 room stale
        obtain ⟨block',held'⟩ := ready.post
        refine ⟨_,block',?_,held'⟩
        rw [loop stale,loop_last kept ends]
        exact congrArg (Option.map _) outcome
      · rintro ⟨_,_,full⟩
        rw [loop 0,loop_last kept ends]
        exact congrArg (Option.map _) (completes.2 full)
    · refine ⟨?_,fun drops => absurd drops.2.1 last⟩
      intro _ stale
      have more : (conn.arriving block b bytes).psc_rx_nob_left - Int32.ofNat bytes.length ≠ 0 := fun zero => last (last_iff.mp zero)
      obtain ⟨moved,outcome,ready⟩ := (held.forwarding window live .STATE_READ_HEADER (by decide)
        (conn.psc_rx_nob_left - Int32.ofNat bytes.length) (by simp) conn.psc_rx_nob_wanted).moveFull 0
      obtain ⟨block',held'⟩ := ready.post
      refine ⟨_,block',?_,held'⟩
      rw [loop stale,loop_part kept more]
      exact congrArg (Option.map _) outcome
  | STATE_READ_PAY_LOAD => exact absurd state held.state

end Data

/-! ### Until the connection is freed -/

/-- A packet that is not handed over is freed without its blocks. -/
def echo_conn_free (conn : EchoConn) : Option Blocks :=
  match conn.block with
  | some block => echo_block_decref conn.blocks block
  | none => some conn.blocks

/-- A connection, and the blocks it leaves behind. -/
inductive Receiver
  | open_ (conn : EchoConn)
  | freed (blocks : Blocks)

inductive Receipt
  | recv (answer : Answer)
  | free

namespace Receiver

def step : Receiver → Receipt → Option Receiver
  | open_ conn,.recv answer => (receive conn answer).map open_
  | open_ conn,.free => (echo_conn_free conn).map freed
  | freed _,_ => none

/-- Nothing is received by a connection that is freed. -/
def Offered : Receiver → Receipt → Prop
  | open_ conn,.recv answer => Served conn answer
  | open_ _,.free => True
  | freed _,_ => False

/-- Every block counts the connection and the packets that hold it, and lives as long as one does. -/
def Counted : Receiver → Prop
  | open_ conn => Counts conn.blocks conn.holders
  | freed blocks => Counts blocks []

end Receiver

/-- The same with something else in the freed memory. -/
def Receipt.found (stale : Int32) : Receipt → Receipt
  | .recv (.data bytes _) => .recv (.data bytes stale)
  | receipt => receipt

namespace Receiver

/-- Nothing is read of a block that was freed, and the counts are right afterwards. -/
def Sound (receiver : Receiver) (receipt : Receipt) : Prop :=
  (∀ stale, (receiver.step (receipt.found stale)).isSome) ∧ ∀ next, receiver.step receipt = some next → next.Counted

/-- No block is dropped by `echo_forward`, and no packet with blocks by `echo_conn_free`. -/
def Spares : Receiver → Receipt → Prop
  | open_ conn,.recv (.data bytes _) => ¬conn.Drops bytes.length
  | open_ conn,.free => (conn.packet.getD .empty).ids = []
  | _,_ => True

def Ordered : Receiver → Prop
  | open_ conn => ∃ block, Held conn block
  | freed _ => True

theorem counts_nil {blocks : Blocks} {holders : List Nat} (counts : Counts blocks holders) : Counts blocks [] ↔ holders = [] := by
  constructor
  · intro none_
    apply List.eq_nil_iff_forall_not_mem.mpr
    intro id member
    obtain ⟨b,live,_⟩ := counts.live member
    have dead := none_ id
    rw [live] at dead
    exact absurd dead.2 (Nat.lt_irrefl 0)
  · rintro rfl
    exact counts

theorem sound_iff_spares {receiver : Receiver} {receipt : Receipt} (ordered : receiver.Ordered) (offered : receiver.Offered receipt) :
    receiver.Sound receipt ↔ receiver.Spares receipt := by
  cases receiver with
  | freed blocks => exact offered.elim
  | open_ conn =>
    obtain ⟨block,held⟩ := ordered
    cases receipt with
    | free =>
      obtain ⟨blocks,released,counts⟩ := held.counts_block.decref
      have outcome : step (open_ conn) .free = some (freed blocks) := by
        simp only [step,echo_conn_free,held.current,released,Option.map_some]
      rw [Spares,← counts_nil counts]
      constructor
      · intro sound
        exact sound.2 _ outcome
      · intro none_
        refine ⟨fun _ => by simp [Receipt.found,outcome],?_⟩
        intro next reached
        rw [outcome] at reached
        cases reached
        exact none_
    | recv answer =>
      cases answer with
      | again =>
        refine iff_of_true ⟨fun _ => rfl,?_⟩ trivial
        rintro _ ⟨⟩
        exact held.counts
      | data bytes stale =>
        obtain ⟨arrived,window⟩ := offered
        obtain ⟨stays,drops⟩ := held.receive_iff window arrived
        constructor
        · intro sound dropped
          have read := sound.1 0
          simp [Receipt.found,step,drops dropped] at read
        · intro spares
          refine ⟨?_,?_⟩
          · intro other
            obtain ⟨next,_,outcome,_⟩ := stays spares other
            simp [Receipt.found,step,outcome]
          · intro next reached
            obtain ⟨conn',_,outcome,held'⟩ := stays spares stale
            simp only [step,outcome,Option.map_some,Option.some.injEq] at reached
            rw [← reached]
            exact held'.counts

theorem Ordered.step {receiver : Receiver} {receipt : Receipt} {next : Receiver} (ordered : receiver.Ordered)
    (offered : receiver.Offered receipt) (sound : receiver.Sound receipt) (outcome : receiver.step receipt = some next) : next.Ordered := by
  have spares := (sound_iff_spares ordered offered).mp sound
  cases receiver with
  | freed blocks => exact offered.elim
  | open_ conn =>
    obtain ⟨block,held⟩ := ordered
    cases receipt with
    | free =>
      obtain ⟨blocks,_,rfl⟩ := Option.map_eq_some_iff.mp outcome
      exact trivial
    | recv answer =>
      obtain ⟨conn',received,rfl⟩ := Option.map_eq_some_iff.mp outcome
      cases answer with
      | again =>
        cases received
        exact ⟨block,held⟩
      | data bytes stale =>
        obtain ⟨next,block',outcome',held'⟩ := (held.receive_iff offered.2 offered.1).1 spares stale
        cases received.symm.trans outcome'
        exact ⟨block',held'⟩

/-- The counts are right and no freed block is read exactly in the runs where no block and no packet with blocks is dropped. -/
theorem counted_iff (receipts : List Receipt) (offered : Along step Offered (open_ EchoConn.start) receipts) :
    Along step Sound (open_ EchoConn.start) receipts ↔ Along step Spares (open_ EchoConn.start) receipts := by
  have start : (open_ EchoConn.start).Ordered := start_held
  apply Along.congr_of ?_ ?_ start offered
  · intro receiver receipt ordered offered
    exact sound_iff_spares ordered offered
  · intro receiver receipt next ordered offered sound outcome
    exact ordered.step offered sound outcome

/-- A frame of five bytes, after which the connection is freed. -/
def shortReceipts : List Receipt := [.recv (.data [5,0,0,0] 0),.recv .again,.recv (.data [9] 0),.free]

theorem short_counted : Along step Sound (open_ EchoConn.start) shortReceipts := by
  have offered : Along step Offered (open_ EchoConn.start) shortReceipts := by
    refine ⟨⟨by decide,by decide⟩,?_⟩
    rintro _ ⟨⟩
    refine ⟨trivial,?_⟩
    rintro _ ⟨⟩
    refine ⟨⟨by decide,by decide⟩,?_⟩
    rintro _ ⟨⟩
    exact ⟨trivial,fun _ _ => trivial⟩
  apply (counted_iff shortReceipts offered).mpr
  refine ⟨by simp [Spares,EchoConn.Drops,EchoConn.start,echo_post_recv,EchoConn.ensureBlock],?_⟩
  rintro _ ⟨⟩
  refine ⟨trivial,?_⟩
  rintro _ ⟨⟩
  refine ⟨fun drops => absurd drops.2.2 (by decide),?_⟩
  rintro _ ⟨⟩
  exact ⟨rfl,fun _ _ => trivial⟩

/-- The block that `fullFrame` ends with is freed, and then its length is read. -/
theorem full_uncounted : Along step Offered (open_ EchoConn.start) (fullAnswers.map .recv) ∧
    ¬Along step Sound (open_ EchoConn.start) (fullAnswers.map .recv) := by
  obtain ⟨next,outcome,inv,size,drops⟩ := full_header
  have window : (List.replicate 4092 (7 : UInt8)).length ≤ next.psc_rx_size.toInt := by
    rw [size,List.length_replicate]
    decide
  have first : step (open_ EchoConn.start) (.recv (.data [0,16,0,0] 0)) = some (open_ next) := by
    rw [step,outcome]
    rfl
  refine ⟨⟨⟨by decide,by decide⟩,?_⟩,?_⟩
  · intro other reached
    cases first.symm.trans reached
    refine ⟨⟨List.ne_nil_of_length_pos ?_,window⟩,fun _ _ => trivial⟩
    rw [List.length_replicate]
    decide
  · rintro ⟨_,rest⟩
    have read := (rest _ first).1.1 0
    have fault := receive_stale inv window (by rw [List.length_replicate]; exact drops)
    rw [Receipt.found,step,fault] at read
    cases read

end Receiver

end Migfm.Net
