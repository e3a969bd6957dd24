import Migfm.Library.Words
import Migfm.Net.Pending

/-! One `recv` of a connection. A connection that holds the first bytes of a
frame either holds more of them afterwards or hands the whole frame over. -/
namespace Migfm.Net
open Library.LittleEndian Library.Words

/-- The length word of a frame whose first four bytes are there. -/
def word (held : List UInt8) : Int32 := Scalar.decode (held.take 4)

/-- What the state machine expects after `held`. -/
def EchoConn.Expecting (conn : EchoConn) (parts : List (Nat × List UInt8)) (held : List UInt8) : Prop :=
  match conn.psc_rx_state with
  | .STATE_NEW =>
    held.length < 4 ∧ parts = [] ∧ conn.prev_packet_offset + 4 ≤ BLOCK_LENGTH ∧
      conn.psc_rx_nob_left.toInt = 4 - held.length ∧ conn.psc_rx_nob_wanted = 4
  | .STATE_READ_HEADER =>
    4 ≤ held.length ∧ conn.psc_rx_nob_wanted = word held ∧ 5 ≤ (word held).toInt ∧
      conn.psc_rx_nob_left.toInt = (word held).toInt - held.length ∧ 0 < conn.psc_rx_nob_left.toInt
  | .STATE_READ_PAY_LOAD => False

/-- A connection in the middle of a frame of which it holds `held`. -/
def EchoConn.Inv (conn : EchoConn) (held : List UInt8) : Prop :=
  ∃ parts head block address, Loose conn parts head block address ∧ Posted conn block ∧
    conn.held parts head address = held ∧ conn.Expecting parts held

/-! ### The window -/

theorem room_toInt {offset : Nat} (inside : offset < BLOCK_LENGTH) :
    (Int32.ofInt (room offset)).toInt = BLOCK_LENGTH - offset := by
  unfold room BLOCK_LENGTH at *
  exact Int32.toInt_ofInt_of_le (by omega) (by omega)

theorem held_alone {conn : EchoConn} {head block : Nat} {address : List UInt8}
    (loose : Loose conn [] head block address) :
    (conn.held [] head address).length = conn.offset - conn.prev_packet_offset := by
  have size := loose.size
  have inside := loose.inside
  simp only [EchoConn.held,partBytes,List.map_nil,List.flatten_nil,List.drop_nil,List.nil_append,slice,
    List.length_drop,List.length_take]
  omega

section Window
variable {conn : EchoConn} {held : List UInt8} (inv : conn.Inv held)
include inv

/-- The next request is positive and ends inside the current block. -/
theorem window_inside :
    0 < conn.psc_rx_size.toInt ∧ conn.psc_rx_size.toInt ≤ BLOCK_LENGTH - conn.offset ∧
      conn.psc_rx_size.toInt ≤ conn.psc_rx_nob_left.toInt ∧
      (conn.psc_rx_state = .STATE_NEW → conn.psc_rx_size = conn.psc_rx_nob_left) := by
  obtain ⟨parts,head,block,address,loose,posted,same,expecting⟩ := inv
  have exact := room_toInt posted.room
  have inside := posted.room
  rw [posted.size]
  unfold EchoConn.Expecting at expecting
  cases state : conn.psc_rx_state with
  | STATE_NEW =>
    rw [state] at expecting
    obtain ⟨short,none,fits,left,_⟩ := expecting
    subst none
    have count := held_alone loose
    rw [same] at count
    have ordered := loose.ordered
    simp only [EchoConn.rxSize,state]
    exact ⟨by omega,by omega,by omega,fun _ => trivial⟩
  | STATE_READ_HEADER =>
    rw [state] at expecting
    obtain ⟨_,_,_,_,positive⟩ := expecting
    simp only [EchoConn.rxSize,state]
    split
    · rename_i small
      unfold room at small
      exact ⟨by omega,by omega,by omega,by simp⟩
    · rename_i large
      unfold room at large
      exact ⟨by omega,by omega,by omega,by simp⟩
  | STATE_READ_PAY_LOAD =>
    rw [state] at expecting
    exact expecting.elim

theorem EchoConn.Inv.expecting :
    (conn.psc_rx_state = .STATE_NEW → held.length < 4) ∧ (conn.psc_rx_state = .STATE_READ_HEADER → 4 ≤ held.length) ∧
      conn.psc_rx_state ≠ .STATE_READ_PAY_LOAD := by
  obtain ⟨_,_,_,_,_,_,_,expecting⟩ := inv
  unfold EchoConn.Expecting at expecting
  cases state : conn.psc_rx_state with
  | STATE_NEW =>
    rw [state] at expecting
    exact ⟨fun _ => expecting.1,by simp,by simp⟩
  | STATE_READ_HEADER =>
    rw [state] at expecting
    exact ⟨by simp,fun _ => expecting.1,by simp⟩
  | STATE_READ_PAY_LOAD =>
    rw [state] at expecting
    exact expecting.elim

/-- The next request does not reach past the length word, nor past the frame. -/
theorem window_frame :
    (held.length < 4 → conn.psc_rx_size.toInt ≤ 4 - held.length) ∧
      (4 ≤ held.length → conn.psc_rx_size.toInt ≤ (word held).toInt - held.length) := by
  obtain ⟨_,_,below,_⟩ := window_inside inv
  obtain ⟨_,_,_,_,_,_,_,expecting⟩ := inv
  unfold EchoConn.Expecting at expecting
  cases state : conn.psc_rx_state with
  | STATE_NEW =>
    rw [state] at expecting
    obtain ⟨short,_,_,left,_⟩ := expecting
    exact ⟨by omega,by omega⟩
  | STATE_READ_HEADER =>
    rw [state] at expecting
    obtain ⟨enough,_,_,left,_⟩ := expecting
    exact ⟨by omega,by omega⟩
  | STATE_READ_PAY_LOAD =>
    rw [state] at expecting
    exact expecting.elim

end Window

/-! ### The bytes arrive -/

theorem slice_store {address bytes : List UInt8} {prev offset : Nat} (ordered : prev ≤ offset)
    (inside : offset ≤ address.length) :
    slice (address.take offset ++ bytes ++ address.drop (offset + bytes.length)) prev (offset + bytes.length) =
      slice address prev offset ++ bytes := by
  have front : (address.take offset ++ bytes).length = offset + bytes.length := by
    rw [List.length_append,List.length_take,Nat.min_eq_left inside]
  unfold slice
  rw [← front,List.take_left,List.drop_append_of_le_length]
  rw [List.length_take,Nat.min_eq_left inside]
  exact ordered

/-- `conn` after the kernel stored `bytes` in block `block` and `echo_forward` counted them. -/
def EchoConn.advanced (conn : EchoConn) (parts : List (Nat × List UInt8)) (head block : Nat)
    (address bytes : List UInt8) : EchoConn :=
  {conn with
    blocks := Function.update conn.blocks block
      (some ⟨address.take conn.offset ++ bytes ++ address.drop (conn.offset + bytes.length),1⟩)
    offset := conn.offset + bytes.length
    packet := some (packetOf parts head)}

section Advance
variable {conn : EchoConn} {parts : List (Nat × List UInt8)} {head block : Nat} {address bytes : List UInt8}
  (loose : Loose conn parts head block address) (posted : Posted conn block)
  (fits : conn.offset + bytes.length ≤ BLOCK_LENGTH)

theorem Linked.apart {blocks : Blocks} (linked : Linked blocks parts block) (part : Nat × List UInt8)
    (member : part ∈ parts) : part.1 ≠ block := by
  have disjoint := (List.nodup_append.mp linked.distinct).2.2
  exact disjoint part.1 (List.mem_map_of_mem member) block (List.mem_singleton_self block)

theorem Linked.update {blocks : Blocks} (linked : Linked blocks parts block) (value : Option EchoBlock) :
    Linked (Function.update blocks block value) parts block := by
  refine ⟨?_,linked.distinct⟩
  intro part member
  rw [Function.update_of_ne (linked.apart part member)]
  exact linked.live part member

include loose fits

theorem advanced_loose :
    Loose (conn.advanced parts head block address bytes) parts head block
      (address.take conn.offset ++ bytes ++ address.drop (conn.offset + bytes.length)) := by
  have size := loose.size
  refine ⟨loose.current,Function.update_self ..,loose.linked.update _,?_,loose.sizes,loose.allocated,rfl,loose.head,
    loose.start,Nat.le_trans loose.ordered (Nat.le_add_right _ _),fits⟩
  rw [List.length_append,List.length_append,List.length_take,List.length_drop]
  omega

theorem advanced_held :
    (conn.advanced parts head block address bytes).held parts head
        (address.take conn.offset ++ bytes ++ address.drop (conn.offset + bytes.length)) =
      conn.held parts head address ++ bytes := by
  have size := loose.size
  unfold EchoConn.held EchoConn.advanced
  rw [slice_store loose.ordered (by omega),List.append_assoc]

include posted

/-- `receive` is the loop of `echo_forward` on the advanced connection. -/
theorem receive_loop (stale : Int32) :
    receive conn (.data bytes stale) =
      ((conn.advanced parts head block address bytes).forwardLoop block
        (address.take conn.offset ++ bytes ++ address.drop (conn.offset + bytes.length)) (packetOf parts head)
        bytes.length stale).map fun (result : EchoConn × Int) => echo_post_recv result.1 := by
  have stored : conn.store bytes = some {conn with
      blocks := Function.update conn.blocks block
        (some ⟨address.take conn.offset ++ bytes ++ address.drop (conn.offset + bytes.length),1⟩)} := by
    simp only [EchoConn.store,posted.buffer,loose.live,Option.bind_eq_bind,Option.bind_some,fits,if_true]
    rfl
  simp only [receive,stored,Option.bind_eq_bind,Option.bind_some,echo_forward,loose.current,
    Function.update_self,loose.packet,EchoConn.advanced]
  cases EchoConn.forwardLoop _ _ _ _ _ _ <;> rfl

end Advance

/-! ### The frame goes on -/

section Outcome
variable {conn : EchoConn} {parts : List (Nat × List UInt8)} {head block : Nat} {address held : List UInt8}
  (loose : Loose conn parts head block address) (same : conn.held parts head address = held)
include loose

theorem Loose.rx (state : PacketState) (left wanted : Int32) :
    Loose {conn with psc_rx_state := state, psc_rx_nob_left := left, psc_rx_nob_wanted := wanted} parts head block
      address :=
  ⟨loose.current,loose.live,loose.linked,loose.size,loose.sizes,loose.allocated,loose.packet,loose.head,loose.start,
    loose.ordered,loose.inside⟩

include same

theorem moved_inv (expecting : conn.Expecting parts held)
    (short : conn.psc_rx_state = .STATE_NEW → conn.offset < BLOCK_LENGTH) (status : Int) :
    ∃ moved, conn.moveFull block (packetOf parts head) status = some moved ∧
      (echo_post_recv moved.1).tasks = conn.tasks ∧ (echo_post_recv moved.1).Inv held := by
  obtain ⟨moved,status',parts',head',block',address',outcome,loose',posted,held',state,left,wanted,tasks,stays⟩ :=
    move_post loose status
  refine ⟨(moved,status'),outcome,tasks,parts',head',block',address',loose',posted,held'.trans same,?_⟩
  unfold EchoConn.Expecting at expecting ⊢
  rw [state,left,wanted]
  cases kind : conn.psc_rx_state with
  | STATE_NEW =>
    rw [kind] at expecting
    obtain ⟨parts_eq,prev⟩ := stays (short kind)
    simp only [parts_eq,prev]
    exact expecting
  | STATE_READ_HEADER =>
    rw [kind] at expecting
    exact expecting
  | STATE_READ_PAY_LOAD =>
    rw [kind] at expecting
    exact expecting

end Outcome

/-! ### The frame is complete -/

/-- Between two frames. -/
structure Idle (conn : EchoConn) : Prop where
  state : conn.psc_rx_state = .STATE_NEW
  left : conn.psc_rx_nob_left = 4
  wanted : conn.psc_rx_nob_wanted = 4
  packet : conn.packet = none
  start : conn.prev_packet_offset = conn.offset

theorem Idle.expecting {conn : EchoConn} (idle : Idle conn) (fits : conn.offset + 4 ≤ BLOCK_LENGTH) :
    conn.Expecting [] [] := by
  unfold EchoConn.Expecting
  rw [idle.state,idle.left,idle.wanted,idle.start]
  exact ⟨by decide,rfl,fits,rfl,rfl⟩

theorem Idle.held {conn : EchoConn} (idle : Idle conn) (head : Nat) (address : List UInt8) :
    conn.held [] head address = [] := by
  rw [EchoConn.held,idle.start]
  simp [partBytes,slice]

/-- The block goes on being used. -/
theorem idle_kept {conn : EchoConn} {block : Nat} {address : List UInt8} (idle : Idle conn)
    (current : conn.block = some block) (live : conn.blocks block = some ⟨address,1⟩)
    (size : address.length = BLOCK_LENGTH) (allocated : block < conn.nextBlock)
    (fits : conn.offset + 4 ≤ BLOCK_LENGTH) : (echo_post_recv conn).Inv [] := by
  refine ⟨[],0,block,address,?_,⟨posted_size conn,?_,?_⟩,?_,?_⟩
  · rw [post_kept current]
    exact ⟨current,live,⟨fun _ member => absurd member List.not_mem_nil,List.nodup_singleton _⟩,size,
      fun _ member => absurd member List.not_mem_nil,
      ⟨allocated,fun _ member => absurd member List.not_mem_nil⟩,congrArg (·.getD .empty) idle.packet,
      Nat.zero_le _,fun some => absurd rfl some,Nat.le_of_eq idle.start,by simp only; omega⟩
  · rw [post_kept current]
  · rw [post_kept current]
    simp only
    omega
  · rw [post_kept current]
    exact idle.held 0 address
  · rw [post_kept current]
    exact idle.expecting fits

/-- The block was dropped: a new one is taken. -/
theorem idle_dropped {conn : EchoConn} (idle : Idle conn) (dropped : conn.block = none) (first : conn.offset = 0) :
    (echo_post_recv conn).Inv [] := by
  have ensured : echo_post_recv conn = echo_post_recv {conn with
      blocks := Function.update conn.blocks conn.nextBlock (some ⟨List.replicate BLOCK_LENGTH 0,1⟩)
      nextBlock := conn.nextBlock + 1
      block := some conn.nextBlock} := by
    simp only [echo_post_recv,EchoConn.ensureBlock,dropped]
  rw [ensured]
  have idle' : Idle {conn with
      blocks := Function.update conn.blocks conn.nextBlock (some ⟨List.replicate BLOCK_LENGTH 0,1⟩)
      nextBlock := conn.nextBlock + 1
      block := some conn.nextBlock} :=
    ⟨idle.state,idle.left,idle.wanted,idle.packet,idle.start⟩
  apply idle_kept idle' rfl (Function.update_self ..) List.length_replicate (Nat.lt_succ_self _)
  simp only [first]
  decide

theorem start_inv : EchoConn.start.Inv [] := idle_dropped ⟨rfl,rfl,rfl,rfl,rfl⟩ rfl rfl

section Complete
variable {conn : EchoConn} {parts : List (Nat × List UInt8)} {head block : Nat} {address held : List UInt8}
  (loose : Loose conn parts head block address) (same : conn.held parts head address = held)
include loose same

/-- The packet is handed over and the block keeps the reference of the connection. -/
theorem complete_handled :
    ∃ blocks', blocks' block = some ⟨address,1⟩ ∧ ∀ stale,
      conn.complete block (packetOf parts head) stale =
        let idle := {conn with
          blocks := blocks'
          prev_packet_offset := conn.offset
          packet := none
          tasks := conn.tasks ++ [held]
          psc_rx_state := .STATE_NEW
          psc_rx_nob_wanted := 4
          psc_rx_nob_left := 4}
        if conn.offset + 4 > BLOCK_LENGTH then
          if stale = 0 then none
          else some ({idle with
            blocks := Function.update blocks' block none
            prev_packet_offset := 0
            offset := 0
            block := none},0)
        else some (idle,0) := by
  have added := add_tail_live loose.live (packetOf parts head) conn.prev_packet_offset
    (conn.offset - conn.prev_packet_offset)
  have shared : Function.update conn.blocks block (some ⟨address,1+1⟩) block = some ⟨address,2⟩ :=
    Function.update_self ..
  have inside (part : Nat × List UInt8) (member : part ∈ parts) : head ≤ part.2.length := by
    rw [loose.sizes part member]
    exact loose.head
  obtain ⟨blocks',handled,kept⟩ := @handle_packet _ parts head conn.prev_packet_offset
    (conn.offset - conn.prev_packet_offset) block address (loose.linked.update _) shared loose.start inside
  have bytes : partBytes parts head ++
      (address.drop conn.prev_packet_offset).take (conn.offset - conn.prev_packet_offset) = held := by
    rw [← same,EchoConn.held,slice,List.drop_take]
  rw [bytes] at handled
  refine ⟨blocks',kept,?_⟩
  intro stale
  simp only [EchoConn.complete,added,handled,Option.bind_eq_bind,Option.bind_some,decref_last kept]
  rfl

theorem complete_inv {stale : Int32} (alive : BLOCK_LENGTH < conn.offset + 4 → stale ≠ 0) :
    ∃ done, conn.complete block (packetOf parts head) stale = some done ∧
      (echo_post_recv done.1).tasks = conn.tasks ++ [held] ∧ (echo_post_recv done.1).Inv [] := by
  obtain ⟨blocks',kept,outcome⟩ := complete_handled loose same
  rw [outcome stale]
  by_cases full : conn.offset + 4 > BLOCK_LENGTH
  · simp only [full,if_true,if_neg (alive full)]
    exact ⟨_,rfl,post_tasks _,idle_dropped ⟨rfl,rfl,rfl,rfl,rfl⟩ rfl rfl⟩
  · simp only [full,if_false]
    exact ⟨_,rfl,post_tasks _,idle_kept ⟨rfl,rfl,rfl,rfl,rfl⟩ loose.current kept loose.size loose.allocated.1
      (Nat.le_of_not_lt full)⟩

/-- The length of the dropped block is read after the block was freed. -/
theorem complete_stale (full : BLOCK_LENGTH < conn.offset + 4) :
    conn.complete block (packetOf parts head) 0 = none := by
  obtain ⟨blocks',_,outcome⟩ := complete_handled loose same
  have full' : conn.offset + 4 > BLOCK_LENGTH := full
  rw [outcome 0]
  simp only [full',if_true]

end Complete

/-! ### One `recv` -/

/-- The frame of which `held` has come is complete with `bytes`. -/
def Finishes (held bytes : List UInt8) : Prop := 4 ≤ held.length ∧ (word held).toInt = (held ++ bytes).length

/-- `length` bytes complete a frame so near the end of the block that the block is dropped. -/
def EchoConn.Drops (conn : EchoConn) (length : Nat) : Prop :=
  conn.psc_rx_state = .STATE_READ_HEADER ∧ conn.psc_rx_nob_left.toInt = length ∧
    BLOCK_LENGTH < conn.offset + length + 4

theorem ofNat_toInt {length : Nat} (small : length ≤ BLOCK_LENGTH) : (Int32.ofNat length).toInt = length := by
  unfold BLOCK_LENGTH at small
  exact Int32.toInt_ofNat_of_lt (by omega)

theorem word_append {held : List UInt8} (enough : 4 ≤ held.length) (bytes : List UInt8) :
    word (held ++ bytes) = word held := by
  rw [word,word,List.take_append_of_le_length enough]

section Loop
variable {conn : EchoConn} {length : Nat} {stale : Int32} {block : Nat} {address : List UInt8} {packet : EchoPacket}

theorem loop_short (state : conn.psc_rx_state = .STATE_NEW) (short : Int32.ofNat length ≠ conn.psc_rx_size) :
    conn.forwardLoop block address packet length stale =
      EchoConn.moveFull {conn with
        psc_rx_state := .STATE_NEW
        psc_rx_nob_left := conn.psc_rx_size - Int32.ofNat length} block packet (-EAGAIN) := by
  have step : conn.forwardLoop block address packet length stale =
      EchoConn.moveFull {conn with psc_rx_nob_left := conn.psc_rx_size - Int32.ofNat length} block packet
        (-EAGAIN) := by
    simp only [EchoConn.forwardLoop,state,if_pos short]
  rw [step,← state]

theorem loop_word (state : conn.psc_rx_state = .STATE_NEW) (all : Int32.ofNat length = conn.psc_rx_size) :
    conn.forwardLoop block address packet length stale =
      EchoConn.moveFull {conn with
        psc_rx_state := .STATE_READ_HEADER
        psc_rx_nob_left := lengthWord address conn.prev_packet_offset - 4
        psc_rx_nob_wanted := lengthWord address conn.prev_packet_offset} block packet 0 := by
  simp only [EchoConn.forwardLoop,state,all,ne_eq,not_true,if_false]

theorem loop_part (state : conn.psc_rx_state = .STATE_READ_HEADER)
    (more : conn.psc_rx_nob_left - Int32.ofNat length ≠ 0) :
    conn.forwardLoop block address packet length stale =
      EchoConn.moveFull {conn with
        psc_rx_state := .STATE_READ_HEADER
        psc_rx_nob_left := conn.psc_rx_nob_left - Int32.ofNat length} block packet 0 := by
  have step : conn.forwardLoop block address packet length stale =
      EchoConn.moveFull {conn with psc_rx_nob_left := conn.psc_rx_nob_left - Int32.ofNat length} block packet 0 := by
    simp only [EchoConn.forwardLoop,state,if_pos more]
  rw [step,← state]

theorem loop_last (state : conn.psc_rx_state = .STATE_READ_HEADER)
    (last : conn.psc_rx_nob_left - Int32.ofNat length = 0) :
    conn.forwardLoop block address packet length stale =
      EchoConn.complete {conn with psc_rx_state := .STATE_READ_HEADER, psc_rx_nob_left := 0} block packet stale := by
  have step : conn.forwardLoop block address packet length stale =
      EchoConn.complete {conn with psc_rx_nob_left := 0} block packet stale := by
    simp only [EchoConn.forwardLoop,state,last,ne_eq,not_true,if_false]
  rw [step,← state]

end Loop

/-- The `int` the state machine reads is the word of the bytes held. -/
theorem lengthWord_held {conn : EchoConn} {head block : Nat} {address held : List UInt8}
    (loose : Loose conn [] head block address) (same : conn.held [] head address = held) (four : held.length = 4) :
    lengthWord address conn.prev_packet_offset = word held := by
  have count := held_alone loose
  rw [same,four] at count
  have bytes : (address.drop conn.prev_packet_offset).take 4 = held := by
    rw [← same,count,EchoConn.held,slice,List.drop_take]
    simp [partBytes]
  rw [lengthWord,bytes,word,← four,List.take_length]

section Data
variable {conn : EchoConn} {held bytes : List UInt8} (inv : conn.Inv held)
  (window : bytes.length ≤ conn.psc_rx_size.toInt)
include inv window

/-- Bytes of the length word. -/
theorem receive_header (arrived : bytes ≠ []) (state : conn.psc_rx_state = .STATE_NEW)
    (framed : 4 ≤ (held ++ bytes).length → 5 ≤ (word (held ++ bytes)).toInt) (stale : Int32) :
    ∃ next, receive conn (.data bytes stale) = some next ∧ next.tasks = conn.tasks ∧ next.Inv (held ++ bytes) := by
  obtain ⟨positive,inside,_,whole⟩ := window_inside inv
  have size := whole state
  obtain ⟨parts,head,block,address,loose,posted,same,expecting⟩ := inv
  have fits : conn.offset + bytes.length ≤ BLOCK_LENGTH := by
    have room := posted.room
    omega
  have advanced := advanced_loose loose fits
  have total := advanced_held loose fits
  rw [same] at total
  rw [receive_loop loose posted fits stale]
  have received := @ofNat_toInt bytes.length (by omega)
  unfold EchoConn.Expecting at expecting
  rw [state] at expecting
  obtain ⟨short,none,start,left,wanted⟩ := expecting
  subst none
  have kept : (conn.advanced [] head block address bytes).psc_rx_state = .STATE_NEW := state
  have nonempty := List.length_pos_of_ne_nil arrived
  have grown : (held ++ bytes).length = held.length + bytes.length := List.length_append
  have count : (bytes.length : Int) ≤ 4 - held.length := by
    rw [size] at window
    omega
  by_cases all : Int32.ofNat bytes.length = conn.psc_rx_size
  · have four : (held ++ bytes).length = 4 := by
      rw [all,size] at received
      omega
    have wide := framed (Nat.le_of_eq four.symm)
    have wanted' := lengthWord_held advanced total four
    have left' : (word (held ++ bytes) - 4).toInt = (word (held ++ bytes)).toInt - 4 :=
      toInt_sub_exact (by rw [show (4 : Int32).toInt = 4 by decide]; omega)
        (by have top := Int32.toInt_lt (word (held ++ bytes)); rw [show (4 : Int32).toInt = 4 by decide]; omega)
    obtain ⟨moved,outcome,tasks,inv'⟩ := moved_inv
      (advanced.rx .STATE_READ_HEADER (word (held ++ bytes) - 4) (word (held ++ bytes))) total
      ⟨Nat.le_of_eq four.symm,rfl,wide,by rw [four]; exact left',by simp only; omega⟩ (by simp) 0
    refine ⟨echo_post_recv moved.1,?_,tasks,inv'⟩
    have whole : Int32.ofNat bytes.length = (conn.advanced [] head block address bytes).psc_rx_size := all
    rw [loop_word kept whole,wanted']
    exact congrArg (Option.map _) outcome
  · have left' : (conn.psc_rx_size - Int32.ofNat bytes.length).toInt = 4 - (held ++ bytes).length := by
      have whole := toInt_sub_exact (a := conn.psc_rx_size) (b := Int32.ofNat bytes.length)
        (by rw [received]; omega) (by rw [received,size]; omega)
      rw [whole,received,size,left,grown]
      omega
    have less : (held ++ bytes).length < 4 := by
      have differs : (Int32.ofNat bytes.length).toInt ≠ conn.psc_rx_size.toInt := fun same =>
        all (Int32.toInt_inj.mp same)
      rw [received,size,left] at differs
      omega
    have below : conn.offset + bytes.length < BLOCK_LENGTH := by
      have ordered := loose.ordered
      have held_length := held_alone loose
      rw [same] at held_length
      omega
    obtain ⟨moved,outcome,tasks,inv'⟩ := moved_inv
      (advanced.rx .STATE_NEW (conn.psc_rx_size - Int32.ofNat bytes.length) conn.psc_rx_nob_wanted) total
      ⟨less,rfl,start,left',wanted⟩ (fun _ => below) (-EAGAIN)
    refine ⟨echo_post_recv moved.1,?_,tasks,inv'⟩
    have part : Int32.ofNat bytes.length ≠ (conn.advanced [] head block address bytes).psc_rx_size := all
    rw [loop_short kept part]
    exact congrArg (Option.map _) outcome

/-- Bytes of the rest of the frame. -/
theorem receive_payload {stale : Int32} (state : conn.psc_rx_state = .STATE_READ_HEADER)
    (alive : conn.Drops bytes.length → stale ≠ 0) :
    ∃ next, receive conn (.data bytes stale) = some next ∧
      (Finishes held bytes → next.tasks = conn.tasks ++ [held ++ bytes] ∧ next.Inv []) ∧
      (¬Finishes held bytes → next.tasks = conn.tasks ∧ next.Inv (held ++ bytes)) := by
  obtain ⟨positive,inside,below,_⟩ := window_inside inv
  obtain ⟨parts,head,block,address,loose,posted,same,expecting⟩ := inv
  have fits : conn.offset + bytes.length ≤ BLOCK_LENGTH := by
    have room := posted.room
    omega
  have advanced := advanced_loose loose fits
  have total := advanced_held loose fits
  rw [same] at total
  rw [receive_loop loose posted fits stale]
  have received := @ofNat_toInt bytes.length (by omega)
  unfold EchoConn.Expecting at expecting
  rw [state] at expecting
  obtain ⟨enough,wanted,wide,left,more⟩ := expecting
  have kept : (conn.advanced parts head block address bytes).psc_rx_state = .STATE_READ_HEADER := state
  have grown : (held ++ bytes).length = held.length + bytes.length := List.length_append
  have top := Int32.toInt_lt conn.psc_rx_nob_left
  have left' : (conn.psc_rx_nob_left - Int32.ofNat bytes.length).toInt =
      (word held).toInt - (held ++ bytes).length := by
    rw [toInt_sub_exact (by rw [received]; omega) (by rw [received]; omega),received,left,grown]
    omega
  by_cases last : conn.psc_rx_nob_left - Int32.ofNat bytes.length = 0
  · have finishes : Finishes held bytes := by
      rw [last,show (0 : Int32).toInt = 0 by decide] at left'
      exact ⟨enough,by omega⟩
    have dropped : BLOCK_LENGTH < conn.offset + bytes.length + 4 → stale ≠ 0 := fun near =>
      alive ⟨state,by have sum := finishes.2; omega,near⟩
    obtain ⟨done,outcome,tasks,inv'⟩ := complete_inv (advanced.rx .STATE_READ_HEADER 0 conn.psc_rx_nob_wanted) total dropped
    refine ⟨echo_post_recv done.1,?_,fun _ => ⟨tasks,inv'⟩,fun unfinished => absurd finishes unfinished⟩
    have ends : (conn.advanced parts head block address bytes).psc_rx_nob_left - Int32.ofNat bytes.length = 0 := last
    rw [loop_last kept ends]
    exact congrArg (Option.map _) outcome
  · have goes_on : 0 < (conn.psc_rx_nob_left - Int32.ofNat bytes.length).toInt := by
      have differs : (conn.psc_rx_nob_left - Int32.ofNat bytes.length).toInt ≠ (0 : Int32).toInt := fun same =>
        last (Int32.toInt_inj.mp same)
      rw [show (0 : Int32).toInt = 0 by decide] at differs
      omega
    have unfinished : ¬Finishes held bytes := by
      rintro ⟨_,exact⟩
      omega
    have word_eq := word_append enough bytes
    obtain ⟨moved,outcome,tasks,inv'⟩ := moved_inv
      (advanced.rx .STATE_READ_HEADER (conn.psc_rx_nob_left - Int32.ofNat bytes.length) conn.psc_rx_nob_wanted) total
      ⟨by omega,by rw [word_eq]; exact wanted,by rw [word_eq]; exact wide,by rw [word_eq]; exact left',goes_on⟩
      (by simp) 0
    refine ⟨echo_post_recv moved.1,?_,fun finishes => absurd finishes unfinished,fun _ => ⟨tasks,inv'⟩⟩
    have continues : (conn.advanced parts head block address bytes).psc_rx_nob_left - Int32.ofNat bytes.length ≠ 0 :=
      last
    rw [loop_part kept continues]
    exact congrArg (Option.map _) outcome

/-- The block is dropped and its length then reads as 0. -/
theorem receive_stale (drops : conn.Drops bytes.length) : receive conn (.data bytes 0) = none := by
  obtain ⟨positive,inside,below,_⟩ := window_inside inv
  obtain ⟨parts,head,block,address,loose,posted,same,expecting⟩ := inv
  obtain ⟨state,all,near⟩ := drops
  have fits : conn.offset + bytes.length ≤ BLOCK_LENGTH := by
    have room := posted.room
    omega
  have received := @ofNat_toInt bytes.length (by omega)
  have equal : Int32.ofNat bytes.length = conn.psc_rx_nob_left := Int32.toInt_inj.mp (received.trans all.symm)
  have kept : (conn.advanced parts head block address bytes).psc_rx_state = .STATE_READ_HEADER := state
  have ends : (conn.advanced parts head block address bytes).psc_rx_nob_left - Int32.ofNat bytes.length = 0 := by
    rw [equal]
    exact Int32.sub_self conn.psc_rx_nob_left
  have total := advanced_held loose fits
  have advanced := advanced_loose loose fits
  rw [receive_loop loose posted fits 0,loop_last kept ends]
  exact congrArg (Option.map _)
    (complete_stale (advanced.rx .STATE_READ_HEADER 0 conn.psc_rx_nob_wanted) total near)

/-- One answer: the frame goes on, or is handed over as a whole. -/
theorem receive_data {stale : Int32} (arrived : bytes ≠ [])
    (framed : held.length < 4 → 4 ≤ (held ++ bytes).length → 5 ≤ (word (held ++ bytes)).toInt)
    (alive : conn.Drops bytes.length → stale ≠ 0) :
    ∃ next, receive conn (.data bytes stale) = some next ∧
      (Finishes held bytes → next.tasks = conn.tasks ++ [held ++ bytes] ∧ next.Inv []) ∧
      (¬Finishes held bytes → next.tasks = conn.tasks ∧ next.Inv (held ++ bytes)) := by
  have expecting := inv.expecting
  cases state : conn.psc_rx_state with
  | STATE_NEW =>
    have short := expecting.1 state
    obtain ⟨next,outcome,tasks,inv'⟩ := receive_header inv window arrived state (framed short) stale
    exact ⟨next,outcome,fun finishes => absurd finishes.1 (Nat.not_le_of_lt short),fun _ => ⟨tasks,inv'⟩⟩
  | STATE_READ_HEADER => exact receive_payload inv window state alive
  | STATE_READ_PAY_LOAD => exact absurd state expecting.2.2

end Data

end Migfm.Net
