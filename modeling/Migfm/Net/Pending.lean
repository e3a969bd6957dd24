import Migfm.Net.EchoConn

/-! The bytes a connection holds of a frame that is not complete yet. They lie
in full blocks linked to the packet, each up to its end, and in the current
block from `prev_packet_offset` to `offset`. -/
namespace Migfm.Net
open Library.LittleEndian

/-! ### References -/

section Blocks
variable {blocks : Blocks} {block : Nat} {address : List UInt8} {n : Nat}

theorem addref_live (live : blocks block = some ⟨address,n⟩) :
    echo_block_addref blocks block = some (Function.update blocks block (some ⟨address,n+1⟩)) := by
  simp only [echo_block_addref,live,Option.bind_eq_bind,Option.bind_some]
  rfl

theorem decref_last (live : blocks block = some ⟨address,1⟩) :
    echo_block_decref blocks block = some (Function.update blocks block none) := by
  simp only [echo_block_decref,live,Option.bind_eq_bind,Option.bind_some,if_true]
  rfl

theorem decref_shared (live : blocks block = some ⟨address,2⟩) :
    echo_block_decref blocks block = some (Function.update blocks block (some ⟨address,1⟩)) := by
  simp only [echo_block_decref,live,Option.bind_eq_bind,Option.bind_some]
  rfl

theorem add_tail_live (live : blocks block = some ⟨address,n⟩) (packet : EchoPacket) (offset length : Nat) :
    block_add_tail blocks packet block offset length =
      some (Function.update blocks block (some ⟨address,n+1⟩),packet.add block offset length) := by
  simp only [block_add_tail,addref_live live,Option.bind_eq_bind,Option.bind_some]
  rfl

/-- `parts` are distinct blocks with one reference each, `block` not among them. -/
structure Linked (blocks : Blocks) (parts : List (Nat × List UInt8)) (block : Nat) : Prop where
  live : ∀ part ∈ parts, blocks part.1 = some ⟨part.2,1⟩
  distinct : (parts.map Prod.fst ++ [block]).Nodup

theorem Linked.release {id : Nat} {bytes : List UInt8} {parts : List (Nat × List UInt8)}
    (linked : Linked blocks ((id,bytes)::parts) block) :
    blocks id = some ⟨bytes,1⟩ ∧ block ≠ id ∧ Linked (Function.update blocks id none) parts block := by
  have distinct := linked.distinct
  rw [List.map_cons,List.cons_append,List.nodup_cons,List.mem_append,List.mem_singleton,not_or] at distinct
  obtain ⟨⟨absent,other⟩,distinct⟩ := distinct
  refine ⟨linked.live (id,bytes) List.mem_cons_self,Ne.symm other,?_,distinct⟩
  intro part member
  have apart : part.1 ≠ id := fun same => absent (List.mem_map.mpr ⟨part,member,same⟩)
  rw [Function.update_of_ne apart]
  exact linked.live part (List.mem_cons_of_mem _ member)

/-- The whole list is copied and released; the current block keeps a reference. -/
theorem gather_linked {parts : List (Nat × List UInt8)} (linked : Linked blocks parts block)
    (shared : blocks block = some ⟨address,2⟩) (tail_offset : Nat) :
    ∃ blocks', gather tail_offset blocks (parts.map Prod.fst ++ [block]) =
        some ((parts.map Prod.snd).flatten ++ address.take tail_offset,blocks') ∧
      blocks' block = some ⟨address,1⟩ := by
  induction parts generalizing blocks with
  | nil =>
    refine ⟨Function.update blocks block (some ⟨address,1⟩),?_,Function.update_self ..⟩
    simp [gather,shared,decref_shared shared]
  | cons part parts ih =>
    obtain ⟨id,bytes⟩ := part
    obtain ⟨live,other,linked'⟩ := linked.release
    have shared' : Function.update blocks id none block = some ⟨address,2⟩ := by
      rw [Function.update_of_ne other,shared]
    obtain ⟨blocks',gathered,kept⟩ := ih linked' shared'
    refine ⟨blocks',?_,kept⟩
    simp [gather,live,decref_last live,gathered]

end Blocks

/-- The packet that links `parts`, the first from `head` on. -/
def packetOf (parts : List (Nat × List UInt8)) (head : Nat) : EchoPacket :=
  match parts with
  | [] => .empty
  | [(block,_)] => .one_block block head (BLOCK_LENGTH - head)
  | parts => .blocks (parts.map Prod.fst) head BLOCK_LENGTH

def partBytes (parts : List (Nat × List UInt8)) (head : Nat) : List UInt8 :=
  (parts.map Prod.snd).flatten.drop head

def slice (address : List UInt8) (start stop : Nat) : List UInt8 := (address.take stop).drop start

/-- Linking the rest of a full block. -/
theorem packetOf_add {parts : List (Nat × List UInt8)} {head prev : Nat} (start : parts ≠ [] → prev = 0)
    (prev_le : prev ≤ BLOCK_LENGTH) (block : Nat) (address : List UInt8) :
    (packetOf parts head).add block prev (BLOCK_LENGTH - prev) =
      packetOf (parts ++ [(block,address)]) (if parts = [] then prev else head) := by
  match parts with
  | [] => rfl
  | [part] =>
    have zero := start (by simp)
    subst zero
    simp [packetOf,EchoPacket.add]
  | first::second::rest =>
    have zero := start (by simp)
    subst zero
    simp [packetOf,EchoPacket.add]

theorem partBytes_add {parts : List (Nat × List UInt8)} {head prev : Nat} (start : parts ≠ [] → prev = 0)
    (inside : parts ≠ [] → head ≤ (parts.map Prod.snd).flatten.length) (block : Nat) (address : List UInt8) :
    partBytes (parts ++ [(block,address)]) (if parts = [] then prev else head) =
      partBytes parts head ++ address.drop prev := by
  by_cases empty : parts = []
  · subst empty
    simp [partBytes]
  · rw [if_neg empty,start empty]
    simp only [partBytes,List.map_append,List.map_cons,List.map_nil,List.flatten_append,List.flatten_cons,
      List.flatten_nil,List.append_nil,List.drop_zero]
    rw [List.drop_append_of_le_length (inside empty)]

/-- A complete packet is handed over as its parts and the slice of the last block. -/
theorem handle_packet {blocks : Blocks} {parts : List (Nat × List UInt8)} {head prev length block : Nat}
    {address : List UInt8} (linked : Linked blocks parts block) (shared : blocks block = some ⟨address,2⟩)
    (start : parts ≠ [] → prev = 0) (inside : ∀ part ∈ parts, head ≤ part.2.length) :
    ∃ blocks', echo_handle_packet blocks ((packetOf parts head).add block prev length) =
        some (partBytes parts head ++ (address.drop prev).take length,blocks') ∧
      blocks' block = some ⟨address,1⟩ := by
  match parts with
  | [] =>
    refine ⟨Function.update blocks block (some ⟨address,1⟩),?_,Function.update_self ..⟩
    simp [packetOf,EchoPacket.add,echo_handle_packet,shared,decref_shared shared,partBytes]
  | (id,bytes)::parts =>
    have zero := start (by simp)
    subst zero
    obtain ⟨live,other,linked'⟩ := linked.release
    have shared' : Function.update blocks id none block = some ⟨address,2⟩ := by
      rw [Function.update_of_ne other,shared]
    obtain ⟨blocks',gathered,kept⟩ := gather_linked linked' shared' length
    have shape : (packetOf ((id,bytes)::parts) head).add block 0 length =
        .blocks (id :: (parts.map Prod.fst ++ [block])) head length := by
      cases parts <;> simp [packetOf,EchoPacket.add]
    have dropped : partBytes ((id,bytes)::parts) head = bytes.drop head ++ (parts.map Prod.snd).flatten := by
      have short : head ≤ bytes.length := inside (id,bytes) List.mem_cons_self
      simp [partBytes,List.drop_append_of_le_length short]
    refine ⟨blocks',?_,kept⟩
    rw [shape,dropped]
    simp [echo_handle_packet,live,decref_last live,gathered]

/-! ### The invariant of a connection -/

/-- Where the bytes of the frame in progress lie; `offset` may stand at the end of the block. -/
structure Loose (conn : EchoConn) (parts : List (Nat × List UInt8)) (head block : Nat) (address : List UInt8) :
    Prop where
  current : conn.block = some block
  live : conn.blocks block = some ⟨address,1⟩
  linked : Linked conn.blocks parts block
  size : address.length = BLOCK_LENGTH
  sizes : ∀ part ∈ parts, part.2.length = BLOCK_LENGTH
  allocated : block < conn.nextBlock ∧ ∀ part ∈ parts, part.1 < conn.nextBlock
  packet : conn.packet.getD .empty = packetOf parts head
  head : head ≤ BLOCK_LENGTH
  start : parts ≠ [] → conn.prev_packet_offset = 0
  ordered : conn.prev_packet_offset ≤ conn.offset
  inside : conn.offset ≤ BLOCK_LENGTH

def EchoConn.held (conn : EchoConn) (parts : List (Nat × List UInt8)) (head : Nat) (address : List UInt8) :
    List UInt8 :=
  partBytes parts head ++ slice address conn.prev_packet_offset conn.offset

/-- The request of the next `recv` is for the free end of the current block. -/
structure Posted (conn : EchoConn) (block : Nat) : Prop where
  size : conn.psc_rx_size = conn.rxSize
  buffer : conn.psc_rx_buffer = (block,conn.offset)
  room : conn.offset < BLOCK_LENGTH

theorem parts_long {parts : List (Nat × List UInt8)} (sizes : ∀ part ∈ parts, part.2.length = BLOCK_LENGTH)
    (some : parts ≠ []) : BLOCK_LENGTH ≤ (parts.map Prod.snd).flatten.length := by
  cases parts with
  | nil => exact absurd rfl some
  | cons part parts =>
    have first := sizes part List.mem_cons_self
    rw [List.map_cons,List.flatten_cons,List.length_append,first]
    exact Nat.le_add_right _ _

theorem post_kept {conn : EchoConn} {block : Nat} (current : conn.block = some block) :
    echo_post_recv conn = {conn with psc_rx_size := conn.rxSize, psc_rx_buffer := (block,conn.offset)} := by
  simp only [echo_post_recv,EchoConn.ensureBlock,current]

theorem post_tasks (conn : EchoConn) : (echo_post_recv conn).tasks = conn.tasks := by
  unfold echo_post_recv EchoConn.ensureBlock
  cases conn.block <;> rfl

theorem rxSize_posted (conn : EchoConn) (buffer : Nat × Nat) :
    EchoConn.rxSize {conn with psc_rx_size := conn.rxSize, psc_rx_buffer := buffer} = conn.rxSize := by
  cases state : conn.psc_rx_state <;> simp only [EchoConn.rxSize,state]

theorem posted_size (conn : EchoConn) : (echo_post_recv conn).psc_rx_size = (echo_post_recv conn).rxSize :=
  (rxSize_posted conn.ensureBlock.1 _).symm

/-- A full block is linked to the packet and a new one taken; nothing held changes. -/
theorem move_post {conn : EchoConn} {parts : List (Nat × List UInt8)} {head block : Nat} {address : List UInt8}
    (loose : Loose conn parts head block address) (status : Int) :
    ∃ moved status' parts' head' block' address',
      conn.moveFull block (packetOf parts head) status = some (moved,status') ∧
      Loose (echo_post_recv moved) parts' head' block' address' ∧
      Posted (echo_post_recv moved) block' ∧
      (echo_post_recv moved).held parts' head' address' = conn.held parts head address ∧
      (echo_post_recv moved).psc_rx_state = conn.psc_rx_state ∧
      (echo_post_recv moved).psc_rx_nob_left = conn.psc_rx_nob_left ∧
      (echo_post_recv moved).psc_rx_nob_wanted = conn.psc_rx_nob_wanted ∧
      (echo_post_recv moved).tasks = conn.tasks ∧
      (conn.offset < BLOCK_LENGTH → parts' = parts ∧
        (echo_post_recv moved).prev_packet_offset = conn.prev_packet_offset) := by
  by_cases full : conn.offset = BLOCK_LENGTH
  · have added := add_tail_live loose.live (packetOf parts head) conn.prev_packet_offset
      (BLOCK_LENGTH - conn.prev_packet_offset)
    have shared : Function.update conn.blocks block (some ⟨address,1+1⟩) block = some ⟨address,2⟩ :=
      Function.update_self ..
    have dropped := decref_shared shared
    rw [Function.update_idem] at dropped
    have same : Function.update conn.blocks block (some ⟨address,1⟩) = conn.blocks := by
      rw [← loose.live,Function.update_eq_self]
    rw [same] at dropped
    have prev_le : conn.prev_packet_offset ≤ BLOCK_LENGTH := full ▸ loose.ordered
    have linked := @packetOf_add parts head conn.prev_packet_offset loose.start prev_le block address
    have kept := @partBytes_add parts head conn.prev_packet_offset loose.start
      (fun some => Nat.le_trans loose.head (parts_long loose.sizes some)) block address
    have outside (part : Nat × List UInt8) (member : part ∈ parts ++ [(block,address)]) :
        part.1 < conn.nextBlock := by
      rcases List.mem_append.mp member with early | last
      · exact loose.allocated.2 part early
      · rw [List.mem_singleton.mp last]
        exact loose.allocated.1
    refine ⟨{conn with
        packet := some ((packetOf parts head).add block conn.prev_packet_offset
          (BLOCK_LENGTH - conn.prev_packet_offset))
        prev_packet_offset := 0
        offset := 0
        block := none},-EAGAIN,parts ++ [(block,address)],if parts = [] then conn.prev_packet_offset else head,
      conn.nextBlock,List.replicate BLOCK_LENGTH 0,?_,?_,?_,?_,rfl,rfl,rfl,rfl,?_⟩
    · simp only [EchoConn.moveFull,full,if_true,added,Option.bind_eq_bind,Option.bind_some,dropped]
      rfl
    · refine ⟨rfl,Function.update_self ..,⟨?_,?_⟩,List.length_replicate,?_,?_,?_,?_,fun _ => rfl,
        Nat.le_refl 0,Nat.zero_le _⟩
      · intro part member
        have old := outside part member
        have apart : part.1 ≠ conn.nextBlock := Nat.ne_of_lt old
        show Function.update conn.blocks conn.nextBlock _ part.1 = _
        rw [Function.update_of_ne apart]
        rcases List.mem_append.mp member with early | last
        · exact loose.linked.live part early
        · rw [List.mem_singleton.mp last]
          exact loose.live
      · rw [List.map_append,List.nodup_append]
        refine ⟨loose.linked.distinct,List.nodup_singleton _,?_⟩
        intro id member other last
        rw [List.mem_singleton.mp last]
        rw [← List.map_append,List.mem_map] at member
        obtain ⟨part,member,rfl⟩ := member
        exact Nat.ne_of_lt (outside part member)
      · intro part member
        rcases List.mem_append.mp member with early | last
        · exact loose.sizes part early
        · rw [List.mem_singleton.mp last]
          exact loose.size
      · exact ⟨Nat.lt_succ_self _,fun part member => Nat.lt_succ_of_lt (outside part member)⟩
      · exact linked
      · split
        · exact prev_le
        · exact loose.head
    · exact ⟨posted_size _,rfl,show 0 < BLOCK_LENGTH by decide⟩
    · show partBytes (parts ++ [(block,address)]) _ ++ slice _ 0 0 = _
      rw [kept]
      simp [EchoConn.held,slice,full,← loose.size]
    · intro room
      omega
  · have below : conn.offset < BLOCK_LENGTH := Nat.lt_of_le_of_ne loose.inside full
    refine ⟨conn,status,parts,head,block,address,?_,?_,?_,?_,?_⟩
    · simp only [EchoConn.moveFull,full,if_false]
      rfl
    · rw [post_kept loose.current]
      exact ⟨loose.current,loose.live,loose.linked,loose.size,loose.sizes,loose.allocated,loose.packet,loose.head,
        loose.start,loose.ordered,loose.inside⟩
    · refine ⟨posted_size conn,?_,?_⟩
      · rw [post_kept loose.current]
      · rw [post_kept loose.current]
        exact below
    · rw [post_kept loose.current]
      rfl
    · rw [post_kept loose.current]
      exact ⟨rfl,rfl,rfl,rfl,fun _ => ⟨rfl,rfl⟩⟩

end Migfm.Net
