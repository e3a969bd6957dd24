import Migfm.Library.Ring
import Migfm.Library.Runs
import Migfm.Master.EchoConn

/-! The lines a connection of the master cuts out of its stream. The byte behind the
received ones is read at the end of every `echo_forward`; as long as it is no newline,
the lines handed over are those received, however the stream is cut. -/
namespace Migfm.Master
open Net (Blocks Linked partBytes slice addref_live decref_last decref_shared echo_block_addref echo_block_decref)
open Library.Runs

/-! ### Lines of a stream -/

/-- The lines that `held` and the following bytes complete, and what is left. -/
def cut (held : List UInt8) : List UInt8 → List (List UInt8) × List UInt8
  | [] => ([],held)
  | byte::rest =>
    if byte = newline then
      let (lines,open_) := cut [] rest
      ((held ++ [byte])::lines,open_)
    else cut (held ++ [byte]) rest

theorem cut_append (held first second : List UInt8) :
    cut held (first ++ second) =
      ((cut held first).1 ++ (cut (cut held first).2 second).1,(cut (cut held first).2 second).2) := by
  induction first generalizing held with
  | nil => simp [cut]
  | cons byte first ih =>
    rw [List.cons_append,cut,cut]
    split
    · simp [ih]
    · simp [ih]

theorem cut_open {bytes : List UInt8} (open_ : newline ∉ bytes) (held : List UInt8) : cut held bytes = ([],held ++ bytes) := by
  induction bytes generalizing held with
  | nil => simp [cut]
  | cons byte bytes ih =>
    obtain ⟨other,rest⟩ := List.ne_and_not_mem_of_not_mem_cons open_
    rw [cut,if_neg (Ne.symm other),ih rest]
    simp

theorem cut_line {bytes : List UInt8} (open_ : newline ∉ bytes) (held rest : List UInt8) :
    cut held (bytes ++ newline::rest) = ((held ++ bytes ++ [newline])::(cut [] rest).1,(cut [] rest).2) := by
  rw [cut_append,cut_open open_]
  simp [cut]

/-! ### The inner loop -/

section Scan
variable {address : List UInt8} {left p : Nat}

theorem scan_bounds : p ≤ (scan address left p).1 ∧ (scan address left p).1 ≤ p + left := by
  induction left generalizing p with
  | zero => exact ⟨le_rfl,le_rfl⟩
  | succ left ih =>
    rw [scan]
    split
    · exact ⟨le_rfl,Nat.le_add_right ..⟩
    · have bounds := @ih (p + 1)
      dsimp only
      omega

theorem scan_reads : ∀ read ∈ (scan address left p).2, read < p + left := by
  induction left generalizing p with
  | zero => simp [scan]
  | succ left ih =>
    intro read member
    rw [scan] at member
    split at member
    · rw [List.mem_singleton.mp member]
      omega
    · rcases List.mem_cons.mp member with rfl | later
      · omega
      · have below := ih read later
        omega

/-- It stops at a newline or behind the received bytes. -/
theorem scan_stop : (scan address left p).1 = p + left ∨ address[(scan address left p).1]? = some newline := by
  induction left generalizing p with
  | zero => exact .inl rfl
  | succ left ih =>
    rw [scan]
    split
    · rename_i found
      exact .inr found
    · refine (@ih (p + 1)).imp_left ?_
      intro stop
      dsimp only
      omega

/-- There is no newline before. -/
theorem scan_open (inside : p + left ≤ address.length) : newline ∉ slice address p (scan address left p).1 := by
  induction left generalizing p with
  | zero => simp [scan,slice]
  | succ left ih =>
    rw [scan]
    split
    · simp [slice]
    · rename_i other
      have bounds := @scan_bounds address left (p + 1)
      have here : p < (address.take (scan address left (p + 1)).1).length := by
        rw [List.length_take]
        omega
      dsimp only
      rw [slice,List.drop_eq_getElem_cons here,List.mem_cons,not_or]
      constructor
      · intro same
        rw [List.getElem_take] at same
        exact other (same ▸ List.getElem?_eq_getElem _)
      · exact @ih (p + 1) (by omega)

end Scan

/-! ### Packets -/

/-- The packet that links `parts`, the first from `head` on. -/
def packetOf (parts : List (Nat × List UInt8)) (head : Nat) : EchoPacket :=
  match parts with
  | [] => .empty
  | [(block,_)] => .one_block block head (BLOCK_LENGTH - head)
  | parts => .blocks (parts.map Prod.fst) head BLOCK_LENGTH

/-- Linking the rest of a full block. -/
theorem packetOf_add {parts : List (Nat × List UInt8)} {head prev : Nat} (start : parts ≠ [] → prev = 0)
    (block : Nat) (address : List UInt8) :
    (packetOf parts head).add block prev (BLOCK_LENGTH - prev) =
      packetOf (parts ++ [(block,address)]) (if parts = [] then prev else head) := by
  match parts with
  | [] => rfl
  | [part] =>
    have zero := start (by simp)
    subst zero
    simp [packetOf,EchoPacket.add]
  | first::second::rest =>
    have zero := start (by simp)
    subst zero
    simp [packetOf,EchoPacket.add]

theorem append_slice {address : List UInt8} {start stop : Nat} (ordered : start ≤ stop) (inside : stop ≤ address.length) :
    buffer_append_string_len address start (stop - start) = some (slice address start stop) := by
  have length : ((stop : Int) - start).toNat = stop - start := by omega
  rw [buffer_append_string_len,if_pos (by omega),length,slice,List.drop_take]

theorem append_block {address : List UInt8} (size : address.length = BLOCK_LENGTH) :
    buffer_append_string_len address 0 BLOCK_LENGTH = some address := by
  have whole := @append_slice address 0 BLOCK_LENGTH (Nat.zero_le _) size.ge
  rwa [Int.natCast_zero,Int.sub_zero,slice,List.drop_zero,List.take_of_length_le size.le] at whole

section Packets
variable {blocks : Blocks} {block : Nat} {address : List UInt8}

/-- The whole list is copied and released; the current block keeps a reference. -/
theorem gather_linked {parts : List (Nat × List UInt8)} (linked : Linked blocks parts block)
    (sizes : ∀ part ∈ parts, part.2.length = BLOCK_LENGTH) (shared : blocks block = some ⟨address,2⟩) {stop : Nat}
    (inside : stop ≤ address.length) :
    ∃ blocks', gather stop blocks (parts.map Prod.fst ++ [block]) =
        some ((parts.map Prod.snd).flatten ++ address.take stop,blocks') ∧
      blocks' block = some ⟨address,1⟩ := by
  induction parts generalizing blocks with
  | nil =>
    have last := @append_slice address 0 stop (Nat.zero_le _) inside
    rw [Int.natCast_zero,Int.sub_zero,slice,List.drop_zero] at last
    refine ⟨Function.update blocks block (some ⟨address,1⟩),?_,Function.update_self ..⟩
    simp [gather,shared,decref_shared shared,last]
  | cons part parts ih =>
    obtain ⟨id,bytes⟩ := part
    obtain ⟨live,other,linked'⟩ := linked.release
    have shared' : Function.update blocks id none block = some ⟨address,2⟩ := by
      rw [Function.update_of_ne other,shared]
    obtain ⟨blocks',gathered,kept⟩ := ih linked' (fun part member => sizes part (List.mem_cons_of_mem _ member)) shared'
    have whole := append_block (sizes (id,bytes) List.mem_cons_self)
    refine ⟨blocks',?_,kept⟩
    simp [gather,live,decref_last live,gathered,whole]

theorem linked_update {parts : List (Nat × List UInt8)} (linked : Linked blocks parts block)
    (content : Option Net.EchoBlock) : Linked (Function.update blocks block content) parts block := by
  refine ⟨?_,linked.distinct⟩
  intro part member
  have distinct := linked.distinct
  rw [List.nodup_append] at distinct
  have apart : part.1 ≠ block := distinct.2.2 part.1 (List.mem_map_of_mem member) block List.mem_cons_self
  rw [Function.update_of_ne apart]
  exact linked.live part member

/-- A complete packet is handed over as its parts and the slice of the last block. -/
theorem handle_packet {parts : List (Nat × List UInt8)} {head prev stop : Nat} (linked : Linked blocks parts block)
    (shared : blocks block = some ⟨address,2⟩) (start : parts ≠ [] → prev = 0)
    (sizes : ∀ part ∈ parts, part.2.length = BLOCK_LENGTH) (head_le : head ≤ BLOCK_LENGTH) (ordered : prev ≤ stop)
    (inside : stop ≤ address.length) :
    ∃ blocks', echo_handle_packet blocks ((packetOf parts head).add block prev (stop - prev)) =
        some (partBytes parts head ++ slice address prev stop,blocks') ∧
      blocks' block = some ⟨address,1⟩ := by
  have last := append_slice ordered inside
  match parts with
  | [] =>
    refine ⟨Function.update blocks block (some ⟨address,1⟩),?_,Function.update_self ..⟩
    simp [packetOf,EchoPacket.add,echo_handle_packet,shared,decref_shared shared,partBytes,last]
  | (id,bytes)::parts =>
    have zero := start (by simp)
    subst zero
    obtain ⟨live,other,linked'⟩ := linked.release
    have shared' : Function.update blocks id none block = some ⟨address,2⟩ := by
      rw [Function.update_of_ne other,shared]
    have size := sizes (id,bytes) List.mem_cons_self
    obtain ⟨blocks',gathered,kept⟩ :=
      gather_linked linked' (fun part member => sizes part (List.mem_cons_of_mem _ member)) shared' inside
    have shape : (packetOf ((id,bytes)::parts) head).add block 0 stop =
        .blocks (id :: (parts.map Prod.fst ++ [block])) head stop := by
      cases parts <;> simp [packetOf,EchoPacket.add]
    have first := append_slice head_le size.ge
    have dropped : partBytes ((id,bytes)::parts) head = bytes.drop head ++ (parts.map Prod.snd).flatten := by
      have short : head ≤ bytes.length := size ▸ head_le
      simp [partBytes,List.drop_append_of_le_length short]
    rw [slice,List.take_of_length_le size.le] at first
    refine ⟨blocks',?_,kept⟩
    rw [Int.natCast_zero,Int.sub_zero,shape,dropped,slice,List.drop_zero]
    simp [echo_handle_packet,live,decref_last live,gathered,first]

end Packets

/-! ### One call of `echo_forward` -/

/-- Where the bytes of the line in progress lie. -/
structure Loose (conn : EchoConn) (parts : List (Nat × List UInt8)) (head block : Nat) (address : List UInt8) :
    Prop where
  current : conn.block = some block
  live : conn.blocks block = some ⟨address,1⟩
  linked : Linked conn.blocks parts block
  size : address.length = BLOCK_LENGTH
  sizes : ∀ part ∈ parts, part.2.length = BLOCK_LENGTH
  allocated : block < conn.nextBlock ∧ ∀ part ∈ parts, part.1 < conn.nextBlock
  packet : conn.packet.getD .empty = packetOf parts head
  head : head ≤ BLOCK_LENGTH
  start : parts ≠ [] → conn.prev_packet_offset = 0
  ordered : conn.prev_packet_offset ≤ conn.offset
  inside : conn.offset ≤ BLOCK_LENGTH

/-- The bytes of the line in progress in front of `p`. -/
def EchoConn.before (conn : EchoConn) (parts : List (Nat × List UInt8)) (head : Nat) (address : List UInt8) (p : Nat) :
    List UInt8 :=
  partBytes parts head ++ slice address conn.prev_packet_offset p

/-- Between two calls: the line in progress is `held`, and `recv` is asked for the
free end of the block. -/
def Between (conn : EchoConn) (held : List UInt8) : Prop :=
  ∃ parts head block address, Loose conn parts head block address ∧ conn.offset < BLOCK_LENGTH ∧
    conn.psc_rx_size = (BLOCK_LENGTH : Int) - conn.offset ∧ conn.psc_rx_buffer = (block,conn.offset) ∧
    conn.before parts head address conn.offset = held

section Forward
variable {conn : EchoConn} {parts : List (Nat × List UInt8)} {head block p : Nat} {address past : List UInt8}

theorem slice_append {start middle stop : Nat} (first : start ≤ middle) (second : middle ≤ stop)
    (inside : stop ≤ address.length) : slice address start middle ++ slice address middle stop = slice address start stop := by
  have parts : address.take stop = address.take middle ++ slice address middle stop := by
    have split := List.take_append_drop middle (address.take stop)
    rw [List.take_take,min_eq_left second] at split
    exact split.symm
  rw [slice,slice.eq_1 address start stop,parts,List.drop_append_of_le_length]
  rw [List.length_take]
  omega

theorem before_append {stop : Nat} (first : conn.prev_packet_offset ≤ p) (second : p ≤ stop)
    (inside : stop ≤ address.length) :
    conn.before parts head address p ++ slice address p stop = conn.before parts head address stop := by
  rw [EchoConn.before,List.append_assoc,slice_append first second inside,EchoConn.before]

theorem slice_last (inside : p < address.length) (found : address[p]? = some newline) :
    slice address p (p + 1) = [newline] := by
  rw [List.getElem?_eq_getElem inside,Option.some.injEq] at found
  rw [slice,List.take_add_one,List.getElem?_eq_getElem inside,found,List.drop_append_of_le_length,List.drop_eq_nil_of_le]
  · rfl
  · rw [List.length_take]
    omega
  · rw [List.length_take]
    omega

/-- A line that ends in front of `p` is handed over; nothing is held then. -/
theorem finish_spec (loose : Loose conn parts head block address) (after : conn.prev_packet_offset ≤ p)
    (received : p ≤ conn.offset) :
    ∃ next, conn.finish block p = some next ∧ Loose next [] 0 block address ∧ next.offset = conn.offset ∧
      next.prev_packet_offset = p ∧ next.tasks = conn.tasks ++ [conn.before parts head address p] := by
  have inside : p ≤ address.length := loose.size ▸ received.trans loose.inside
  obtain ⟨blocks',handled,kept⟩ := handle_packet (linked_update loose.linked (some ⟨address,1+1⟩)) (Function.update_self ..)
    loose.start loose.sizes loose.head after inside
  refine ⟨{conn with
      blocks := blocks'
      prev_packet_offset := p
      packet := none
      tasks := conn.tasks ++ [conn.before parts head address p]},?_,?_,rfl,rfl,rfl⟩
  · simp only [EchoConn.finish,block_add_tail,addref_live loose.live,loose.packet,Option.bind_eq_bind,Option.bind_some,
      pure,handled]
    rfl
  · exact ⟨loose.current,kept,⟨by simp,by simp⟩,loose.size,by simp,⟨loose.allocated.1,by simp⟩,rfl,Nat.zero_le _,
      fun some => absurd rfl some,received,loose.inside⟩

theorem post_kept {fresh : Fresh} (current : conn.block = some block) :
    echo_post_recv conn fresh =
      {conn with psc_rx_size := (BLOCK_LENGTH : Int) - conn.offset, psc_rx_buffer := (block,conn.offset)} := by
  simp only [echo_post_recv,EchoConn.ensureBlock,current]

theorem post_tasks (conn : EchoConn) (fresh : Fresh) : (echo_post_recv conn fresh).tasks = conn.tasks := by
  unfold echo_post_recv EchoConn.ensureBlock
  cases conn.block <;> rfl

/-- A full block is linked to the packet and a new one taken; nothing held changes. -/
theorem moveFull_spec (loose : Loose conn parts head block address) (full : conn.offset = BLOCK_LENGTH) (fresh : Fresh) :
    ∃ next, conn.moveFull block = some next ∧ next.tasks = conn.tasks ∧
      Between (echo_post_recv next fresh) (conn.before parts head address BLOCK_LENGTH) := by
  have shared : Function.update conn.blocks block (some ⟨address,1+1⟩) block = some ⟨address,2⟩ :=
    Function.update_self ..
  have dropped := decref_shared shared
  rw [Function.update_idem] at dropped
  have same : Function.update conn.blocks block (some ⟨address,1⟩) = conn.blocks := by
    rw [← loose.live,Function.update_eq_self]
  rw [same] at dropped
  have prev_le : conn.prev_packet_offset ≤ BLOCK_LENGTH := full ▸ loose.ordered
  have outside (part : Nat × List UInt8) (member : part ∈ parts ++ [(block,address)]) : part.1 < conn.nextBlock := by
    rcases List.mem_append.mp member with early | last
    · exact loose.allocated.2 part early
    · rw [List.mem_singleton.mp last]
      exact loose.allocated.1
  have long : parts ≠ [] → head ≤ (parts.map Prod.snd).flatten.length := by
    intro some
    cases parts with
    | nil => exact absurd rfl some
    | cons part parts =>
      have first := loose.sizes part List.mem_cons_self
      rw [List.map_cons,List.flatten_cons,List.length_append,first]
      exact loose.head.trans (Nat.le_add_right ..)
  have kept := @Net.partBytes_add parts head conn.prev_packet_offset loose.start long block address
  refine ⟨{conn with
      packet := some ((packetOf parts head).add block conn.prev_packet_offset (BLOCK_LENGTH - conn.prev_packet_offset))
      prev_packet_offset := 0
      offset := 0
      block := none},?_,rfl,parts ++ [(block,address)],if parts = [] then conn.prev_packet_offset else head,
    conn.nextBlock,fresh.bytes,?_,Nat.zero_lt_succ _,rfl,rfl,?_⟩
  · simp only [EchoConn.moveFull,block_add_tail,addref_live loose.live,loose.packet,Option.bind_eq_bind,Option.bind_some,
      pure,dropped]
  · refine ⟨rfl,Function.update_self ..,⟨?_,?_⟩,fresh.size,?_,?_,packetOf_add loose.start block address,?_,fun _ => rfl,
      le_rfl,Nat.zero_le _⟩
    · intro part member
      show Function.update conn.blocks conn.nextBlock _ part.1 = _
      rw [Function.update_of_ne (Nat.ne_of_lt (outside part member))]
      rcases List.mem_append.mp member with early | last
      · exact loose.linked.live part early
      · rw [List.mem_singleton.mp last]
        exact loose.live
    · rw [List.map_append,List.nodup_append]
      refine ⟨loose.linked.distinct,List.nodup_singleton _,?_⟩
      intro id member other last
      rw [List.mem_singleton.mp last]
      rw [← List.map_append,List.mem_map] at member
      obtain ⟨part,member,rfl⟩ := member
      exact Nat.ne_of_lt (outside part member)
    · intro part member
      rcases List.mem_append.mp member with early | last
      · exact loose.sizes part early
      · rw [List.mem_singleton.mp last]
        exact loose.size
    · exact ⟨Nat.lt_succ_self _,fun part member => Nat.lt_succ_of_lt (outside part member)⟩
    · split
      · exact prev_le
      · exact loose.head
  · show partBytes (parts ++ [(block,address)]) _ ++ slice _ 0 0 = _
    rw [kept]
    simp [EchoConn.before,slice,← loose.size]

/-- A block with room left stays the current one. -/
theorem Loose.between (loose : Loose conn parts head block address) (room : conn.offset < BLOCK_LENGTH) (fresh : Fresh) :
    Between (echo_post_recv conn fresh) (conn.before parts head address conn.offset) := by
  rw [post_kept loose.current]
  exact ⟨parts,head,block,address,⟨loose.current,loose.live,loose.linked,loose.size,loose.sizes,loose.allocated,
    loose.packet,loose.head,loose.start,loose.ordered,loose.inside⟩,room,rfl,rfl,rfl⟩

theorem Loose.examine (loose : Loose conn parts head block address) (examined : List (Nat × Nat)) :
    Loose {conn with examined} parts head block address :=
  ⟨loose.current,loose.live,loose.linked,loose.size,loose.sizes,loose.allocated,loose.packet,loose.head,loose.start,
    loose.ordered,loose.inside⟩

/-- The loop over the received bytes from `p` on, where no newline lies behind them. -/
theorem forwardLoop_spec {byte : UInt8} {fuel : Nat} (loose : Loose conn parts head block address)
    (after : conn.prev_packet_offset ≤ p) (received : p ≤ conn.offset) (enough : conn.offset - p < fuel)
    (behind : (address ++ past)[conn.offset]? = some byte) (other : byte ≠ newline) (fresh : Fresh) :
    ∃ next status, conn.forwardLoop block address past conn.offset fuel p = some (next,status) ∧
      next.tasks = conn.tasks ++ (cut (conn.before parts head address p) (slice address p conn.offset)).1 ∧
      Between (echo_post_recv next fresh) (cut (conn.before parts head address p) (slice address p conn.offset)).2 := by
  induction fuel generalizing conn parts head p with
  | zero => exact absurd enough (Nat.not_lt_zero _)
  | succ fuel ih =>
    have size := loose.size
    have inside := loose.inside
    obtain ⟨low,high⟩ := @scan_bounds address (conn.offset - p) p
    have stops := @scan_stop address (conn.offset - p) p
    have clear := @scan_open address (conn.offset - p) p (by omega)
    rw [Nat.add_sub_cancel' received] at high stops
    rw [EchoConn.forwardLoop]
    generalize scan address (conn.offset - p) p = scanned at low high stops clear ⊢
    obtain ⟨stop,reads⟩ := scanned
    dsimp only at low high stops clear ⊢
    have joined := @before_append conn parts head p address stop after low (by omega)
    generalize log : conn.examined ++ (reads ++ [stop]).map (fun read => (read,conn.offset)) = examined
    have loose' := loose.examine examined
    by_cases last : stop = conn.offset
    · -- all received bytes are read, and the line stays open
      subst last
      rw [cut_open clear,joined,behind]
      simp only [Option.bind_eq_bind,Option.bind_some,ne_eq,other,not_false_eq_true,true_and,if_false]
      split
      · rename_i room
        exact ⟨{conn with examined},0,rfl,by simp,loose'.between room fresh⟩
      · rename_i full
        have full : conn.offset = BLOCK_LENGTH := Nat.le_antisymm inside (Nat.not_lt.mp full)
        obtain ⟨next,moved,tasks,between⟩ := moveFull_spec loose' full fresh
        refine ⟨next,-EAGAIN,?_,by simpa using tasks,?_⟩
        · rw [moved]
          rfl
        · rw [full]
          exact between
    · -- a line ends at the newline
      have found : address[stop]? = some newline := stops.resolve_left last
      have bound : stop < address.length := by omega
      have read : (address ++ past)[stop]? = some newline := by rw [List.getElem?_append_left bound,found]
      obtain ⟨next,finished,cleared,(offset : next.offset = conn.offset),prev,tasks⟩ :=
        finish_spec loose' (p := stop + 1) (by dsimp only; omega) (by dsimp only; omega)
      have line : slice address p conn.offset = slice address p stop ++ newline::slice address (stop + 1) conn.offset := by
        rw [← slice_append (low.trans (Nat.le_succ stop)) (by omega : stop + 1 ≤ conn.offset) (by omega),
          ← slice_append low (Nat.le_succ stop) (by omega),slice_last bound found,List.append_assoc]
        rfl
      have whole : conn.before parts head address (stop + 1) = conn.before parts head address p ++ slice address p stop ++ [newline] := by
        rw [joined,← slice_last bound found,before_append (after.trans low) (Nat.le_succ _) (by omega)]
      have nothing : next.before [] 0 address (stop + 1) = [] := by
        simp [EchoConn.before,partBytes,slice,prev]
      obtain ⟨final,status,loops,handed,between⟩ := ih (p := stop + 1) cleared prev.le (by omega) (by omega) (offset ▸ behind)
      rw [nothing,offset] at handed between
      rw [offset] at loops
      refine ⟨final,status,?_,?_,?_⟩
      · rw [read]
        simp only [Option.bind_eq_bind,Option.bind_some,ne_eq,not_true_eq_false,false_and,if_false,if_true]
        rw [finished]
        exact loops
      · rw [handed,tasks,line,cut_line clear,← whole,List.append_assoc]
        rfl
      · rw [line,cut_line clear]
        exact between

end Forward

/-! ### One `recv` -/

theorem slice_store {address bytes : List UInt8} {start stop : Nat} (inside : stop + bytes.length ≤ address.length) :
    (address.take stop ++ bytes ++ address.drop (stop + bytes.length)).length = address.length ∧
    slice (address.take stop ++ bytes ++ address.drop (stop + bytes.length)) start stop = slice address start stop ∧
    slice (address.take stop ++ bytes ++ address.drop (stop + bytes.length)) stop (stop + bytes.length) = bytes ∧
    (address.take stop ++ bytes ++ address.drop (stop + bytes.length)).drop (stop + bytes.length) =
      address.drop (stop + bytes.length) := by
  have parts := Library.Ring.take_overwrite_end inside
  have length := Library.Ring.length_overwrite inside
  have before := Library.Ring.take_overwrite inside (le_refl stop)
  have behind := Library.Ring.drop_overwrite inside le_rfl
  rw [Library.Ring.overwrite] at parts length before behind
  refine ⟨length,?_,?_,behind⟩
  · rw [slice,before,slice]
  · rw [slice,parts,List.drop_append,List.drop_eq_nil_of_le (List.length_take_le ..),List.length_take,
      min_eq_left (Nat.le_of_add_right_le inside),Nat.sub_self,List.drop_zero,List.nil_append]

/-- What `recv` promises of an answer. -/
def Served (conn : EchoConn) : Answer → Prop
  | .again => True
  | .data bytes _ _ => bytes ≠ [] ∧ bytes.length ≤ conn.psc_rx_size

/-- The byte behind the received ones is there and is no newline. -/
def Spared (conn : EchoConn) : Answer → Prop
  | .again => True
  | .data bytes _ past => ∃ block content byte, conn.block = some block ∧ conn.blocks block = some content ∧
      (content.address ++ past)[conn.offset + bytes.length]? = some byte ∧ byte ≠ newline

/-- The bytes of an answer. -/
def Answer.bytes : Answer → List UInt8
  | .again => []
  | .data bytes _ _ => bytes

theorem receive_spec {conn : EchoConn} {held : List UInt8} (between : Between conn held) {answer : Answer}
    (served : Served conn answer) (spared : Spared conn answer) :
    ∃ next, receive conn answer = some next ∧ next.tasks = conn.tasks ++ (cut held answer.bytes).1 ∧
      Between next (cut held answer.bytes).2 := by
  cases answer with
  | again => exact ⟨conn,rfl,by simp [Answer.bytes,cut],between⟩
  | data bytes fresh past =>
    obtain ⟨parts,head,block,address,loose,room,window,buffer,rfl⟩ := between
    obtain ⟨current,content,byte,named,live,behind,other⟩ := spared
    cases loose.current.symm.trans named
    cases loose.live.symm.trans live
    obtain ⟨_,fits⟩ := served
    have short : conn.offset + bytes.length ≤ address.length := by
      rw [loose.size]
      omega
    obtain ⟨length,kept,written,rest⟩ := @slice_store address bytes conn.prev_packet_offset conn.offset short
    generalize stored : address.take conn.offset ++ bytes ++ address.drop (conn.offset + bytes.length) = address' at length kept written rest
    have behind' : (address' ++ past)[conn.offset + bytes.length]? = some byte := by
      rw [← behind,← Nat.add_zero (conn.offset + bytes.length),← List.getElem?_drop,← List.getElem?_drop,
        List.drop_append_of_le_length (length ▸ short),List.drop_append_of_le_length short,rest]
    let filled : EchoConn := {conn with
      blocks := Function.update conn.blocks block (some ⟨address',1⟩)
      block := some block
      psc_rx_buffer := (block,conn.offset)
      offset := conn.offset + bytes.length}
    have loose' : Loose filled parts head block address' :=
      ⟨rfl,Function.update_self ..,linked_update loose.linked _,length.trans loose.size,loose.sizes,
        loose.allocated,loose.packet,loose.head,loose.start,loose.ordered.trans (Nat.le_add_right ..),
        loose.size ▸ short⟩
    have enough : filled.offset - conn.offset < address'.length + past.length + 1 := by
      show conn.offset + bytes.length - conn.offset < _
      omega
    obtain ⟨next,status,loops,tasks,between⟩ :=
      forwardLoop_spec loose' loose.ordered (Nat.le_add_right ..) enough behind' other fresh
    have same : filled.before parts head address' conn.offset = conn.before parts head address conn.offset :=
      congrArg (partBytes parts head ++ ·) kept
    rw [same] at tasks between
    change next.tasks = conn.tasks ++ (cut _ (slice address' conn.offset (conn.offset + bytes.length))).1 at tasks
    change Between _ (cut _ (slice address' conn.offset (conn.offset + bytes.length))).2 at between
    rw [written] at tasks between
    refine ⟨echo_post_recv next fresh,?_,(post_tasks ..).trans tasks,between⟩
    have inside : conn.offset + bytes.length ≤ BLOCK_LENGTH := loose.size ▸ short
    simp only [receive,EchoConn.store,buffer,loose.live,Option.bind_eq_bind,Option.bind_some,inside,if_true,stored,pure,
      echo_forward,loose.current,Function.update_self]
    change ((EchoConn.forwardLoop block address' past filled.offset _ filled conn.offset).bind _).bind _ = _
    rw [loops]
    rfl

/-! ### Reads behind the received bytes -/

section Examined
variable {conn next : EchoConn} {block p : Nat} {address past : List UInt8}

theorem finish_kept (finished : conn.finish block p = some next) :
    next.examined = conn.examined ∧ next.offset = conn.offset := by
  simp only [EchoConn.finish,Option.bind_eq_bind,Option.bind_eq_some_iff,pure,Option.some.injEq] at finished
  obtain ⟨_,_,_,_,rfl⟩ := finished
  exact ⟨rfl,rfl⟩

theorem moveFull_kept (moved : conn.moveFull block = some next) : next.examined = conn.examined := by
  simp only [EchoConn.moveFull,Option.bind_eq_bind,Option.bind_eq_some_iff,pure,Option.some.injEq] at moved
  obtain ⟨_,_,_,_,rfl⟩ := moved
  rfl

/-- The reads so far are kept, and one of them is behind the received bytes. -/
def Overread (conn next : EchoConn) : Prop :=
  (∀ read ∈ conn.examined, read ∈ next.examined) ∧ ∃ read ∈ next.examined, read.2 ≤ read.1

theorem forwardLoop_overread {tail fuel : Nat} {status : Int} (ends : conn.offset = tail)
    (loops : conn.forwardLoop block address past tail fuel p = some (next,status)) : Overread conn next := by
  induction fuel generalizing conn p with
  | zero => cases loops
  | succ fuel ih =>
    have low := (@scan_bounds address (tail - p) p).1
    have stops := @scan_stop address (tail - p) p
    rw [EchoConn.forwardLoop] at loops
    generalize scan address (tail - p) p = scanned at low stops loops
    obtain ⟨stop,reads⟩ := scanned
    dsimp only at low stops loops
    obtain ⟨byte,read,loops⟩ := Option.bind_eq_some_iff.mp loops
    have logged : (stop,conn.offset) ∈ conn.examined ++ (reads ++ [stop]).map fun read => (read,conn.offset) := by simp
    -- a loop that ends here stopped behind the received bytes
    have behind (other : byte ≠ newline) : conn.offset ≤ stop := by
      rcases stops with stop_eq | found
      · omega
      · have bound := (List.getElem?_eq_some_iff.mp found).1
        rw [List.getElem?_append_left bound,found] at read
        exact absurd (Option.some.inj read).symm other
    split at loops
    · rename_i open_
      cases loops
      exact ⟨fun read member => List.mem_append_left _ member,_,logged,behind open_.1⟩
    split at loops
    · obtain ⟨middle,finished,rest⟩ := Option.bind_eq_some_iff.mp loops
      obtain ⟨examined,offset⟩ := finish_kept finished
      obtain ⟨kept,beyond⟩ := ih (offset.trans ends) rest
      refine ⟨?_,beyond⟩
      intro read member
      apply kept
      rw [examined]
      exact List.mem_append_left _ member
    · rename_i other
      obtain ⟨middle,moved,rest⟩ := Option.bind_eq_some_iff.mp loops
      cases rest
      have examined := moveFull_kept moved
      refine ⟨?_,(stop,conn.offset),examined.symm ▸ logged,behind other⟩
      intro read member
      rw [examined]
      exact List.mem_append_left _ member

theorem post_examined (fresh : Fresh) : (echo_post_recv conn fresh).examined = conn.examined := by
  unfold echo_post_recv EchoConn.ensureBlock
  cases conn.block <;> rfl

theorem receive_overread {bytes : List UInt8} {fresh : Fresh} (received : receive conn (.data bytes fresh past) = some next) :
    Overread conn next := by
  simp only [receive,echo_forward,EchoConn.store,Option.bind_eq_bind,Option.bind_eq_some_iff,pure] at received
  obtain ⟨stored,⟨content,_,stores⟩,⟨forwarded,status⟩,⟨block,_,content',_,⟨looped,status'⟩,loops,posts⟩,ends⟩ := received
  split at stores
  · cases stores
    cases posts
    cases ends
    obtain ⟨kept,beyond⟩ := forwardLoop_overread (by rfl) loops
    rw [Overread,post_examined]
    exact ⟨kept,beyond⟩
  · cases stores

end Examined

/-! ### Runs -/

def stream (answers : List Answer) : List UInt8 := (answers.map Answer.bytes).flatten

theorem run_spec {conn : EchoConn} {held : List UInt8} {answers : List Answer} (between : Between conn held)
    (served : Along receive Served conn answers) (spared : Along receive Spared conn answers) :
    ∃ final, run receive conn answers = some final ∧ final.tasks = conn.tasks ++ (cut held (stream answers)).1 ∧
      Between final (cut held (stream answers)).2 := by
  induction answers generalizing conn held with
  | nil => exact ⟨conn,rfl,by simp [stream,cut],between⟩
  | cons answer answers ih =>
    obtain ⟨next,received,tasks,between⟩ := receive_spec between served.1 spared.1
    obtain ⟨final,runs,handed,ends⟩ := ih between (served.2 next received) (spared.2 next received)
    have whole : stream (answer::answers) = answer.bytes ++ stream answers := rfl
    refine ⟨final,Option.bind_eq_some_iff.mpr ⟨next,received,runs⟩,?_,?_⟩
    · rw [handed,tasks,whole,cut_append,List.append_assoc]
    · rw [whole,cut_append]
      exact ends

theorem run_kept {conn final : EchoConn} {answers : List Answer} (runs : run receive conn answers = some final) :
    ∀ read ∈ conn.examined, read ∈ final.examined := by
  induction answers generalizing conn with
  | nil =>
    cases runs
    exact fun _ member => member
  | cons answer answers ih =>
    obtain ⟨next,received,rest⟩ := Option.bind_eq_some_iff.mp runs
    intro read member
    apply ih rest
    cases answer with
    | again =>
      cases received
      exact member
    | data => exact (receive_overread received).1 read member

/-- A run that receives anything reads behind the received bytes. -/
theorem run_overread {conn final : EchoConn} {answers : List Answer} (runs : run receive conn answers = some final)
    (inside : ∀ read ∈ final.examined, read.1 < read.2) : ∀ answer ∈ answers, answer = .again := by
  induction answers generalizing conn with
  | nil => simp
  | cons answer answers ih =>
    obtain ⟨next,received,rest⟩ := Option.bind_eq_some_iff.mp runs
    intro other member
    rcases List.mem_cons.mp member with rfl | later
    · cases other with
      | again => rfl
      | data =>
        obtain ⟨_,read,listed,behind⟩ := receive_overread received
        exact absurd (inside read (run_kept rest read listed)) (Nat.not_lt.mpr behind)
    · exact ih rest other later

theorem start_between (fresh : Fresh) : Between (EchoConn.start fresh) [] :=
  ⟨[],0,0,fresh.bytes,⟨rfl,rfl,⟨by simp,by simp⟩,fresh.size,by simp,⟨Nat.zero_lt_one,by simp⟩,rfl,Nat.zero_le _,by simp,
    le_rfl,Nat.zero_le _⟩,Nat.zero_lt_succ _,rfl,rfl,rfl⟩

/-- The tasks are the lines received, every byte examined was received, and more can be. -/
def Framed (fresh : Fresh) (answers : List Answer) : Prop :=
  ∃ final, run receive (.start fresh) answers = some final ∧ final.tasks = (cut [] (stream answers)).1 ∧
    (∀ read ∈ final.examined, read.1 < read.2) ∧ 0 < final.psc_rx_size

theorem again_runs {conn : EchoConn} {answers : List Answer} (silent : ∀ answer ∈ answers, answer = .again) :
    run receive conn answers = some conn ∧ stream answers = [] := by
  induction answers with
  | nil => exact ⟨rfl,rfl⟩
  | cons answer answers ih =>
    cases silent answer List.mem_cons_self
    exact ih fun other member => silent other (List.mem_cons_of_mem _ member)

/-- Bytes behind the received ones are examined as soon as anything is received; the
lines are right wherever such a byte is no newline. -/
theorem framed_iff (fresh : Fresh) (answers : List Answer) (served : Along receive Served (.start fresh) answers) :
    (Framed fresh answers ↔ ∀ answer ∈ answers, answer = .again) ∧
      (Along receive Spared (.start fresh) answers →
        ∃ final, run receive (.start fresh) answers = some final ∧ final.tasks = (cut [] (stream answers)).1 ∧
          0 < final.psc_rx_size) := by
  refine ⟨⟨?_,?_⟩,?_⟩
  · rintro ⟨final,runs,_,inside,_⟩
    exact run_overread runs inside
  · intro silent
    obtain ⟨runs,nothing⟩ := @again_runs (.start fresh) _ silent
    refine ⟨_,runs,?_,?_,?_⟩
    · rw [nothing]
      rfl
    · intro read member
      cases member
    · show (0 : Int) < (BLOCK_LENGTH : Int) - (0 : Nat)
      decide
  · intro spared
    obtain ⟨final,runs,tasks,_,_,_,_,_,room,window,_⟩ := run_spec (start_between fresh) served spared
    refine ⟨final,runs,tasks,?_⟩
    rw [window]
    omega

def zeroed : Fresh := ⟨[0,0,0,0,0,0],rfl⟩

/-- A line of eight bytes, cut behind the fifth, and the start of another. -/
def twoReceipts : List Answer :=
  [.data [97,98,99,100,101] zeroed [0],.data [102] zeroed [0],.data [103,10,104] zeroed [0]]

theorem twoReceipts_framed : (Framed zeroed twoReceipts ↔ ∀ answer ∈ twoReceipts, answer = .again) ∧
    (Along receive Spared (.start zeroed) twoReceipts →
      ∃ final, run receive (.start zeroed) twoReceipts = some final ∧ final.tasks = (cut [] (stream twoReceipts)).1 ∧
        0 < final.psc_rx_size) := by
  apply framed_iff
  refine ⟨⟨by simp,by decide⟩,fun _ first => ?_⟩
  cases first
  refine ⟨⟨by simp,by decide⟩,fun _ second => ?_⟩
  cases second
  exact ⟨⟨by simp,by decide⟩,fun _ _ => trivial⟩

/-- A newline that `malloc` left behind the only received byte. -/
def leftover : Fresh := ⟨[0,10,0,0,0,0],rfl⟩

theorem leftover_handed : ∃ final, run receive (.start leftover) [.data [97] zeroed [0]] = some final ∧
    final.tasks = [[97,10]] ∧ (cut [] (stream [.data [97] zeroed [0]])).1 = [] ∧ (1,1) ∈ final.examined := by
  refine ⟨_,rfl,rfl,rfl,?_⟩
  exact List.mem_cons_of_mem _ List.mem_cons_self

end Migfm.Master
