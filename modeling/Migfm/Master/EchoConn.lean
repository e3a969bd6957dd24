import Migfm.Net.Pending

/-! The receive path of master/core/network.c: a connection with its 6-byte blocks,
out of which lines are cut. Allocation succeeds. What `malloc` leaves in a block and
what lies behind it is arbitrary; a length that is negative or leaves the block has
no outcome, nor has reading memory that is not there. -/
namespace Migfm.Master
open Net (EchoBlock Blocks echo_block_addref echo_block_decref)

def BLOCK_LENGTH : Nat := 6

def newline : UInt8 := 10

inductive EchoPacket
  | empty
  | one_block (one_block offset : Nat) (length : Int)
  | blocks (blocks : List Nat) (head_position : Nat) (tail_offset : Int)

/-- The packet part of `block_add_tail`. -/
def EchoPacket.add (packet : EchoPacket) (block offset : Nat) (length : Int) : EchoPacket :=
  match packet with
  | empty => one_block block offset length
  | one_block first first_offset _ => blocks [first,block] first_offset (offset + length)
  | blocks ids head_position _ => blocks (ids ++ [block]) head_position (offset + length)

def block_add_tail (blocks : Blocks) (packet : EchoPacket) (block offset : Nat) (length : Int) :
    Option (Blocks × EchoPacket) := do
  let blocks ← echo_block_addref blocks block
  return (blocks,packet.add block offset length)

/-- The bytes from `address + offset` that are appended to the buffer. -/
def buffer_append_string_len (address : List UInt8) (offset : Nat) (len : Int) : Option (List UInt8) :=
  if 0 ≤ len ∧ offset + len ≤ address.length then some ((address.drop offset).take len.toNat) else none

/-- The loop of `echo_handle_packet` after its first block. -/
def gather (tail_offset : Int) (blocks : Blocks) : List Nat → Option (List UInt8 × Blocks)
  | [] => some ([],blocks)
  | block::rest => do
    let b ← blocks block
    let part ← buffer_append_string_len b.address 0 (if rest = [] then tail_offset else BLOCK_LENGTH)
    let blocks ← echo_block_decref blocks block
    let (bytes,blocks) ← gather tail_offset blocks rest
    return (part ++ bytes,blocks)

/-- `echo_handle_packet` up to the task: the bytes handed to `system_addtask`. -/
def echo_handle_packet (blocks : Blocks) : EchoPacket → Option (List UInt8 × Blocks)
  | .empty => some ([],blocks)
  | .one_block block offset length => do
    let b ← blocks block
    let bytes ← buffer_append_string_len b.address offset length
    let blocks ← echo_block_decref blocks block
    return (bytes,blocks)
  | .blocks [] _ _ => some ([],blocks)
  | .blocks (block::rest) head_position tail_offset => do
    let b ← blocks block
    let part ← buffer_append_string_len b.address head_position ((BLOCK_LENGTH : Int) - head_position)
    let blocks ← echo_block_decref blocks block
    let (bytes,blocks) ← gather tail_offset blocks rest
    return (part ++ bytes,blocks)

/-- A `psock_conn` with the `echo_conn` behind its cookie. `tasks` is what was handed
to `system_addtask`; `examined` records each read of `*p` as its offset in the block
and the end of the received bytes then. -/
structure EchoConn where
  blocks : Blocks
  nextBlock : Nat
  block : Option Nat
  offset : Nat
  prev_packet_offset : Nat
  packet : Option EchoPacket
  psc_rx_size : Int
  psc_rx_buffer : Nat × Nat
  tasks : List (List UInt8)
  examined : List (Nat × Nat)

/-- What `malloc` leaves in the next block. -/
structure Fresh where
  bytes : List UInt8
  size : bytes.length = BLOCK_LENGTH

/-- A block from `malloc`, with the reference of the connection. -/
def EchoConn.ensureBlock (conn : EchoConn) (fresh : Fresh) : EchoConn × Nat :=
  match conn.block with
  | some block => (conn,block)
  | none =>
    ({conn with
      blocks := Function.update conn.blocks conn.nextBlock (some ⟨fresh.bytes,1⟩)
      nextBlock := conn.nextBlock + 1
      block := some conn.nextBlock},conn.nextBlock)

def echo_post_recv (conn : EchoConn) (fresh : Fresh) : EchoConn :=
  let (conn,block) := conn.ensureBlock fresh
  {conn with
    psc_rx_size := (BLOCK_LENGTH : Int) - conn.offset
    psc_rx_buffer := (block,conn.offset)}

/-- A connection as `accept` leaves it. -/
def EchoConn.start (fresh : Fresh) : EchoConn :=
  echo_post_recv
    {blocks := fun _ => none, nextBlock := 0, block := none, offset := 0, prev_packet_offset := 0, packet := none,
      psc_rx_size := 0, psc_rx_buffer := (0,0), tasks := [], examined := []} fresh

/-- The inner loop over `left` received bytes: where it stops, and the bytes it reads. -/
def scan (address : List UInt8) : Nat → Nat → Nat × List Nat
  | 0,p => (p,[])
  | left + 1,p =>
    if address[p]? = some newline then (p,[p])
    else
      let (stop,reads) := scan address left (p + 1)
      (stop,p::reads)

def EAGAIN : Int := 11

/-- A line ends in front of `p`: its last part is added and the packet handled. -/
def EchoConn.finish (conn : EchoConn) (block p : Nat) : Option EchoConn := do
  let len : Int := p - conn.prev_packet_offset
  let (blocks,packet) ← block_add_tail conn.blocks (conn.packet.getD .empty) block conn.prev_packet_offset len
  let (bytes,blocks) ← echo_handle_packet blocks packet
  return {conn with
    blocks
    prev_packet_offset := p
    packet := none
    tasks := conn.tasks ++ [bytes]}

/-- The rest of a full block is added to the packet, and the block dropped. -/
def EchoConn.moveFull (conn : EchoConn) (block : Nat) : Option EchoConn := do
  let len : Int := (BLOCK_LENGTH : Int) - conn.prev_packet_offset
  let (blocks,packet) ← block_add_tail conn.blocks (conn.packet.getD .empty) block conn.prev_packet_offset len
  let blocks ← echo_block_decref blocks block
  return {conn with blocks, packet := some packet, prev_packet_offset := 0, offset := 0, block := none}

/-- The loop of `echo_forward` from `p` on, over the block and the memory behind it. -/
def EchoConn.forwardLoop (block : Nat) (address past : List UInt8) (tail : Nat) :
    Nat → EchoConn → Nat → Option (EchoConn × Int)
  | 0,_,_ => none
  | fuel + 1,conn,p => do
    let (p,reads) := scan address (tail - p) p
    let byte ← (address ++ past)[p]?
    let conn := {conn with examined := conn.examined ++ (reads ++ [p]).map fun read => (read,conn.offset)}
    if byte ≠ newline ∧ conn.offset < BLOCK_LENGTH then return (conn,0)
    else if byte = newline then
      let conn ← conn.finish block (p + 1)
      forwardLoop block address past tail fuel conn (p + 1)
    else
      let conn ← conn.moveFull block
      return (conn,-EAGAIN)

/-- `past` is the memory behind the block. -/
def echo_forward (conn : EchoConn) (length : Nat) (fresh : Fresh) (past : List UInt8) : Option (EchoConn × Int) := do
  let block ← conn.block
  let b ← conn.blocks block
  let ptr := conn.offset
  let conn := {conn with offset := conn.offset + length}
  let (conn,status) ← conn.forwardLoop block b.address past (ptr + length) (b.address.length + past.length + 1) ptr
  return (echo_post_recv conn fresh,status)

/-- The kernel copies received bytes to `psc_rx_buffer`; past the block there is no outcome. -/
def EchoConn.store (conn : EchoConn) (bytes : List UInt8) : Option EchoConn := do
  let (block,offset) := conn.psc_rx_buffer
  let b ← conn.blocks block
  if offset + bytes.length ≤ BLOCK_LENGTH then
    let address := b.address.take offset ++ bytes ++ b.address.drop (offset + bytes.length)
    return {conn with blocks := Function.update conn.blocks block (some {b with address})}
  else none

/-- What `recv` answers: nothing yet, or some bytes. -/
inductive Answer
  | again
  | data (bytes : List UInt8) (fresh : Fresh) (past : List UInt8)

def receive (conn : EchoConn) : Answer → Option EchoConn
  | .again => some conn
  | .data bytes fresh past => do
    let conn ← conn.store bytes
    let (conn,_) ← echo_forward conn bytes.length fresh past
    return conn

end Migfm.Master
