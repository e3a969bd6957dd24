import Migfm.Library.LittleEndian

/-! The receive path of chat/core/network.c: a connection with its 4096-byte
blocks. Allocation succeeds. Use of freed or of missing memory has no outcome,
except that the length of a block freed by `echo_forward` itself is read again
before it returns: what that read finds is `stale`, chosen by the allocator. -/
namespace Migfm.Net
open Library.LittleEndian

def BLOCK_LENGTH : Nat := 4096

structure EchoBlock where
  address : List UInt8
  refcount : Nat

abbrev Blocks := Nat → Option EchoBlock

def echo_block_addref (blocks : Blocks) (block : Nat) : Option Blocks := do
  let b ← blocks block
  return Function.update blocks block (some {b with refcount := b.refcount + 1})

/-- The last reference frees the block. -/
def echo_block_decref (blocks : Blocks) (block : Nat) : Option Blocks := do
  let b ← blocks block
  if b.refcount = 1 then return Function.update blocks block none
  else return Function.update blocks block (some {b with refcount := b.refcount - 1})

/-- One block is kept with its offset and length, more as a list of which the
first starts at `head_position` and the last ends at `tail_offset`. -/
inductive EchoPacket
  | empty
  | one_block (one_block offset length : Nat)
  | blocks (blocks : List Nat) (head_position tail_offset : Nat)

/-- The packet part of `block_add_tail`. -/
def EchoPacket.add (packet : EchoPacket) (block offset length : Nat) : EchoPacket :=
  match packet with
  | empty => one_block block offset length
  | one_block first first_offset _ => blocks [first,block] first_offset (offset + length)
  | blocks ids head_position _ => blocks (ids ++ [block]) head_position (offset + length)

def block_add_tail (blocks : Blocks) (packet : EchoPacket) (block offset length : Nat) :
    Option (Blocks × EchoPacket) := do
  let blocks ← echo_block_addref blocks block
  return (blocks,packet.add block offset length)

/-- The loop of `echo_handle_packet` after its first block. -/
def gather (tail_offset : Nat) (blocks : Blocks) : List Nat → Option (List UInt8 × Blocks)
  | [] => some ([],blocks)
  | block::rest => do
    let b ← blocks block
    let part := if rest = [] then b.address.take tail_offset else b.address
    let blocks ← echo_block_decref blocks block
    let (bytes,blocks) ← gather tail_offset blocks rest
    return (part ++ bytes,blocks)

/-- `echo_handle_packet` up to the task: the bytes handed to `system_addtask`. -/
def echo_handle_packet (blocks : Blocks) : EchoPacket → Option (List UInt8 × Blocks)
  | .empty => some ([],blocks)
  | .one_block block offset length => do
    let b ← blocks block
    let blocks ← echo_block_decref blocks block
    return ((b.address.drop offset).take length,blocks)
  | .blocks [] _ _ => some ([],blocks)
  | .blocks (block::rest) head_position tail_offset => do
    let b ← blocks block
    let blocks ← echo_block_decref blocks block
    let (bytes,blocks) ← gather tail_offset blocks rest
    return (b.address.drop head_position ++ bytes,blocks)

inductive PacketState
  | STATE_NEW
  | STATE_READ_HEADER
  | STATE_READ_PAY_LOAD
deriving DecidableEq

/-- A `psock_conn` with the `echo_conn` behind its cookie. `psc_rx_buffer` is a
block and an offset in it; `tasks` is what was handed to `system_addtask`. -/
structure EchoConn where
  blocks : Blocks
  nextBlock : Nat
  block : Option Nat
  offset : Nat
  prev_packet_offset : Nat
  packet : Option EchoPacket
  psc_rx_state : PacketState
  psc_rx_nob_left : Int32
  psc_rx_nob_wanted : Int32
  psc_rx_size : Int32
  psc_rx_buffer : Nat × Nat
  tasks : List (List UInt8)

/-- A block from `malloc` and `memset`, with the reference of the connection. -/
def EchoConn.ensureBlock (conn : EchoConn) : EchoConn × Nat :=
  match conn.block with
  | some block => (conn,block)
  | none =>
    ({conn with
      blocks := Function.update conn.blocks conn.nextBlock (some ⟨List.replicate BLOCK_LENGTH 0,1⟩)
      nextBlock := conn.nextBlock + 1
      block := some conn.nextBlock},conn.nextBlock)

def room (offset : Nat) : Int := BLOCK_LENGTH - offset

/-- The request of the next `recv`. -/
def EchoConn.rxSize (conn : EchoConn) : Int32 :=
  match conn.psc_rx_state with
  | .STATE_NEW => conn.psc_rx_nob_left
  | .STATE_READ_HEADER =>
    if room conn.offset ≤ conn.psc_rx_nob_left.toInt then Int32.ofInt (room conn.offset)
    else conn.psc_rx_nob_left
  | .STATE_READ_PAY_LOAD => conn.psc_rx_size

def echo_post_recv (conn : EchoConn) : EchoConn :=
  let (conn,block) := conn.ensureBlock
  {conn with
    psc_rx_size := conn.rxSize
    psc_rx_buffer := (block,conn.offset)}

/-- A connection as `accept` leaves it. -/
def EchoConn.start : EchoConn :=
  echo_post_recv
    {blocks := fun _ => none, nextBlock := 0, block := none, offset := 0, prev_packet_offset := 0, packet := none,
      psc_rx_state := .STATE_NEW, psc_rx_nob_left := 4, psc_rx_nob_wanted := 4, psc_rx_size := 0,
      psc_rx_buffer := (0,0), tasks := []}

/-- The `int` at `prev_packet_offset`. -/
def lengthWord (address : List UInt8) (prev_packet_offset : Nat) : Int32 :=
  Scalar.decode ((address.drop prev_packet_offset).take 4)

def EAGAIN : Int := 11

/-- The test for a full block after the loop of `echo_forward`, while the block
is alive. -/
def EchoConn.moveFull (conn : EchoConn) (block : Nat) (packet : EchoPacket) (status : Int) :
    Option (EchoConn × Int) :=
  if conn.offset = BLOCK_LENGTH then do
    let (blocks,packet) ← block_add_tail conn.blocks packet block conn.prev_packet_offset
      (BLOCK_LENGTH - conn.prev_packet_offset)
    let blocks ← echo_block_decref blocks block
    return ({conn with blocks, packet := some packet, prev_packet_offset := 0, offset := 0, block := none},-EAGAIN)
  else return (conn,status)

/-- The end of a packet: its last part is added, the packet handled, and a block
without room for a length word dropped. The test after the loop then reads the
length of the dropped block. -/
def EchoConn.complete (conn : EchoConn) (block : Nat) (packet : EchoPacket) (stale : Int32) :
    Option (EchoConn × Int) := do
  let (blocks,packet) ← block_add_tail conn.blocks packet block conn.prev_packet_offset
    (conn.offset - conn.prev_packet_offset)
  let (bytes,blocks) ← echo_handle_packet blocks packet
  let conn := {conn with
    blocks
    prev_packet_offset := conn.offset
    packet := none
    tasks := conn.tasks ++ [bytes]
    psc_rx_state := .STATE_NEW
    psc_rx_nob_wanted := 4
    psc_rx_nob_left := 4}
  if conn.offset + 4 > BLOCK_LENGTH then
    let blocks ← echo_block_decref conn.blocks block
    if stale = 0 then none
    else return ({conn with blocks, prev_packet_offset := 0, offset := 0, block := none},0)
  else return (conn,0)

/-- The loop of `echo_forward` and the test after it, for `length` new bytes in
the block at `address`. `length` is positive, so at most one packet is handled. -/
def EchoConn.forwardLoop (conn : EchoConn) (block : Nat) (address : List UInt8) (packet : EchoPacket)
    (length : Nat) (stale : Int32) : Option (EchoConn × Int) :=
  let received := Int32.ofNat length
  match conn.psc_rx_state with
  | .STATE_NEW =>
    if received ≠ conn.psc_rx_size then
      moveFull {conn with psc_rx_nob_left := conn.psc_rx_size - received} block packet (-EAGAIN)
    else
      let wanted := lengthWord address conn.prev_packet_offset
      moveFull {conn with
        psc_rx_nob_wanted := wanted
        psc_rx_nob_left := wanted - 4
        psc_rx_state := .STATE_READ_HEADER} block packet 0
  | .STATE_READ_HEADER =>
    let left := conn.psc_rx_nob_left - received
    if left ≠ 0 then moveFull {conn with psc_rx_nob_left := left} block packet 0
    else complete {conn with psc_rx_nob_left := left} block packet stale
  | .STATE_READ_PAY_LOAD => conn.moveFull block packet 0

def echo_forward (conn : EchoConn) (length : Nat) (stale : Int32) : Option (EchoConn × Int) := do
  let block ← conn.block
  let b ← conn.blocks block
  let packet := conn.packet.getD .empty
  let conn := {conn with offset := conn.offset + length, packet := some packet}
  let (conn,status) ← conn.forwardLoop block b.address packet length stale
  return (echo_post_recv conn,status)

/-- The kernel copies received bytes to `psc_rx_buffer`; past the block there is no outcome. -/
def EchoConn.store (conn : EchoConn) (bytes : List UInt8) : Option EchoConn := do
  let (block,offset) := conn.psc_rx_buffer
  let b ← conn.blocks block
  if offset + bytes.length ≤ BLOCK_LENGTH then
    let address := b.address.take offset ++ bytes ++ b.address.drop (offset + bytes.length)
    return {conn with blocks := Function.update conn.blocks block (some {b with address})}
  else none

/-- What `recv` answers: nothing yet, or some bytes. The status of
`echo_forward` only says whether `recv` is called again at once. -/
inductive Answer
  | again
  | data (bytes : List UInt8) (stale : Int32)

def receive (conn : EchoConn) : Answer → Option EchoConn
  | .again => some conn
  | .data bytes stale => do
    let conn ← conn.store bytes
    let (conn,_) ← echo_forward conn bytes.length stale
    return conn

/-- One call of `sockbase_process_receive`, for the answers `recv` gives it: the
value it returns, if `rc` was assigned, and the answers left. -/
def sockbase_process_receive (conn : EchoConn) (rc : Option Int) (answers : List Answer) :
    Option (EchoConn × Option Int × List Answer) :=
  if conn.psc_rx_nob_wanted ≠ 0 then
    match answers with
    | [] => none
    | .again::answers => some (conn,some (-EAGAIN),answers)
    | .data bytes stale::answers => do
      let conn ← conn.store bytes
      let (conn,status) ← echo_forward conn bytes.length stale
      if status = -EAGAIN then sockbase_process_receive conn (some status) answers
      else return (conn,some status,answers)
  else some (conn,rc,answers)

end Migfm.Net
