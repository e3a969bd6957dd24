import Migfm.Library.Ring
import Migfm.Library.Runs

/-! `cyc_buf` of public/comm/buffer.h with `HalfGrowPolicy`. A position is an offset
in the block; the arithmetic of `size_t` wraps. -/
namespace Migfm.Comm
open Library

def word (n : Nat) : Nat := n % 2^64

def DWORDAlign (p : Nat) : Nat := word (p + 3) / 4 * 4

/-- What `new` leaves in a block is indeterminate. -/
abbrev Byte := Option UInt8

inductive Failure
  | allocation
  | outside

/-- `new char[n]`; no object has 2^63 bytes. -/
def newBlock (n : Nat) : Except Failure (List Byte) :=
  if n < 2^63 then .ok (List.replicate n none) else .error .allocation

/-- `memcpy` into a block and out of it. -/
def store (block : List Byte) (offset : Nat) (bytes : List Byte) : Except Failure (List Byte) :=
  if offset + bytes.length ≤ block.length then .ok (Ring.overwrite block offset bytes) else .error .outside

def load (block : List Byte) (offset len : Nat) : Except Failure (List Byte) :=
  if offset + len ≤ block.length then .ok ((block.drop offset).take len) else .error .outside

def HalfGrowPolicy.grow_size (cur inc : Nat) : Nat := word (cur + max inc (cur / 2))

def STATE_NONE : UInt32 := 0
def STATE_READ_LOCKED : UInt32 := 1
def STATE_WRITE_LOCKED : UInt32 := (1 : UInt32) <<< 1

structure CycBuf where
  _data : List Byte
  _total : Nat
  _pbeg : Nat
  _pend : Nat
  _state : UInt32

namespace CycBuf

def create (size : Nat) : Except Failure CycBuf := do
  let _total := DWORDAlign (word (size + 1))
  let _data ← newBlock _total
  return {_data,_total,_pbeg := 0,_pend := 0,_state := STATE_NONE}

variable (buf : CycBuf)

def size : Nat := if buf._pbeg ≤ buf._pend then buf._pend - buf._pbeg else buf._pend + buf._total - buf._pbeg

def capacity : Nat := word (buf._total + 2^64 - 1)

def avail : Nat := word (buf.capacity + 2^64 - buf.size)

def wlocked : Bool := buf._state &&& STATE_WRITE_LOCKED != 0

def rlocked : Bool := buf._state &&& STATE_READ_LOCKED != 0

def any_locked : Bool := buf.wlocked || buf.rlocked

/-- The copies of `reserve` into the new block. -/
def moveTo (pnew : List Byte) : Except Failure (List Byte) :=
  let sz := buf.size
  if buf._pbeg ≤ buf._pend then do
    let bytes ← load buf._data buf._pbeg sz
    store pnew 0 bytes
  else do
    let nTail := buf._total - buf._pbeg
    let tail ← load buf._data buf._pbeg nTail
    let pnew ← store pnew 0 tail
    let rest ← load buf._data 0 (sz - nTail)
    store pnew nTail rest

def reserve (n : Nat) : Except Failure (Bool × CycBuf) :=
  let n := DWORDAlign (word (n + 1))
  if buf.any_locked then .ok (false,buf)
  else if n ≤ buf._total then .ok (true,buf)
  else do
    let pnew ← newBlock n
    let _data ← buf.moveTo pnew
    return (true,{buf with _data, _total := n, _pbeg := 0, _pend := buf.size})

def _grow (inc : Nat) : Except Failure CycBuf := do
  let (_,grown) ← buf.reserve (HalfGrowPolicy.grow_size buf.capacity inc)
  return grown

def peek (len : Nat) : Except Failure (List Byte) :=
  if buf.rlocked then .ok []
  else
    let len := min buf.size len
    let nTail := buf._total - buf._pbeg
    if buf._pbeg ≤ buf._pend ∨ len ≤ nTail then load buf._data buf._pbeg len
    else do
      let tail ← load buf._data buf._pbeg nTail
      let rest ← load buf._data 0 (len - nTail)
      return tail ++ rest

def read (len : Nat) : Except Failure (List Byte × CycBuf) :=
  if buf.rlocked then .ok ([],buf)
  else do
    let bytes ← buf.peek len
    let _pbeg := buf._pbeg + bytes.length
    return (bytes,{buf with _pbeg := if buf._total ≤ _pbeg then _pbeg - buf._total else _pbeg})

/-- The two copies of `write`, once there is room. -/
def append (bytes : List Byte) : Except Failure CycBuf :=
  let nTail := buf._total - buf._pend
  if bytes.length ≤ nTail then do
    let _data ← store buf._data buf._pend bytes
    return {buf with _data, _pend := buf._pend + bytes.length}
  else do
    let _data ← store buf._data buf._pend (bytes.take nTail)
    let _data ← store _data 0 (bytes.drop nTail)
    return {buf with _data, _pend := bytes.length - nTail}

def write (bytes : List Byte) : Except Failure (Nat × CycBuf) :=
  if buf.wlocked then .ok (0,buf)
  else do
    let grown ← if buf.avail < bytes.length then buf._grow (bytes.length - buf.avail) else .ok buf
    let next ← grown.append bytes
    return (bytes.length,next)

def clear : Bool × CycBuf :=
  if buf.any_locked then (false,buf) else (true,{buf with _pbeg := 0, _pend := 0})

end CycBuf

/-! ### Calls, and the queue they are meant for -/

/-- Bytes in the caller's memory. -/
structure Object where
  bytes : List UInt8
  fits : bytes.length < 2^63

inductive Call
  | write (buf : Object)
  | read (len : UInt64)
  | peek (len : UInt64)
  | reserve (n : UInt64)
  | clear

inductive Answer
  | count (len : Nat)
  | bytes (bytes : List Byte)
  | done (ok : Bool)

def CycBuf.call (buf : CycBuf) : Call → Except Failure (Answer × CycBuf)
  | .write source => do
    let (len,next) ← buf.write (source.bytes.map some)
    return (.count len,next)
  | .read len => do
    let (bytes,next) ← buf.read len.toNat
    return (.bytes bytes,next)
  | .peek len => do
    let bytes ← buf.peek len.toNat
    return (.bytes bytes,buf)
  | .reserve n => do
    let (ok,next) ← buf.reserve n.toNat
    return (.done ok,next)
  | .clear => .ok (.done buf.clear.1,buf.clear.2)

def CycBuf.run (buf : CycBuf) : List Call → Except Failure (List Answer × CycBuf)
  | [] => .ok ([],buf)
  | call::calls => do
    let (answer,next) ← buf.call call
    let (answers,final) ← next.run calls
    return (answer::answers,final)

/-- The call on the unread bytes themselves. -/
def fifoCall (unread : List UInt8) : Call → Answer × List UInt8
  | .write source => (.count source.bytes.length,unread ++ source.bytes)
  | .read len => (.bytes ((unread.take len.toNat).map some),unread.drop len.toNat)
  | .peek len => (.bytes ((unread.take len.toNat).map some),unread)
  | .reserve _ => (.done true,unread)
  | .clear => (.done true,[])

def fifoRun (unread : List UInt8) : List Call → List Answer × List UInt8
  | [] => ([],unread)
  | call::calls =>
    let (answer,next) := fifoCall unread call
    let (answers,final) := fifoRun next calls
    (answer::answers,final)

end Migfm.Comm
