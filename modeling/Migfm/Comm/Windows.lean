import Migfm.Comm.Fifo
import Migfm.Comm.Repos

/-! The windows `cyc_buf` hands out: `wlock`, `wunlock`, `rlock` and `runlock`, with
one writer and one reader. -/
namespace Migfm.Comm
open Library

/-- A pointer into one of the blocks `_data` has been. -/
structure Pointer where
  block : Nat
  offset : Nat
deriving DecidableEq

/-- The buffer, and which block `_data` is. -/
structure Located where
  buf : CycBuf
  block : Nat

namespace Located
variable (cyc : Located)

/-- After calls that take a new block only where it is larger. -/
def grown (next : CycBuf) : Located := ⟨next,if next._total = cyc.buf._total then cyc.block else cyc.block + 1⟩

/-- What `wlock` and `rlock` do where `len` bytes do not fit in front of the end of the block. -/
def fit (_Elastic : Bool) (room len : Nat) : Except Stop (Nat × Located) :=
  if room < len then
    if _Elastic then do
      let (renewed,buf) ← cyc.buf._repos
      return (len,⟨buf,if renewed then cyc.block + 1 else cyc.block⟩)
    else return (room,cyc)
  else return (len,cyc)

/-- The growth of `wlock`, whose refusal goes unnoticed. -/
def roomier (len : Nat) : Except Stop CycBuf :=
  if cyc.buf.avail < len then liftM (cyc.buf._grow (len - cyc.buf.avail)) else return cyc.buf

def wlock (_Elastic : Bool) (len : Nat) : Except Stop (Option Pointer × Nat × Located) :=
  if cyc.buf.wlocked then return (none,len,cyc)
  else do
    let buf ← cyc.roomier len
    let (len,cyc) ← (cyc.grown buf).fit _Elastic (buf._total - buf._pend) len
    let buf := {cyc.buf with _state := cyc.buf._state ||| STATE_WRITE_LOCKED}
    return (some ⟨cyc.block,buf._pend⟩,len,{cyc with buf})

def wunlock (p : Pointer) (len : Nat) : Bool × Located :=
  let buf := cyc.buf
  if !buf.wlocked then (false,cyc)
  else if p ≠ ⟨cyc.block,buf._pend⟩ then (false,cyc)
  else if buf.avail < len then (false,cyc)
  else if buf._total - buf._pend < len then (false,cyc)
  else (true,{cyc with buf := {buf with _pend := buf._pend + len, _state := buf._state &&& ~~~STATE_WRITE_LOCKED}})

def rlock (_Elastic : Bool) (len : Nat) : Except Stop (Option Pointer × Nat × Located) :=
  if cyc.buf.rlocked then return (none,len,cyc)
  else do
    let (len,cyc) ← cyc.fit _Elastic (cyc.buf._total - cyc.buf._pbeg) (min len cyc.buf.size)
    let buf := {cyc.buf with _state := cyc.buf._state ||| STATE_READ_LOCKED}
    return (some ⟨cyc.block,buf._pbeg⟩,len,{cyc with buf})

def runlock (p : Pointer) (len : Nat) : Bool × Located :=
  let buf := cyc.buf
  if !buf.rlocked then (false,cyc)
  else if p ≠ ⟨cyc.block,buf._pbeg⟩ then (false,cyc)
  else if buf.size < len then (false,cyc)
  else if buf._total - buf._pbeg < len then (false,cyc)
  else (true,{cyc with buf := {buf with _pbeg := buf._pbeg + len, _state := buf._state &&& ~~~STATE_READ_LOCKED}})

/-- A copy by the caller to where a pointer leads. -/
def put (p : Pointer) (bytes : List UInt8) : Except Stop Located := do
  if p.block ≠ cyc.block then .error (.failure .outside)
  let _data ← store cyc.buf._data p.offset (bytes.map some)
  return {cyc with buf := {cyc.buf with _data}}

end Located

/-! ### The buffer with its writer and its reader -/

/-- What a successful lock has returned. -/
structure Window where
  start : Pointer
  len : Nat

structure Shared where
  cyc : Located
  writer : Option Window
  reader : Option Window

inductive Event
  | call (call : Call)
  | wlock (len : UInt64)
  | put (offset : Nat) (bytes : List UInt8)
  | wunlock (p : Pointer) (len : UInt64)
  | rlock (len : UInt64)
  | runlock (p : Pointer) (len : UInt64)

inductive Reply
  | answer (answer : Answer)
  | window (p : Option Pointer) (len : Nat)
  | none

/-- A writer copies into its window only. -/
def Shared.step (s : Shared) : Event → Except Stop (Reply × Shared)
  | .call call => do
    let (answer,buf) ← s.cyc.buf.call call
    return (.answer answer,{s with cyc := s.cyc.grown buf})
  | .wlock len => do
    let (p,len,cyc) ← s.cyc.wlock true len.toNat
    return (.window p len,{s with cyc, writer := (p.map fun p => ⟨p,len⟩).or s.writer})
  | .put offset bytes => do
    let some window := s.writer | return (.none,s)
    if window.len < offset + bytes.length then return (.none,s)
    let cyc ← s.cyc.put ⟨window.start.block,window.start.offset + offset⟩ bytes
    return (.none,{s with cyc})
  | .wunlock p len =>
    let (done,cyc) := s.cyc.wunlock p len.toNat
    return (.answer (.done done),{s with cyc, writer := if done then none else s.writer})
  | .rlock len => do
    let (p,len,cyc) ← s.cyc.rlock true len.toNat
    return (.window p len,{s with cyc, reader := (p.map fun p => ⟨p,len⟩).or s.reader})
  | .runlock p len =>
    let (done,cyc) := s.cyc.runlock p len.toNat
    return (.answer (.done done),{s with cyc, reader := if done then none else s.reader})

def Shared.run (s : Shared) : List Event → Except Stop (List Reply × Shared)
  | [] => return ([],s)
  | event::events => do
    let (reply,next) ← s.step event
    let (replies,final) ← next.run events
    return (reply::replies,final)

/-! ### The queue of unread bytes, and what its users hold -/

structure Queue where
  unread : List Byte
  /-- Where the writer's window starts and what is in it. -/
  writer : Option (Pointer × List Byte)
  reader : Option Window

/-- What a call may answer, and what it does to the queue. -/
inductive Serves (q : Queue) : Event → Reply → Queue → Prop
  | write (source) (free : q.writer = none) :
      Serves q (.call (.write source)) (.answer (.count source.bytes.length))
        {q with unread := q.unread ++ source.bytes.map some}
  | write_locked (source window) (locked : q.writer = some window) :
      Serves q (.call (.write source)) (.answer (.count 0)) q
  | read (len) (free : q.reader = none) :
      Serves q (.call (.read len)) (.answer (.bytes (q.unread.take len.toNat))) {q with unread := q.unread.drop len.toNat}
  | read_locked (len window) (locked : q.reader = some window) :
      Serves q (.call (.read len)) (.answer (.bytes [])) q
  | peek (len) (free : q.reader = none) :
      Serves q (.call (.peek len)) (.answer (.bytes (q.unread.take len.toNat))) q
  | peek_locked (len window) (locked : q.reader = some window) :
      Serves q (.call (.peek len)) (.answer (.bytes [])) q
  | reserve (n done) (free : done = (q.writer.isNone && q.reader.isNone)) :
      Serves q (.call (.reserve n)) (.answer (.done done)) q
  | clear (done) (free : done = (q.writer.isNone && q.reader.isNone)) :
      Serves q (.call .clear) (.answer (.done done)) {q with unread := if done then [] else q.unread}
  | wlock (len p bytes) (free : q.writer = none) (room : bytes.length = len.toNat) :
      Serves q (.wlock len) (.window (some p) len.toNat) {q with writer := some (p,bytes)}
  | wlock_locked (len window) (locked : q.writer = some window) :
      Serves q (.wlock len) (.window none len.toNat) q
  | put (offset bytes p old) (held : q.writer = some (p,old)) (inside : offset + bytes.length ≤ old.length) :
      Serves q (.put offset bytes) .none {q with writer := some (p,Ring.overwrite old offset (bytes.map some))}
  | put_nothing (offset bytes) (outside : ∀ p old, q.writer = some (p,old) → old.length < offset + bytes.length) :
      Serves q (.put offset bytes) .none q
  /-- The bytes of the window, as many as are asked for: `more` is needed only by a
  caller that asks for more than it was given. -/
  | wunlock (p len bytes more) (held : q.writer = some (p,bytes)) (enough : len.toNat ≤ (bytes ++ more).length) :
      Serves q (.wunlock p len) (.answer (.done true))
        {q with unread := q.unread ++ (bytes ++ more).take len.toNat, writer := none}
  | wunlock_refused (p len) (not : ∀ start bytes, q.writer = some (start,bytes) → p ≠ start ∨ bytes.length < len.toNat) :
      Serves q (.wunlock p len) (.answer (.done false)) q
  | rlock (len p) (free : q.reader = none) :
      Serves q (.rlock len) (.window (some p) (min len.toNat q.unread.length))
        {q with reader := some ⟨p,min len.toNat q.unread.length⟩}
  | rlock_locked (len window) (locked : q.reader = some window) :
      Serves q (.rlock len) (.window none len.toNat) q
  | runlock (p len window) (held : q.reader = some window) (own : p = window.start) (enough : len.toNat ≤ q.unread.length) :
      Serves q (.runlock p len) (.answer (.done true)) {q with unread := q.unread.drop len.toNat, reader := none}
  | runlock_refused (p len) (not : ∀ window, q.reader = some window → p ≠ window.start ∨ window.len < len.toNat) :
      Serves q (.runlock p len) (.answer (.done false)) q

inductive Served : Queue → List Event → List Reply → Queue → Prop
  | nil (q) : Served q [] [] q
  | cons {q event reply mid events replies final} (head : Serves q event reply mid) (rest : Served mid events replies final) :
      Served q (event::events) (reply::replies) final

/-- An unread byte of the buffer is here. -/
def CycBuf.Occupied (buf : CycBuf) (i : Nat) : Prop :=
  if buf._pbeg ≤ buf._pend then buf._pbeg ≤ i ∧ i < buf._pend else buf._pbeg ≤ i ∨ i < buf._pend

/-- The buffer holds the unread bytes, the writer's window is free memory of the block
and has in it what was put there, and the reader's shows the next unread bytes. -/
structure Shows (s : Shared) (q : Queue) : Prop where
  queue : Ring.span s.cyc.buf._data s.cyc.buf._pbeg s.cyc.buf._pend = q.unread
  size : s.cyc.buf.size = q.unread.length
  capacity : q.unread.length ≤ s.cyc.buf.capacity
  writer : s.writer = q.writer.map fun (start,bytes) => ⟨start,bytes.length⟩
  reader : s.reader = q.reader
  writable : ∀ start bytes, q.writer = some (start,bytes) → start.block = s.cyc.block ∧
    start.offset + bytes.length ≤ s.cyc.buf._data.length ∧
    (∀ i, start.offset ≤ i → i < start.offset + bytes.length → ¬s.cyc.buf.Occupied i) ∧
    Ring.slice s.cyc.buf._data start.offset bytes.length = bytes
  readable : ∀ window, q.reader = some window → window.start.block = s.cyc.block ∧
    window.start.offset + window.len ≤ s.cyc.buf._data.length ∧ window.len ≤ q.unread.length ∧
    Ring.slice s.cyc.buf._data window.start.offset window.len = q.unread.take window.len

/-! ### What the calls keep -/

def locks (writer reader : Bool) : UInt32 :=
  (if writer then STATE_WRITE_LOCKED else STATE_NONE) ||| (if reader then STATE_READ_LOCKED else STATE_NONE)

section Locks
variable {buf : CycBuf} {writer reader : Bool} (state : buf._state = locks writer reader)
include state

theorem wlocked_eq : buf.wlocked = writer := by
  rw [CycBuf.wlocked,state]
  cases writer <;> cases reader <;> rfl

theorem rlocked_eq : buf.rlocked = reader := by
  rw [CycBuf.rlocked,state]
  cases writer <;> cases reader <;> rfl

theorem any_locked_eq : buf.any_locked = (writer || reader) := by
  rw [CycBuf.any_locked,wlocked_eq state,rlocked_eq state]

omit state in
theorem locks_write (reader : Bool) : locks false reader ||| STATE_WRITE_LOCKED = locks true reader ∧
    locks true reader &&& ~~~STATE_WRITE_LOCKED = locks false reader := by
  cases reader <;> exact ⟨rfl,rfl⟩

omit state in
theorem locks_read (writer : Bool) : locks writer false ||| STATE_READ_LOCKED = locks writer true ∧
    locks writer true &&& ~~~STATE_READ_LOCKED = locks writer false := by
  cases writer <;> exact ⟨rfl,rfl⟩

end Locks

structure Inv (s : Shared) (q : Queue) : Prop where
  layout : Layout s.cyc.buf q.unread
  state : s.cyc.buf._state = locks q.writer.isSome q.reader.isSome
  writer : s.writer = q.writer.map fun (start,bytes) => ⟨start,bytes.length⟩
  reader : s.reader = q.reader
  writing : ∀ start bytes, q.writer = some (start,bytes) → start = ⟨s.cyc.block,s.cyc.buf._pend⟩ ∧
    s.cyc.buf._pend + bytes.length ≤ s.cyc.buf._total ∧ s.cyc.buf.size + bytes.length < s.cyc.buf._total ∧
    Ring.slice s.cyc.buf._data s.cyc.buf._pend bytes.length = bytes
  reading : ∀ window, q.reader = some window → window.start = ⟨s.cyc.block,s.cyc.buf._pbeg⟩ ∧
    s.cyc.buf._pbeg + window.len ≤ s.cyc.buf._total ∧ window.len ≤ q.unread.length

theorem Inv.shows {s : Shared} {q : Queue} (inv : Inv s q) : Shows s q := by
  have layout := inv.layout
  have block := layout.block
  have last := layout.last
  have smaller := layout.size_lt
  have size := layout.size_eq
  have queue := layout.queue
  refine ⟨queue,size,?_,inv.writer,inv.reader,?_,?_⟩
  · rw [layout.capacity_eq]
    omega
  · intro start bytes held
    obtain ⟨rfl,ends,free,filled⟩ := inv.writing start bytes held
    refine ⟨rfl,?_,?_,filled⟩
    · dsimp only
      omega
    · intro i behind before occupied
      have sized : s.cyc.buf.size = if s.cyc.buf._pbeg ≤ s.cyc.buf._pend then s.cyc.buf._pend - s.cyc.buf._pbeg
        else s.cyc.buf._pend + s.cyc.buf._total - s.cyc.buf._pbeg := rfl
      unfold CycBuf.Occupied at occupied
      dsimp only at behind before
      split at occupied
      · omega
      · rename_i wrapped
        rw [if_neg wrapped] at sized
        omega
  · intro window held
    obtain ⟨start,ends,enough⟩ := inv.reading window held
    rw [start]
    dsimp only
    refine ⟨rfl,by omega,enough,?_⟩
    rw [← queue,Ring.take_span_whole (block ▸ last) (by rwa [queue]) (.inr (by omega)),Ring.slice]

/-! ### Making room in one piece -/

theorem size_relocked (buf : CycBuf) (state : UInt32) : CycBuf.size {buf with _state := state} = buf.size := rfl

theorem Layout.relocked {buf : CycBuf} {unread : List Byte} (layout : Layout buf unread) (state : UInt32) :
    Layout {buf with _state := state} unread :=
  ⟨⟨layout.block,layout.allocated,layout.first,layout.last,layout.queue⟩,layout.aligned,layout.positive,layout.apart⟩

section Fit
variable {cyc : Located} {unread : List Byte} (layout : Layout cyc.buf unread)
include layout

/-- Where there is room for a window at all, the bytes lie straight if it does not fit behind them. -/
theorem fit_write {len : Nat} (room : cyc.buf.size + len < cyc.buf._total) :
    ∃ next, cyc.fit true (cyc.buf._total - cyc.buf._pend) len = .ok (len,next) ∧ Layout next.buf unread ∧
      next.buf._pend + len ≤ next.buf._total ∧ next.buf._total = cyc.buf._total ∧ next.buf._state = cyc.buf._state := by
  have last := layout.last
  have first := layout.first
  rw [Located.fit]
  split
  · rename_i short
    have straight : cyc.buf._pbeg ≤ cyc.buf._pend := by
      by_contra wrapped
      have sized := layout.size_wrapped (Nat.not_le.mp wrapped)
      omega
    obtain ⟨_,next,runs,kept,_,total,state⟩ := layout.repos_spec
    obtain ⟨data,moved,_⟩ := layout.repos_straight straight
    cases runs.symm.trans moved
    rw [moved]
    refine ⟨_,rfl,kept,?_,rfl,rfl⟩
    dsimp only
    omega
  · rename_i fits
    exact ⟨cyc,rfl,layout,by omega,rfl,rfl⟩

theorem fit_read {len : Nat} (enough : len ≤ cyc.buf.size) :
    ∃ next, cyc.fit true (cyc.buf._total - cyc.buf._pbeg) len = .ok (len,next) ∧ Layout next.buf unread ∧
      next.buf._pbeg + len ≤ next.buf._total ∧ next.buf._total = cyc.buf._total ∧ next.buf._state = cyc.buf._state ∧
      (len ≤ cyc.buf._total - cyc.buf._pbeg ∨ cyc.buf._pbeg = cyc.buf._total → next.block = cyc.block ∧
        next.buf._pend = cyc.buf._pend ∧ next.buf._data = cyc.buf._data) := by
  have last := layout.last
  have first := layout.first
  rw [Located.fit]
  split
  · rename_i short
    obtain ⟨renewed,next,runs,kept,straight,total,state⟩ := layout.repos_spec
    have same : next.size = next._pend - next._pbeg := if_pos straight
    have ends := kept.last
    rw [kept.size_eq,← layout.size_eq] at same
    rw [runs]
    refine ⟨_,rfl,kept,?_,total,state,?_⟩
    · dsimp only
      omega
    · intro stays
      have wrapped : cyc.buf._pend < cyc.buf._pbeg := by
        by_contra straight
        have sized : cyc.buf.size = cyc.buf._pend - cyc.buf._pbeg := if_pos (Nat.not_lt.mp straight)
        omega
      have nothing := layout.repos_at_end wrapped (stays.resolve_left (Nat.not_le.mpr short))
      cases runs.symm.trans nothing
      exact ⟨rfl,rfl,rfl⟩
  · rename_i fits
    exact ⟨cyc,rfl,layout,by omega,rfl,rfl,fun _ => ⟨rfl,rfl,rfl⟩⟩

theorem roomier_spec (free : cyc.buf.any_locked = false) {len : Nat} (fits : cyc.buf.size + len + 4 < 2^64) :
    cyc.roomier len = .error (.failure .allocation) ∨ ∃ buf, cyc.roomier len = .ok buf ∧ Layout buf unread ∧
      cyc.buf.size + len < buf._total ∧ buf._state = cyc.buf._state := by
  have smaller := layout.size_lt
  have avail := layout.avail_eq
  rw [Located.roomier]
  split
  · rcases layout.grow_spec free fits with failed | ⟨buf,grows,kept,room,state,_⟩
    · rw [failed]
      exact .inl rfl
    · rw [grows]
      exact .inr ⟨buf,rfl,kept,room,state⟩
  · exact .inr ⟨cyc.buf,rfl,layout,by omega,rfl⟩

theorem wlock_spec (unlocked : cyc.buf.wlocked = false) {len : Nat}
    (meets : if cyc.buf.rlocked then len ≤ cyc.buf.avail ∧ len ≤ cyc.buf._total - cyc.buf._pend
      else cyc.buf.size + len + 4 < 2^64) :
    cyc.wlock true len = .error (.failure .allocation) ∨
      ∃ next, cyc.wlock true len = .ok (some ⟨next.block,next.buf._pend⟩,len,next) ∧ Layout next.buf unread ∧
        next.buf._pend + len ≤ next.buf._total ∧ next.buf.size + len < next.buf._total ∧
        next.buf._state = cyc.buf._state ||| STATE_WRITE_LOCKED ∧
        (cyc.buf.rlocked = true → next.block = cyc.block ∧ next.buf._pbeg = cyc.buf._pbeg ∧ next.buf._total = cyc.buf._total) := by
  have smaller := layout.size_lt
  have last := layout.last
  have avail := layout.avail_eq
  rw [Located.wlock,unlocked,if_neg Bool.false_ne_true]
  by_cases locked : cyc.buf.rlocked = true
  · rw [if_pos locked] at meets
    have kept : cyc.grown cyc.buf = cyc := by rw [Located.grown,if_pos rfl]
    rw [Located.roomier,if_neg (Nat.not_lt.mpr meets.1)]
    dsimp only [bind,Except.bind,pure,Except.pure]
    rw [kept,Located.fit,if_neg (Nat.not_lt.mpr meets.2)]
    refine .inr ⟨{cyc with buf := {cyc.buf with _state := cyc.buf._state ||| STATE_WRITE_LOCKED}},rfl,?_,?_,?_,rfl,
      fun _ => ⟨rfl,rfl,rfl⟩⟩
    · exact layout.relocked _
    · dsimp only
      omega
    · rw [size_relocked]
      dsimp only
      omega
  · rw [if_neg locked] at meets
    have free : cyc.buf.any_locked = false := by
      rw [CycBuf.any_locked,unlocked,Bool.eq_false_of_not_eq_true locked]
      rfl
    rcases roomier_spec layout free meets with failed | ⟨buf,grows,kept,room,state⟩
    · left
      rw [failed]
      rfl
    · have same : buf.size = cyc.buf.size := kept.size_eq.trans layout.size_eq.symm
      have kept' : Layout (cyc.grown buf).buf unread := kept
      obtain ⟨next,fits,after,ends,total,state'⟩ := fit_write kept' (by rwa [← same] at room)
      have room' : next.buf.size + len < next.buf._total := by
        rw [after.size_eq,← layout.size_eq,total]
        exact room
      have fits : (cyc.grown buf).fit true (buf._total - buf._pend) len = .ok (len,next) := fits
      rw [grows]
      dsimp only [bind,Except.bind]
      rw [fits]
      refine .inr ⟨{next with buf := {next.buf with _state := next.buf._state ||| STATE_WRITE_LOCKED}},rfl,after.relocked _,ends,
        ?_,?_,fun reader => absurd reader locked⟩
      · rw [size_relocked]
        exact room'
      · dsimp only
        rw [state',show (cyc.grown buf).buf._state = buf._state from rfl,state]

theorem rlock_spec (unlocked : cyc.buf.rlocked = false) {len : Nat} (meets : cyc.buf.wlocked = true →
      min len cyc.buf.size ≤ cyc.buf._total - cyc.buf._pbeg ∨ cyc.buf._pbeg = cyc.buf._total) :
    ∃ next, cyc.rlock true len = .ok (some ⟨next.block,next.buf._pbeg⟩,min len unread.length,next) ∧ Layout next.buf unread ∧
      next.buf._pbeg + min len unread.length ≤ next.buf._total ∧ next.buf._state = cyc.buf._state ||| STATE_READ_LOCKED ∧
      (cyc.buf.wlocked = true → next.block = cyc.block ∧ next.buf._pend = cyc.buf._pend ∧ next.buf._data = cyc.buf._data ∧
        next.buf._total = cyc.buf._total) := by
  obtain ⟨next,fits,kept,ends,total,state,stays⟩ := fit_read layout (min_le_right len _)
  rw [Located.rlock,unlocked,if_neg Bool.false_ne_true]
  dsimp only [bind,Except.bind,pure,Except.pure]
  rw [fits]
  rw [layout.size_eq] at ends ⊢
  refine ⟨{next with buf := {next.buf with _state := next.buf._state ||| STATE_READ_LOCKED}},rfl,kept.relocked _,ends,?_,?_⟩
  · dsimp only
    rw [state]
  · intro locked
    obtain ⟨block,last,data⟩ := stays (meets locked)
    exact ⟨block,last,data,total⟩

/-! ### Giving the windows back -/

theorem wunlock_spec (locked : cyc.buf.wlocked = true) (p : Pointer) (len : Nat) :
    (∃ next, cyc.wunlock p len = (true,next) ∧ p = ⟨cyc.block,cyc.buf._pend⟩ ∧ cyc.buf._pend + len ≤ cyc.buf._total ∧
      Layout next.buf (unread ++ Ring.slice cyc.buf._data cyc.buf._pend len) ∧ next.block = cyc.block ∧
      next.buf._pbeg = cyc.buf._pbeg ∧ next.buf._total = cyc.buf._total ∧
      next.buf._state = cyc.buf._state &&& ~~~STATE_WRITE_LOCKED) ∨
    cyc.wunlock p len = (false,cyc) ∧
      (p ≠ ⟨cyc.block,cyc.buf._pend⟩ ∨ cyc.buf._total ≤ cyc.buf.size + len ∨ cyc.buf._total < cyc.buf._pend + len) := by
  have smaller := layout.size_lt
  have avail := layout.avail_eq
  have last := layout.last
  have first := layout.first
  have block := layout.block
  rw [Located.wunlock,locked,Bool.not_true,if_neg Bool.false_ne_true]
  split
  · rename_i other
    exact .inr ⟨rfl,.inl other⟩
  rename_i own
  split
  · rename_i short
    exact .inr ⟨rfl,.inr (.inl (by omega))⟩
  rename_i room
  split
  · rename_i short
    exact .inr ⟨rfl,.inr (.inr (by omega))⟩
  rename_i ends
  have sized : cyc.buf.size = if cyc.buf._pbeg ≤ cyc.buf._pend then cyc.buf._pend - cyc.buf._pbeg
    else cyc.buf._pend + cyc.buf._total - cyc.buf._pbeg := rfl
  refine .inl ⟨_,rfl,not_not.mp own,by omega,⟨⟨block,layout.allocated,first,?_,?_⟩,layout.aligned,layout.positive,?_⟩,rfl,rfl,
    rfl,rfl⟩
  · dsimp only
    omega
  · dsimp only
    rw [← layout.queue]
    refine Ring.span_extend (by omega) ?_
    intro wrapped
    rw [if_neg (Nat.not_le.mpr wrapped)] at sized
    omega
  · dsimp only
    split at sized <;> omega

theorem runlock_spec (locked : cyc.buf.rlocked = true) (p : Pointer) (len : Nat) :
    (∃ next, cyc.runlock p len = (true,next) ∧ p = ⟨cyc.block,cyc.buf._pbeg⟩ ∧ len ≤ unread.length ∧
      Layout next.buf (unread.drop len) ∧ next.block = cyc.block ∧ next.buf._pend = cyc.buf._pend ∧
      next.buf._total = cyc.buf._total ∧ next.buf._data = cyc.buf._data ∧
      next.buf._state = cyc.buf._state &&& ~~~STATE_READ_LOCKED) ∨
    cyc.runlock p len = (false,cyc) ∧
      (p ≠ ⟨cyc.block,cyc.buf._pbeg⟩ ∨ unread.length < len ∨ cyc.buf._total < cyc.buf._pbeg + len) := by
  have last := layout.last
  have first := layout.first
  have block := layout.block
  have size := layout.size_eq
  rw [Located.runlock,locked,Bool.not_true,if_neg Bool.false_ne_true]
  split
  · rename_i other
    exact .inr ⟨rfl,.inl other⟩
  rename_i own
  split
  · rename_i short
    exact .inr ⟨rfl,.inr (.inl (by omega))⟩
  rename_i enough
  split
  · rename_i short
    exact .inr ⟨rfl,.inr (.inr (by omega))⟩
  rename_i ends
  refine .inl ⟨_,rfl,not_not.mp own,by omega,⟨⟨block,layout.allocated,?_,last,?_⟩,layout.aligned,layout.positive,?_⟩,rfl,rfl,
    rfl,rfl,rfl⟩
  · dsimp only
    omega
  · dsimp only
    rw [← layout.queue]
    refine (Ring.drop_span ?_ (by omega)).symm
    intro straight
    have sized : cyc.buf.size = cyc.buf._pend - cyc.buf._pbeg := if_pos straight
    omega
  · intro start
    exact layout.apart (Nat.eq_zero_of_add_eq_zero_right start)

theorem put_spec {offset : Nat} {bytes : List UInt8} (behind : cyc.buf._pend + (offset + bytes.length) ≤ cyc.buf._total)
    (room : cyc.buf.size + (offset + bytes.length) < cyc.buf._total) :
    let data := Ring.overwrite cyc.buf._data (cyc.buf._pend + offset) (bytes.map some)
    cyc.put ⟨cyc.block,cyc.buf._pend + offset⟩ bytes = .ok {cyc with buf := {cyc.buf with _data := data}} ∧
      Layout {cyc.buf with _data := data} unread := by
  have block := layout.block
  have length : (bytes.map some).length = bytes.length := List.length_map _
  have fits : cyc.buf._pend + offset + (bytes.map some).length ≤ cyc.buf._data.length := by omega
  refine ⟨?_,⟨(Ring.length_overwrite fits).trans block,layout.allocated,layout.first,layout.last,?_⟩,layout.aligned,
    layout.positive,layout.apart⟩
  · rw [Located.put,store_ok fits]
    dsimp only
    rw [if_neg (not_not.mpr rfl)]
    rfl
  · dsimp only
    rw [← layout.queue]
    apply Ring.span_overwrite_free fits (Nat.le_add_right ..)
    intro wrapped
    have sized := layout.size_wrapped wrapped
    have first := layout.first
    omega

end Fit

/-! ### Runs -/

/-- Where the code keeps the windows apart: growing or rearranging under the other
lock, a size that wraps, and the read that `size` cannot tell from a full block. -/
def Apart (s : Shared) : Event → Prop
  | .call (.write source) => s.cyc.buf.wlocked = true ∨ s.cyc.buf.rlocked = false ∨ source.bytes.length ≤ s.cyc.buf.avail
  | .call (.read len) => s.cyc.buf.rlocked = true ∨ (s.cyc.buf._pend = s.cyc.buf._total → len.toNat < s.cyc.buf.size)
  | .wlock len => s.cyc.buf.wlocked = true ∨
    if s.cyc.buf.rlocked then len.toNat ≤ s.cyc.buf.avail ∧ len.toNat ≤ s.cyc.buf._total - s.cyc.buf._pend
    else s.cyc.buf.size + len.toNat + 4 < 2^64
  | .rlock len => s.cyc.buf.rlocked = true ∨ s.cyc.buf.wlocked = false ∨
    min len.toNat s.cyc.buf.size ≤ s.cyc.buf._total - s.cyc.buf._pbeg ∨ s.cyc.buf._pbeg = s.cyc.buf._total
  | _ => True

namespace Inv
variable {s : Shared} {q : Queue} (inv : Inv s q)
include inv

/-- A call between whose two states the windows of both users stay where they are. -/
theorem call_kept {buf : CycBuf} {unread : List Byte} (layout : Layout buf unread) (state : buf._state = s.cyc.buf._state)
    (total : q.writer.isSome ∨ q.reader.isSome → buf._total = s.cyc.buf._total)
    (writing : q.writer.isSome → buf._pend = s.cyc.buf._pend ∧ buf._data = s.cyc.buf._data ∧ buf.size ≤ s.cyc.buf.size)
    (reading : q.reader.isSome → buf._pbeg = s.cyc.buf._pbeg ∧ q.unread.length ≤ unread.length) :
    Inv {s with cyc := s.cyc.grown buf} {q with unread} := by
  refine ⟨layout,state.trans inv.state,inv.writer,inv.reader,?_,?_⟩
  · intro start bytes held
    have locked : q.writer.isSome := Option.isSome_of_eq_some held
    obtain ⟨own,ends,room,filled⟩ := inv.writing start bytes held
    obtain ⟨last,data,size⟩ := writing locked
    have same := total (.inl locked)
    rw [Located.grown,if_pos same]
    dsimp only
    rw [last,data,same]
    exact ⟨own,ends,by omega,filled⟩
  · intro window held
    have locked : q.reader.isSome := Option.isSome_of_eq_some held
    obtain ⟨own,ends,enough⟩ := inv.reading window held
    obtain ⟨first,longer⟩ := reading locked
    have same := total (.inr locked)
    rw [Located.grown,if_pos same]
    dsimp only
    rw [first,same]
    exact ⟨own,ends,enough.trans longer⟩

theorem unchanged : Inv {s with cyc := s.cyc.grown s.cyc.buf} q :=
  inv.call_kept inv.layout rfl (fun _ => rfl) (fun _ => ⟨rfl,rfl,le_rfl⟩) (fun _ => ⟨rfl,le_rfl⟩)

theorem write_spec (source : Object) (meets : Apart s (.call (.write source))) :
    s.step (.call (.write source)) = .error (.failure .allocation) ∨
      ∃ reply next q', s.step (.call (.write source)) = .ok (reply,next) ∧ Serves q (.call (.write source)) reply q' ∧ Inv next q' := by
  have wlocked := wlocked_eq inv.state
  have rlocked := rlocked_eq inv.state
  cases held : q.writer with
  | some window =>
    have locked : s.cyc.buf.wlocked = true := by rw [wlocked,held]; rfl
    refine .inr ⟨_,_,q,?_,.write_locked source window held,inv.unchanged⟩
    rw [Shared.step,CycBuf.call,CycBuf.write,if_pos locked]
    rfl
  | none =>
    have free : s.cyc.buf.wlocked = false := by rw [wlocked,held]; rfl
    have room : s.cyc.buf.rlocked = true → source.bytes.length ≤ s.cyc.buf.avail := by
      intro locked
      rcases meets with write | read | fits
      · exact absurd (free.symm.trans write) Bool.false_ne_true
      · exact absurd (read.symm.trans locked) Bool.false_ne_true
      · exact fits
    rcases inv.layout.write_spec free source room with failed | ⟨next,writes,layout,state,_,stays⟩
    · left
      rw [Shared.step,CycBuf.call,failed]
      rfl
    · refine .inr ⟨_,_,_,?_,.write source held,inv.call_kept layout state ?_ ?_ ?_⟩
      · rw [Shared.step,CycBuf.call,writes]
        rfl
      · rintro (writer | reader)
        · rw [held] at writer
          cases writer
        · exact (stays (rlocked.trans reader)).2
      · intro writer
        rw [held] at writer
        cases writer
      · intro reader
        refine ⟨(stays (rlocked.trans reader)).1,?_⟩
        rw [List.length_append]
        exact Nat.le_add_right ..

theorem read_spec (len : UInt64) (meets : Apart s (.call (.read len))) :
    ∃ reply next q', s.step (.call (.read len)) = .ok (reply,next) ∧ Serves q (.call (.read len)) reply q' ∧ Inv next q' := by
  have rlocked := rlocked_eq inv.state
  cases held : q.reader with
  | some window =>
    have locked : s.cyc.buf.rlocked = true := by rw [rlocked,held]; rfl
    refine ⟨_,_,q,?_,.read_locked len window held,inv.unchanged⟩
    rw [Shared.step,CycBuf.call,CycBuf.read,if_pos locked]
    rfl
  | none =>
    have free : s.cyc.buf.rlocked = false := by rw [rlocked,held]; rfl
    have short := meets.resolve_left (by rw [free]; exact Bool.false_ne_true)
    obtain ⟨first,reads,layout,_⟩ := inv.layout.read_spec free short
    refine ⟨_,_,_,?_,.read len held,inv.call_kept layout rfl (fun _ => rfl) (fun _ => ⟨rfl,rfl,?_⟩) ?_⟩
    · rw [Shared.step,CycBuf.call,reads]
      rfl
    · rw [layout.size_eq,inv.layout.size_eq,List.length_drop]
      exact Nat.sub_le ..
    · intro reader
      rw [held] at reader
      cases reader

theorem peek_spec (len : UInt64) :
    ∃ reply next q', s.step (.call (.peek len)) = .ok (reply,next) ∧ Serves q (.call (.peek len)) reply q' ∧ Inv next q' := by
  have rlocked := rlocked_eq inv.state
  cases held : q.reader with
  | some window =>
    have locked : s.cyc.buf.rlocked = true := by rw [rlocked,held]; rfl
    refine ⟨_,_,q,?_,.peek_locked len window held,inv.unchanged⟩
    rw [Shared.step,CycBuf.call,CycBuf.peek,if_pos locked]
    rfl
  | none =>
    have free : s.cyc.buf.rlocked = false := by rw [rlocked,held]; rfl
    refine ⟨_,_,q,?_,.peek len held,inv.unchanged⟩
    rw [Shared.step,CycBuf.call,inv.layout.peek_eq free]
    rfl

theorem any_free : (!s.cyc.buf.any_locked) = (q.writer.isNone && q.reader.isNone) := by
  rw [any_locked_eq inv.state,Bool.not_or,Option.not_isSome,Option.not_isSome]

/-- Without a lock there is no window to keep. -/
theorem unlocked_kept (free : s.cyc.buf.any_locked = false) {buf : CycBuf} {unread : List Byte} (layout : Layout buf unread)
    (state : buf._state = s.cyc.buf._state) : Inv {s with cyc := s.cyc.grown buf} {q with unread} := by
  have none_held : q.writer.isSome = false ∧ q.reader.isSome = false := by
    rw [any_locked_eq inv.state] at free
    exact Bool.or_eq_false_iff.mp free
  refine inv.call_kept layout state ?_ ?_ ?_
  · rintro (writer | reader)
    · exact absurd (none_held.1.symm.trans writer) Bool.false_ne_true
    · exact absurd (none_held.2.symm.trans reader) Bool.false_ne_true
  · intro writer
    exact absurd (none_held.1.symm.trans writer) Bool.false_ne_true
  · intro reader
    exact absurd (none_held.2.symm.trans reader) Bool.false_ne_true

theorem reserve_spec (n : UInt64) : s.step (.call (.reserve n)) = .error (.failure .allocation) ∨
    ∃ reply next q', s.step (.call (.reserve n)) = .ok (reply,next) ∧ Serves q (.call (.reserve n)) reply q' ∧ Inv next q' := by
  have any_free := inv.any_free
  by_cases locked : s.cyc.buf.any_locked = true
  · rw [locked] at any_free
    refine .inr ⟨_,_,q,?_,.reserve n false any_free,inv.unchanged⟩
    rw [Shared.step,CycBuf.call,CycBuf.reserve,if_pos locked]
    rfl
  · have free := Bool.eq_false_of_not_eq_true locked
    rw [free] at any_free
    rcases inv.layout.reserve_spec free n.toNat with failed | ⟨next,reserves,layout,_,state,_⟩
    · left
      rw [Shared.step,CycBuf.call,failed]
      rfl
    · refine .inr ⟨_,_,q,?_,.reserve n true any_free,inv.unlocked_kept free layout state⟩
      rw [Shared.step,CycBuf.call,reserves]
      rfl

theorem clear_spec : ∃ reply next q', s.step (.call .clear) = .ok (reply,next) ∧ Serves q (.call .clear) reply q' ∧ Inv next q' := by
  have any_free := inv.any_free
  by_cases locked : s.cyc.buf.any_locked = true
  · rw [locked] at any_free
    refine ⟨_,_,_,?_,.clear false any_free,inv.unchanged⟩
    rw [Shared.step,CycBuf.call,CycBuf.clear,if_pos locked]
    rfl
  · have free := Bool.eq_false_of_not_eq_true locked
    rw [free] at any_free
    obtain ⟨clears,layout⟩ := inv.layout.clear_spec free
    refine ⟨_,_,_,?_,.clear true any_free,inv.unlocked_kept free layout rfl⟩
    rw [Shared.step,CycBuf.call,clears]
    rfl

theorem wlock_spec (len : UInt64) (meets : Apart s (.wlock len)) : s.step (.wlock len) = .error (.failure .allocation) ∨
    ∃ reply next q', s.step (.wlock len) = .ok (reply,next) ∧ Serves q (.wlock len) reply q' ∧ Inv next q' := by
  have wlocked := wlocked_eq inv.state
  have rlocked := rlocked_eq inv.state
  have state := inv.state
  cases held : q.writer with
  | some window =>
    have locked : s.cyc.buf.wlocked = true := by rw [wlocked,held]; rfl
    refine .inr ⟨_,s,q,?_,.wlock_locked len window held,inv⟩
    rw [Shared.step,Located.wlock,if_pos locked]
    rfl
  | none =>
    have free : s.cyc.buf.wlocked = false := by rw [wlocked,held]; rfl
    rw [held] at state
    rcases Migfm.Comm.wlock_spec inv.layout free (meets.resolve_left (by rw [free]; exact Bool.false_ne_true)) with
      failed | ⟨next,locks,layout,ends,room,after,stays⟩
    · left
      rw [Shared.step,failed]
      rfl
    · have block := layout.block
      have length : (Ring.slice next.buf._data next.buf._pend len.toNat).length = len.toNat := Ring.length_slice (by omega)
      refine .inr ⟨_,⟨next,some ⟨⟨next.block,next.buf._pend⟩,len.toNat⟩,s.reader⟩,_,?_,
        .wlock len ⟨next.block,next.buf._pend⟩ _ held length,layout,?_,?_,inv.reader,?_,?_⟩
      · rw [Shared.step,locks]
        rfl
      · dsimp only
        rw [after,state]
        exact (locks_write _).1
      · dsimp only [Option.map]
        rw [length]
      · rintro start bytes ⟨⟩
        rw [length]
        exact ⟨rfl,ends,room,rfl⟩
      · intro window reader
        obtain ⟨own,fits,enough⟩ := inv.reading window reader
        obtain ⟨same,first,total⟩ := stays (rlocked.trans (Option.isSome_of_eq_some reader))
        dsimp only
        rw [same,first,total]
        exact ⟨own,fits,enough⟩

theorem rlock_spec (len : UInt64) (meets : Apart s (.rlock len)) :
    ∃ reply next q', s.step (.rlock len) = .ok (reply,next) ∧ Serves q (.rlock len) reply q' ∧ Inv next q' := by
  have wlocked := wlocked_eq inv.state
  have rlocked := rlocked_eq inv.state
  have state := inv.state
  cases held : q.reader with
  | some window =>
    have locked : s.cyc.buf.rlocked = true := by rw [rlocked,held]; rfl
    refine ⟨_,s,q,?_,.rlock_locked len window held,inv⟩
    rw [Shared.step,Located.rlock,if_pos locked]
    rfl
  | none =>
    have free : s.cyc.buf.rlocked = false := by rw [rlocked,held]; rfl
    rw [held] at state
    have together : s.cyc.buf.wlocked = true →
        min len.toNat s.cyc.buf.size ≤ s.cyc.buf._total - s.cyc.buf._pbeg ∨ s.cyc.buf._pbeg = s.cyc.buf._total := by
      intro locked
      rcases meets with read | write | fits
      · exact absurd (free.symm.trans read) Bool.false_ne_true
      · exact absurd (write.symm.trans locked) Bool.false_ne_true
      · exact fits
    obtain ⟨next,locks,layout,ends,after,stays⟩ := Migfm.Comm.rlock_spec inv.layout free together
    refine ⟨_,⟨next,s.writer,some ⟨⟨next.block,next.buf._pbeg⟩,min len.toNat q.unread.length⟩⟩,_,?_,
      .rlock len ⟨next.block,next.buf._pbeg⟩ held,layout,?_,inv.writer,rfl,?_,?_⟩
    · rw [Shared.step,locks]
      rfl
    · dsimp only
      rw [after,state]
      exact (locks_read _).1
    · intro start bytes writer
      obtain ⟨own,fits,room,filled⟩ := inv.writing start bytes writer
      obtain ⟨same,last,data,total⟩ := stays (wlocked.trans (Option.isSome_of_eq_some writer))
      dsimp only
      rw [same,last,data,total,layout.size_eq,← inv.layout.size_eq]
      exact ⟨own,fits,room,filled⟩
    · rintro window ⟨⟩
      exact ⟨rfl,ends,min_le_right ..⟩

theorem wunlock_spec (p : Pointer) (len : UInt64) :
    ∃ reply next q', s.step (.wunlock p len) = .ok (reply,next) ∧ Serves q (.wunlock p len) reply q' ∧ Inv next q' := by
  have wlocked := wlocked_eq inv.state
  have state := inv.state
  cases held : q.writer with
  | none =>
    have free : s.cyc.buf.wlocked = false := by rw [wlocked,held]; rfl
    refine ⟨_,s,q,?_,.wunlock_refused p len ?_,inv⟩
    · rw [Shared.step,Located.wunlock,free]
      rfl
    · rintro start bytes writer
      rw [held] at writer
      cases writer
  | some window =>
    obtain ⟨start,bytes⟩ := window
    have locked : s.cyc.buf.wlocked = true := by rw [wlocked,held]; rfl
    obtain ⟨rfl,fits,room,filled⟩ := inv.writing start bytes held
    rw [held] at state
    rcases Migfm.Comm.wunlock_spec inv.layout locked p len.toNat with
      ⟨next,unlocks,rfl,ends,layout,block,first,total,after⟩ | ⟨refused,why⟩
    · -- the window's bytes, and behind them what else is asked for
      have longer : bytes ++ Ring.slice s.cyc.buf._data (s.cyc.buf._pend + bytes.length) (len.toNat - bytes.length) =
          Ring.slice s.cyc.buf._data s.cyc.buf._pend (bytes.length + (len.toNat - bytes.length)) := by
        rw [Ring.slice_append,filled]
      have taken : Ring.slice s.cyc.buf._data s.cyc.buf._pend len.toNat =
          (bytes ++ Ring.slice s.cyc.buf._data (s.cyc.buf._pend + bytes.length) (len.toNat - bytes.length)).take len.toNat := by
        rw [longer,Ring.slice,Ring.slice,List.take_take,min_eq_left (by omega)]
      have whole := inv.layout.block
      rw [taken] at layout
      refine ⟨_,⟨next,none,s.reader⟩,_,?_,.wunlock _ len bytes _ held ?_,layout,?_,rfl,inv.reader,?_,?_⟩
      · rw [Shared.step,unlocks]
        rfl
      · rw [longer,Ring.length_slice (by omega)]
        omega
      · dsimp only
        rw [after,state]
        exact (locks_write _).2
      · rintro _ _ ⟨⟩
      · intro window reader
        obtain ⟨own,fits,enough⟩ := inv.reading window reader
        dsimp only
        rw [block,first,total,List.length_append]
        exact ⟨own,fits,enough.trans (Nat.le_add_right ..)⟩
    · refine ⟨_,s,q,?_,.wunlock_refused p len ?_,inv⟩
      · rw [Shared.step,refused]
        rfl
      · rintro start other writer
        cases held.symm.trans writer
        rcases why with other | full | ends
        · exact .inl other
        · right
          omega
        · right
          omega

theorem runlock_spec (p : Pointer) (len : UInt64) :
    ∃ reply next q', s.step (.runlock p len) = .ok (reply,next) ∧ Serves q (.runlock p len) reply q' ∧ Inv next q' := by
  have rlocked := rlocked_eq inv.state
  have state := inv.state
  cases held : q.reader with
  | none =>
    have free : s.cyc.buf.rlocked = false := by rw [rlocked,held]; rfl
    refine ⟨_,s,q,?_,.runlock_refused p len ?_,inv⟩
    · rw [Shared.step,Located.runlock,free]
      rfl
    · rintro window reader
      rw [held] at reader
      cases reader
  | some window =>
    have locked : s.cyc.buf.rlocked = true := by rw [rlocked,held]; rfl
    obtain ⟨own,fits,enough⟩ := inv.reading window held
    rw [held] at state
    rcases Migfm.Comm.runlock_spec inv.layout locked p len.toNat with
      ⟨next,unlocks,same,short,layout,block,last,total,data,after⟩ | ⟨refused,why⟩
    · refine ⟨_,⟨next,s.writer,none⟩,_,?_,.runlock p len window held (same.trans own.symm) short,layout,?_,inv.writer,rfl,?_,?_⟩
      · rw [Shared.step,unlocks]
        rfl
      · dsimp only
        rw [after,state]
        exact (locks_read _).2
      · intro start bytes writer
        obtain ⟨own,fits,room,filled⟩ := inv.writing start bytes writer
        have size := inv.layout.size_eq
        dsimp only
        rw [block,last,total,data,layout.size_eq,List.length_drop]
        exact ⟨own,fits,by omega,filled⟩
      · rintro _ ⟨⟩
    · refine ⟨_,s,q,?_,.runlock_refused p len ?_,inv⟩
      · rw [Shared.step,refused]
        rfl
      · rintro other reader
        cases held.symm.trans reader
        rcases why with foreign | short | ends
        · left
          rwa [own]
        · right
          omega
        · right
          omega

theorem put_spec (offset : Nat) (bytes : List UInt8) :
    ∃ reply next q', s.step (.put offset bytes) = .ok (reply,next) ∧ Serves q (.put offset bytes) reply q' ∧ Inv next q' := by
  have writer := inv.writer
  cases held : q.writer with
  | none =>
    rw [held] at writer
    refine ⟨_,s,q,?_,.put_nothing offset bytes ?_,inv⟩
    · rw [Shared.step,writer]
      rfl
    · intro p old other
      rw [held] at other
      cases other
  | some window =>
    obtain ⟨start,old⟩ := window
    rw [held] at writer
    obtain ⟨rfl,fits,room,filled⟩ := inv.writing start old held
    by_cases outside : old.length < offset + bytes.length
    · refine ⟨_,s,q,?_,.put_nothing offset bytes ?_,inv⟩
      · rw [Shared.step,writer]
        dsimp only [Option.map]
        rw [if_pos outside]
        rfl
      · intro p other same
        cases held.symm.trans same
        exact outside
    · have inside := Nat.not_lt.mp outside
      have block := inv.layout.block
      have length : (bytes.map some).length = bytes.length := List.length_map _
      obtain ⟨puts,layout⟩ := Migfm.Comm.put_spec inv.layout (by omega : s.cyc.buf._pend + (offset + bytes.length) ≤ _) (by omega)
      have written := @Ring.length_overwrite _ old (bytes.map some) offset (by omega)
      refine ⟨_,{s with cyc := {s.cyc with buf := {s.cyc.buf with _data := _}}},_,?_,.put offset bytes _ old held inside,layout,?_,?_,inv.reader,?_,?_⟩
      · rw [Shared.step,writer]
        dsimp only [Option.map]
        rw [if_neg outside]
        dsimp only [bind,Except.bind]
        rw [puts]
        rfl
      · have state := inv.state
        rw [held] at state
        exact state
      · dsimp only
        rw [writer]
        dsimp only [Option.map]
        rw [written]
      · rintro start new ⟨⟩
        rw [written]
        refine ⟨rfl,fits,room,?_⟩
        dsimp only
        rw [Ring.slice_overwrite_inside (by omega) (by omega),filled]
      · intro window reader
        exact inv.reading window reader

theorem step_spec (event : Event) (meets : Apart s event) : s.step event = .error (.failure .allocation) ∨
    ∃ reply next q', s.step event = .ok (reply,next) ∧ Serves q event reply q' ∧ Inv next q' := by
  cases event with
  | call call =>
    cases call with
    | write source => exact inv.write_spec source meets
    | read len => exact .inr (inv.read_spec len meets)
    | peek len => exact .inr (inv.peek_spec len)
    | reserve n => exact inv.reserve_spec n
    | clear => exact .inr inv.clear_spec
  | wlock len => exact inv.wlock_spec len meets
  | put offset bytes => exact .inr (inv.put_spec offset bytes)
  | wunlock p len => exact .inr (inv.wunlock_spec p len)
  | rlock len => exact .inr (inv.rlock_spec len meets)
  | runlock p len => exact .inr (inv.runlock_spec p len)

end Inv

/-- The state after a call that returns. -/
def Shared.next (s : Shared) (event : Event) : Option Shared :=
  match s.step event with
  | .ok (_,next) => some next
  | .error _ => none

theorem Inv.run_spec {s : Shared} {q : Queue} (inv : Inv s q) {events : List Event}
    (meets : Runs.Along Shared.next Apart s events) : s.run events = .error (.failure .allocation) ∨
      ∃ replies final q', s.run events = .ok (replies,final) ∧ Served q events replies q' ∧ Inv final q' := by
  induction events generalizing s q with
  | nil => exact .inr ⟨[],s,q,rfl,.nil q,inv⟩
  | cons event events ih =>
    obtain ⟨meets,rest⟩ := meets
    rcases inv.step_spec event meets with failed | ⟨reply,next,mid,returns,serves,kept⟩
    · left
      rw [Shared.run,failed]
      rfl
    · have stepped : s.next event = some next := by rw [Shared.next,returns]
      rw [Shared.run,returns]
      dsimp only [bind,Except.bind]
      rcases ih kept (rest next stepped) with failed | ⟨replies,final,q',runs,served,ends⟩
      · left
        rw [failed]
      · refine .inr ⟨reply::replies,final,q',?_,.cons serves served,ends⟩
        rw [runs]
        rfl

/-- A buffer nobody has locked. -/
def opened (buf : CycBuf) : Shared := ⟨⟨buf,0⟩,none,none⟩

def Queue.empty : Queue := ⟨[],none,none⟩

/-- Unless an allocation fails, every call answers as the queue does, and the windows
show it in the end. -/
def Keeps (buf : CycBuf) (events : List Event) : Prop :=
  (opened buf).run events = .error (.failure .allocation) ∨
    ∃ replies final q, (opened buf).run events = .ok (replies,final) ∧ Served .empty events replies q ∧ Shows final q

theorem windows_kept (size : UInt64) (room : size.toNat + 4 < 2^64) (buf : CycBuf)
    (created : CycBuf.create size.toNat = .ok buf) (events : List Event)
    (meets : Runs.Along Shared.next Apart (opened buf) events) : Keeps buf events := by
  obtain ⟨layout,state,_⟩ := create_layout room created
  have inv : Inv (opened buf) .empty := by
    refine ⟨layout,state,rfl,rfl,?_,?_⟩
    · rintro _ _ ⟨⟩
    · rintro _ ⟨⟩
  rcases inv.run_spec meets with failed | ⟨replies,final,q,runs,served,kept⟩
  · exact .inl failed
  · exact .inr ⟨replies,final,q,runs,served,kept.shows⟩

theorem one_window_kept : Keeps smallBuf [.wlock 2,.put 0 [7],.wunlock ⟨0,0⟩ 1] :=
  windows_kept 3 (by decide) smallBuf rfl _ ⟨.inr (by decide),fun _ _ => ⟨trivial,fun _ _ => ⟨trivial,fun _ _ => trivial⟩⟩⟩

/-- A write that finds no room under the reader's lock. -/
theorem write_through_window : CycBuf.create 3 = .ok smallBuf ∧
    ¬Keeps smallBuf [.call (.write abc),.rlock 3,.call (.write ⟨[1,2],by decide⟩)] := by
  refine ⟨rfl,?_⟩
  rintro (failed | ⟨replies,final,q,runs,_,shows⟩)
  · cases failed
  · cases runs
    have window := shows.readable ⟨⟨0,0⟩,3⟩ (shows.reader ▸ rfl)
    have size := shows.size
    have short : q.unread.length = 1 := size.symm
    have long : 3 ≤ q.unread.length := window.2.2.1
    omega

end Migfm.Comm
