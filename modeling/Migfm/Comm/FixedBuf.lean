import Migfm.Comm.Windows

/-! `fixed_buf` of public/comm/buffer.h with `HalfGrowPolicy`: the unread bytes are at the start of the block, and a read
moves the rest there. -/
namespace Migfm.Comm
open Library

structure FixedBuf where
  _data : List Byte
  /-- Which block `_data` is. -/
  block : Nat
  _total : Nat
  _ppos : Nat
  _state : UInt32

namespace FixedBuf

def create (size : Nat) : Except Failure FixedBuf := do
  let _total := DWORDAlign size
  let _data ← newBlock _total
  return {_data,block := 0,_total,_ppos := 0,_state := STATE_NONE}

variable (buf : FixedBuf)

def size : Nat := buf._ppos

def capacity : Nat := buf._total

def avail : Nat := word (buf.capacity + 2^64 - buf.size)

def wlocked : Bool := buf._state &&& STATE_WRITE_LOCKED != 0

def rlocked : Bool := buf._state &&& STATE_READ_LOCKED != 0

def any_locked : Bool := buf.wlocked || buf.rlocked

def reserve (n : Nat) : Except Failure (Bool × FixedBuf) :=
  let n := DWORDAlign n
  if buf.any_locked then .ok (false,buf)
  else if n ≤ buf._total then .ok (true,buf)
  else do
    let pnew ← newBlock n
    let bytes ← load buf._data 0 buf.size
    let _data ← store pnew 0 bytes
    return (true,{buf with _data, block := buf.block + 1, _total := n, _ppos := buf.size})

def _grow (inc : Nat) : Except Failure FixedBuf := do
  let (_,grown) ← buf.reserve (HalfGrowPolicy.grow_size buf.capacity inc)
  return grown

/-- The growth of `write` and `wlock`, whose refusal goes unnoticed. -/
def roomier (len : Nat) : Except Failure FixedBuf :=
  if buf.avail < len then buf._grow (len - buf.avail) else .ok buf

def peek (len : Nat) : Except Failure (List Byte) :=
  if buf.rlocked then .ok [] else load buf._data 0 (min len buf.size)

/-- The `memmove` of `read`. -/
def drop (len : Nat) : Except Failure FixedBuf := do
  let rest ← load buf._data len (buf.size - len)
  let _data ← store buf._data 0 rest
  return {buf with _data, _ppos := buf._ppos - len}

def read (len : Nat) : Except Failure (List Byte × FixedBuf) :=
  if buf.rlocked then .ok ([],buf)
  else do
    let bytes ← buf.peek len
    let next ← buf.drop bytes.length
    return (bytes,next)

def write (bytes : List Byte) : Except Failure (Nat × FixedBuf) :=
  if buf.wlocked then .ok (0,buf)
  else do
    let grown ← buf.roomier bytes.length
    let len := min bytes.length grown.avail
    let _data ← store grown._data grown._ppos (bytes.take len)
    return (len,{grown with _data, _ppos := grown._ppos + len})

def wlock (len : Nat) : Except Failure (Option Pointer × FixedBuf) :=
  if buf.wlocked then .ok (none,buf)
  else do
    let grown ← buf.roomier len
    return (some ⟨grown.block,grown._ppos⟩,{grown with _state := grown._state ||| STATE_WRITE_LOCKED})

def wunlock (p : Pointer) (len : Nat) : Bool × FixedBuf :=
  if !buf.wlocked then (false,buf)
  else if p ≠ ⟨buf.block,buf._ppos⟩ then (false,buf)
  else if buf.avail < len then (false,buf)
  else (true,{buf with _ppos := buf._ppos + len, _state := buf._state &&& ~~~STATE_WRITE_LOCKED})

/-- A copy by the caller to where a pointer leads. -/
def put (p : Pointer) (bytes : List UInt8) : Except Failure FixedBuf := do
  if p.block ≠ buf.block then .error .outside
  let _data ← store buf._data p.offset (bytes.map some)
  return {buf with _data}

def clear : Bool × FixedBuf := if buf.any_locked then (false,buf) else (true,{buf with _ppos := 0})

end FixedBuf

/-- The C string at the start of a block, where the block has one. -/
def stringAt : List Byte → Option (List UInt8)
  | [] => none
  | none::_ => none
  | some byte::rest => if byte = 0 then some [] else (stringAt rest).map (byte::·)

theorem stringAt_ended {block : List Byte} {text : List UInt8} {n : Nat} (ended : block.take n = (text ++ [0]).map some) :
    stringAt block = some (text.takeWhile (· ≠ 0)) := by
  induction text generalizing block n with
  | nil =>
    obtain ⟨rest,rfl⟩ : ∃ rest, block = some 0::rest := by
      cases block with
      | nil =>
        rw [List.take_nil] at ended
        cases ended
      | cons byte block =>
        cases n with
        | zero => cases ended
        | succ n => exact ⟨block,congrArg (·::block) (List.cons.inj ended).1⟩
    rfl
  | cons byte text ih =>
    cases block with
    | nil =>
      rw [List.take_nil] at ended
      cases ended
    | cons first block =>
      cases n with
      | zero => cases ended
      | succ n =>
        obtain ⟨rfl,rest⟩ := List.cons.inj ended
        rw [stringAt,ih rest]
        by_cases zero : byte = 0
        · rw [if_pos zero,List.takeWhile_cons_of_neg (by simpa using zero)]
        · rw [if_neg zero,List.takeWhile_cons_of_pos (by simpa using zero)]
          rfl

/-- The unread bytes are at the start of the block, whatever is locked. -/
structure FixedBuf.Placed (buf : FixedBuf) (unread : List UInt8) : Prop where
  block : buf._data.length = buf._total
  allocated : buf._total < 2^63
  aligned : 4 ∣ buf._total
  inside : buf._ppos ≤ buf._total
  queue : buf._data.take buf._ppos = unread.map some

namespace FixedBuf.Placed
variable {buf : FixedBuf} {unread : List UInt8} (placed : Placed buf unread)
include placed

theorem size_eq : buf.size = unread.length := by
  have length := congrArg List.length placed.queue
  rw [List.length_take,List.length_map,placed.block,min_eq_left placed.inside] at length
  exact length

theorem avail_eq : buf.avail = buf._total - buf._ppos := by
  have inside := placed.inside
  have allocated := placed.allocated
  unfold FixedBuf.avail FixedBuf.capacity FixedBuf.size word
  omega

theorem relocked (state : UInt32) : Placed {buf with _state := state} unread :=
  ⟨placed.block,placed.allocated,placed.aligned,placed.inside,placed.queue⟩

/-- Some of the unread bytes, from one of them on. -/
theorem load_unread {offset len : Nat} (inside : offset + len ≤ buf._ppos) :
    load buf._data offset len = .ok (((unread.drop offset).take len).map some) := by
  have ends := placed.block ▸ inside.trans placed.inside
  rw [load_ok ends,Ring.slice,List.map_take,List.map_drop,← placed.queue,List.drop_take,List.take_take,
    min_eq_left (Nat.le_sub_of_add_le' inside)]

/-- Bytes behind the unread ones. -/
theorem store_behind {bytes : List UInt8} (room : buf._ppos + bytes.length ≤ buf._total) :
    ∃ _data, store buf._data buf._ppos (bytes.map some) = .ok _data ∧
      Placed {buf with _data, _ppos := buf._ppos + bytes.length} (unread ++ bytes) := by
  have length : (bytes.map some).length = bytes.length := List.length_map _
  have fits : buf._ppos + (bytes.map some).length ≤ buf._data.length := by rwa [length,placed.block]
  refine ⟨_,store_ok fits,?_,placed.allocated,placed.aligned,room,?_⟩
  · exact (Ring.length_overwrite fits).trans placed.block
  · have written := Ring.take_overwrite_end fits
    rw [length,placed.queue,← List.map_append] at written
    exact written

theorem peek_eq (unlocked : buf.rlocked = false) (len : Nat) : buf.peek len = .ok ((unread.take len).map some) := by
  have inside : 0 + min len buf.size ≤ buf._ppos := by
    rw [Nat.zero_add]
    exact Nat.min_le_right ..
  rw [FixedBuf.peek,unlocked,if_neg Bool.false_ne_true,placed.load_unread inside,List.drop_zero,placed.size_eq,
    ← List.take_eq_take_min]

theorem drop_spec {len : Nat} (short : len ≤ unread.length) :
    ∃ next, buf.drop len = .ok next ∧ Placed next (unread.drop len) ∧ next._state = buf._state := by
  have size := placed.size_eq
  have whole : buf._ppos = unread.length := size
  have inside := placed.inside
  have rest : ((unread.drop len).map some).length = buf._ppos - len := by rw [List.length_map,List.length_drop,whole]
  have fits : 0 + ((unread.drop len).map (some : UInt8 → Byte)).length ≤ buf._data.length := by
    rw [rest,placed.block]
    omega
  have all : (unread.drop len).take (buf.size - len) = unread.drop len := by
    rw [size,← List.length_drop,List.take_length]
  rw [FixedBuf.drop,placed.load_unread (by rw [size]; omega : len + (buf.size - len) ≤ buf._ppos),all]
  dsimp only [bind,Except.bind]
  rw [store_ok fits]
  refine ⟨_,rfl,⟨?_,placed.allocated,placed.aligned,(Nat.sub_le ..).trans inside,?_⟩,rfl⟩
  · exact (Ring.length_overwrite fits).trans placed.block
  · have moved := Ring.take_overwrite_end fits
    rw [Nat.zero_add,rest,List.take_zero,List.nil_append] at moved
    exact moved

theorem reserve_spec (unlocked : buf.any_locked = false) (n : Nat) : buf.reserve n = .error .allocation ∨
    ∃ next, buf.reserve n = .ok (true,next) ∧ Placed next unread ∧ DWORDAlign n ≤ next._total ∧ next._state = buf._state := by
  have size := placed.size_eq
  have inside := placed.inside
  have whole : unread.take buf.size = unread := by rw [size,List.take_length]
  rw [FixedBuf.reserve,unlocked,if_neg Bool.false_ne_true]
  generalize reserved : DWORDAlign n = total
  split
  · rename_i enough
    exact .inr ⟨buf,rfl,placed,enough,rfl⟩
  rename_i larger
  rw [newBlock]
  split
  · rename_i allocated
    have fits : 0 + (unread.map some).length ≤ (List.replicate total (none : Byte)).length := by
      rw [List.length_map,List.length_replicate,← size]
      change 0 + buf._ppos ≤ total
      omega
    dsimp only [bind,Except.bind]
    rw [placed.load_unread (by rw [Nat.zero_add]; exact le_rfl : 0 + buf.size ≤ buf._ppos),List.drop_zero,whole]
    dsimp only
    rw [store_ok fits]
    refine .inr ⟨_,rfl,⟨?_,allocated,reserved ▸ align_dvd _,?_,?_⟩,le_rfl,rfl⟩
    · exact (Ring.length_overwrite fits).trans List.length_replicate
    · change buf._ppos ≤ total
      omega
    · have copied := Ring.take_overwrite_end fits
      rw [Nat.zero_add,List.take_zero,List.nil_append,List.length_map,← size] at copied
      exact copied
  · exact .inl rfl

/-- There is room for `len` bytes, unless an allocation fails. -/
theorem roomier_spec (unlocked : buf.any_locked = false) {len : Nat} (fits : len < 2^63) : buf.roomier len = .error .allocation ∨
    ∃ grown, buf.roomier len = .ok grown ∧ Placed grown unread ∧ grown._ppos + len ≤ grown._total ∧ grown._state = buf._state := by
  have allocated := placed.allocated
  have aligned := placed.aligned
  have inside := placed.inside
  have free := placed.avail_eq
  rw [FixedBuf.roomier]
  split
  · rename_i short
    rw [FixedBuf._grow]
    have capacity : buf.capacity = buf._total := rfl
    have asked : HalfGrowPolicy.grow_size buf.capacity (len - buf.avail) =
        buf._total + max (len - buf.avail) (buf._total / 2) := by
      apply word_of_lt
      omega
    have enough : buf._ppos + len ≤ DWORDAlign (HalfGrowPolicy.grow_size buf.capacity (len - buf.avail)) := by
      rw [asked,DWORDAlign,word_of_lt (by omega : buf._total + max (len - buf.avail) (buf._total / 2) + 3 < 2^64)]
      omega
    rcases placed.reserve_spec unlocked (HalfGrowPolicy.grow_size buf.capacity (len - buf.avail)) with
      failed | ⟨grown,reserves,kept,larger,state⟩
    · rw [failed]
      exact .inl rfl
    · have same : grown._ppos = buf._ppos := kept.size_eq.trans placed.size_eq.symm
      refine .inr ⟨grown,?_,kept,?_,state⟩
      · rw [reserves]
        rfl
      · rw [same]
        exact enough.trans larger
  · rename_i enough
    refine .inr ⟨buf,rfl,placed,?_,rfl⟩
    omega

theorem write_spec (unlocked : buf.any_locked = false) (source : Object) : buf.write (source.bytes.map some) = .error .allocation ∨
    ∃ next, buf.write (source.bytes.map some) = .ok (source.bytes.length,next) ∧ Placed next (unread ++ source.bytes) ∧
      next._state = buf._state := by
  have writer : buf.wlocked = false := (Bool.or_eq_false_iff.mp unlocked).1
  have length : (source.bytes.map some).length = source.bytes.length := List.length_map _
  rw [FixedBuf.write,writer,if_neg Bool.false_ne_true,length]
  rcases placed.roomier_spec unlocked source.fits with failed | ⟨grown,grows,kept,room,state⟩
  · rw [failed]
    exact .inl rfl
  · have free : source.bytes.length ≤ grown.avail := by
      rw [kept.avail_eq]
      omega
    have whole : (source.bytes.map some).take source.bytes.length = source.bytes.map some := by rw [← length,List.take_length]
    obtain ⟨_data,stores,next⟩ := kept.store_behind room
    rw [grows]
    dsimp only [bind,Except.bind]
    rw [min_eq_left free,whole,stores]
    exact .inr ⟨_,rfl,next,state⟩

/-- What the writer has copied into its window is unread when it unlocks. -/
theorem put_spec {bytes : List UInt8} (room : buf._ppos + bytes.length ≤ buf._total) (locked : buf._state = STATE_WRITE_LOCKED) :
    ∃ filled next, buf.put ⟨buf.block,buf._ppos⟩ bytes = .ok filled ∧
      filled.wunlock ⟨buf.block,buf._ppos⟩ bytes.length = (true,next) ∧ Placed next (unread ++ bytes) ∧ next._state = STATE_NONE := by
  obtain ⟨_data,stores,next⟩ := placed.store_behind room
  have writer : ∀ _data, FixedBuf.wlocked {buf with _data} = true := by
    intro _data
    rw [FixedBuf.wlocked,locked]
    rfl
  have free : ¬FixedBuf.avail {buf with _data} < bytes.length := by
    change ¬buf.avail < bytes.length
    rw [placed.avail_eq]
    omega
  refine ⟨{buf with _data},_,?_,?_,next.relocked (buf._state &&& ~~~STATE_WRITE_LOCKED),?_⟩
  · rw [FixedBuf.put,if_neg (not_not_intro rfl)]
    dsimp only [bind,Except.bind,pure,Except.pure]
    rw [stores]
  · rw [FixedBuf.wunlock,writer,if_neg (by decide),if_neg (not_not_intro rfl),if_neg free]
  · rw [locked]
    rfl

theorem cleared : Placed {buf with _ppos := 0} [] :=
  ⟨placed.block,placed.allocated,placed.aligned,Nat.zero_le _,List.take_zero ..⟩

end FixedBuf.Placed

/-! ### Calls -/

def FixedBuf.call (buf : FixedBuf) : Call → Except Failure (Answer × FixedBuf)
  | .write source => do
    let (len,next) ← buf.write (source.bytes.map some)
    return (.count len,next)
  | .read len => do
    let (bytes,next) ← buf.read len.toNat
    return (.bytes bytes,next)
  | .peek len => do
    let bytes ← buf.peek len.toNat
    return (.bytes bytes,buf)
  | .reserve n => do
    let (ok,next) ← buf.reserve n.toNat
    return (.done ok,next)
  | .clear => .ok (.done buf.clear.1,buf.clear.2)

def FixedBuf.run (buf : FixedBuf) : List Call → Except Failure (List Answer × FixedBuf)
  | [] => .ok ([],buf)
  | call::calls => do
    let (answer,next) ← buf.call call
    let (answers,final) ← next.run calls
    return (answer::answers,final)

/-- Nothing is locked. -/
structure FixedBuf.Holds (buf : FixedBuf) (unread : List UInt8) : Prop extends FixedBuf.Placed buf unread where
  free : buf._state = STATE_NONE

namespace FixedBuf.Holds
variable {buf : FixedBuf} {unread : List UInt8} (holds : Holds buf unread)
include holds

theorem unlocked : buf.any_locked = false ∧ buf.rlocked = false := by
  have free := holds.free
  simp [FixedBuf.any_locked,FixedBuf.wlocked,FixedBuf.rlocked,free,STATE_NONE]

theorem call_spec (call : Call) : buf.call call = .error .allocation ∨
    ∃ next, buf.call call = .ok ((fifoCall unread call).1,next) ∧ Holds next (fifoCall unread call).2 := by
  obtain ⟨unlocked,reader⟩ := holds.unlocked
  cases call with
  | write source =>
    rcases holds.write_spec unlocked source with failed | ⟨next,writes,placed,state⟩
    · left
      rw [FixedBuf.call,failed]
      rfl
    · refine .inr ⟨next,?_,placed,state.trans holds.free⟩
      rw [FixedBuf.call,writes]
      rfl
  | read len =>
    obtain ⟨next,drops,placed,state⟩ := holds.drop_spec ((List.length_take_le' len.toNat unread) : (unread.take len.toNat).length ≤ _)
    have rest : unread.drop (unread.take len.toNat).length = unread.drop len.toNat := by
      rw [List.length_take]
      exact List.drop_eq_drop_min.symm
    rw [rest] at placed
    refine .inr ⟨next,?_,placed,state.trans holds.free⟩
    rw [FixedBuf.call,FixedBuf.read,reader,if_neg Bool.false_ne_true,holds.peek_eq reader]
    dsimp only [bind,Except.bind]
    rw [List.length_map,drops]
    rfl
  | peek len =>
    refine .inr ⟨buf,?_,holds⟩
    rw [FixedBuf.call,holds.peek_eq reader]
    rfl
  | reserve n =>
    rcases holds.reserve_spec unlocked n.toNat with failed | ⟨next,reserves,placed,_,state⟩
    · left
      rw [FixedBuf.call,failed]
      rfl
    · refine .inr ⟨next,?_,placed,state.trans holds.free⟩
      rw [FixedBuf.call,reserves]
      rfl
  | clear =>
    refine .inr ⟨{buf with _ppos := 0},?_,holds.cleared,holds.free⟩
    rw [FixedBuf.call,FixedBuf.clear,unlocked]
    rfl

/-- A window of `len` bytes behind the unread ones. -/
theorem wlock_spec {len : Nat} (fits : len < 2^63) : buf.wlock len = .error .allocation ∨
    ∃ locked, buf.wlock len = .ok (some ⟨locked.block,locked._ppos⟩,locked) ∧ Placed locked unread ∧
      locked._ppos + len ≤ locked._total ∧ locked._state = STATE_WRITE_LOCKED := by
  obtain ⟨unlocked,_⟩ := holds.unlocked
  have writer : buf.wlocked = false := (Bool.or_eq_false_iff.mp unlocked).1
  rw [FixedBuf.wlock,writer,if_neg Bool.false_ne_true]
  rcases holds.roomier_spec unlocked fits with failed | ⟨grown,grows,kept,room,state⟩
  · rw [failed]
    exact .inl rfl
  · refine .inr ⟨{grown with _state := grown._state ||| STATE_WRITE_LOCKED},?_,kept.relocked _,room,?_⟩
    · rw [grows]
      rfl
    · change grown._state ||| STATE_WRITE_LOCKED = _
      rw [state,holds.free]
      rfl

theorem run_spec (calls : List Call) : buf.run calls = .error .allocation ∨
    ∃ final, buf.run calls = .ok ((fifoRun unread calls).1,final) ∧ Holds final (fifoRun unread calls).2 := by
  induction calls generalizing buf unread with
  | nil => exact .inr ⟨buf,rfl,holds⟩
  | cons call calls ih =>
    rcases holds.call_spec call with failed | ⟨next,returns,kept⟩
    · left
      rw [FixedBuf.run,failed]
      rfl
    · rw [FixedBuf.run,returns]
      dsimp only [bind,Except.bind]
      rcases ih kept with failed | ⟨final,runs,ends⟩
      · left
        rw [failed]
      · refine .inr ⟨final,?_,ends⟩
        rw [runs]
        rfl

end FixedBuf.Holds

theorem FixedBuf.create_holds {size : Nat} {buf : FixedBuf} (created : FixedBuf.create size = .ok buf) : Holds buf [] := by
  rw [FixedBuf.create,newBlock] at created
  split at created
  · rename_i allocated
    cases created
    exact ⟨⟨List.length_replicate,allocated,align_dvd _,Nat.zero_le _,List.take_zero ..⟩,rfl⟩
  · cases created

/-- Every run of calls answers as the queue of unread bytes does, unless an allocation fails: `cyc_buf` needs a condition
for that. -/
theorem fixedBuf_fifo (size : UInt64) {buf : FixedBuf} (created : FixedBuf.create size.toNat = .ok buf) (calls : List Call) :
    buf.run calls = .error .allocation ∨
      ∃ final, buf.run calls = .ok ((fifoRun [] calls).1,final) ∧ final.size = (fifoRun [] calls).2.length ∧
        final.avail + final.size = final.capacity := by
  rcases (FixedBuf.create_holds created).run_spec calls with failed | ⟨final,runs,holds⟩
  · exact .inl failed
  · refine .inr ⟨final,runs,holds.size_eq,?_⟩
    rw [holds.avail_eq]
    exact Nat.sub_add_cancel holds.inside

/-- Where the block of `cyc_buf` is overrun. -/
theorem toTheEnd_answered : FixedBuf.run ⟨[none,none,none,none],0,4,0,STATE_NONE⟩ toTheEnd = .error .allocation ∨
    ∃ final, FixedBuf.run ⟨[none,none,none,none],0,4,0,STATE_NONE⟩ toTheEnd = .ok ((fifoRun [] toTheEnd).1,final) ∧
      final.size = (fifoRun [] toTheEnd).2.length ∧ final.avail + final.size = final.capacity :=
  fixedBuf_fifo 3 rfl toTheEnd

end Migfm.Comm
