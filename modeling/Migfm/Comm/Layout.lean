import Migfm.Comm.CycBuf

/-! How the unread bytes lie in the block, whatever is locked. -/
namespace Migfm.Comm
open Library

theorem word_of_lt {n : Nat} (small : n < 2^64) : word n = n := Nat.mod_eq_of_lt small

theorem align_ge {n : Nat} (small : n + 4 < 2^64) : n + 1 ≤ DWORDAlign (word (n + 1)) := by
  rw [DWORDAlign,word_of_lt (by omega : n + 1 < 2^64),word_of_lt (by omega : n + 1 + 3 < 2^64)]
  omega

theorem align_dvd (n : Nat) : 4 ∣ DWORDAlign n := Nat.dvd_mul_left ..

/-- Growing by what is missing asks for at least what is stored and written. -/
theorem grow_size_enough {total size len : Nat} (allocated : total < 2^63) (smaller : size < total)
    (fits : size + len + 4 < 2^64) :
    size + len ≤ HalfGrowPolicy.grow_size (total - 1) (len - (total - 1 - size)) ∧
      HalfGrowPolicy.grow_size (total - 1) (len - (total - 1 - size)) + 4 < 2^64 := by
  have small : total - 1 + max (len - (total - 1 - size)) ((total - 1) / 2) < 2^64 - 4 := by
    omega
  rw [HalfGrowPolicy.grow_size,word_of_lt (small.trans_le (Nat.sub_le ..))]
  constructor
  · omega
  · omega

theorem load_ok {block : List Byte} {offset len : Nat} (inside : offset + len ≤ block.length) :
    load block offset len = .ok (Ring.slice block offset len) := if_pos inside

theorem store_ok {block bytes : List Byte} {offset : Nat} (inside : offset + bytes.length ≤ block.length) :
    store block offset bytes = .ok (Ring.overwrite block offset bytes) := if_pos inside

/-- The unread bytes lie between the positions of a block. -/
structure Placed (buf : CycBuf) (unread : List Byte) : Prop where
  block : buf._data.length = buf._total
  allocated : buf._total < 2^63
  first : buf._pbeg ≤ buf._total
  last : buf._pend ≤ buf._total
  queue : Ring.span buf._data buf._pbeg buf._pend = unread

theorem Placed.size_eq {buf : CycBuf} {unread : List Byte} (placed : Placed buf unread) : buf.size = unread.length := by
  have inside := placed.first
  have ends := placed.last
  rw [← placed.block] at inside ends
  have length := Ring.length_span inside ends
  rw [placed.queue,placed.block] at length
  rw [CycBuf.size,length]

/-- And the block has a free byte. Only `runlock` leaves the read position at the end
of the block. -/
structure Layout (buf : CycBuf) (unread : List Byte) : Prop extends Placed buf unread where
  aligned : 4 ∣ buf._total
  positive : 0 < buf._total
  apart : buf._pbeg = 0 → buf._pend ≠ buf._total

namespace Layout
variable {buf : CycBuf} {unread : List Byte} (layout : Layout buf unread)
include layout

theorem size_lt : buf.size < buf._total := by
  have positive := layout.positive
  have first := layout.first
  have last := layout.last
  have apart := layout.apart
  unfold CycBuf.size
  split
  · by_cases start : buf._pbeg = 0
    · have := apart start
      omega
    · omega
  · omega

theorem capacity_eq : buf.capacity = buf._total - 1 := by
  have positive := layout.positive
  have allocated := layout.allocated
  unfold CycBuf.capacity word
  omega

theorem avail_eq : buf.avail = buf._total - 1 - buf.size := by
  have smaller := layout.size_lt
  have allocated := layout.allocated
  rw [CycBuf.avail,layout.capacity_eq]
  unfold word
  omega

/-! ### Reading -/

theorem peek_eq (unlocked : buf.rlocked = false) (len : Nat) : buf.peek len = .ok (unread.take len) := by
  have first := layout.first
  have last := layout.last
  have block := layout.block
  have size := layout.size_eq
  have short : min buf.size len ≤ (Ring.span buf._data buf._pbeg buf._pend).length := by
    rw [layout.queue,size]
    exact min_le_left ..
  have taken : unread.take len = (Ring.span buf._data buf._pbeg buf._pend).take (min buf.size len) := by
    rw [layout.queue,size,min_comm,← List.take_eq_take_min]
  have sized : buf.size = if buf._pbeg ≤ buf._pend then buf._pend - buf._pbeg else buf._pend + buf._total - buf._pbeg := rfl
  rw [CycBuf.peek,unlocked,if_neg Bool.false_ne_true,taken]
  dsimp only
  split
  · rename_i whole
    rw [← block] at whole
    rw [load_ok (by split at sized <;> omega),Ring.slice,Ring.take_span_whole (block ▸ last) short whole]
  · rename_i parts
    push Not at parts
    rw [if_neg (Nat.not_le.mpr parts.1)] at sized
    have tail : Ring.slice buf._data buf._pbeg (buf._total - buf._pbeg) = buf._data.drop buf._pbeg :=
      List.take_of_length_le (by rw [List.length_drop,block])
    rw [load_ok (by omega),load_ok (by omega),Ring.take_span_parts parts.1 (block ▸ parts.2.le) short,tail,block]
    rfl

/-- A read that does not take the last byte in front of a write position at the end. -/
theorem read_spec (unlocked : buf.rlocked = false) {len : Nat} (meets : buf._pend = buf._total → len < buf.size) :
    ∃ first, buf.read len = .ok (unread.take len,{buf with _pbeg := first}) ∧
      Layout {buf with _pbeg := first} (unread.drop len) ∧ first < buf._total := by
  have first := layout.first
  have last := layout.last
  have block := layout.block
  have size := layout.size_eq
  have smaller := layout.size_lt
  have sized : buf.size = if buf._pbeg ≤ buf._pend then buf._pend - buf._pbeg else buf._pend + buf._total - buf._pbeg := rfl
  have taken : (unread.take len).length = min len buf.size := by rw [List.length_take,size]
  have dropped : unread.drop len = unread.drop (min len buf.size) := by
    rw [size,List.drop_eq_drop_min]
  rw [CycBuf.read,unlocked,if_neg Bool.false_ne_true,layout.peek_eq unlocked,dropped]
  refine ⟨_,rfl,?_⟩
  simp only [taken]
  split
  · rename_i through
    have wrapped : buf._pend < buf._pbeg := by
      split at sized <;> omega
    rw [if_neg (Nat.not_le.mpr wrapped)] at sized
    refine ⟨⟨⟨block,layout.allocated,?_,last,?_⟩,layout.aligned,layout.positive,?_⟩,?_⟩
    · dsimp only
      omega
    · dsimp only
      rw [← layout.queue,← block]
      exact (Ring.drop_span_through wrapped (by omega) (by omega) (by omega)).symm
    · dsimp only
      omega
    · omega
  · rename_i inside
    refine ⟨⟨⟨block,layout.allocated,(Nat.not_le.mp inside).le,last,?_⟩,layout.aligned,layout.positive,?_⟩,Nat.not_le.mp inside⟩
    · dsimp only
      rw [← layout.queue]
      refine (Ring.drop_span ?_ (by omega)).symm
      intro ordered
      rw [if_pos ordered] at sized
      omega
    · intro start
      exact layout.apart (Nat.eq_zero_of_add_eq_zero_right start)

/-! ### Growing -/

/-- Either way of copying leaves the unread bytes at the start of the new block. -/
theorem moveTo_eq {pnew : List Byte} (fits : buf.size ≤ pnew.length) :
    buf.moveTo pnew = .ok (Ring.overwrite pnew 0 unread) := by
  have first := layout.first
  have last := layout.last
  have block := layout.block
  have sized : buf.size = if buf._pbeg ≤ buf._pend then buf._pend - buf._pbeg else buf._pend + buf._total - buf._pbeg := rfl
  rw [← layout.queue,CycBuf.moveTo,Ring.span]
  split
  · rename_i ordered
    rw [if_pos ordered] at sized
    rw [load_ok (by omega),Ring.slice,List.drop_take,sized]
    refine store_ok ?_
    simp only [List.length_take,List.length_drop]
    omega
  · rename_i wrapped
    rw [if_neg wrapped] at sized
    have tail : Ring.slice buf._data buf._pbeg (buf._total - buf._pbeg) = buf._data.drop buf._pbeg :=
      List.take_of_length_le (by rw [List.length_drop,block])
    have rest : buf.size - (buf._total - buf._pbeg) = buf._pend := by omega
    have length : (buf._data.drop buf._pbeg).length = buf._total - buf._pbeg := by rw [List.length_drop,block]
    have one : 0 + (buf._data.drop buf._pbeg).length ≤ pnew.length := by omega
    have two : 0 + (buf._data.drop buf._pbeg ++ buf._data.take buf._pend).length ≤ pnew.length := by
      simp only [List.length_append,List.length_take]
      omega
    have both := Ring.overwrite_overwrite two
    have second : buf._total - buf._pbeg + (buf._data.take buf._pend).length ≤
        (Ring.overwrite pnew 0 (buf._data.drop buf._pbeg)).length := by
      rw [Ring.length_overwrite one,List.length_take]
      omega
    rw [Nat.zero_add,length] at both
    dsimp only
    rw [rest,load_ok (by omega),load_ok (by omega),tail,Ring.slice,List.drop_zero,← both]
    dsimp only [bind,Except.bind]
    rw [store_ok one]
    exact store_ok second

theorem reserve_spec (unlocked : buf.any_locked = false) (n : Nat) : buf.reserve n = .error .allocation ∨
    ∃ next, buf.reserve n = .ok (true,next) ∧ Layout next unread ∧ DWORDAlign (word (n + 1)) ≤ next._total ∧
      next._state = buf._state ∧ (buf._pbeg < buf._total → next._pbeg < next._total) := by
  have smaller := layout.size_lt
  have size := layout.size_eq
  rw [CycBuf.reserve,unlocked,if_neg Bool.false_ne_true]
  generalize reserved : DWORDAlign (word (n + 1)) = total
  split
  · rename_i enough
    exact .inr ⟨buf,rfl,layout,enough,rfl,id⟩
  rename_i larger
  rw [newBlock]
  split
  · rename_i allocated
    have fits : unread.length ≤ (List.replicate total (none : Byte)).length := by
      rw [List.length_replicate]
      omega
    have moved := layout.moveTo_eq (by rw [List.length_replicate]; omega : buf.size ≤ (List.replicate total (none : Byte)).length)
    refine .inr ⟨⟨Ring.overwrite (List.replicate total none) 0 unread,total,0,buf.size,buf._state⟩,?_,?_,le_rfl,rfl,?_⟩
    · dsimp only [bind,Except.bind]
      rw [moved]
      rfl
    · refine ⟨⟨?_,allocated,Nat.zero_le _,?_,?_⟩,reserved ▸ align_dvd _,?_,?_⟩
      · rw [Ring.length_overwrite (by rwa [Nat.zero_add]),List.length_replicate]
      · dsimp only
        omega
      · have queue := Ring.span_moved fits
        rwa [← size] at queue
      · dsimp only
        omega
      · dsimp only
        omega
    · intro _
      dsimp only
      omega
  · exact .inl rfl

/-- Growing by what is missing makes room, where the size asked for does not wrap. -/
theorem grow_spec (unlocked : buf.any_locked = false) {len : Nat} (fits : buf.size + len + 4 < 2^64) :
    buf._grow (len - buf.avail) = .error .allocation ∨
      ∃ grown, buf._grow (len - buf.avail) = .ok grown ∧ Layout grown unread ∧ buf.size + len < grown._total ∧
        grown._state = buf._state ∧ (buf._pbeg < buf._total → grown._pbeg < grown._total) := by
  rw [CycBuf._grow]
  generalize reserved : HalfGrowPolicy.grow_size buf.capacity (len - buf.avail) = n
  have enough : buf.size + len ≤ n ∧ n + 4 < 2^64 := by
    rw [← reserved,layout.capacity_eq,layout.avail_eq]
    exact grow_size_enough layout.allocated layout.size_lt fits
  rcases layout.reserve_spec unlocked n with failed | ⟨grown,reserved,kept,larger,kind⟩
  · rw [failed]
    exact .inl rfl
  · have total := align_ge enough.2
    refine .inr ⟨grown,?_,kept,by omega,kind⟩
    rw [reserved]
    rfl

omit layout in
theorem grow_locked (locked : buf.any_locked = true) (inc : Nat) : buf._grow inc = .ok buf := by
  rw [CycBuf._grow,CycBuf.reserve,if_pos locked]
  rfl

/-! ### Writing -/

theorem append_spec {bytes : List Byte} (room : buf.size + bytes.length < buf._total) :
    ∃ next, buf.append bytes = .ok next ∧ Layout next (unread ++ bytes) ∧ next._pbeg = buf._pbeg ∧
      next._total = buf._total ∧ next._state = buf._state := by
  have first := layout.first
  have last := layout.last
  have block := layout.block
  have sized : buf.size = if buf._pbeg ≤ buf._pend then buf._pend - buf._pbeg else buf._pend + buf._total - buf._pbeg := rfl
  rw [CycBuf.append]
  split
  · rename_i short
    have fits : buf._pend + bytes.length ≤ buf._data.length := by omega
    rw [store_ok fits]
    refine ⟨_,rfl,⟨⟨?_,layout.allocated,first,?_,?_⟩,layout.aligned,layout.positive,?_⟩,rfl,rfl,rfl⟩
    · exact (Ring.length_overwrite fits).trans block
    · dsimp only
      omega
    · dsimp only
      rw [← layout.queue]
      refine Ring.span_overwrite fits ?_
      intro wrapped
      rw [if_neg (Nat.not_le.mpr wrapped)] at sized
      omega
    · dsimp only
      split at sized <;> omega
  · rename_i long
    have straight : buf._pbeg ≤ buf._pend := by
      by_contra wrapped
      rw [if_neg wrapped] at sized
      omega
    rw [if_pos straight] at sized
    have one : (bytes.take (buf._total - buf._pend)).length = buf._total - buf._pend := by
      rw [List.length_take]
      omega
    have two : (bytes.drop (buf._total - buf._pend)).length = bytes.length - (buf._total - buf._pend) := List.length_drop ..
    have fits : buf._pend + (bytes.take (buf._total - buf._pend)).length = buf._data.length := by omega
    have inner : 0 + (bytes.drop (buf._total - buf._pend)).length ≤
        (Ring.overwrite buf._data buf._pend (bytes.take (buf._total - buf._pend))).length := by
      rw [Ring.length_overwrite fits.le]
      omega
    rw [store_ok fits.le]
    dsimp only [bind,Except.bind]
    rw [store_ok inner]
    refine ⟨_,rfl,⟨⟨?_,layout.allocated,first,?_,?_⟩,layout.aligned,layout.positive,?_⟩,rfl,rfl,rfl⟩
    · exact (Ring.length_overwrite inner).trans ((Ring.length_overwrite fits.le).trans block)
    · dsimp only
      omega
    · dsimp only
      rw [← layout.queue,← two,Ring.span_overwrite_through straight fits (by omega),List.append_assoc,List.take_append_drop]
    · dsimp only
      omega

/-- A write, where a lock of the reader leaves room for it. -/
theorem write_spec (unlocked : buf.wlocked = false) (source : Object)
    (meets : buf.rlocked = true → source.bytes.length ≤ buf.avail) : buf.write (source.bytes.map some) = .error .allocation ∨
    ∃ next, buf.write (source.bytes.map some) = .ok (source.bytes.length,next) ∧
      Layout next (unread ++ source.bytes.map some) ∧ next._state = buf._state ∧
      (buf._pbeg < buf._total → next._pbeg < next._total) ∧
      (buf.rlocked = true → next._pbeg = buf._pbeg ∧ next._total = buf._total) := by
  have aligned := layout.aligned
  have allocated := layout.allocated
  have smaller := layout.size_lt
  have size := layout.size_eq
  have avail := layout.avail_eq
  have source_fits := source.fits
  have length : (source.bytes.map some).length = source.bytes.length := List.length_map _
  rw [CycBuf.write,unlocked,if_neg Bool.false_ne_true,length]
  split
  · rename_i short
    have reader : buf.rlocked = false := by
      by_contra locked
      exact Nat.not_lt.mpr (meets (Bool.not_eq_false _ ▸ locked)) short
    have free : buf.any_locked = false := by rw [CycBuf.any_locked,unlocked,reader]; rfl
    rcases layout.grow_spec free (by omega : buf.size + source.bytes.length + 4 < 2^64) with failed | ⟨grown,grows,kept,room,state,inside⟩
    · rw [failed]
      exact .inl rfl
    · have same := kept.size_eq
      obtain ⟨next,appends,layout,first,total,after⟩ := kept.append_spec (by omega : grown.size + (source.bytes.map some).length < grown._total)
      refine .inr ⟨next,?_,layout,after.trans state,?_,fun locked => Bool.noConfusion (reader.symm.trans locked)⟩
      · rw [grows]
        dsimp only [bind,Except.bind,pure,Except.pure]
        rw [appends]
      · rwa [first,total]
  · rename_i enough
    obtain ⟨next,appends,layout,first,total,state⟩ :=
      layout.append_spec (by omega : buf.size + (source.bytes.map some).length < buf._total)
    refine .inr ⟨next,?_,layout,state,?_,fun _ => ⟨first,total⟩⟩
    · dsimp only [bind,Except.bind,pure,Except.pure]
      rw [appends]
    · rw [first,total]
      exact id

theorem clear_spec (unlocked : buf.any_locked = false) : buf.clear = (true,{buf with _pbeg := 0, _pend := 0}) ∧
    Layout {buf with _pbeg := 0, _pend := 0} [] := by
  have positive := layout.positive
  rw [CycBuf.clear,unlocked,if_neg Bool.false_ne_true]
  refine ⟨rfl,⟨layout.block,layout.allocated,Nat.zero_le _,Nat.zero_le _,?_⟩,layout.aligned,positive,?_⟩
  · rw [Ring.span,if_pos le_rfl]
    rfl
  · intro _
    exact positive.ne

end Layout

theorem create_layout {size : Nat} (room : size + 4 < 2^64) {buf : CycBuf} (created : CycBuf.create size = .ok buf) :
    Layout buf [] ∧ buf._state = STATE_NONE ∧ buf._pbeg = 0 := by
  have positive := align_ge room
  rw [CycBuf.create,newBlock] at created
  generalize total_eq : DWORDAlign (word (size + 1)) = total at created positive
  split at created
  · rename_i allocated
    cases created
    have some_byte : 0 < total := Nat.lt_of_lt_of_le (Nat.succ_pos _) positive
    refine ⟨⟨⟨List.length_replicate,allocated,Nat.zero_le _,Nat.zero_le _,?_⟩,total_eq ▸ align_dvd _,some_byte,?_⟩,rfl,rfl⟩
    · rw [Ring.span,if_pos le_rfl]
      rfl
    · intro _
      exact some_byte.ne
  · cases created

end Migfm.Comm
