import Migfm.Comm.Layout

/-! `_repos` of `cyc_buf`: the unread bytes are brought into one piece. -/
namespace Migfm.Comm
open Library

/-- Why `_repos` or a call that uses it does not return. -/
inductive Stop
  | failure (cause : Failure)
  | assertion

instance : MonadLift (Except Failure) (Except Stop) where
  monadLift
    | .ok value => .ok value
    | .error cause => .error (.failure cause)

/-- `memmove` inside a block. -/
def memmove (block : List Byte) (target source len : Nat) : Except Stop (List Byte) := do
  let bytes ← load block source len
  store block target bytes

def assert (condition : Bool) : Except Stop Unit := if condition then .ok () else .error .assertion

namespace CycBuf

/-- With it, whether `_data` is a new block afterwards. -/
def _repos (buf : CycBuf) : Except Stop (Bool × CycBuf) :=
  let siz := buf.size
  if buf._pbeg ≤ buf._pend then do
    let _data ← memmove buf._data 0 buf._pbeg siz
    return (false,{buf with _data, _pend := siz, _pbeg := 0})
  else
    let unuse := buf._pbeg - buf._pend
    let part1 := buf._total - buf._pbeg
    let part2 := buf._pend
    if part1 ≤ unuse then do
      let _data ← memmove buf._data part1 0 part2
      let _data ← memmove _data 0 buf._pbeg part1
      return (false,{buf with _data, _pend := siz, _pbeg := 0})
    else if part2 ≤ unuse then do
      let _data ← memmove buf._data part2 buf._pbeg part1
      let _data ← memmove _data (part2 + part1) 0 part2
      return (false,{buf with _data, _pbeg := part2, _pend := part2 + siz})
    else if part1 ≤ unuse * 2 ∧ part2 ≤ part1 then do
      let _data ← memmove buf._data unuse 0 part2
      let _data ← memmove _data 0 (buf._total - unuse) unuse
      let _data ← memmove _data (buf._pbeg + unuse) buf._pbeg (part1 - unuse)
      assert (buf._total - (buf._pbeg + unuse) ≤ unuse)
      _repos {buf with _data, _pend := buf._pbeg, _pbeg := buf._pbeg + unuse}
    else if part2 ≤ unuse * 2 ∧ part1 ≤ part2 then do
      let _data ← memmove buf._data part2 buf._pbeg part1
      let _data ← memmove _data (part1 + part2) 0 unuse
      let _data ← memmove _data 0 unuse (part2 - unuse)
      assert (buf._pend - unuse ≤ unuse)
      _repos {buf with _data, _pbeg := buf._pend, _pend := buf._pend - unuse}
    else do
      let pnew ← newBlock buf._total
      let tail ← load buf._data buf._pbeg part1
      let pnew ← store pnew 0 tail
      let rest ← load buf._data 0 part2
      let pnew ← store pnew part1 rest
      return (true,{buf with _data := pnew, _pend := siz, _pbeg := 0})
-- in the two cases that go on, the shorter part ends up no longer than the gap
termination_by min (buf._total - buf._pbeg) buf._pend
decreasing_by all_goals omega

end CycBuf

theorem memmove_ok {block : List Byte} {target source len : Nat} (inside : source + len ≤ block.length)
    (fits : target + len ≤ block.length) : memmove block target source len = .ok (Ring.shift block target source len) := by
  rw [memmove,load_ok inside]
  dsimp only [liftM,monadLift,MonadLift.monadLift,bind,Except.bind]
  rw [store_ok (by rwa [Ring.length_slice inside])]
  rfl

theorem assert_ok {condition : Bool} (holds : condition = true) : assert condition = .ok () := if_pos holds

namespace Placed
variable {buf : CycBuf} {unread : List Byte} (placed : Placed buf unread)
include placed

/-- A block in which the unread bytes are one piece. -/
theorem one_piece {data : List Byte} {first : Nat} (block : data.length = buf._total) (ends : first + buf.size ≤ buf._total)
    (moved : Ring.slice data first buf.size = unread) :
    Placed {buf with _data := data, _pbeg := first, _pend := first + buf.size} unread := by
  refine ⟨block,placed.allocated,Nat.le_of_add_right_le ends,ends,?_⟩
  dsimp only
  rw [Ring.span_straight (Nat.le_add_right ..),Nat.add_sub_cancel_left,moved]

theorem repos_straight (straight : buf._pbeg ≤ buf._pend) :
    ∃ data, buf._repos = .ok (false,{buf with _data := data, _pend := buf.size, _pbeg := 0}) ∧
      Placed {buf with _data := data, _pend := buf.size, _pbeg := 0} unread := by
  have last := placed.last
  have block := placed.block
  have sized : buf.size = buf._pend - buf._pbeg := if_pos straight
  have inside : buf._pbeg + buf.size ≤ buf._data.length := by omega
  have fits : 0 + buf.size ≤ buf._data.length := by omega
  refine ⟨Ring.shift buf._data 0 buf._pbeg buf.size,?_,?_⟩
  · rw [CycBuf._repos,if_pos straight,memmove_ok inside fits]
    rfl
  · have moved : Ring.slice (Ring.shift buf._data 0 buf._pbeg buf.size) 0 buf.size = unread := by
      rw [Ring.slice_shift inside fits,← placed.queue,Ring.span_straight straight,sized]
    have done := placed.one_piece ((Ring.length_shift inside fits).trans block) (by omega : 0 + buf.size ≤ buf._total) moved
    rwa [Nat.zero_add] at done

section Wrapped
variable (wrapped : buf._pend < buf._pbeg)
include wrapped

theorem size_wrapped : buf.size = buf._total - buf._pbeg + buf._pend := by
  have first := placed.first
  have sized : buf.size = buf._pend + buf._total - buf._pbeg := if_neg (Nat.not_le.mpr wrapped)
  omega

theorem queue_wrapped : unread =
    Ring.slice buf._data buf._pbeg (buf._total - buf._pbeg) ++ Ring.slice buf._data 0 buf._pend := by
  rw [← placed.queue,Ring.span_wrapped wrapped,placed.block]

/-- Case 1: the first part fits into the gap. -/
theorem repos_tail_fits (short : buf._total - buf._pbeg ≤ buf._pbeg - buf._pend) :
    ∃ data, buf._repos = .ok (false,{buf with _data := data, _pend := buf.size, _pbeg := 0}) ∧
      Placed {buf with _data := data, _pend := buf.size, _pbeg := 0} unread := by
  have first := placed.first
  have block := placed.block
  have sized := placed.size_wrapped wrapped
  generalize part1 : buf._total - buf._pbeg = tail at short sized
  have in1 : 0 + buf._pend ≤ buf._data.length := by omega
  have to1 : tail + buf._pend ≤ buf._data.length := by omega
  have in2 : buf._pbeg + tail ≤ (Ring.shift buf._data tail 0 buf._pend).length := by
    rw [Ring.length_shift in1 to1]
    omega
  have to2 : 0 + tail ≤ (Ring.shift buf._data tail 0 buf._pend).length := by omega
  refine ⟨Ring.shift (Ring.shift buf._data tail 0 buf._pend) 0 buf._pbeg tail,?_,?_⟩
  · rw [CycBuf._repos,if_neg (Nat.not_le.mpr wrapped)]
    dsimp only
    rw [part1,if_pos short,memmove_ok in1 to1]
    dsimp only [bind,Except.bind]
    rw [memmove_ok in2 to2]
    rfl
  · have moved : Ring.slice (Ring.shift (Ring.shift buf._data tail 0 buf._pend) 0 buf._pbeg tail) 0 buf.size = unread := by
      rw [placed.queue_wrapped wrapped,part1,sized,Ring.slice_append,Ring.slice_shift in2 to2,
        Ring.slice_shift_apart in1 to1 (by omega),Ring.slice_shift_apart in2 to2 (by omega),Nat.zero_add,
        Ring.slice_shift in1 to1]
    have length := (Ring.length_shift in2 to2).trans ((Ring.length_shift in1 to1).trans block)
    have done := placed.one_piece length (by omega : 0 + buf.size ≤ buf._total) moved
    rwa [Nat.zero_add] at done

/-- Case 2: the second part fits into the gap, the first does not. -/
theorem repos_head_fits (long : buf._pbeg - buf._pend < buf._total - buf._pbeg) (short : buf._pend ≤ buf._pbeg - buf._pend) :
    ∃ data, buf._repos = .ok (false,{buf with _data := data, _pbeg := buf._pend, _pend := buf._pend + buf.size}) ∧
      Placed {buf with _data := data, _pbeg := buf._pend, _pend := buf._pend + buf.size} unread := by
  have first := placed.first
  have block := placed.block
  have sized := placed.size_wrapped wrapped
  generalize part1 : buf._total - buf._pbeg = tail at long sized
  have in1 : buf._pbeg + tail ≤ buf._data.length := by omega
  have to1 : buf._pend + tail ≤ buf._data.length := by omega
  have in2 : 0 + buf._pend ≤ (Ring.shift buf._data buf._pend buf._pbeg tail).length := by
    rw [Ring.length_shift in1 to1]
    omega
  have to2 : buf._pend + tail + buf._pend ≤ (Ring.shift buf._data buf._pend buf._pbeg tail).length := by
    rw [Ring.length_shift in1 to1]
    omega
  refine ⟨Ring.shift (Ring.shift buf._data buf._pend buf._pbeg tail) (buf._pend + tail) 0 buf._pend,?_,?_⟩
  · rw [CycBuf._repos,if_neg (Nat.not_le.mpr wrapped)]
    dsimp only
    rw [part1,if_neg (Nat.not_le.mpr long),if_pos short,memmove_ok in1 to1]
    dsimp only [bind,Except.bind]
    rw [memmove_ok in2 to2]
    rfl
  · apply placed.one_piece
    · exact (Ring.length_shift in2 to2).trans ((Ring.length_shift in1 to1).trans block)
    · omega
    · rw [placed.queue_wrapped wrapped,part1,sized,Ring.slice_append,Ring.slice_shift in2 to2,
        Ring.slice_shift_apart in2 to2 (by omega),Ring.slice_shift in1 to1,Ring.slice_shift_apart in1 to1 (by omega)]

/-- Nothing moves where only `runlock` went to the end of the block. -/
theorem repos_at_end (ends : buf._pbeg = buf._total) : buf._repos = .ok (false,{buf with _pbeg := 0}) := by
  have block := placed.block
  have sized := placed.size_wrapped wrapped
  have inside : 0 + buf._pend ≤ buf._data.length := by omega
  have rest : buf._pbeg + 0 ≤ buf._data.length := by omega
  have nothing : buf._total - buf._pbeg = 0 := by omega
  rw [nothing,Nat.zero_add] at sized
  rw [CycBuf._repos,if_neg (Nat.not_le.mpr wrapped)]
  dsimp only
  rw [nothing,if_pos (Nat.zero_le _),memmove_ok inside inside,Ring.shift_self inside]
  dsimp only [bind,Except.bind]
  rw [memmove_ok rest (Nat.zero_le _),Ring.shift_nothing,sized]
  rfl

/-- Case 3 goes on as case 1: the end of the first part turned in front of the second. -/
theorem repos_tail_turns (long : buf._pbeg - buf._pend < buf._total - buf._pbeg) (wide : buf._pbeg - buf._pend < buf._pend)
    (short : buf._total - buf._pbeg ≤ (buf._pbeg - buf._pend) * 2) (longer : buf._pend ≤ buf._total - buf._pbeg) :
    ∃ data, let turned : CycBuf := {buf with _data := data, _pend := buf._pbeg, _pbeg := buf._pbeg + (buf._pbeg - buf._pend)}
      buf._repos = turned._repos ∧ Placed turned unread := by
  have first := placed.first
  have block := placed.block
  generalize gap : buf._pbeg - buf._pend = unuse at long wide short
  generalize part1 : buf._total - buf._pbeg = tail at long short longer
  generalize data1 : Ring.shift buf._data unuse 0 buf._pend = one
  have in1 : 0 + buf._pend ≤ buf._data.length := by omega
  have to1 : unuse + buf._pend ≤ buf._data.length := by omega
  have length1 : one.length = buf._data.length := data1 ▸ Ring.length_shift in1 to1
  generalize data2 : Ring.shift one 0 (buf._total - unuse) unuse = two
  have in2 : buf._total - unuse + unuse ≤ one.length := by omega
  have to2 : 0 + unuse ≤ one.length := by omega
  have length2 : two.length = one.length := data2 ▸ Ring.length_shift in2 to2
  generalize data3 : Ring.shift two (buf._pbeg + unuse) buf._pbeg (tail - unuse) = three
  have in3 : buf._pbeg + (tail - unuse) ≤ two.length := by omega
  have to3 : buf._pbeg + unuse + (tail - unuse) ≤ two.length := by omega
  have length3 : three.length = two.length := data3 ▸ Ring.length_shift in3 to3
  refine ⟨three,?_,length3.trans (length2.trans (length1.trans block)),placed.allocated,?_,first,?_⟩
  · conv_lhs => rw [CycBuf._repos]
    rw [if_neg (Nat.not_le.mpr wrapped)]
    dsimp only
    rw [gap,part1,if_neg (Nat.not_le.mpr long),if_neg (Nat.not_le.mpr wide),if_pos ⟨short,longer⟩,memmove_ok in1 to1,data1]
    dsimp only [bind,Except.bind]
    rw [memmove_ok in2 to2,data2]
    dsimp only
    rw [memmove_ok in3 to3,data3]
    dsimp only
    rw [assert_ok (decide_eq_true (by omega : buf._total - (buf._pbeg + unuse) ≤ unuse))]
  · dsimp only
    omega
  · dsimp only
    have behind : Ring.slice three (buf._pbeg + unuse) (tail - unuse) = Ring.slice buf._data buf._pbeg (tail - unuse) := by
      rw [← data3,Ring.slice_shift in3 to3,← data2,Ring.slice_shift_apart in2 to2 (by omega),← data1,
        Ring.slice_shift_apart in1 to1 (by omega)]
    have front : Ring.slice three 0 unuse = Ring.slice buf._data (buf._total - unuse) unuse := by
      rw [← data3,Ring.slice_shift_apart in3 to3 (by omega),← data2,Ring.slice_shift in2 to2,← data1,
        Ring.slice_shift_apart in1 to1 (by omega)]
    have middle : Ring.slice three unuse buf._pend = Ring.slice buf._data 0 buf._pend := by
      rw [← data3,Ring.slice_shift_apart in3 to3 (by omega),← data2,Ring.slice_shift_apart in2 to2 (by omega),← data1,
        Ring.slice_shift in1 to1]
    have halves := Ring.slice_append buf._data buf._pbeg (tail - unuse) unuse
    have joined := Ring.slice_append three 0 unuse buf._pend
    rw [show tail - unuse + unuse = tail by omega,show buf._pbeg + (tail - unuse) = buf._total - unuse by omega] at halves
    rw [show unuse + buf._pend = buf._pbeg by omega,Nat.zero_add] at joined
    rw [Ring.span_wrapped (by omega),placed.queue_wrapped wrapped,part1,joined,halves,front,middle,
      show three.length - (buf._pbeg + unuse) = tail - unuse by omega,behind,List.append_assoc]

/-- Case 4 goes on as case 2: the start of the second part turned behind the first. -/
theorem repos_head_turns (long : buf._pbeg - buf._pend < buf._total - buf._pbeg) (wide : buf._pbeg - buf._pend < buf._pend)
    (other : ¬(buf._total - buf._pbeg ≤ (buf._pbeg - buf._pend) * 2 ∧ buf._pend ≤ buf._total - buf._pbeg))
    (short : buf._pend ≤ (buf._pbeg - buf._pend) * 2) (longer : buf._total - buf._pbeg ≤ buf._pend) :
    ∃ data, let turned : CycBuf := {buf with _data := data, _pbeg := buf._pend, _pend := buf._pend - (buf._pbeg - buf._pend)}
      buf._repos = turned._repos ∧ Placed turned unread := by
  have first := placed.first
  have block := placed.block
  generalize gap : buf._pbeg - buf._pend = unuse at long wide other short
  generalize part1 : buf._total - buf._pbeg = tail at long other longer
  generalize data1 : Ring.shift buf._data buf._pend buf._pbeg tail = one
  have in1 : buf._pbeg + tail ≤ buf._data.length := by omega
  have to1 : buf._pend + tail ≤ buf._data.length := by omega
  have length1 : one.length = buf._data.length := data1 ▸ Ring.length_shift in1 to1
  generalize data2 : Ring.shift one (tail + buf._pend) 0 unuse = two
  have in2 : 0 + unuse ≤ one.length := by omega
  have to2 : tail + buf._pend + unuse ≤ one.length := by omega
  have length2 : two.length = one.length := data2 ▸ Ring.length_shift in2 to2
  generalize data3 : Ring.shift two 0 unuse (buf._pend - unuse) = three
  have in3 : unuse + (buf._pend - unuse) ≤ two.length := by omega
  have to3 : 0 + (buf._pend - unuse) ≤ two.length := by omega
  have length3 : three.length = two.length := data3 ▸ Ring.length_shift in3 to3
  refine ⟨three,?_,length3.trans (length2.trans (length1.trans block)),placed.allocated,placed.last,?_,?_⟩
  · conv_lhs => rw [CycBuf._repos]
    rw [if_neg (Nat.not_le.mpr wrapped)]
    dsimp only
    rw [gap,part1,if_neg (Nat.not_le.mpr long),if_neg (Nat.not_le.mpr wide),if_neg other,if_pos ⟨short,longer⟩,
      memmove_ok in1 to1,data1]
    dsimp only [bind,Except.bind]
    rw [memmove_ok in2 to2,data2]
    dsimp only
    rw [memmove_ok in3 to3,data3]
    dsimp only
    rw [assert_ok (decide_eq_true (by omega : buf._pend - unuse ≤ unuse))]
  · dsimp only
    omega
  · dsimp only
    have behind : Ring.slice three buf._pend tail = Ring.slice buf._data buf._pbeg tail := by
      rw [← data3,Ring.slice_shift_apart in3 to3 (by omega),← data2,Ring.slice_shift_apart in2 to2 (by omega),← data1,
        Ring.slice_shift in1 to1]
    have last : Ring.slice three (tail + buf._pend) unuse = Ring.slice buf._data 0 unuse := by
      rw [← data3,Ring.slice_shift_apart in3 to3 (by omega),← data2,Ring.slice_shift in2 to2,← data1,
        Ring.slice_shift_apart in1 to1 (by omega)]
    have front : Ring.slice three 0 (buf._pend - unuse) = Ring.slice buf._data unuse (buf._pend - unuse) := by
      rw [← data3,Ring.slice_shift in3 to3,← data2,Ring.slice_shift_apart in2 to2 (by omega),← data1,
        Ring.slice_shift_apart in1 to1 (by omega)]
    have halves := Ring.slice_append buf._data 0 unuse (buf._pend - unuse)
    have joined := Ring.slice_append three buf._pend tail unuse
    rw [show unuse + (buf._pend - unuse) = buf._pend by omega,Nat.zero_add] at halves
    rw [Nat.add_comm buf._pend] at joined
    rw [Ring.span_wrapped (by omega),placed.queue_wrapped wrapped,part1,halves,
      show three.length - buf._pend = tail + unuse by omega,joined,behind,last,front,List.append_assoc]

/-- Case 5: the two parts are copied to a new block. -/
theorem repos_renews (long : buf._pbeg - buf._pend < buf._total - buf._pbeg) (wide : buf._pbeg - buf._pend < buf._pend)
    (three : ¬(buf._total - buf._pbeg ≤ (buf._pbeg - buf._pend) * 2 ∧ buf._pend ≤ buf._total - buf._pbeg))
    (four : ¬(buf._pend ≤ (buf._pbeg - buf._pend) * 2 ∧ buf._total - buf._pbeg ≤ buf._pend)) :
    ∃ data, buf._repos = .ok (true,{buf with _data := data, _pend := buf.size, _pbeg := 0}) ∧
      Placed {buf with _data := data, _pend := buf.size, _pbeg := 0} unread := by
  have first := placed.first
  have block := placed.block
  have sized := placed.size_wrapped wrapped
  have queue := placed.queue_wrapped wrapped
  have moved := placed.size_eq
  have length : (List.replicate buf._total (none : Byte)).length = buf._total := List.length_replicate
  have in1 : buf._pbeg + (buf._total - buf._pbeg) ≤ buf._data.length := by omega
  have in2 : 0 + buf._pend ≤ buf._data.length := by omega
  have length1 := Ring.length_slice in1
  have length2 := Ring.length_slice in2
  have fits : 0 + (Ring.slice buf._data buf._pbeg (buf._total - buf._pbeg)).length ≤ (List.replicate buf._total (none : Byte)).length := by
    omega
  have rest : buf._total - buf._pbeg + (Ring.slice buf._data 0 buf._pend).length ≤ (Ring.overwrite (List.replicate buf._total (none : Byte)) 0
      (Ring.slice buf._data buf._pbeg (buf._total - buf._pbeg))).length := by
    rw [Ring.length_overwrite fits]
    omega
  have both := @Ring.overwrite_overwrite _ (List.replicate buf._total (none : Byte))
    (Ring.slice buf._data buf._pbeg (buf._total - buf._pbeg)) 0 (Ring.slice buf._data 0 buf._pend)
    (by rw [← queue,length]; omega)
  rw [length1,← queue,Nat.zero_add] at both
  refine ⟨Ring.overwrite (List.replicate buf._total none) 0 unread,?_,?_⟩
  · rw [CycBuf._repos,if_neg (Nat.not_le.mpr wrapped)]
    dsimp only
    rw [if_neg (Nat.not_le.mpr long),if_neg (Nat.not_le.mpr wide),if_neg three,if_neg four,newBlock,
      if_pos placed.allocated,load_ok in1,load_ok in2]
    dsimp only [liftM,monadLift,MonadLift.monadLift,bind,Except.bind]
    rw [store_ok fits]
    dsimp only
    rw [store_ok rest,both]
    rfl
  · have whole : Ring.slice (Ring.overwrite (List.replicate buf._total (none : Byte)) 0 unread) 0 unread.length = unread :=
      Ring.slice_overwrite (by omega)
    rw [← moved] at whole
    have done := @one_piece _ _ placed (Ring.overwrite (List.replicate buf._total (none : Byte)) 0 unread) 0
      ((Ring.length_overwrite (by omega)).trans length) (by omega) whole
    rwa [Nat.zero_add] at done

end Wrapped

/-- However the unread bytes lie, they are one piece afterwards and the same. -/
theorem repos_spec : ∃ fresh next, buf._repos = .ok (fresh,next) ∧ Placed next unread ∧ next._pbeg ≤ next._pend ∧
    next._total = buf._total ∧ next._state = buf._state := by
  have first := placed.first
  by_cases straight : buf._pbeg ≤ buf._pend
  · obtain ⟨_,runs,done⟩ := placed.repos_straight straight
    exact ⟨_,_,runs,done,Nat.zero_le _,rfl,rfl⟩
  have wrapped := Nat.not_le.mp straight
  by_cases one : buf._total - buf._pbeg ≤ buf._pbeg - buf._pend
  · obtain ⟨_,runs,done⟩ := placed.repos_tail_fits wrapped one
    exact ⟨_,_,runs,done,Nat.zero_le _,rfl,rfl⟩
  have long := Nat.not_le.mp one
  by_cases two : buf._pend ≤ buf._pbeg - buf._pend
  · obtain ⟨_,runs,done⟩ := placed.repos_head_fits wrapped long two
    exact ⟨_,_,runs,done,Nat.le_add_right ..,rfl,rfl⟩
  have wide := Nat.not_le.mp two
  by_cases three : buf._total - buf._pbeg ≤ (buf._pbeg - buf._pend) * 2 ∧ buf._pend ≤ buf._total - buf._pbeg
  · obtain ⟨_,goes_on,turned⟩ := placed.repos_tail_turns wrapped long wide three.1 three.2
    -- the gap is as long as before, and the first part is what it did not hold
    obtain ⟨_,runs,done⟩ := turned.repos_tail_fits (by dsimp only; omega) (by dsimp only; omega)
    exact ⟨_,_,goes_on.trans runs,done,Nat.zero_le _,rfl,rfl⟩
  by_cases four : buf._pend ≤ (buf._pbeg - buf._pend) * 2 ∧ buf._total - buf._pbeg ≤ buf._pend
  · obtain ⟨_,goes_on,turned⟩ := placed.repos_head_turns wrapped long wide three four.1 four.2
    obtain ⟨_,runs,done⟩ := turned.repos_head_fits (by dsimp only; omega) (by dsimp only; omega) (by dsimp only; omega)
    exact ⟨_,_,goes_on.trans runs,done,Nat.le_add_right ..,rfl,rfl⟩
  obtain ⟨_,runs,done⟩ := placed.repos_renews wrapped long wide three four
  exact ⟨_,_,runs,done,Nat.zero_le _,rfl,rfl⟩

end Placed

/-- Whatever the block and the positions in it, nothing is asserted wrongly or moved
outside it, and the bytes between the positions end up as one piece of it. -/
theorem repos_gathers (buf : CycBuf) (block : buf._data.length = buf._total) (allocated : buf._total < 2^63)
    (first : buf._pbeg ≤ buf._total) (last : buf._pend ≤ buf._total) :
    ∃ fresh next, buf._repos = .ok (fresh,next) ∧ next._data.length = buf._total ∧ next._total = buf._total ∧
      next._pend = next._pbeg + buf.size ∧ next._pend ≤ buf._total ∧
      Ring.slice next._data next._pbeg buf.size = Ring.span buf._data buf._pbeg buf._pend := by
  have placed : Placed buf (Ring.span buf._data buf._pbeg buf._pend) := ⟨block,allocated,first,last,rfl⟩
  obtain ⟨fresh,next,runs,done,straight,total,_⟩ := placed.repos_spec
  have sized : buf.size = next._pend - next._pbeg := by
    rw [placed.size_eq,← done.size_eq]
    exact if_pos straight
  refine ⟨fresh,next,runs,total ▸ done.block,total,by omega,total ▸ done.last,?_⟩
  rw [sized,← Ring.span_straight straight,done.queue]

/-- `456--0123`: the end of the first part is turned before both parts are put together. -/
def turning : CycBuf :=
  ⟨[some 4,some 5,some 6,none,none,some 0,some 1,some 2,some 3],9,5,3,STATE_NONE⟩

theorem turning_gathers : ∃ fresh next, turning._repos = .ok (fresh,next) ∧ next._data.length = 9 ∧ next._total = 9 ∧
    next._pend = next._pbeg + 7 ∧ next._pend ≤ 9 ∧ Ring.slice next._data next._pbeg 7 = [0,1,2,3,4,5,6].map some :=
  repos_gathers turning rfl (by decide) (by decide) (by decide)

namespace Layout
variable {buf : CycBuf} {unread : List Byte} (layout : Layout buf unread)
include layout

theorem repos_spec : ∃ fresh next, buf._repos = .ok (fresh,next) ∧ Layout next unread ∧ next._pbeg ≤ next._pend ∧
    next._total = buf._total ∧ next._state = buf._state := by
  have smaller := layout.size_lt
  have sized := layout.size_eq
  obtain ⟨fresh,next,runs,done,straight,total,state⟩ := layout.toPlaced.repos_spec
  have same : next.size = next._pend - next._pbeg := if_pos straight
  refine ⟨fresh,next,runs,⟨done,total ▸ layout.aligned,total ▸ layout.positive,?_⟩,straight,total,state⟩
  intro start
  rw [done.size_eq] at same
  omega

end Layout
end Migfm.Comm
