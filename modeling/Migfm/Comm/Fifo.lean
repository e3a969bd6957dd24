import Migfm.Comm.Layout

/-! `cyc_buf` is the queue of its unread bytes, as long as the write position is not
at the end of the block when a read takes the last byte. -/
namespace Migfm.Comm
open Library

/-- The unread bytes lie between the positions, and the block has a free byte. -/
structure Holds (buf : CycBuf) (unread : List UInt8) : Prop where
  block : buf._data.length = buf._total
  allocated : buf._total < 2^63
  aligned : 4 ∣ buf._total
  first : buf._pbeg < buf._total
  last : buf._pend ≤ buf._total
  apart : buf._pbeg = 0 → buf._pend ≠ buf._total
  queue : Ring.span buf._data buf._pbeg buf._pend = unread.map some
  free : buf._state = STATE_NONE

namespace Holds
variable {buf : CycBuf} {unread : List UInt8}

theorem of_layout (layout : Layout buf (unread.map some)) (first : buf._pbeg < buf._total) (free : buf._state = STATE_NONE) :
    Holds buf unread :=
  ⟨layout.block,layout.allocated,layout.aligned,first,layout.last,layout.apart,layout.queue,free⟩

variable (holds : Holds buf unread)
include holds

theorem layout : Layout buf (unread.map some) :=
  ⟨⟨holds.block,holds.allocated,holds.first.le,holds.last,holds.queue⟩,holds.aligned,Nat.zero_lt_of_lt holds.first,holds.apart⟩

theorem size_eq : buf.size = unread.length := holds.layout.size_eq.trans (List.length_map _)

theorem unlocked : buf.wlocked = false ∧ buf.rlocked = false ∧ buf.any_locked = false := by
  have free := holds.free
  simp [CycBuf.any_locked,CycBuf.wlocked,CycBuf.rlocked,free,STATE_NONE]

/-! ### The calls -/

theorem peek_eq (len : Nat) : buf.peek len = .ok ((unread.take len).map some) := by
  rw [holds.layout.peek_eq holds.unlocked.2.1,List.map_take]

/-- A read that does not take the last byte in front of a write position at the end. -/
theorem read_spec {len : Nat} (meets : buf._pend = buf._total → len < buf.size) :
    ∃ next, buf.read len = .ok ((unread.take len).map some,next) ∧ Holds next (unread.drop len) := by
  obtain ⟨first,reads,layout,inside⟩ := holds.layout.read_spec holds.unlocked.2.1 meets
  rw [← List.map_drop] at layout
  refine ⟨{buf with _pbeg := first},?_,of_layout layout inside holds.free⟩
  rw [reads,List.map_take]

theorem reserve_spec (n : Nat) : buf.reserve n = .error .allocation ∨
    ∃ next, buf.reserve n = .ok (true,next) ∧ Holds next unread := by
  rcases holds.layout.reserve_spec holds.unlocked.2.2 n with failed | ⟨next,reserves,layout,_,state,first⟩
  · exact .inl failed
  · exact .inr ⟨next,reserves,of_layout layout (first holds.first) (state.trans holds.free)⟩

theorem write_spec (source : Object) : buf.write (source.bytes.map some) = .error .allocation ∨
    ∃ next, buf.write (source.bytes.map some) = .ok (source.bytes.length,next) ∧ Holds next (unread ++ source.bytes) := by
  have reader := holds.unlocked.2.1
  rcases holds.layout.write_spec holds.unlocked.1 source (fun locked => Bool.noConfusion (reader.symm.trans locked)) with
    failed | ⟨next,writes,layout,state,first,_⟩
  · exact .inl failed
  · refine .inr ⟨next,writes,of_layout ?_ (first holds.first) (state.trans holds.free)⟩
    rwa [List.map_append]

theorem clear_spec : buf.clear.1 = true ∧ Holds buf.clear.2 [] := by
  obtain ⟨clears,layout⟩ := holds.layout.clear_spec holds.unlocked.2.2
  rw [clears]
  exact ⟨rfl,of_layout layout layout.positive holds.free⟩

end Holds

/-! ### Runs -/

/-- A read takes the last unread byte only where the write position is not at the
end of the block. -/
def Meets (buf : CycBuf) : Call → Prop
  | .read len => buf._pend = buf._total → len.toNat < buf.size
  | _ => True

theorem call_spec {buf : CycBuf} {unread : List UInt8} (holds : Holds buf unread) {call : Call} (meets : Meets buf call) :
    buf.call call = .error .allocation ∨
      ∃ next, buf.call call = .ok ((fifoCall unread call).1,next) ∧ Holds next (fifoCall unread call).2 := by
  cases call with
  | write source =>
    rcases holds.write_spec source with failed | ⟨next,writes,holds⟩
    · left
      rw [CycBuf.call,failed]
      rfl
    · refine .inr ⟨next,?_,holds⟩
      rw [CycBuf.call,writes]
      rfl
  | read len =>
    obtain ⟨next,reads,holds⟩ := holds.read_spec meets
    refine .inr ⟨next,?_,holds⟩
    rw [CycBuf.call,reads]
    rfl
  | peek len =>
    refine .inr ⟨buf,?_,holds⟩
    rw [CycBuf.call,holds.peek_eq]
    rfl
  | reserve n =>
    rcases holds.reserve_spec n.toNat with failed | ⟨next,reserves,holds⟩
    · left
      rw [CycBuf.call,failed]
      rfl
    · refine .inr ⟨next,?_,holds⟩
      rw [CycBuf.call,reserves]
      rfl
  | clear =>
    obtain ⟨done,cleared⟩ := holds.clear_spec
    refine .inr ⟨buf.clear.2,?_,cleared⟩
    rw [CycBuf.call,done]
    rfl

/-- The state after a call that returns. -/
def CycBuf.step (buf : CycBuf) (call : Call) : Option CycBuf :=
  match buf.call call with
  | .ok (_,next) => some next
  | .error _ => none

theorem run_spec {buf : CycBuf} {unread : List UInt8} (holds : Holds buf unread) {calls : List Call}
    (meets : Runs.Along CycBuf.step Meets buf calls) :
    buf.run calls = .error .allocation ∨
      ∃ final, buf.run calls = .ok ((fifoRun unread calls).1,final) ∧ Holds final (fifoRun unread calls).2 := by
  induction calls generalizing buf unread with
  | nil => exact .inr ⟨buf,rfl,holds⟩
  | cons call calls ih =>
    obtain ⟨meets,rest⟩ := meets
    rcases call_spec holds meets with failed | ⟨next,returns,holds⟩
    · left
      rw [CycBuf.run,failed]
      rfl
    · have stepped : buf.step call = some next := by rw [CycBuf.step,returns]
      rw [CycBuf.run,returns]
      dsimp only [bind,Except.bind]
      rcases ih holds (rest next stepped) with failed | ⟨final,runs,holds⟩
      · left
        rw [failed]
      · refine .inr ⟨final,?_,holds⟩
        rw [runs]
        rfl

theorem create_holds {size : Nat} (room : size + 4 < 2^64) {buf : CycBuf} (created : CycBuf.create size = .ok buf) :
    Holds buf [] := by
  obtain ⟨layout,state,first⟩ := create_layout room created
  exact Holds.of_layout layout (first.trans_lt layout.positive) state

/-- What the queue of `unread` bytes promises of the buffer's counts. -/
structure Counts (buf : CycBuf) (unread : List UInt8) : Prop where
  size : buf.size = unread.length
  capacity : unread.length ≤ buf.capacity
  avail : buf.avail + unread.length = buf.capacity

theorem Holds.counts {buf : CycBuf} {unread : List UInt8} (holds : Holds buf unread) : Counts buf unread := by
  have smaller := holds.layout.size_lt
  have size := holds.size_eq
  refine ⟨size,?_,?_⟩
  · rw [holds.layout.capacity_eq]
    omega
  · rw [holds.layout.avail_eq,holds.layout.capacity_eq]
    omega

/-- A run of calls answers as the queue of unread bytes does, unless an allocation fails. -/
theorem cycBuf_fifo (size : UInt64) (room : size.toNat + 4 < 2^64) {buf : CycBuf}
    (created : CycBuf.create size.toNat = .ok buf) (calls : List Call)
    (meets : Runs.Along CycBuf.step Meets buf calls) :
    buf.run calls = .error .allocation ∨
      ∃ final, buf.run calls = .ok ((fifoRun [] calls).1,final) ∧ Counts final (fifoRun [] calls).2 := by
  rcases run_spec (create_holds room created) meets with failed | ⟨final,runs,holds⟩
  · exact .inl failed
  · exact .inr ⟨final,runs,holds.counts⟩

def smallBuf : CycBuf := ⟨[none,none,none,none],4,0,0,STATE_NONE⟩

def abc : Object := ⟨[97,98,99],by decide⟩

theorem abc_fifo : smallBuf.run [.write abc,.read 3] = .error .allocation ∨
    ∃ final, smallBuf.run [.write abc,.read 3] = .ok ((fifoRun [] [.write abc,.read 3]).1,final) ∧
      Counts final (fifoRun [] [.write abc,.read 3]).2 :=
  cycBuf_fifo 3 (by decide) rfl _ ⟨trivial,fun _ written => by
    cases written
    exact ⟨fun ends => absurd ends (by decide),fun _ _ => trivial⟩⟩

/-- Three bytes in and out, then one: the write position is at the end of the block. -/
def toTheEnd : List Call := [.write abc,.read 3,.write ⟨[100],by decide⟩,.read 1]

theorem toTheEnd_full : CycBuf.create 3 = .ok smallBuf ∧ (fifoRun [] toTheEnd).2 = [] ∧
    (∃ answers final, smallBuf.run toTheEnd = .ok (answers,final) ∧ final.size = 4 ∧ final.capacity = 3 ∧
      final.avail = 2^64 - 1) ∧
    smallBuf.run (toTheEnd ++ [.write ⟨[1,2,3,4,5],by decide⟩]) = .error .outside :=
  ⟨rfl,rfl,⟨_,_,rfl,rfl,rfl,rfl⟩,rfl⟩

end Migfm.Comm
