import Mathlib.Tactic

/-! Messages that are taken block by block. What does not fill a block is kept for later. -/
namespace Migfm.Library.Blocks

variable {σ α : Type*} (size : Nat) (process : σ → List α → σ)

/-- So many blocks from the front of a message. -/
def blocks : Nat → σ → List α → σ
  | 0, state, _ => state
  | n+1, state, message => blocks n (process state (message.take size)) (message.drop size)

/-- The state behind the whole blocks of a message, and what is left of it. -/
def absorb (state : σ) (message : List α) : σ × List α :=
  (blocks size process (message.length / size) state message,message.drop (size * (message.length / size)))

variable {size} {process}

theorem absorb_of_lt {message : List α} (short : message.length < size) (state : σ) :
    absorb size process state message = (state,message) := by
  rw [absorb,Nat.div_eq_of_lt short]
  rfl

theorem absorb_nil (positive : 0 < size) (state : σ) : absorb size process state [] = (state,[]) :=
  absorb_of_lt positive state

theorem absorb_block {block : List α} (positive : 0 < size) (whole : block.length = size) (state : σ) (message : List α) :
    absorb size process state (block ++ message) = absorb size process (process state block) message := by
  have more : (block ++ message).length / size = message.length / size + 1 := by
    rw [List.length_append,whole,Nat.add_div_left _ positive]
  rw [absorb,absorb,more,blocks,List.take_left' whole,List.drop_left' whole,Nat.mul_add_one,Nat.add_comm,← List.drop_drop,
    List.drop_left' whole]

/-- What is left of a message is not a block. -/
theorem length_absorb (state : σ) (message : List α) :
    (absorb size process state message).2.length = message.length % size := by
  have parts := Nat.div_add_mod message.length size
  rw [absorb,List.length_drop]
  omega

/-- A message in two parts: what is left of the first goes before the second. -/
theorem absorb_append (positive : 0 < size) (state : σ) (first second : List α) :
    absorb size process state (first ++ second) =
      absorb size process (absorb size process state first).1 ((absorb size process state first).2 ++ second) := by
  induction steps : first.length using Nat.strong_induction_on generalizing state first with
  | _ n ih =>
    by_cases short : first.length < size
    · rw [absorb_of_lt short]
    · have whole : (first.take size).length = size := by
        rw [List.length_take]
        omega
      have less : (first.drop size).length < n := by
        rw [List.length_drop]
        omega
      have step := fun message => @absorb_block _ _ _ process _ positive whole state message
      calc absorb size process state (first ++ second)
          = absorb size process (process state (first.take size)) (first.drop size ++ second) := by
            rw [← step,← List.append_assoc,List.take_append_drop]
        _ = _ := by rw [ih _ less _ _ rfl,← step,List.take_append_drop]

end Migfm.Library.Blocks
