import Mathlib.Data.List.TakeWhile
import Mathlib.Logic.Function.Basic

/-! The list commands of public/storage/redis_warrper.c. Redis answers, and a key that
has no list has the empty one. -/
namespace Migfm.Storage

/-- What `%s` takes of a buffer. -/
def c_str (buffer : List UInt8) : List UInt8 := buffer.takeWhile (· ≠ 0)

theorem c_str_clean (buffer : List UInt8) : ∀ c ∈ c_str buffer, c ≠ 0 := by
  intro c member
  simpa using List.mem_takeWhile_imp member

theorem c_str_eq {buffer : List UInt8} (clean : ∀ c ∈ buffer, c ≠ 0) : c_str buffer = buffer := by
  rw [c_str,List.takeWhile_eq_self_iff]
  intro c member
  simpa using clean c member

abbrev Lists := List UInt8 → List (List UInt8)

namespace Lists

/-- `RPUSH` behind the list, `LPUSH` in front of it. -/
def push (redis : Lists) (key val : List UInt8) (right : Bool) : Lists :=
  Function.update redis key (if right then redis key ++ [val] else val::redis key)

/-- `RPOP` and `LPOP`: no reply if there is no list. -/
def pop (redis : Lists) (key : List UInt8) (right : Bool) : Option (List UInt8) × Lists :=
  if right then ((redis key).getLast?,Function.update redis key (redis key).dropLast)
  else ((redis key).head?,Function.update redis key (redis key).tail)

/-- The lengths that are passed along are not used. -/
def RedisAddListElement (redis : Lists) (key val : List UInt8) (flag : Nat) : Lists :=
  redis.push (c_str key) (c_str val) (flag = 0)

/-- `val` comes with its terminator. -/
def RedisPopListElement (redis : Lists) (key : List UInt8) (flag : Nat) : Option (List UInt8) × Lists :=
  match redis.pop (c_str key) (flag = 0) with
  | (some str,redis) => if str.length ≠ 0 ∧ (c_str str).length ≠ 0 then (some (str ++ [0]),redis) else (none,redis)
  | (none,redis) => (none,redis)

/-- What these commands put into redis: texts, as C has them. -/
def Texts (redis : Lists) : Prop := ∀ key, ∀ text ∈ redis key, text ≠ [] ∧ ∀ c ∈ text, c ≠ 0

theorem texts_empty : Texts fun _ => [] := fun _ _ member => absurd member List.not_mem_nil

section Commands
variable {redis : Lists} {key val : List UInt8}

@[simp] theorem push_self (right : Bool) : redis.push key val right key = if right then redis key ++ [val] else val::redis key :=
  Function.update_self ..

theorem push_other {other : List UInt8} (apart : other ≠ key) (right : Bool) : redis.push key val right other = redis other :=
  Function.update_of_ne apart ..

theorem RedisAddListElement_texts (texts : redis.Texts) (text : c_str val ≠ []) (flag : Nat) :
    (redis.RedisAddListElement key val flag).Texts := by
  intro other given member
  rw [RedisAddListElement] at member
  by_cases same : other = c_str key
  · subst same
    have either : given ∈ redis (c_str key) ∨ given = c_str val := by
      rw [push_self] at member
      split at member <;> simpa [or_comm] using member
    rcases either with before | new
    · exact texts _ given before
    · rw [new]
      exact ⟨text,c_str_clean val⟩
  · rw [push_other same] at member
    exact texts other given member

theorem RedisPopListElement_none (empty : redis (c_str key) = []) (flag : Nat) : redis.RedisPopListElement key flag = (none,redis) := by
  have kept : Function.update redis (c_str key) [] = redis := by
    rw [← empty]
    exact Function.update_eq_self ..
  rw [RedisPopListElement,pop,empty]
  cases decide (flag = 0) with
  | false => exact congrArg (Prod.mk none) kept
  | true => exact congrArg (Prod.mk none) kept

/-- From the left, the first text is taken. -/
theorem RedisPopListElement_cons (texts : redis.Texts) {text : List UInt8} {rest : List (List UInt8)}
    (list : redis (c_str key) = text::rest) {flag : Nat} (left : flag ≠ 0) :
    redis.RedisPopListElement key flag = (some (text ++ [0]),Function.update redis (c_str key) rest) := by
  obtain ⟨some_,clean⟩ := texts _ text (list ▸ List.mem_cons_self)
  have length : text.length ≠ 0 := fun zero => some_ (List.length_eq_zero_iff.mp zero)
  rw [RedisPopListElement,pop,decide_eq_false left,if_neg Bool.false_ne_true,list]
  dsimp only [List.head?_cons,List.tail_cons]
  rw [c_str_eq clean,if_pos ⟨length,length⟩]

end Commands
end Lists
end Migfm.Storage
