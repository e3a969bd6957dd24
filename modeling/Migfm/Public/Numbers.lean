import Migfm.Public.Members

/-! A number that is written in decimal digits, as the reader takes it. -/
namespace Migfm.Public.Json
open Logic (decimalDigits denoted isDigit)

/-- The value of an integer node. -/
def Value.number : Value → Option Int
  | .int value => some value.toInt
  | .uint value => some value.toNat
  | _ => none

theorem digit_bounds {n : Nat} : ∀ c ∈ decimalDigits n, 48 ≤ c ∧ c ≤ 57 := by
  intro c listed
  have digit := Logic.isDigit_decimalDigits n c listed
  simp only [isDigit,decide_eq_true_eq] at digit
  simp only [UInt8.le_iff_toNat_le]
  exact digit

theorem le_foldl_digits (digits : List UInt8) (n : Nat) : n ≤ digits.foldl (fun n digit => 10 * n + (digit.toNat - 48)) n := by
  induction digits generalizing n with
  | nil => exact le_rfl
  | cons digit digits ih =>
    have more := ih (10 * n + (digit.toNat - 48))
    rw [List.foldl_cons]
    omega

/-- Digits of a number below 2^63 are never too many. -/
theorem decodeDigits_small {digits : List UInt8} {value : UInt64} (each : ∀ c ∈ digits, 48 ≤ c ∧ c ≤ 57)
    (small : digits.foldl (fun n digit => 10 * n + (digit.toNat - 48)) value.toNat < 2 ^ 63) :
    ∃ number, decodeDigits (0xffffffffffffffff / 10) (0xffffffffffffffff % 10) value digits = some number ∧
      number.toNat = digits.foldl (fun n digit => 10 * n + (digit.toNat - 48)) value.toNat := by
  induction digits generalizing value with
  | nil => exact ⟨value,rfl,rfl⟩
  | cons c digits ih =>
    obtain ⟨⟨low,high⟩,each⟩ := List.forall_mem_cons.mp each
    rw [List.foldl_cons] at small
    have bound := (le_foldl_digits digits (10 * value.toNat + (c.toNat - 48))).trans_lt small
    have digit : (c - 48).toUInt64.toNat = c.toNat - 48 := by
      rw [UInt8.toNat_toUInt64,UInt8.toNat_sub_of_le _ _ low]
      rfl
    have next : (value * 10 + (c - 48).toUInt64).toNat = 10 * value.toNat + (c.toNat - 48) := by
      rw [UInt64.toNat_add,UInt64.toNat_mul,digit]
      change (value.toNat * 10 % 2 ^ 64 + (c.toNat - 48)) % 2 ^ 64 = _
      omega
    have below : ¬value ≥ 0xffffffffffffffff / 10 := by
      rw [ge_iff_le,UInt64.le_iff_toNat_le]
      change ¬1844674407370955161 ≤ value.toNat
      omega
    have rest := @ih (value * 10 + (c - 48).toUInt64) each (by rw [next]; exact small)
    rw [next] at rest
    rw [decodeDigits,List.foldl_cons]
    rw [if_neg (fun many => below many.1)]
    exact rest

theorem decodeNumber_decimal (sscanf : List UInt8 → Option Float) {n : Nat} (small : n < 2 ^ 63) :
    ∃ value, decodeNumber sscanf (decimalDigits n) = some value ∧ value.number = some (n : Int) := by
  have each := @digit_bounds n
  have whole : ((decimalDigits n).any (· ∈ [46,101,69,43]) || ((decimalDigits n).drop 1).any (· = 45)) = false := by
    rw [Bool.or_eq_false_iff,List.any_eq_false,List.any_eq_false]
    constructor
    · intro c listed mark
      have digit := each c listed
      revert digit
      simp only [List.mem_cons,List.not_mem_nil,or_false,decide_eq_true_eq] at mark
      rcases mark with rfl | rfl | rfl | rfl
      all_goals decide
    · intro c listed sign
      obtain ⟨low,-⟩ := each c (List.mem_of_mem_drop listed)
      rw [of_decide_eq_true sign] at low
      revert low
      decide
  have value : denoted (decimalDigits n) = n := Logic.denoted_decimalDigits n
  obtain ⟨number,decoded,same⟩ := @decodeDigits_small _ 0 each (by change denoted (decimalDigits n) < _; rw [value]; exact small)
  change number.toNat = denoted (decimalDigits n) at same
  rw [value] at same
  have unsigned : ∀ digits, decimalDigits n = 45::digits → False := by
    intro digits starts
    obtain ⟨low,-⟩ := each 45 (starts ▸ List.mem_cons_self)
    revert low
    decide
  rw [decodeNumber,whole,if_neg Bool.false_ne_true,decoded]
  · refine ⟨_,rfl,?_⟩
    split
    · have signed : number.toInt64.toInt = number.toNat := by
        change number.toBitVec.toInt = _
        rw [BitVec.toInt_eq_toNat_of_lt]
        · rfl
        · change 2 * number.toNat < 2 ^ 64
          omega
      rw [Value.number,signed,same]
    · rw [Value.number,same]
  · exact unsigned

theorem readToken_decimal (n : Nat) (rest : List UInt8) :
    readToken (decimalDigits n ++ 44::rest) = (.number (decimalDigits n),44::rest) := by
  obtain ⟨c,digits,starts,_⟩ := Logic.decimalDigits_head n
  have each := @digit_bounds n
  rw [starts] at each
  obtain ⟨⟨low,high⟩,each⟩ := List.forall_mem_cons.mp each
  have numbers : ∀ c ∈ digits, isNumber c := by
    intro c listed
    exact decide_eq_true (.inl (each c listed))
  have visible : c ≠ 32 ∧ c ≠ 9 ∧ c ≠ 13 ∧ c ≠ 10 := by
    refine ⟨?_,?_,?_,?_⟩
    all_goals
      rintro rfl
      revert low
      decide
  have taken : (digits ++ 44::rest).takeWhile isNumber = digits := by
    rw [List.takeWhile_append_of_pos numbers,List.takeWhile_cons_of_neg (by decide),List.append_nil]
  have dropped : (digits ++ 44::rest).dropWhile isNumber = 44::rest := by
    rw [List.dropWhile_append_of_pos numbers,List.dropWhile_cons_of_neg (by decide)]
  rw [starts,List.cons_append,readToken,skipSpaces_visible _ visible]
  split
  all_goals rename_i same
  all_goals cases same
  all_goals try first | exact absurd high (by decide) | exact absurd low (by decide)
  rw [if_pos (.inl ⟨low,high⟩),taken,dropped]

end Migfm.Public.Json
