import Mathlib.Data.Int.Log
import Mathlib.Data.Rat.Floor
import Mathlib.Tactic

/-! Numbers that are rounded to so many significant bits: to the nearest, and to the even one where two are as near.
The exponent is not limited. -/
namespace Migfm.Library.Rounding

/-- The nearest integer. -/
def nearest (x : ℚ) : ℤ :=
  if 1 / 2 < x - ⌊x⌋ ∨ (x - ⌊x⌋ = 1 / 2 ∧ ⌊x⌋ % 2 = 1) then ⌊x⌋ + 1 else ⌊x⌋

/-- What the last bit is worth. -/
def unit (bits : ℕ) (x : ℚ) : ℚ := 2 ^ (Int.log 2 |x| + 1 - bits)

def round (bits : ℕ) (x : ℚ) : ℚ := nearest (x / unit bits x) * unit bits x

theorem unit_pos (bits : ℕ) (x : ℚ) : 0 < unit bits x := zpow_pos (by norm_num) _

theorem nearest_error (x : ℚ) : |nearest x - x| ≤ 1 / 2 := by
  have low := Int.floor_le x
  have high := Int.lt_floor_add_one x
  rw [nearest,abs_le]
  split
  · rename_i up
    push_cast
    rcases up with more | ⟨half,_⟩
    · constructor <;> linarith
    · constructor <;> linarith
  · rename_i down
    rw [not_or,not_lt] at down
    constructor <;> linarith [down.1]

theorem nearest_intCast (n : ℤ) : nearest n = n := by
  rw [nearest,Int.floor_intCast,sub_self]
  norm_num

theorem round_error (bits : ℕ) {x : ℚ} (some_ : x ≠ 0) : |round bits x - x| ≤ |x| / 2 ^ bits := by
  have positive := unit_pos bits x
  have most : unit bits x / 2 ≤ |x| / 2 ^ bits := by
    have log := Int.zpow_log_le_self (by norm_num : 1 < 2) (abs_pos.mpr some_)
    have parts : unit bits x = 2 ^ Int.log 2 |x| * 2 / 2 ^ bits := by
      rw [unit,zpow_sub₀ (by norm_num),zpow_add₀ (by norm_num),zpow_one,zpow_natCast]
    rw [parts,div_right_comm,mul_div_cancel_right₀ _ (by norm_num)]
    gcongr
    exact_mod_cast log
  calc |round bits x - x| = |nearest (x / unit bits x) - x / unit bits x| * unit bits x := by
        rw [round,← abs_of_pos positive,← abs_mul,abs_of_pos positive,sub_mul,div_mul_cancel₀ _ positive.ne']
    _ ≤ 1 / 2 * unit bits x := by
        gcongr
        exact nearest_error _
    _ = unit bits x / 2 := by ring
    _ ≤ |x| / 2 ^ bits := most

/-- Enough bits lose nothing. -/
theorem round_exact {bits : ℕ} {m k : ℤ} (few : |m| < 2 ^ bits) : round bits (m * 2 ^ k) = m * 2 ^ k := by
  by_cases zero : m = 0
  · rw [zero,round,Int.cast_zero,zero_mul,zero_div]
    rw [← Int.cast_zero,nearest_intCast]
    norm_num
  have power : (0 : ℚ) < 2 ^ k := zpow_pos (by norm_num) k
  have size : |(m : ℚ) * 2 ^ k| = |m| * 2 ^ k := by rw [abs_mul,abs_of_pos power,Int.cast_abs]
  have some_ : 0 < |(m : ℚ) * 2 ^ k| := abs_pos.mpr (mul_ne_zero (Int.cast_ne_zero.mpr zero) power.ne')
  have log : Int.log 2 |(m : ℚ) * 2 ^ k| < bits + k := by
    have low := Int.zpow_log_le_self (by norm_num : 1 < 2) some_
    have below : (2 : ℚ) ^ Int.log 2 |(m : ℚ) * 2 ^ k| < 2 ^ (bits + k : ℤ) := by
      refine lt_of_le_of_lt (by exact_mod_cast low) ?_
      rw [size,zpow_add₀ (by norm_num),zpow_natCast]
      gcongr
      exact_mod_cast few
    exact (zpow_lt_zpow_iff_right₀ (by norm_num)).mp below
  -- the last bit is worth no more than `2 ^ k`
  obtain ⟨j,exponent⟩ := Int.eq_ofNat_of_zero_le (show 0 ≤ k - (Int.log 2 |(m : ℚ) * 2 ^ k| + 1 - bits) by omega)
  have whole : (m : ℚ) * 2 ^ k / unit bits (m * 2 ^ k) = (m * 2 ^ j : ℤ) := by
    rw [unit,mul_div_assoc,← zpow_sub₀ (by norm_num),exponent]
    push_cast
    rfl
  rw [round,whole,nearest_intCast,← whole,div_mul_cancel₀ _ (unit_pos bits _).ne']

end Migfm.Library.Rounding
