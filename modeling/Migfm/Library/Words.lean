import Mathlib.Tactic

/-! Signed machine words as integers: what an operation wraps to, and when it
is exact. -/
namespace Migfm.Library.Words

theorem toInt_ofNat_wraps (n : Nat) : ∃ i : Int, (Int32.ofNat n).toInt = n + 2^32 * i := by
  refine ⟨-Int.bdiv n Int32.size,?_⟩
  rw [Int32.toInt_ofNat',Int.bmod_eq_self_sub_mul_bdiv,Int.mul_neg,← Int.sub_eq_add_neg]
  rfl

theorem toInt_add_wraps (a b : Int32) : ∃ i : Int, (a + b).toInt = a.toInt + b.toInt + 2^32 * i := by
  refine ⟨-Int.bdiv (a.toInt + b.toInt) (2^32),?_⟩
  rw [Int32.toInt_add,Int.bmod_eq_self_sub_mul_bdiv,Int.mul_neg,← Int.sub_eq_add_neg]
  rfl

theorem toInt_add_exact {a b : Int32} (low : -2^31 ≤ a.toInt + b.toInt) (high : a.toInt + b.toInt < 2^31) :
    (a + b).toInt = a.toInt + b.toInt := by
  rw [Int32.toInt_add]
  exact Int.bmod_eq_of_le (by omega) (by omega)

theorem toInt_sub_exact {a b : Int32} (low : -2^31 ≤ a.toInt - b.toInt) (high : a.toInt - b.toInt < 2^31) :
    (a - b).toInt = a.toInt - b.toInt := by
  rw [Int32.toInt_sub]
  exact Int.bmod_eq_of_le (by omega) (by omega)

end Migfm.Library.Words
