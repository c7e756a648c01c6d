import Mathlib.Data.Nat.Bitwise

/-!
Bit masks as division and remainder. A mask of `k` low bits selects a remainder
modulo `2 ^ k`; filling the `k` low bits erases it.
-/
namespace Masks

/-- Two numbers agree once their `k` low bits are filled exactly when they
    agree above those bits. -/
theorem or_mask_eq_iff (a b k : Nat) :
    a ||| (2 ^ k - 1) = b ||| (2 ^ k - 1) ↔ a / 2 ^ k = b / 2 ^ k := by
  constructor
  · intro same
    apply Nat.eq_of_testBit_eq
    intro i
    have shifted := congrArg (fun n => n.testBit (i + k)) same
    have above : ¬ i + k < k := by omega
    simpa [Nat.testBit_or, Nat.testBit_two_pow_sub_one, Nat.testBit_div_two_pow, above] using shifted
  · intro same
    apply Nat.eq_of_testBit_eq
    intro i
    rw [Nat.testBit_or, Nat.testBit_or, Nat.testBit_two_pow_sub_one]
    by_cases low : i < k
    · simp [low]
    · have shifted := congrArg (fun n => n.testBit (i - k)) same
      simp only [Nat.testBit_div_two_pow] at shifted
      rw [Nat.sub_add_cancel (by omega)] at shifted
      simp [low, shifted]

variable {w : Nat}

/-- The comparison of two words under a filled mask, read on their values. -/
theorem or_mask_beq (a b m : BitVec w) (k : Nat) (mask : m.toNat = 2 ^ k - 1) :
    (a ||| m == b ||| m) = decide (a.toNat / 2 ^ k = b.toNat / 2 ^ k) := by
  rw [Bool.eq_iff_iff, beq_iff_eq, decide_eq_true_iff, ← or_mask_eq_iff, ← mask,
    BitVec.toNat_eq, BitVec.toNat_or, BitVec.toNat_or]

/-- The digit a word selects after a shift and a mask. -/
theorem shift_mask_toNat (a m : BitVec w) (s k : Nat) (mask : m.toNat = 2 ^ k - 1) :
    (a >>> s &&& m).toNat = a.toNat / 2 ^ s % 2 ^ k := by
  rw [BitVec.toNat_and, BitVec.toNat_ushiftRight, mask, Nat.and_two_pow_sub_one_eq_mod,
    Nat.shiftRight_eq_div_pow]

/-- The remainder a word selects under a mask. -/
theorem and_mask_toNat (a m : BitVec w) (k : Nat) (mask : m.toNat = 2 ^ k - 1) :
    (a &&& m).toNat = a.toNat % 2 ^ k := by
  rw [BitVec.toNat_and, mask, Nat.and_two_pow_sub_one_eq_mod]

end Masks
