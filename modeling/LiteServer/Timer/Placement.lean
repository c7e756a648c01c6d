import LiteServer.Lib.Masks
import LiteServer.Timer.Slots

/-!
Which list `AddNode` picks and which list `TimerShift` cascades, read as
arithmetic on the values of the clock and the deadline.
-/
namespace LiteServer.Timer
open Masks

/-! ### The list of a deadline -/

theorem levelFor_eq (time curTime mask : BitVec 32) (k : Nat) (masked : (mask - 1).toNat = 2 ^ k - 1) (rounds : Nat) :
    levelFor time curTime mask (rounds + 1) =
      if time.toNat / 2 ^ k = curTime.toNat / 2 ^ k then 3 - (rounds + 1) else 3 := by
  induction rounds with
  | zero =>
    rw [levelFor, or_mask_beq _ _ _ k masked, levelFor]
    simp
  | succ rounds ih =>
    rw [levelFor, or_mask_beq _ _ _ k masked]
    by_cases same : time.toNat / 2 ^ k = curTime.toNat / 2 ^ k
    · simp [same]
    · simp [same, ih]

/-- The three ranges a deadline can fall into. Levels 1 and 2 are never picked:
    the level search compares the same bits in each of its rounds. -/
theorem listFor_eq (time curTime : BitVec 32) :
    listFor time curTime =
      if time.toNat / 2 ^ 8 = curTime.toNat / 2 ^ 8 then .near (time.toNat % 2 ^ 8)
      else if time.toNat / 2 ^ 14 = curTime.toNat / 2 ^ 14 then .wheel 0 (time.toNat / 2 ^ 8 % 2 ^ 6)
      else .wheel 3 (time.toNat / 2 ^ 26 % 2 ^ 6) := by
  have level := levelFor_eq time curTime (BitVec.ofNat 32 (timeNear <<< timeLevelShift)) 14 (by decide) 2
  have near : timeNearMask.toNat = 2 ^ 8 - 1 := by decide
  have digit : timeLevelMask.toNat = 2 ^ 6 - 1 := by decide
  simp only [listFor, level, or_mask_beq _ _ _ 8 near, and_mask_toNat _ _ 8 near, shift_mask_toNat _ _ _ 6 digit,
    decide_eq_true_eq]
  split
  · rfl
  · split <;> rfl

theorem listFor_indexed (time curTime : BitVec 32) : (listFor time curTime).Indexed := by
  rw [listFor_eq]
  have near : timeNear = 2 ^ 8 := by decide
  have columns : timeLevel = 2 ^ 6 := by decide
  split
  · simp only [ListRef.Indexed, near]; omega
  · split <;> simp only [ListRef.Indexed, columns] <;> omega

/-! ### The list of a clock value -/

/-- The list that `TimerShift` cascades when the clock becomes `curTime`. -/
def cascadeOf (curTime : BitVec 32) : Option (Nat × Nat) :=
  let c := curTime.toNat
  if c = 0 then some (3, 0)
  else if c % 2 ^ 8 ≠ 0 then none
  else if c / 2 ^ 8 % 2 ^ 6 ≠ 0 then some (0, c / 2 ^ 8 % 2 ^ 6)
  else if c / 2 ^ 14 % 2 ^ 6 ≠ 0 then some (1, c / 2 ^ 14 % 2 ^ 6)
  else if c / 2 ^ 20 % 2 ^ 6 ≠ 0 then some (2, c / 2 ^ 20 % 2 ^ 6)
  else some (3, c / 2 ^ 26 % 2 ^ 6)

theorem cascadeOf_indexed {curTime : BitVec 32} {level index : Nat} (cascaded : cascadeOf curTime = some (level, index)) :
    (ListRef.wheel level index).Indexed := by
  have columns : timeLevel = 2 ^ 6 := by decide
  have bound := curTime.isLt
  simp only [cascadeOf] at cascaded
  simp only [ListRef.Indexed, columns]
  split_ifs at cascaded <;> cases cascaded <;> omega

/-- Level 0 is cascaded when the low eight bits of the clock are zero, level 3 when the low 26 are. -/
theorem cascadeOf_nearest {curTime : BitVec 32} {index : Nat} (cascaded : cascadeOf curTime = some (0, index)) :
    curTime.toNat % 2 ^ 8 = 0 ∧ curTime.toNat / 2 ^ 8 % 2 ^ 6 = index := by
  simp only [cascadeOf] at cascaded
  split_ifs at cascaded with zero low digit <;> cases cascaded
  exact ⟨not_not.mp low, rfl⟩

theorem cascadeOf_farthest {curTime : BitVec 32} {index : Nat} (cascaded : cascadeOf curTime = some (3, index)) :
    curTime.toNat % 2 ^ 26 = 0 ∧ curTime.toNat / 2 ^ 26 % 2 ^ 6 = index := by
  simp only [cascadeOf] at cascaded
  split_ifs at cascaded with zero <;> cases cascaded
  · rw [zero]
    exact ⟨rfl, rfl⟩
  · exact ⟨by omega, rfl⟩

/-- One round of the cascading loop, at a level where the mask covers the low
    `k` bits: a digit that is not zero ends the loop after its list is moved. -/
private theorem shiftCalls_round (fuel : Nat) (c mask time : BitVec 32) (level k : Nat)
    (masked : (mask - 1).toNat = 2 ^ k - 1) (wider : (mask <<< timeLevelShift - 1).toNat = 2 ^ (k + 6) - 1)
    (shifted : time.toNat = c.toNat / 2 ^ k) :
    shiftCalls (fuel + 2) c mask time level =
      if c.toNat % 2 ^ k ≠ 0 then some []
      else if c.toNat / 2 ^ k % 2 ^ 6 ≠ 0 then some [(level, c.toNat / 2 ^ k % 2 ^ 6)]
      else shiftCalls (fuel + 1) c (mask <<< timeLevelShift) (time >>> timeLevelShift) (level + 1) := by
  have test : ∀ (m : BitVec 32) (j : Nat), m.toNat = 2 ^ j - 1 → (c &&& m == 0) = decide (c.toNat % 2 ^ j = 0) := by
    intro m j value
    rw [Bool.eq_iff_iff, beq_iff_eq, decide_eq_true_iff, BitVec.toNat_eq, and_mask_toNat c m j value]
    rfl
  have digit : (time &&& timeLevelMask).toNat = c.toNat / 2 ^ k % 2 ^ 6 := by
    rw [and_mask_toNat time _ 6 (by decide), shifted]
  have zero : time &&& timeLevelMask = 0 ↔ c.toNat / 2 ^ k % 2 ^ 6 = 0 := by
    rw [← digit, BitVec.toNat_eq]; rfl
  rw [shiftCalls, test _ k masked]
  by_cases low : c.toNat % 2 ^ k = 0
  · rw [decide_eq_true low, if_pos rfl, if_neg (not_not.mpr low)]
    by_cases none : c.toNat / 2 ^ k % 2 ^ 6 = 0
    · rw [if_neg (not_not.mpr none)]
      simp only [ne_eq, zero.mpr none, not_true_eq_false, if_false, List.nil_append]
      exact bind_pure _
    · -- Bits of this digit are set, so the wider mask of the next test meets them.
      have stop : ¬ c.toNat % 2 ^ (k + 6) = 0 := by
        rw [pow_add, Nat.mod_mul, low]
        have := Nat.two_pow_pos k
        simp only [zero_add, mul_eq_zero]
        omega
      have ends : shiftCalls (fuel + 1) c (mask <<< timeLevelShift) (time >>> timeLevelShift) (level + 1) = some [] := by
        rw [shiftCalls, test _ (k + 6) wider, decide_eq_false stop]
        rfl
      rw [if_pos none]
      simp only [ne_eq, mt zero.mp none, not_false_eq_true, if_true, digit, ends]
      rfl
  · rw [decide_eq_false low, if_pos low]
    rfl

/-- The loop ends, having moved the list that `cascadeOf` names. -/
theorem shiftCalls_eq (c : BitVec 32) (running : c ≠ 0) (fuel : Nat) :
    shiftCalls (fuel + 5) c (BitVec.ofNat 32 timeNear) (c >>> timeNearShift) 0 = some (cascadeOf c).toList := by
  have bound := c.isLt
  have positive : c.toNat ≠ 0 := fun zero => running (BitVec.eq_of_toNat_eq zero)
  have shifts : ∀ s, (c >>> s).toNat = c.toNat / 2 ^ s := fun s => by
    rw [BitVec.toNat_ushiftRight, Nat.shiftRight_eq_div_pow]
  have first := shiftCalls_round (fuel + 3) c (BitVec.ofNat 32 timeNear) (c >>> timeNearShift) 0 8 (by decide) (by decide)
    (shifts 8)
  rw [first, shiftCalls_round (fuel + 2) c _ _ 1 14 (by decide) (by decide)
      (by rw [← BitVec.shiftRight_add]; exact shifts 14),
    shiftCalls_round (fuel + 1) c _ _ 2 20 (by decide) (by decide)
      (by simp only [← BitVec.shiftRight_add]; exact shifts 20),
    shiftCalls_round fuel c _ _ 3 26 (by decide) (by decide) (by simp only [← BitVec.shiftRight_add]; exact shifts 26)]
  simp only [cascadeOf]
  rw [if_neg positive]
  by_cases low : c.toNat % 2 ^ 8 ≠ 0
  · rw [if_pos low, if_pos low]
    rfl
  · rw [if_neg low, if_neg low]
    by_cases digit : c.toNat / 2 ^ 8 % 2 ^ 6 ≠ 0
    · rw [if_pos digit, if_pos digit]
      rfl
    · -- From here on each round finds its digit only when the bits below are zero.
      have low : ¬c.toNat % 2 ^ 14 ≠ 0 := by omega
      rw [if_neg digit, if_neg digit, if_neg low]
      by_cases digit : c.toNat / 2 ^ 14 % 2 ^ 6 ≠ 0
      · rw [if_pos digit, if_pos digit]
        rfl
      · have low : ¬c.toNat % 2 ^ 20 ≠ 0 := by omega
        rw [if_neg digit, if_neg digit, if_neg low]
        by_cases digit : c.toNat / 2 ^ 20 % 2 ^ 6 ≠ 0
        · rw [if_pos digit, if_pos digit]
          rfl
        · have low : ¬c.toNat % 2 ^ 26 ≠ 0 := by omega
          have digit' : c.toNat / 2 ^ 26 % 2 ^ 6 ≠ 0 := by omega
          rw [if_neg digit, if_neg digit, if_neg low, if_pos digit']
          rfl

end LiteServer.Timer
