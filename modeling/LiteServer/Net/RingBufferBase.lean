import LiteServer.Lib.Masks
import LiteServer.Lib.Ring
import Mathlib.Data.Nat.Size

/-!
What the ring buffers of `engine/net` share: 8-bit sizes and indices, and the
rounding of a requested size to a power of two.
-/
namespace LiteServer.Net

abbrev BufferSize := BitVec 8
abbrev Byte := BitVec 8

/-- The loop of `RoundUpPowOfTwo`; eight shifts clear every `BufferSize`. -/
def highestBit : (fuel : Nat) → (i : BufferSize) → (pos : Nat) → Nat
  | 0, _, pos => pos
  | fuel + 1, i, pos => if i != 0 then highestBit fuel (i >>> 1) (pos + 1) else pos

def roundUpPowOfTwo (val : BufferSize) : BufferSize :=
  let val := val - 1
  let pos := if val != 0 then highestBit 8 (val >>> 1) 1 else 0
  BitVec.ofNat 8 (1 <<< pos)

/-- A size `m_uSize` can have: a power of two that an index can count beyond,
    or zero where `1 << pos` was cut to eight bits. -/
def Size (size : BufferSize) : Prop := size = 0 ∨ ∃ k ≤ 7, size.toNat = 2 ^ k

theorem roundUpPowOfTwo_size (val : BufferSize) : Size (roundUpPowOfTwo val) := by
  show Size (BitVec.ofNat 8 (1 <<< if val - 1 != 0 then highestBit 8 ((val - 1) >>> 1) 1 else 0))
  generalize (if val - 1 != 0 then highestBit 8 ((val - 1) >>> 1) 1 else 0) = pos
  by_cases inside : pos ≤ 7
  · right
    refine ⟨pos, inside, ?_⟩
    have small : 2 ^ pos ≤ 2 ^ 7 := Nat.pow_le_pow_right (by omega) inside
    rw [BitVec.toNat_ofNat, Nat.shiftLeft_eq, Nat.one_mul, Nat.mod_eq_of_lt (by omega)]
  · left
    obtain ⟨k, rfl⟩ : ∃ k, pos = 8 + k := ⟨pos - 8, by omega⟩
    apply BitVec.eq_of_toNat_eq
    rw [BitVec.toNat_ofNat, Nat.shiftLeft_eq, Nat.one_mul, Nat.pow_add, Nat.mul_mod_right]
    rfl

section
variable {size : BufferSize}

theorem Size.le (valid : Size size) : size.toNat ≤ 128 := by
  rcases valid with rfl | ⟨k, inside, power⟩
  · decide
  · rw [power]
    exact Nat.pow_le_pow_right (by omega) inside

/-- An index selects the cell of the position it counts, as sizes divide the
    range of the index. -/
theorem Size.cell (valid : Size size) (set : size ≠ 0) {index : BufferSize} {position : Nat}
    (counts : index = BitVec.ofNat 8 position) : (index &&& (size - 1)).toNat = position % size.toNat := by
  obtain ⟨k, inside, power⟩ := valid.resolve_left set
  have positive : 0 < 2 ^ k := Nat.two_pow_pos k
  have small : 2 ^ k ≤ 2 ^ 7 := Nat.pow_le_pow_right (by omega) inside
  have mask : (size - 1).toNat = 2 ^ k - 1 := by
    rw [BitVec.toNat_sub, power, show (1 : BufferSize).toNat = 1 from rfl]
    omega
  rw [Masks.and_mask_toNat _ _ k mask, counts, BitVec.toNat_ofNat, power]
  exact Nat.mod_mod_of_dvd position (Nat.pow_dvd_pow 2 (by omega))

end

/-! ### Which sizes are rounded up -/

theorem size_half {n : Nat} (some : n ≠ 0) : n.size = (n / 2).size + 1 := by
  have bits : Nat.bit n.bodd n.div2 = n := Nat.bit_bodd_div2 n
  have counted : (Nat.bit n.bodd n.div2).size = n.div2.size + 1 := Nat.size_bit (bits.symm ▸ some)
  rw [bits, Nat.div2_val] at counted
  exact counted

/-- The loop counts the bits that it shifts out. -/
theorem highestBit_eq {fuel : Nat} {i : BufferSize} (enough : i.toNat < 2 ^ fuel) (pos : Nat) :
    highestBit fuel i pos = pos + i.toNat.size := by
  induction fuel generalizing i pos with
  | zero =>
    have zero : i.toNat = 0 := by omega
    rw [highestBit, zero, Nat.size_zero, Nat.add_zero]
  | succ fuel ih =>
    by_cases zero : i = 0
    · subst zero
      rfl
    · have some : i.toNat ≠ 0 := fun none => zero (BitVec.eq_of_toNat_eq none)
      have half : (i >>> 1).toNat = i.toNat / 2 := by rw [BitVec.toNat_ushiftRight, Nat.shiftRight_eq_div_pow, pow_one]
      rw [highestBit, if_pos (bne_iff_ne.mpr zero), ih (by rw [half]; omega), half, size_half some]
      omega

theorem roundUpPowOfTwo_eq {val : BufferSize} (positive : 1 ≤ val.toNat) :
    roundUpPowOfTwo val = BitVec.ofNat 8 (2 ^ (val.toNat - 1).size) := by
  have before : (val - 1).toNat = val.toNat - 1 := by
    rw [BitVec.toNat_sub, show (1 : BufferSize).toNat = 1 from rfl]
    omega
  have bits : (if val - 1 != 0 then highestBit 8 ((val - 1) >>> 1) 1 else 0) = (val.toNat - 1).size := by
    by_cases one : val - 1 = 0
    · rw [if_neg fun other => bne_iff_ne.mp other one, ← before, one]
      rfl
    · have some : val.toNat - 1 ≠ 0 := fun none => one (BitVec.eq_of_toNat_eq (before.trans none))
      rw [if_pos (bne_iff_ne.mpr one), highestBit_eq (by omega), BitVec.toNat_ushiftRight, before,
        Nat.shiftRight_eq_div_pow, pow_one, size_half some]
      omega
  show BitVec.ofNat 8 (1 <<< _) = _
  rw [bits, Nat.shiftLeft_eq, Nat.one_mul]

theorem roundUpPowOfTwo_le {val : BufferSize} (positive : 1 ≤ val.toNat) (low : val.toNat ≤ 128) :
    val.toNat ≤ (roundUpPowOfTwo val).toNat := by
  have short : (val.toNat - 1).size ≤ 7 := Nat.size_le.mpr (by omega)
  have small : 2 ^ (val.toNat - 1).size ≤ 2 ^ 7 := Nat.pow_le_pow_right (by omega) short
  have covers := Nat.lt_size_self (val.toNat - 1)
  rw [roundUpPowOfTwo_eq positive, BitVec.toNat_ofNat, Nat.mod_eq_of_lt (by omega)]
  omega

/-- `1 << 8` does not fit. -/
theorem roundUpPowOfTwo_high {val : BufferSize} (high : 128 < val.toNat) : roundUpPowOfTwo val = 0 := by
  have short : (val.toNat - 1).size ≤ 8 := Nat.size_le.mpr (by omega)
  have long : 7 < (val.toNat - 1).size := Nat.lt_size.mpr (by omega)
  rw [roundUpPowOfTwo_eq (by omega), show (val.toNat - 1).size = 8 by omega]
  rfl

end LiteServer.Net
