import Mathlib.Algebra.Group.Nat.Defs
import Mathlib.Data.Nat.Log
import LiteServer.Lua.State

/-!
The doubles that are whole numbers, for the runs in which there are no others.
-/
namespace LiteServer.Lua

/-- The nearest number that has `bits` bits at most, or of two the even one. -/
def nearestNat (bits n : Nat) : Nat :=
  let unit := 2 ^ (n.log2 + 1 - bits)
  let q := n / unit
  let r := n % unit
  if 2 * r < unit ∨ 2 * r = unit ∧ q % 2 = 0 then q * unit else (q + 1) * unit

def nearest (bits : Nat) (n : Int) : Int := if n < 0 then -nearestNat bits n.natAbs else nearestNat bits n.natAbs

theorem nearestNat_of_lt {bits n : Nat} (small : n < 2 ^ bits) : nearestNat bits n = n := by
  by_cases zero : n = 0
  · subst zero
    simp [nearestNat]
  · have bound : n.log2 < bits := (Nat.log2_lt zero).mpr small
    have unit : n.log2 + 1 - bits = 0 := by omega
    simp [nearestNat, unit, Nat.mod_one]

theorem nearest_of_lt {bits : Nat} {n : Int} (small : n.natAbs < 2 ^ bits) : nearest bits n = n := by
  rw [nearest, nearestNat_of_lt small]
  omega

def digits (s : List UInt8) : Option Nat :=
  s.foldlM (fun n b => if 48 ≤ b ∧ b ≤ 57 then some (10 * n + (b - 48).toNat) else none) 0

instance : LuaNumber Int where
  Float := Int
  ofInteger := nearest 53
  toInt := BitVec.ofInt 32
  toFloat := nearest 24
  zero := 0
  toString n := (if n < 0 then [45] else []) ++ (Nat.toDigits 10 n.natAbs).map fun c => c.toNat.toUInt8
  ofString
    | [] => none
    | 45 :: s => (digits s).map fun n => -n
    | s => (digits s).map fun n => n

end LiteServer.Lua
