import Mathlib.Data.List.Basic

/-!
A stack that is read and written through indices, as a list whose head is the
top. Index -1 is the top and index 1 the bottom.
-/
namespace LiteServer.Lib.IndexedStack

variable {α : Type*}

/-- How far below the top an index is. -/
def place (stack : List α) (index : Int) : Option Nat :=
  if index < 0 then if index.natAbs ≤ stack.length then some (index.natAbs - 1) else none
  else if 0 < index ∧ index.toNat ≤ stack.length then some (stack.length - index.toNat) else none

def get (stack : List α) (index : Int) : Option α := (place stack index).bind fun i => stack[i]?

def set (stack : List α) (index : Int) (x : α) : Option (List α) := (place stack index).map fun i => stack.set i x

def pop (stack : List α) (n : Nat) : Option (List α) := if n ≤ stack.length then some (stack.drop n) else none

/-- Moves the top down to `index`, and what is above it up. -/
def insert : (stack : List α) → (index : Int) → Option (List α)
  | [], _ => none
  | top :: rest, index => (place (top :: rest) index).map fun i => rest.take i ++ top :: rest.drop i

/-- The index of what lies under `above`. -/
def under (above : List α) : Int := -(above.length + 1)

theorem place_under {stack above : List α} (deep : above.length < stack.length) :
    place stack (under above) = some above.length := by
  have size : (under above).natAbs = above.length + 1 := by rw [under]; omega
  have negative : under above < 0 := by rw [under]; omega
  rw [place, if_pos negative, size, if_pos (by omega)]
  rfl

theorem place_above {stack : List α} {index : Int} (negative : index < 0) (deep : stack.length < index.natAbs) :
    place stack index = none := by
  rw [place, if_pos negative, if_neg (Nat.not_le.mpr deep)]

theorem get_under {above below : List α} {x : α} : get (above ++ x :: below) (under above) = some x := by
  simp [get, place_under]

/-- Positive indices count from the bottom. -/
theorem get_over {above below : List α} {x : α} : get (above ++ x :: below) (below.length + 1 : Nat) = some x := by
  have placed : place (above ++ x :: below) (below.length + 1 : Nat) = some above.length := by
    rw [place, if_neg (by omega), if_pos (by simp)]
    simp
  rw [get, placed]
  simp

theorem set_under {above below : List α} {x y : α} :
    set (above ++ x :: below) (under above) y = some (above ++ y :: below) := by
  simp [set, place_under]

theorem insert_under {above below : List α} {top : α} :
    insert (top :: (above ++ below)) (under above) = some (above ++ top :: below) := by
  have placed : place (top :: (above ++ below)) (under above) = some above.length := by
    refine place_under ?_
    rw [List.length_cons, List.length_append]
    omega
  rw [insert, placed, Option.map_some, List.take_left, List.drop_left]

theorem insert_above {stack : List α} {index : Int} (negative : index < 0) (deep : stack.length < index.natAbs) :
    insert stack index = none := by
  cases stack with
  | nil => rfl
  | cons top rest => rw [insert, place_above negative deep, Option.map_none]

theorem pop_append {above below : List α} : pop (above ++ below) above.length = some below := by
  rw [pop, if_pos (by simp), List.drop_left]

theorem pop_of_lt {stack : List α} {n : Nat} (deep : stack.length < n) : pop stack n = none := by
  rw [pop, if_neg (Nat.not_le.mpr deep)]

end LiteServer.Lib.IndexedStack
