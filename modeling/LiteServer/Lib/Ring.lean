import Mathlib.Data.List.Range
import Mathlib.Data.Nat.ModEq

/-!
A queue in circular cells. Positions count upward without end, and position `i`
lives in cell `i % size`; the queue is the window of positions from `lo` to
`hi`, at most `size` long, so its positions live in different cells.
-/
namespace Ring
universe u
variable {α : Type u}

/-- What the positions from `lo` up to `hi` hold. -/
def window (cells : Nat → α) (size lo hi : Nat) : List α :=
  (List.range' lo (hi - lo)).map fun i => cells (i % size)

/-- `dst` with `n` cells from `at_` on replaced by those of `src` from `from_` on. -/
def copy (dst : Nat → α) (at_ : Nat) (src : Nat → α) (from_ n : Nat) : Nat → α := fun i =>
  if at_ ≤ i ∧ i < at_ + n then src (from_ + (i - at_)) else dst i

variable {cells cells' : Nat → α} {size lo mid hi n : Nat}

@[simp] theorem window_length : (window cells size lo hi).length = hi - lo := by simp [window]

@[simp] theorem window_self : window cells size lo lo = [] := by simp [window]

theorem window_append (first : lo ≤ mid) (second : mid ≤ hi) :
    window cells size lo mid ++ window cells size mid hi = window cells size lo hi := by
  have split : List.range' lo (mid - lo) ++ List.range' mid (hi - mid) = List.range' lo (hi - lo) := by
    have joined : List.range' lo (mid - lo) ++ List.range' (lo + (mid - lo)) (hi - mid) = _ := List.range'_append_1
    rwa [show lo + (mid - lo) = mid by omega, show mid - lo + (hi - mid) = hi - lo by omega] at joined
  rw [window, window, window, ← split, List.map_append]

theorem window_congr (same : ∀ i, lo ≤ i → i < hi → cells' (i % size) = cells (i % size)) :
    window cells' size lo hi = window cells size lo hi := by
  apply List.map_congr_left
  intro i inside
  rw [List.mem_range'_1] at inside
  exact same i inside.1 (by omega)

/-- A window whose cells hold `data` in order. -/
theorem window_eq_map {data : Nat → α} (stored : ∀ i < n, cells ((lo + i) % size) = data i) :
    window cells size lo (lo + n) = (List.range n).map data := by
  rw [window, Nat.add_sub_cancel_left, List.range'_eq_map_range, List.map_map]
  exact List.map_congr_left fun i inside => stored i (List.mem_range.mp inside)

theorem window_take (fits : lo + n ≤ hi) : (window cells size lo hi).take n = window cells size lo (lo + n) := by
  rw [← window_append (show lo ≤ lo + n by omega) fits]
  exact List.take_left' (by simp)

theorem window_drop (fits : lo + n ≤ hi) : (window cells size lo hi).drop n = window cells size (lo + n) hi := by
  rw [← window_append (show lo ≤ lo + n by omega) fits]
  exact List.drop_left' (by simp)

theorem window_getElem (i : Nat) (inside : i < (window cells size lo hi).length) :
    (window cells size lo hi)[i] = cells ((lo + i) % size) := by
  simp [window, List.getElem_range']

/-! ### Cells of positions -/

/-- Positions less than `size` apart live in different cells. -/
theorem cell_injective {i j : Nat} (above : i < j + size) (below : j < i + size) (same : i % size = j % size) :
    i = j := by
  rcases Nat.le_total i j with before | after
  · have apart := Nat.sub_mod_eq_zero_of_mod_eq same.symm
    have small : (j - i) % size = j - i := Nat.mod_eq_of_lt (by omega)
    omega
  · have apart := Nat.sub_mod_eq_zero_of_mod_eq same
    have small : (i - j) % size = i - j := Nat.mod_eq_of_lt (by omega)
    omega

/-- Where a position lives that a transfer from cell `lo % size` on reaches
    before or after the end of the array. -/
theorem cell_split {i : Nat} (within : i < size) :
    (lo + i) % size = if i < size - lo % size then lo % size + i else i - (size - lo % size) := by
  have offset := Nat.mod_lt lo (show 0 < size by omega)
  rw [Nat.add_mod, Nat.mod_eq_of_lt within]
  split
  · exact Nat.mod_eq_of_lt (by omega)
  · rw [Nat.mod_eq_sub_mod (by omega), Nat.mod_eq_of_lt (by omega)]
    omega

/-- Appending: the positions behind the window take `n` values of `data`, the
    rest of the array is kept. -/
theorem window_push {data : Nat → α} (ordered : lo ≤ hi) (fits : hi + n ≤ lo + size)
    (stored : ∀ i < n, cells' ((hi + i) % size) = data i)
    (kept : ∀ cell, (∀ i < n, cell ≠ (hi + i) % size) → cells' cell = cells cell) :
    window cells' size lo (hi + n) = window cells size lo hi ++ (List.range n).map data := by
  rw [← window_append ordered (Nat.le_add_right hi n), window_eq_map stored]
  congr 1
  refine window_congr fun i first second => kept _ ?_
  intro j inside same
  have := cell_injective (by omega) (by omega) same
  omega

/-! ### Transfers in two pieces -/

/-- A transfer into the array that is split at its end stores position by
    position. -/
theorem copy_in_split {data : Nat → α} (fits : n ≤ size) :
    let tail := min n (size - lo % size)
    let cells' := copy (copy cells (lo % size) data 0 tail) 0 data tail (n - tail)
    (∀ i < n, cells' ((lo + i) % size) = data i) ∧
      ∀ cell, (∀ i < n, cell ≠ (lo + i) % size) → cells' cell = cells cell := by
  intro tail cells'
  constructor
  · intro i inside
    have offset := Nat.mod_lt lo (show 0 < size by omega)
    rw [cell_split (by omega)]
    by_cases first : i < size - lo % size
    · have before : i < tail := by omega
      have behind : ¬ lo % size + i < n - tail := by omega
      simp [cells', copy, first, before, behind]
    · rw [if_neg first]
      have tailSize : tail = size - lo % size := by omega
      have inHead : i - (size - lo % size) < n - tail := by omega
      simp only [cells', copy, Nat.zero_le, Nat.zero_add, inHead, true_and, if_true, Nat.sub_zero]
      congr 1
      omega
  · intro cell untouched
    have head : ¬ cell < n - tail := by
      intro inside
      refine untouched (tail + cell) (by omega) ?_
      rw [cell_split (by omega), if_neg (by omega)]
      omega
    have back : ¬ (lo % size ≤ cell ∧ cell < lo % size + tail) := by
      rintro ⟨low, high⟩
      refine untouched (cell - lo % size) (by omega) ?_
      rw [cell_split (by omega), if_pos (by omega)]
      omega
    simp [cells', copy, head, back]

/-- A transfer out of the array that is split at its end fetches position by
    position, and leaves what lies behind the destination alone. -/
theorem copy_out_split {data : Nat → α} (fits : n ≤ size) :
    let tail := min n (size - lo % size)
    let data' := copy (copy data 0 cells (lo % size) tail) tail cells 0 (n - tail)
    (∀ i < n, data' i = cells ((lo + i) % size)) ∧ ∀ i, n ≤ i → data' i = data i := by
  intro tail data'
  constructor
  · intro i inside
    rw [cell_split (by omega)]
    by_cases first : i < size - lo % size
    · have before : i < tail := by omega
      have notSecond : ¬ tail ≤ i := by omega
      simp [data', copy, first, before, notSecond]
    · rw [if_neg first]
      have tailSize : tail = size - lo % size := by omega
      have second : tail ≤ i ∧ i < tail + (n - tail) := by omega
      show copy _ tail cells 0 (n - tail) i = _
      rw [copy, if_pos second, Nat.zero_add, tailSize]
  · intro i outside
    have notSecond : ¬ i < tail + (n - tail) := by omega
    have notFirst : ¬ i < tail := by omega
    simp [data', copy, notSecond, notFirst]

end Ring
