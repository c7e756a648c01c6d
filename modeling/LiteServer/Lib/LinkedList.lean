import Mathlib.Data.List.AList
import Mathlib.Data.List.Perm.Subperm

/-!
Singly linked lists in a finite heap. `Chain heap next p xs` says that the
cells `xs` are met in order when the links are followed from `p` to the null
link. A chain is determined by its start, depends on its own cells only, and
can be no longer than the heap when it meets no cell twice.
-/
namespace LinkedList
universe u v
variable {Addr : Type u} {Cell : Type v}

/-- The cells met from `p` on, up to the null link. -/
def Chain (heap : Addr → Option Cell) (next : Cell → Option Addr) : Option Addr → List Addr → Prop
  | p, [] => p = none
  | p, a :: rest => p = some a ∧ ∃ cell, heap a = some cell ∧ Chain heap next (next cell) rest

variable {heap heap' : Addr → Option Cell} {next : Cell → Option Addr}

@[simp] theorem chain_nil (p : Option Addr) : Chain heap next p [] ↔ p = none := Iff.rfl

theorem chain_cons (p : Option Addr) (a : Addr) (rest : List Addr) :
    Chain heap next p (a :: rest) ↔ p = some a ∧ ∃ cell, heap a = some cell ∧ Chain heap next (next cell) rest :=
  Iff.rfl

theorem chain_none {xs : List Addr} (chain : Chain heap next none xs) : xs = [] := by
  cases xs with
  | nil => rfl
  | cons a rest => simp [chain_cons] at chain

theorem chain_some {a : Addr} {xs : List Addr} (chain : Chain heap next (some a) xs) :
    ∃ cell rest, xs = a :: rest ∧ heap a = some cell ∧ Chain heap next (next cell) rest := by
  cases xs with
  | nil => simp at chain
  | cons b rest =>
    obtain ⟨same, cell, found, more⟩ := chain
    cases same
    exact ⟨cell, rest, rfl, found, more⟩

/-- The start of a chain determines the cells on it. -/
theorem chain_unique {p : Option Addr} {xs ys : List Addr} (first : Chain heap next p xs)
    (second : Chain heap next p ys) : xs = ys := by
  induction xs generalizing p ys with
  | nil =>
    rw [chain_nil] at first
    subst first
    exact (chain_none second).symm
  | cons a rest ih =>
    obtain ⟨rfl, cell, found, more⟩ := first
    obtain ⟨cell', rest', rfl, found', more'⟩ := chain_some second
    have same : cell = cell' := Option.some.inj (found.symm.trans found')
    subst same
    rw [ih more more']

/-- A chain depends on the links of its own cells only. -/
theorem chain_congr {p : Option Addr} {xs : List Addr}
    (same : ∀ a ∈ xs, (heap' a).map next = (heap a).map next) (chain : Chain heap next p xs) :
    Chain heap' next p xs := by
  induction xs generalizing p with
  | nil => exact chain
  | cons a rest ih =>
    obtain ⟨rfl, cell, found, more⟩ := chain
    have here := same a (by simp)
    rw [found, Option.map_some, Option.map_eq_some_iff] at here
    obtain ⟨cell', found', link⟩ := here
    refine ⟨rfl, cell', found', ?_⟩
    rw [link]
    exact ih (fun b member => same b (by simp [member])) more

theorem chain_allocated {p : Option Addr} {xs : List Addr} (chain : Chain heap next p xs) {a : Addr}
    (member : a ∈ xs) : ∃ cell, heap a = some cell := by
  induction xs generalizing p with
  | nil => simp at member
  | cons b rest ih =>
    obtain ⟨rfl, cell, found, more⟩ := chain
    rcases List.mem_cons.mp member with rfl | later
    · exact ⟨cell, found⟩
    · exact ih more later

/-- The null link of the last cell replaced by a link to a new cell, which
    ends the chain. -/
theorem chain_snoc {p : Option Addr} {xs : List Addr} {last new : Addr} {cell lastCell : Cell}
    (chain : Chain heap next p (xs ++ [last])) (fresh : last ∉ xs)
    (same : ∀ a ∈ xs, (heap' a).map next = (heap a).map next)
    (linked : heap' last = some lastCell) (onward : next lastCell = some new)
    (added : heap' new = some cell) (stop : next cell = none) :
    Chain heap' next p (xs ++ [last, new]) := by
  induction xs generalizing p with
  | nil =>
    obtain ⟨rfl, _⟩ := chain
    exact ⟨rfl, lastCell, linked, onward, cell, added, stop⟩
  | cons a rest ih =>
    obtain ⟨rfl, here, found, more⟩ := chain
    have kept := same a (by simp)
    rw [found, Option.map_some, Option.map_eq_some_iff] at kept
    obtain ⟨here', found', link⟩ := kept
    refine ⟨rfl, here', found', ?_⟩
    rw [link]
    exact ih more (by simp at fresh; tauto) (fun b member => same b (by simp [member]))

/-- A chain without repetition is no longer than the heap it lies in. -/
theorem chain_length_le [DecidableEq Addr] {heap : AList fun _ : Addr => Cell} {p : Option Addr} {xs : List Addr}
    (chain : Chain heap.lookup next p xs) (distinct : xs.Nodup) : xs.length ≤ heap.keys.length := by
  apply (distinct.subperm _).length_le
  intro a member
  obtain ⟨cell, found⟩ := chain_allocated chain member
  rw [← AList.mem_keys, ← AList.lookup_isSome, found]
  rfl

end LinkedList
