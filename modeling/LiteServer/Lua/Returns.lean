import LiteServer.Lua.Clones
import Mathlib.Data.Finset.Card
import Mathlib.Data.Finset.Range

/-!
`clone` returns. `_copy` goes deeper only for a table that it has not met, of
those that there were; cycles and shared tables are met again.
-/
namespace LiteServer.Lua.Class
open LiteServer.Lua.Objects

def within (h : Objects) : LuaValue → Prop
  | .table t => t < h.next
  | _ => True

/-- Tables only refer to tables, and none of their metatables is protected by a
    `__metatable` that `setmetatable` does not take. -/
structure Closed (h : Objects) : Prop where
  keys : ∀ t < h.next, ∀ key ∈ (h.table t).keys, within h key
  fields : ∀ t < h.next, ∀ key, within h ((h.table t).field key)
  metatable : ∀ t < h.next, ∀ metatable, (h.table t).metatable = some metatable → metatable < h.next
  unprotected : ∀ t < h.next, h.getmetatable t = .nil ∨ isTable (h.getmetatable t) = true

/-- How many of the tables of `h` a copy has not met. -/
def unmet (h : Objects) (s : CopyState) : Nat := ((Finset.range h.next).filter fun t => s.lookup_table t = none).card

/-- What has been met stays so. -/
def Meets (s s' : CopyState) : Prop := ∀ t, s'.lookup_table t = none → s.lookup_table t = none

section
variable {h : Objects} {s s' s'' : CopyState} {fuel : Nat} {t new_table : Ref} {heap : Objects}

theorem Meets.refl (s : CopyState) : Meets s s := fun _ unmet => unmet

theorem Meets.trans (first : Meets s s') (second : Meets s' s'') : Meets s s'' := fun t unmet => first t (second t unmet)

theorem Meets.unmet_le (meets : Meets s s') : unmet h s' ≤ unmet h s := by
  refine Finset.card_le_card fun t member => ?_
  rw [Finset.mem_filter] at member ⊢
  exact ⟨member.1, meets t member.2⟩

theorem mark_meets (s : CopyState) (t new_table : Ref) (heap : Objects) :
    Meets s ⟨heap, Function.update s.lookup_table t (some new_table)⟩ := by
  intro other unmet
  have unmet : Function.update s.lookup_table t (some new_table) other = none := unmet
  by_cases same : other = t
  · subst same
    rw [Function.update_self] at unmet
    cases unmet
  · rw [Function.update_of_ne same] at unmet
    exact unmet

/-- Meeting a table of `h` leaves one less. -/
theorem mark_unmet (old : t < h.next) (new : s.lookup_table t = none) :
    unmet h ⟨heap, Function.update s.lookup_table t (some new_table)⟩ < unmet h s := by
  refine Finset.card_lt_card (Finset.ssubset_iff_of_subset ?_ |>.mpr ⟨t, ?_, ?_⟩)
  · intro other member
    rw [Finset.mem_filter] at member ⊢
    exact ⟨member.1, mark_meets s t new_table heap other member.2⟩
  · rw [Finset.mem_filter, Finset.mem_range]
    exact ⟨old, new⟩
  · rw [Finset.mem_filter]
    rintro ⟨-, unmet⟩
    have unmet : Function.update s.lookup_table t (some new_table) t = none := unmet
    rw [Function.update_self] at unmet
    cases unmet

/-- A copy of a value of `h` returns. -/
def Returns (h : Objects) (fuel : Nat) (copy : CopyState → LuaValue → Option (LuaValue × CopyState)) : Prop :=
  ∀ s v, h.Grows s.heap → unmet h s ≤ fuel → within h v →
    ∃ v' s', copy s v = some (v', s') ∧ h.Grows s'.heap ∧ Meets s s'

theorem copyFields_returns {copy : CopyState → LuaValue → Option (LuaValue × CopyState)} (returns : Returns h fuel copy)
    (young : h.next ≤ new_table) {object : Table} (fields : ∀ key, within h (object.field key)) {keys : List LuaValue}
    (inside : ∀ key ∈ keys, within h key) (grows : h.Grows s.heap) (enough : unmet h s ≤ fuel) :
    ∃ s', copyFields copy new_table object keys s = some s' ∧ h.Grows s'.heap ∧ Meets s s' := by
  induction keys generalizing s with
  | nil => exact ⟨s, rfl, grows, Meets.refl s⟩
  | cons key keys ih =>
    have rest : ∀ other ∈ keys, within h other := fun other member => inside other (List.mem_cons_of_mem _ member)
    rw [copyFields]
    by_cases unset : object.field key = .nil
    · rw [if_pos unset]
      exact ih rest grows enough
    · rw [if_neg unset]
      obtain ⟨copied, s₁, copiedKey, grows₁, meets₁⟩ := returns s key grows enough (inside key (List.mem_cons_self ..))
      obtain ⟨value, s₂, copiedValue, grows₂, meets₂⟩ :=
        returns s₁ (object.field key) grows₁ (meets₁.unmet_le.trans enough) (fields key)
      have meets : Meets s { s₂ with heap := s₂.heap.rawset new_table copied value } := meets₁.trans meets₂
      obtain ⟨s₃, filled, grows₃, meets₃⟩ := ih (s := { s₂ with heap := s₂.heap.rawset new_table copied value })
        rest (grows₂.rawset young _ _) (meets.unmet_le.trans enough)
      refine ⟨s₃, ?_, grows₃, meets.trans meets₃⟩
      simp only [copiedKey, copiedValue, Option.bind_eq_bind, Option.bind_some]
      exact filled

theorem setmetatable_returns (closed : Closed h) (grows : h.Grows heap) (old : t < h.next) (new_table : Ref) :
    ∃ heap', heap.setmetatable new_table (heap.getmetatable t) = some heap' := by
  have same : heap.getmetatable t = h.getmetatable t := by
    cases has : (h.table t).metatable with
    | none => rw [Heap.getmetatable_plain has, Heap.getmetatable_plain ((congrArg _ (grows.table t old)).trans has)]
    | some metatable =>
      have there := closed.metatable t old metatable has
      simp only [Heap.getmetatable, grows.table t old, has, grows.table metatable there]
  rw [same]
  rcases closed.unprotected t old with none | table
  · rw [none]
    exact ⟨_, rfl⟩
  · cases value : h.getmetatable t with
    | table metatable => exact ⟨_, rfl⟩
    | _ =>
      rw [value] at table
      cases table

theorem copyTable_returns (closed : Closed h) (ih : Returns h fuel (copy fuel)) (grows : h.Grows s.heap)
    (enough : unmet h s ≤ fuel + 1) (old : t < h.next) (new : s.lookup_table t = none) :
    ∃ v' s', copy (fuel + 1) s (.table t) = some (v', s') ∧ h.Grows s'.heap ∧ Meets s s' := by
  let s₁ : CopyState := ⟨(s.heap.newTable none).2, Function.update s.lookup_table t (some s.heap.next)⟩
  have grows₁ : h.Grows s₁.heap := grows.trans (Heap.newTable_grows s.heap none)
  have less : unmet h s₁ < unmet h s := mark_unmet old new
  obtain ⟨s₂, filled, grows₂, meets₂⟩ := copyFields_returns ih grows.next (closed.fields t old) (closed.keys t old) grows₁
    (Nat.lt_succ_iff.mp (Nat.lt_of_lt_of_le less enough))
  obtain ⟨heap, set⟩ := setmetatable_returns closed grows₂ old s.heap.next
  refine ⟨.table s.heap.next, { s₂ with heap }, ?_, grows₂.setmetatable grows.next set,
    (mark_meets s t s.heap.next _).trans meets₂⟩
  rw [copy, new, grows.table t old]
  show (copyFields (copy fuel) s.heap.next (h.table t) (h.table t).keys s₁).bind _ = _
  rw [filled]
  show (s₂.heap.setmetatable s.heap.next (s₂.heap.getmetatable t)).bind _ = _
  rw [set]
  rfl

theorem copy_returns (closed : Closed h) (fuel : Nat) : Returns h fuel (copy fuel) := by
  induction fuel with
  | zero =>
    intro s v grows enough inside
    by_cases old : ∀ t, v = .table t → s.lookup_table t ≠ none
    · obtain ⟨v', copied, _⟩ := copy_old old 0
      exact ⟨v', s, copied, grows, Meets.refl s⟩
    · obtain ⟨t, rfl, new⟩ := new_of_not_old old
      have less : unmet h ⟨h, Function.update s.lookup_table t (some 0)⟩ < unmet h s := mark_unmet inside new
      exact absurd less (Nat.not_lt.mpr (Nat.le_trans enough (Nat.zero_le _)))
  | succ fuel ih =>
    intro s v grows enough inside
    by_cases old : ∀ t, v = .table t → s.lookup_table t ≠ none
    · obtain ⟨v', copied, _⟩ := copy_old old (fuel + 1)
      exact ⟨v', s, copied, grows, Meets.refl s⟩
    · obtain ⟨t, rfl, new⟩ := new_of_not_old old
      exact copyTable_returns closed ih grows enough inside new

/-- The tables of `h` are deep enough. -/
theorem clone_returns (closed : Closed h) (old : t < h.next) (enough : h.next ≤ fuel) :
    ∃ v' h', clone fuel h (.table t) = some (v', h') := by
  have all : unmet h ⟨h, fun _ => none⟩ ≤ fuel := by
    refine (Finset.card_filter_le ..).trans ?_
    rw [Finset.card_range]
    exact enough
  obtain ⟨v', s', copied, -, -⟩ := copy_returns closed fuel ⟨h, fun _ => none⟩ (.table t) (Heap.Grows.refl h) all old
  refine ⟨v', s'.heap, ?_⟩
  rw [clone, copied]
  rfl

end

end LiteServer.Lua.Class
