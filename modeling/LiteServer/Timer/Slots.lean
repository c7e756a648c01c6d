import LiteServer.Timer.WheelTimer
import Mathlib.Data.List.Nodup
import Mathlib.Data.List.Perm.Basic

/-!
The wheel without its pointers: every list as the sequence of what it holds.
Filing, detaching and cascading act on sequences, keep everything that is
pending, and touch only the lists the constructor has initialised.
-/
namespace LiteServer.Timer
universe u
variable {α : Type u}

/-- What each list holds, in list order. -/
abbrev Slots (α : Type u) := ListRef → List α

/-- A list with one more entry at its end. -/
def Slots.push (S : Slots α) (list : ListRef) (a : α) : Slots α := Function.update S list (S list ++ [a])
/-- A list detached from its slot. -/
def Slots.clear (S : Slots α) (list : ListRef) : Slots α := Function.update S list []
/-- An entry filed where `AddNode` puts it. -/
def Slots.file (expire : α → BitVec 32) (uTime : BitVec 32) (S : Slots α) (a : α) : Slots α :=
  S.push (listFor (expire a) uTime) a
/-- A list detached and filed again, entry by entry. -/
def Slots.cascade (expire : α → BitVec 32) (uTime : BitVec 32) (S : Slots α) (list : ListRef) : Slots α :=
  (S list).foldl (Slots.file expire uTime) (S.clear list)

/-- The initialised lists, in memory order. -/
def indexed : List ListRef :=
  (List.range timeNear).map ListRef.near ++
    (List.range 4).flatMap fun level => (List.range timeLevel).map (ListRef.wheel level)
/-- Everything the wheel holds. -/
def Slots.pending (S : Slots α) : List α := indexed.flatMap S

theorem mem_indexed (list : ListRef) : list ∈ indexed ↔ list.Indexed := by
  cases list with
  | near index => simp [indexed, ListRef.Indexed]
  | wheel level index => simp [indexed, ListRef.Indexed]

theorem indexed_nodup : indexed.Nodup := by
  unfold indexed
  refine List.Nodup.append (List.nodup_range.map fun a b same => by simpa using same) ?_ ?_
  · rw [List.nodup_flatMap]
    refine ⟨fun level _ => List.nodup_range.map fun a b same => by simpa using same, ?_⟩
    apply List.nodup_range.pairwise_of_forall_ne
    intro a _ b _ differ list first second
    simp only [List.mem_map] at first second
    obtain ⟨i, _, rfl⟩ := first
    obtain ⟨j, _, same⟩ := second
    cases same
    exact differ rfl
  · intro list first second
    simp only [List.mem_map, List.mem_flatMap] at first second
    obtain ⟨i, _, rfl⟩ := first
    obtain ⟨level, _, j, _, same⟩ := second
    cases same

theorem mem_pending {S : Slots α} (support : ∀ list, S list ≠ [] → list.Indexed) (a : α) :
    a ∈ S.pending ↔ ∃ list, a ∈ S list := by
  simp only [Slots.pending, List.mem_flatMap]
  constructor
  · rintro ⟨list, _, member⟩
    exact ⟨list, member⟩
  · rintro ⟨list, member⟩
    exact ⟨list, (mem_indexed list).mpr (support list (List.ne_nil_of_mem member)), member⟩

/-- Nothing is in two lists of a wheel that holds everything once. -/
theorem same_list {S : Slots α} (support : ∀ list, S list ≠ [] → list.Indexed) (once : S.pending.Nodup)
    {first second : ListRef} {a : α} (inFirst : a ∈ S first) (inSecond : a ∈ S second) : first = second := by
  by_contra differ
  have apart := (List.nodup_flatMap.mp once).2
  have firstIndexed := (mem_indexed first).mpr (support first (List.ne_nil_of_mem inFirst))
  have secondIndexed := (mem_indexed second).mpr (support second (List.ne_nil_of_mem inSecond))
  have symmetric : Std.Symm (Function.onFun List.Disjoint S) := ⟨fun _ _ disjoint _ left right => disjoint right left⟩
  exact apart.forall firstIndexed secondIndexed differ inFirst inSecond

theorem list_nodup {S : Slots α} (support : ∀ list, S list ≠ [] → list.Indexed) (once : S.pending.Nodup)
    (list : ListRef) : (S list).Nodup := by
  by_cases empty : S list = []
  · rw [empty]; exact List.nodup_nil
  · exact (List.nodup_flatMap.mp once).1 list ((mem_indexed list).mpr (support list empty))

/-- Replacing one initialised list replaces its part of what is pending. -/
theorem pending_update (S : Slots α) {list : ListRef} (inside : list.Indexed) (xs : List α) :
    ∃ others, S.pending.Perm (S list ++ others) ∧
      (Slots.pending (Function.update S list xs)).Perm (xs ++ others) := by
  have split : indexed.Perm (list :: indexed.erase list) := List.perm_cons_erase ((mem_indexed list).mpr inside)
  refine ⟨(indexed.erase list).flatMap S, split.flatMap_right S, ?_⟩
  have absent : list ∉ indexed.erase list := indexed_nodup.not_mem_erase
  have unchanged : (indexed.erase list).flatMap (Function.update S list xs) = (indexed.erase list).flatMap S := by
    apply List.flatMap_congr
    intro other member
    have differ : other ≠ list := by rintro rfl; exact absent member
    exact Function.update_of_ne differ _ _
  have moved := split.flatMap_right (Function.update S list xs)
  rw [List.flatMap_cons, unchanged, Function.update_self] at moved
  exact moved

theorem push_pending (S : Slots α) {list : ListRef} (inside : list.Indexed) (a : α) :
    (S.push list a).pending.Perm (a :: S.pending) := by
  obtain ⟨others, before, after⟩ := pending_update S inside (S list ++ [a])
  apply after.trans
  rw [List.append_assoc, List.singleton_append]
  exact List.perm_middle.trans (before.symm.cons a)

theorem clear_pending (S : Slots α) {list : ListRef} (inside : list.Indexed) :
    S.pending.Perm (S list ++ (S.clear list).pending) := by
  obtain ⟨others, before, after⟩ := pending_update S inside []
  exact before.trans (after.symm.append_left _)

theorem push_support {S : Slots α} (support : ∀ list, S list ≠ [] → list.Indexed) {list : ListRef}
    (inside : list.Indexed) (a : α) : ∀ other, S.push list a other ≠ [] → other.Indexed := by
  intro other held
  by_cases same : other = list
  · exact same ▸ inside
  · rw [Slots.push, Function.update_of_ne same] at held
    exact support other held

theorem clear_support {S : Slots α} (support : ∀ list, S list ≠ [] → list.Indexed) (list : ListRef) :
    ∀ other, S.clear list other ≠ [] → other.Indexed := by
  intro other held
  by_cases same : other = list
  · subst same; simp [Slots.clear] at held
  · rw [Slots.clear, Function.update_of_ne same] at held
    exact support other held

theorem mem_push {S : Slots α} {list other : ListRef} {a b : α} :
    b ∈ S.push list a other ↔ b ∈ S other ∨ (other = list ∧ b = a) := by
  by_cases same : other = list
  · subst same; simp [Slots.push]
  · simp [Slots.push, same]

theorem mem_clear {S : Slots α} {list other : ListRef} {b : α} :
    b ∈ S.clear list other ↔ b ∈ S other ∧ other ≠ list := by
  by_cases same : other = list
  · subst same; simp [Slots.clear]
  · simp [Slots.clear, same]

end LiteServer.Timer
