import Mathlib.Data.List.Count
import Mathlib.Data.List.Nodup
import Mathlib.Data.List.Range
import Mathlib.Logic.Function.Basic

/-!
Pools of numbered items. An item is made for an owner and is either free, in the
queue of its owner, or out; it is made only where the owner's queue is empty.
-/
namespace Pools
universe u
variable {Owner : Type u} [DecidableEq Owner]

/-- Every item is in one place, free at its owner or out for it. `owners` are
    those of the items in the order in which they were made. -/
def Accounted (owners : List Owner) (free : Owner → List Nat) (out : List (Nat × Owner)) : Prop :=
  ∀ item owner, (free owner).count item + out.count (item, owner) = if owners[item]? = some owner then 1 else 0

variable {owners : List Owner} {free : Owner → List Nat} {out out' : List (Nat × Owner)} {item : Nat} {owner : Owner}

theorem accounted_nil : Accounted ([] : List Owner) (fun _ => []) [] := by
  intro item owner
  simp

/-- A new item goes out. -/
theorem Accounted.made (accounted : Accounted owners free out) (goes : out'.Perm ((owners.length, owner) :: out)) :
    Accounted (owners ++ [owner]) free out' := by
  intro item o
  have before := accounted item o
  rw [goes.count_eq, List.count_cons, ← Nat.add_assoc, before]
  by_cases new : item = owners.length
  · subst new
    by_cases same : owner = o <;> simp [same]
  · have elsewhere : ((owners.length, owner) == (item, o)) = false := by simp [Ne.symm new]
    rw [elsewhere]
    rcases Nat.lt_or_gt_of_ne new with old | beyond
    · simp [List.getElem?_append_left old]
    · rw [List.getElem?_eq_none (Nat.le_of_lt beyond), List.getElem?_eq_none (by simp; omega)]
      simp

/-- A free item goes out. -/
theorem Accounted.taken (accounted : Accounted owners free out) {rest : List Nat} (front : free owner = item :: rest)
    (goes : out'.Perm ((item, owner) :: out)) : Accounted owners (Function.update free owner rest) out' := by
  intro i o
  have before := accounted i o
  rw [goes.count_eq, List.count_cons, ← before]
  by_cases same : o = owner
  · subst same
    rw [Function.update_self, front, List.count_cons]
    by_cases here : item = i <;> simp [here]
    omega
  · have elsewhere : ((item, owner) == (i, o)) = false := by simp [Ne.symm same]
    rw [Function.update_of_ne same, elsewhere]
    simp

/-- An item that is out goes to its owner's queue. -/
theorem Accounted.returned (accounted : Accounted owners free out) (comes : out.Perm ((item, owner) :: out')) :
    Accounted owners (Function.update free owner (free owner ++ [item])) out' := by
  intro i o
  have before := accounted i o
  rw [comes.count_eq, List.count_cons] at before
  rw [← before]
  by_cases same : o = owner
  · subst same
    rw [Function.update_self, List.count_append, List.count_singleton]
    by_cases here : item = i <;> simp [here]
    omega
  · have elsewhere : ((item, owner) == (i, o)) = false := by simp [Ne.symm same]
    rw [Function.update_of_ne same, elsewhere]
    simp

theorem Accounted.perm (accounted : Accounted owners free out) (same : out'.Perm out) : Accounted owners free out' := by
  intro item owner
  rw [same.count_eq]
  exact accounted item owner

theorem Accounted.owner_of_free (accounted : Accounted owners free out) (member : item ∈ free owner) :
    owners[item]? = some owner := by
  have counted := accounted item owner
  have here := List.count_pos_iff.mpr member
  by_contra other
  rw [if_neg other] at counted
  omega

theorem Accounted.owner_of_out (accounted : Accounted owners free out) (member : (item, owner) ∈ out) :
    owners[item]? = some owner := by
  have counted := accounted item owner
  have here := List.count_pos_iff.mpr member
  by_contra other
  rw [if_neg other] at counted
  omega

/-- What is out is out once. -/
theorem Accounted.nodup (accounted : Accounted owners free out) : (out.map Prod.fst).Nodup := by
  refine List.Nodup.map_on ?_ ?_
  · rintro ⟨item, owner⟩ member ⟨item', owner'⟩ member' same
    cases (show item = item' from same)
    have first := accounted.owner_of_out member
    rw [accounted.owner_of_out member'] at first
    cases first
    rfl
  · refine List.nodup_iff_count_le_one.mpr ?_
    rintro ⟨item, owner⟩
    have counted := accounted item owner
    split at counted <;> omega

/-! ### How many items there are -/

/-- The items of an owner. -/
def itemsOf (owners : List Owner) (owner : Owner) : List Nat :=
  (List.range owners.length).filter fun item => owners[item]? = some owner

theorem length_itemsOf (owners : List Owner) (owner : Owner) : (itemsOf owners owner).length = owners.count owner := by
  induction owners using List.reverseRecOn with
  | nil => rfl
  | append_singleton owners last ih =>
    have old : (List.range owners.length).filter (fun item => (owners ++ [last])[item]? = some owner) =
        itemsOf owners owner := by
      refine List.filter_congr fun item member => ?_
      rw [List.getElem?_append_left (List.mem_range.mp member)]
    rw [itemsOf, List.length_append, List.length_singleton, List.range_succ, List.filter_append, List.length_append, old,
      ih, List.count_append]
    by_cases same : last = owner <;> simp [same]

theorem count_itemsOf (owners : List Owner) (owner : Owner) (item : Nat) :
    (itemsOf owners owner).count item = if owners[item]? = some owner then 1 else 0 := by
  have distinct : (itemsOf owners owner).Nodup := List.nodup_range.filter _
  rw [distinct.count]
  congr 1
  rw [itemsOf, List.mem_filter, List.mem_range, decide_eq_true_eq, eq_iff_iff]
  exact and_iff_right_of_imp fun stored => (List.getElem?_eq_some_iff.mp stored).1

/-- The items of an owner that are out. -/
def outOf (out : List (Nat × Owner)) (owner : Owner) : List Nat :=
  (out.filter fun entry => entry.2 = owner).map Prod.fst

theorem count_outOf (out : List (Nat × Owner)) (owner : Owner) (item : Nat) :
    (outOf out owner).count item = out.count (item, owner) := by
  induction out with
  | nil => rfl
  | cons entry out ih =>
    obtain ⟨i, o⟩ := entry
    rw [outOf] at ih ⊢
    by_cases same : o = owner
    · subst same
      by_cases here : i = item <;> simp [here, ih]
    · simp [same, ih]

theorem length_outOf (out : List (Nat × Owner)) (owner : Owner) :
    (outOf out owner).length = (out.map Prod.snd).count owner := by
  rw [outOf, List.length_map, List.count_eq_countP, List.countP_map, List.countP_eq_length_filter]
  rfl

/-- An owner has as many items as are free there and out for it. -/
theorem Accounted.length (accounted : Accounted owners free out) (owner : Owner) :
    owners.count owner = (free owner).length + (out.map Prod.snd).count owner := by
  have whole : (free owner ++ outOf out owner).Perm (itemsOf owners owner) := by
    rw [List.perm_iff_count]
    intro item
    rw [List.count_append, count_outOf, count_itemsOf]
    exact accounted item owner
  rw [← length_itemsOf, ← length_outOf, ← List.length_append]
  exact whole.length_eq.symm

end Pools
