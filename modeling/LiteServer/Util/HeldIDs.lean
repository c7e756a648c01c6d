import Mathlib.Data.Nat.Log
import LiteServer.Util.HashIDGenerator

/-!
What a `HashIDGenerator` answers. `Insert` never writes the ID into the node it
takes, so every node stays free and all buckets in use begin at the first one.
-/
namespace LiteServer.Util

/-! ### Operations within the contract -/

/-- IDs are inserted while they are not held, and while fewer than `max` are. -/
def Proper (max : Nat) : List ID → List Op → Prop
  | _, [] => True
  | held, .insert id :: ops => 0 ≤ id.toInt ∧ id ∉ held ∧ held.length < max ∧ Proper max (id :: held) ops
  | held, .remove id :: ops => Proper max (held.erase id) ops
  | held, .find _ :: ops => Proper max held ops

instance (max : Nat) : (held : List ID) → (ops : List Op) → Decidable (Proper max held ops)
  | _, [] => .isTrue trivial
  | held, .insert id :: ops =>
    have := instDecidableProper max (id :: held) ops
    inferInstanceAs (Decidable (_ ∧ _ ∧ _ ∧ _))
  | held, .remove id :: ops => instDecidableProper max (held.erase id) ops
  | held, .find _ :: ops => instDecidableProper max held ops

/-- The number of buckets is the power of two, at least 16, that reaches `max`. -/
def bucket (max : Nat) (id : ID) : Nat := id.toNat % 2 ^ Nat.max 4 (Nat.clog 2 max)

/-- No two of the IDs share a bucket. -/
def Spread (max : Nat) (ids : List ID) : Prop := (ids.map (bucket max)).Nodup

/-- Searching for `id` ends and finds nothing. -/
def Missed (max : Nat) (ids : List ID) (id : ID) : Prop :=
  bucket max id ∉ ids.map (bucket max) ∨ id ≠ -1 ∧ id ∉ ids ∧ Spread max ids

instance (max : Nat) (ids : List ID) : Decidable (Spread max ids) := inferInstanceAs (Decidable (List.Nodup _))
instance (max : Nat) (ids : List ID) (id : ID) : Decidable (Missed max ids id) := inferInstanceAs (Decidable (_ ∨ _))

/-- No ID is looked for after it was inserted, none is inserted after two have
    met in a bucket, and no search gets to the first node for -1 or on its loop. -/
def Calm (max : Nat) : List ID → List Op → Prop
  | _, [] => True
  | ids, .insert id :: ops => Spread max ids ∧ Calm max (id :: ids) ops
  | ids, .remove id :: ops => Missed max ids id ∧ Calm max ids ops
  | ids, .find id :: ops => Missed max ids id ∧ Calm max ids ops

instance (max : Nat) : (ids : List ID) → (ops : List Op) → Decidable (Calm max ids ops)
  | _, [] => .isTrue trivial
  | ids, .insert id :: ops =>
    have := instDecidableCalm max (id :: ids) ops
    inferInstanceAs (Decidable (_ ∧ _))
  | ids, .remove _ :: ops =>
    have := instDecidableCalm max ids ops
    inferInstanceAs (Decidable (_ ∧ _))
  | ids, .find _ :: ops =>
    have := instDecidableCalm max ids ops
    inferInstanceAs (Decidable (_ ∧ _))

/-! ### The constructor -/

theorem upCapLoop_total_correct (max : Nat) (fuel e : Nat) (bounded : e ≤ 30) (enough : 31 ≤ fuel + e) :
    upCapLoop fuel (2 ^ e) max = if max ≤ 2 ^ 30 then some (2 ^ Nat.max e (Nat.clog 2 max)) else none := by
  induction fuel generalizing e with
  | zero => omega
  | succ fuel ih =>
    rw [upCapLoop]
    by_cases below : 2 ^ e < max
    · have wider : e < Nat.clog 2 max := (Nat.lt_clog_iff_pow_lt (by omega)).mpr below
      by_cases last : e = 30
      · subst last
        rw [if_pos below, if_neg (by decide), if_neg (not_le.mpr below)]
      · have doubled : 2 ^ e * 2 < 2 ^ 31 := by
          rw [← pow_succ]
          exact Nat.pow_lt_pow_right (by omega) (by omega)
        have same : Nat.max (e + 1) (Nat.clog 2 max) = Nat.max e (Nat.clog 2 max) := by grind
        rw [if_pos below, if_pos doubled, ← pow_succ, ih (e + 1) (by omega) (by omega), same]
    · have narrow : Nat.clog 2 max ≤ e := (Nat.clog_le_iff_le_pow (by omega)).mpr (by omega)
      have small : max ≤ 2 ^ 30 := le_trans (not_lt.mp below) (Nat.pow_le_pow_right (by omega) bounded)
      have same : Nat.max e (Nat.clog 2 max) = e := max_eq_left narrow
      rw [if_neg below, if_pos small, same]

theorem hash_bucket (max : Nat) (small : max ≤ 2 ^ 30) (id : ID) :
    (id &&& BitVec.ofNat 32 (2 ^ Nat.max 4 (Nat.clog 2 max) - 1)).toNat = bucket max id := by
  have narrow : Nat.max 4 (Nat.clog 2 max) ≤ 30 :=
    max_le (by omega) ((Nat.clog_le_iff_le_pow (by omega)).mpr small)
  have fits : 2 ^ Nat.max 4 (Nat.clog 2 max) - 1 < 2 ^ 32 :=
    lt_of_le_of_lt (Nat.sub_le _ _) (Nat.pow_lt_pow_right (by omega) (by omega))
  rw [BitVec.toNat_and, BitVec.toNat_ofNat, Nat.mod_eq_of_lt fits, Nat.and_two_pow_sub_one_eq_mod]
  rfl

/-! ### The generator after some insertions -/

/-- All that the insertions of `ids` have changed. -/
structure Holds (max : Nat) (ids : List ID) (gen : HashIDGenerator) : Prop where
  capacity : gen.nCapacity = max
  count : gen.nCount = ids.length
  hash : ∀ id, gen.hash id = bucket max id
  node : gen.pIDList 0 = ⟨-1, if Spread max ids then none else some 0⟩
  chains : ∀ hash, gen.pHash hash = if hash ∈ ids.map (bucket max) then some 0 else none

namespace HashIDGenerator

theorem new_total_correct (max : Nat) :
    if max ≤ 2 ^ 30 then ∃ gen, new max = some gen ∧ Holds max [] gen else new max = none := by
  have sized : upCapLoop 28 16 max = _ := upCapLoop_total_correct max 28 4 (by omega) (by omega)
  by_cases small : max ≤ 2 ^ 30
  · rw [if_pos small] at sized ⊢
    refine ⟨_, by rw [new, sized]; rfl, ?_⟩
    constructor
    · rfl
    · rfl
    · exact hash_bucket max small
    · rfl
    · simp
  · rw [if_neg small] at sized ⊢
    rw [new, sized]
    rfl

theorem isFull_correct {max : Nat} {ids : List ID} {gen : HashIDGenerator} (holds : Holds max ids gen) :
    gen.isFull ↔ max ≤ ids.length := by
  rw [isFull, holds.capacity, holds.count, decide_eq_true_iff]
  omega

/-- The search for a free node ends at the first one. -/
theorem first_free {max : Nat} {gen : HashIDGenerator} (capacity : gen.nCapacity = max) (positive : 1 ≤ max)
    (free : (gen.pIDList 0).id = -1) : ((List.range gen.nCapacity).find? fun i => (gen.pIDList i).id == -1) = some 0 := by
  obtain ⟨n, rfl⟩ : ∃ n, max = n + 1 := ⟨max - 1, by omega⟩
  rw [capacity, List.range_succ_eq_map, List.find?_cons_of_pos (by rw [free]; rfl)]

/-- The first node is always the one that is free. -/
theorem insert_correct {max : Nat} {ids : List ID} {gen : HashIDGenerator} (holds : Holds max ids gen)
    (positive : 1 ≤ max) (id : ID) :
    if Spread max ids then ∃ gen', gen.insert id = some (true, gen') ∧ Holds max (id :: ids) gen'
    else gen.insert id = some (false, gen) := by
  have first := first_free holds.capacity positive (by rw [holds.node])
  by_cases spread : Spread max ids
  · rw [if_pos spread]
    have node : gen.pIDList 0 = ⟨-1, none⟩ := by rw [holds.node, if_pos spread]
    have hashed : ({ gen with nCount := gen.nCount + 1 } : HashIDGenerator).hash id = bucket max id := holds.hash id
    have taken (other : Nat) : Function.update gen.pHash (bucket max id) (some 0) other =
        if other ∈ (id :: ids).map (bucket max) then some 0 else none := by
      rw [Function.update_apply, holds.chains]
      simp only [List.map_cons, List.mem_cons]
      split <;> simp_all
    have counted : gen.nCount + 1 = ((id :: ids).length : Int) := by rw [holds.count]; rfl
    have distinct : Spread max (id :: ids) ↔ bucket max id ∉ ids.map (bucket max) := by
      rw [Spread, List.map_cons, List.nodup_cons]
      exact and_iff_left spread
    refine ⟨{ gen with
      nCount := gen.nCount + 1
      pIDList := if bucket max id ∈ ids.map (bucket max) then Function.update gen.pIDList 0 ⟨-1, some 0⟩ else gen.pIDList
      pHash := Function.update gen.pHash (bucket max id) (some 0) }, ?_, ?_⟩
    · simp only [insert, first, Option.bind_eq_bind, Option.bind_some, node, hashed, holds.chains (bucket max id)]
      by_cases used : bucket max id ∈ ids.map (bucket max)
      · simp only [if_pos used]
        rfl
      · simp only [if_neg used]
        rfl
    · constructor
      · exact holds.capacity
      · exact counted
      · exact holds.hash
      · by_cases used : bucket max id ∈ ids.map (bucket max)
        · rw [if_pos used, if_neg (by rw [distinct]; exact not_not.mpr used)]
          rfl
        · rw [if_neg used, if_pos (distinct.mpr used), node]
      · exact taken
  · rw [if_neg spread]
    have node : gen.pIDList 0 = ⟨-1, some 0⟩ := by rw [holds.node, if_neg spread]
    simp only [insert, first, Option.bind_eq_bind, Option.bind_some, node]
    rfl

/-! A search in a chain that is in use stays at the first node, whose ID is -1. -/

theorem findLoop_lost {max : Nat} {ids : List ID} {gen : HashIDGenerator} (holds : Holds max ids gen)
    {id : ID} (valid : id ≠ -1) (met : ¬Spread max ids) (fuel : Nat) : gen.findLoop id fuel (some 0) = none := by
  induction fuel with
  | zero => rfl
  | succ fuel ih =>
    rw [findLoop, holds.node, if_neg met, if_neg valid.symm]
    exact ih

theorem removeLoop_lost {max : Nat} {ids : List ID} {gen : HashIDGenerator} (holds : Holds max ids gen)
    {id : ID} (valid : id ≠ -1) (met : ¬Spread max ids) (fuel : Nat) : gen.removeLoop id fuel 0 = none := by
  induction fuel with
  | zero => rfl
  | succ fuel ih =>
    rw [removeLoop, holds.node]
    simp only [if_neg met, holds.node, if_neg valid.symm]
    exact ih

theorem find_missed {max : Nat} {ids : List ID} {gen : HashIDGenerator} (holds : Holds max ids gen)
    {id : ID} (missed : Missed max ids id) : gen.find 1 id = some (-1) := by
  rw [find, holds.hash, holds.chains]
  by_cases used : bucket max id ∈ ids.map (bucket max)
  · obtain ⟨valid, -, spread⟩ := missed.resolve_left (not_not.mpr used)
    rw [if_pos used, findLoop, holds.node, if_neg valid.symm, if_pos spread]
    rfl
  · rw [if_neg used]
    rfl

theorem remove_missed {max : Nat} {ids : List ID} {gen : HashIDGenerator} (holds : Holds max ids gen)
    {id : ID} (missed : Missed max ids id) : gen.remove 1 id = some (-1, gen) := by
  simp only [remove]
  rw [holds.hash, holds.chains]
  by_cases used : bucket max id ∈ ids.map (bucket max)
  · obtain ⟨valid, -, spread⟩ := missed.resolve_left (not_not.mpr used)
    rw [if_pos used]
    simp only [holds.node, if_neg valid.symm, removeLoop, if_pos spread]
  · rw [if_neg used]

/-- What a search that went wrong returns. -/
def Astray (ids : List ID) (id : ID) (index : Int) : Prop := id = -1 ∧ index = 0 ∨ id ∈ ids ∧ index = -1

theorem find_cases {max : Nat} {ids : List ID} {gen : HashIDGenerator} (holds : Holds max ids gen)
    {id : ID} {fuel : Nat} {index : Int} (found : gen.find fuel id = some index) :
    Missed max ids id ∧ index = -1 ∨ Astray ids id index := by
  rw [find, holds.hash, holds.chains] at found
  by_cases used : bucket max id ∈ ids.map (bucket max)
  · rw [if_pos used] at found
    cases fuel with
    | zero => cases found
    | succ fuel =>
      by_cases valid : id = -1
      · rw [findLoop, holds.node, if_pos valid.symm, Option.some.injEq] at found
        exact Or.inr (Or.inl ⟨valid, found.symm⟩)
      · by_cases spread : Spread max ids
        · rw [findLoop, holds.node, if_neg (Ne.symm valid), if_pos spread] at found
          simp only [findLoop, Option.some.injEq] at found
          by_cases present : id ∈ ids
          · exact Or.inr (Or.inr ⟨present, found.symm⟩)
          · exact Or.inl ⟨Or.inr ⟨valid, present, spread⟩, found.symm⟩
        · rw [findLoop_lost holds valid spread] at found
          cases found
  · rw [if_neg used] at found
    simp only [findLoop, Option.some.injEq] at found
    exact Or.inl ⟨Or.inl used, found.symm⟩

theorem remove_cases {max : Nat} {ids : List ID} {gen : HashIDGenerator} (holds : Holds max ids gen)
    {id : ID} {fuel : Nat} {index : Int} {gen' : HashIDGenerator} (removed : gen.remove fuel id = some (index, gen')) :
    (Missed max ids id ∧ index = -1 ∧ gen' = gen) ∨ Astray ids id index := by
  simp only [remove] at removed
  rw [holds.hash, holds.chains] at removed
  by_cases used : bucket max id ∈ ids.map (bucket max)
  · rw [if_pos used] at removed
    by_cases valid : id = -1
    · simp only [holds.node, if_pos valid.symm, Option.some.injEq, Prod.mk.injEq] at removed
      exact Or.inr (Or.inl ⟨valid, removed.1.symm⟩)
    · simp only [holds.node, if_neg (Ne.symm valid)] at removed
      by_cases spread : Spread max ids
      · cases fuel with
        | zero => cases removed
        | succ fuel =>
          simp only [removeLoop, holds.node, if_pos spread, Option.some.injEq, Prod.mk.injEq] at removed
          by_cases present : id ∈ ids
          · exact Or.inr (Or.inr ⟨present, removed.1.symm⟩)
          · exact Or.inl ⟨Or.inr ⟨valid, present, spread⟩, removed.1.symm, removed.2.symm⟩
      · rw [removeLoop_lost holds valid spread] at removed
        cases removed
  · rw [if_neg used] at removed
    cases removed
    exact Or.inl ⟨Or.inl used, rfl, rfl⟩

end HashIDGenerator

theorem Missed.absent {max : Nat} {ids : List ID} {id : ID} (missed : Missed max ids id) : id ∉ ids := by
  rcases missed with unused | ⟨-, absent, -⟩
  · exact fun held => unused (List.mem_map_of_mem held)
  · exact absent

/-! ### Runs -/

namespace HashIDGenerator

/-- An inserted ID may be said to have the next index, as nobody asks for it. -/
theorem run_served {max : Nat} (positive : 1 ≤ max) {ops : List Op} {ids : List ID} {gen : HashIDGenerator}
    (holds : Holds max ids gen) (proper : Proper max ids ops) (calm : Calm max ids ops) {held : ID → Option Nat}
    (absent : ∀ id, id ∉ ids → held id = none) (below : ∀ id index, held id = some index → index < ids.length) :
    ∃ answers gen', gen.run 1 ops = some (answers, gen') ∧ Served max held ops answers := by
  induction ops generalizing ids gen held with
  | nil => exact ⟨[], gen, rfl, .done⟩
  | cons op ops ih =>
    cases op with
    | insert id =>
      obtain ⟨-, new, room, proper⟩ := proper
      obtain ⟨spread, calm⟩ := calm
      have called := insert_correct holds positive id
      rw [if_pos spread] at called
      obtain ⟨gen', inserted, holds'⟩ := called
      have absent' (other : ID) (missing : other ∉ id :: ids) : Function.update held id (some ids.length) other = none := by
        rw [List.mem_cons, not_or] at missing
        rw [Function.update_of_ne missing.1]
        exact absent other missing.2
      have below' (other : ID) (index : Nat) (present : Function.update held id (some ids.length) other = some index) :
          index < (id :: ids).length := by
        rw [List.length_cons]
        by_cases same : other = id
        · rw [same, Function.update_self, Option.some.injEq] at present
          omega
        · rw [Function.update_of_ne same] at present
          exact Nat.lt_succ_of_lt (below other index present)
      obtain ⟨answers, last, ran, served⟩ := ih holds' proper calm absent' below'
      refine ⟨.inserted true :: answers, last, ?_, .insert (absent id new) room ?_ served⟩
      · simp only [run, call, inserted, Option.map_some, Option.bind_eq_bind, Option.bind_some, ran]
        rfl
      · intro other present
        exact absurd (below other _ present) (lt_irrefl _)
    | remove id =>
      obtain ⟨missed, calm⟩ := calm
      rw [Proper, List.erase_of_not_mem missed.absent] at proper
      obtain ⟨answers, last, ran, served⟩ := ih holds proper calm absent below
      refine ⟨.removed (-1) :: answers, last, ?_, .removeAbsent (absent id missed.absent) served⟩
      simp only [run, call, remove_missed holds missed, Option.map_some, Option.bind_eq_bind, Option.bind_some, ran]
      rfl
    | find id =>
      obtain ⟨missed, calm⟩ := calm
      obtain ⟨answers, last, ran, served⟩ := ih holds proper calm absent below
      refine ⟨.found (-1) :: answers, last, ?_, .findAbsent (absent id missed.absent) served⟩
      simp only [run, call, find_missed holds missed, Option.map_some, Option.bind_eq_bind, Option.bind_some, ran]
      rfl

theorem run_cons {gen : HashIDGenerator} {fuel : Nat} {op : Op} {ops : List Op} {answers : List Answer}
    {last : HashIDGenerator} (ran : gen.run fuel (op :: ops) = some (answers, last)) :
    ∃ answer gen' rest, gen.call fuel op = some (answer, gen') ∧ gen'.run fuel ops = some (rest, last) ∧
      answers = answer :: rest := by
  simp only [run, Option.bind_eq_bind, Option.bind_eq_some_iff, Prod.exists] at ran
  obtain ⟨answer, gen', called, rest, last', ran, done⟩ := ran
  cases done
  exact ⟨answer, gen', rest, called, ran, rfl⟩

/-- A search that went wrong does not answer as a map. -/
theorem not_astray {ids : List ID} {id : ID} (valid : -1 ∉ ids) {held : ID → Option Nat}
    (same : ∀ id, (held id).isSome ↔ id ∈ ids) {index : Int}
    (right : held id = none ∧ index = -1 ∨ ∃ slot : Nat, held id = some slot ∧ index = slot) : ¬Astray ids id index := by
  rintro (⟨free, first⟩ | ⟨present, missing⟩)
  · rcases right with ⟨-, missing⟩ | ⟨slot, found, -⟩
    · omega
    · have present : id ∈ ids := (same id).mp (by rw [found]; rfl)
      exact valid (free ▸ present)
  · rcases right with ⟨absent, -⟩ | ⟨slot, -, found⟩
    · have found := (same id).mpr present
      rw [absent] at found
      cases found
    · omega

/-- A run whose answers are those of a map was calm. -/
theorem run_calm {max : Nat} (positive : 1 ≤ max) {ops : List Op} {ids : List ID} {gen : HashIDGenerator}
    (holds : Holds max ids gen) (proper : Proper max ids ops) (valid : -1 ∉ ids) {held : ID → Option Nat}
    (same : ∀ id, (held id).isSome ↔ id ∈ ids) {fuel : Nat} {answers : List Answer} {last : HashIDGenerator}
    (ran : gen.run fuel ops = some (answers, last)) (served : Served max held ops answers) : Calm max ids ops := by
  induction ops generalizing ids gen held answers with
  | nil => trivial
  | cons op ops ih =>
    obtain ⟨answer, gen', rest, called, ranRest, rfl⟩ := run_cons ran
    cases op with
    | insert id =>
      obtain ⟨nonneg, new, room, proper⟩ := proper
      have inserted := insert_correct holds positive id
      cases served with
      | insert absent inside unused served =>
        by_cases spread : Spread max ids
        · rw [if_pos spread] at inserted
          obtain ⟨gen'', inserted, holds'⟩ := inserted
          simp only [call, inserted, Option.map_some, Option.some.injEq, Prod.mk.injEq] at called
          rw [called.2] at holds'
          refine ⟨spread, ih holds' proper ?_ ?_ ranRest served⟩
          · rw [List.mem_cons, not_or]
            refine ⟨?_, valid⟩
            rintro rfl
            exact absurd nonneg (by decide)
          · intro other
            rw [List.mem_cons]
            by_cases other_id : other = id
            · simp [other_id]
            · rw [Function.update_of_ne other_id, same]
              simp [other_id]
        · rw [if_neg spread] at inserted
          simp [call, inserted] at called
    | remove id =>
      obtain ⟨⟨index, gen''⟩, removed, done⟩ := Option.map_eq_some_iff.mp called
      cases done
      rcases remove_cases holds removed with ⟨missed, missing, rfl⟩ | astray
      · rw [Proper, List.erase_of_not_mem missed.absent] at proper
        cases served with
        | remove present _ => omega
        | removeAbsent _ served => exact ⟨missed, ih holds proper valid same ranRest served⟩
      · cases served with
        | remove present _ => exact absurd astray (not_astray valid same (Or.inr ⟨_, present, rfl⟩))
        | removeAbsent absent _ => exact absurd astray (not_astray valid same (Or.inl ⟨absent, rfl⟩))
    | find id =>
      obtain ⟨index, found, done⟩ := Option.map_eq_some_iff.mp called
      cases done
      rcases find_cases holds found with ⟨missed, missing⟩ | astray
      · cases served with
        | find present _ => omega
        | findAbsent _ served => exact ⟨missed, ih holds proper valid same ranRest served⟩
      · cases served with
        | find present _ => exact absurd astray (not_astray valid same (Or.inr ⟨_, present, rfl⟩))
        | findAbsent absent _ => exact absurd astray (not_astray valid same (Or.inl ⟨absent, rfl⟩))

end HashIDGenerator

theorem ServesAsMap.calm {max : Nat} (positive : 1 ≤ max) {ops : List Op} (proper : Proper max [] ops)
    (serves : ServesAsMap max ops) : max ≤ 2 ^ 30 ∧ Calm max [] ops := by
  obtain ⟨gen, fuel, answers, last, created, ran, served⟩ := serves
  have holds := HashIDGenerator.new_total_correct max
  rw [created] at holds
  by_cases small : max ≤ 2 ^ 30
  · rw [if_pos small] at holds
    obtain ⟨_, ⟨⟩, holds⟩ := holds
    exact ⟨small, HashIDGenerator.run_calm positive holds proper (by simp) (by simp) ran served⟩
  · rw [if_neg small] at holds
    cases holds

/-- A generator serves as a map exactly when no call depends on an ID it holds. -/
theorem serves_as_map_iff (max : Nat) (positive : 1 ≤ max) (ops : List Op) (proper : Proper max [] ops) :
    ServesAsMap max ops ↔ max ≤ 2 ^ 30 ∧ Calm max [] ops := by
  constructor
  · exact ServesAsMap.calm positive proper
  · rintro ⟨small, calm⟩
    have created := HashIDGenerator.new_total_correct max
    rw [if_pos small] at created
    obtain ⟨gen, created, holds⟩ := created
    obtain ⟨answers, last, ran, served⟩ :=
      HashIDGenerator.run_served positive holds proper calm (fun _ _ => rfl) nofun
    exact ⟨gen, 1, answers, last, created, ran, served⟩

theorem unasked_ids_served : ServesAsMap 1000 [.find 5, .insert 3, .find 4, .insert 20] :=
  (serves_as_map_iff 1000 (by decide) _ (by decide)).mpr (by decide)

theorem held_id_not_found : Proper 1 [] [.insert 0, .find 0] ∧ ¬ServesAsMap 1 [.insert 0, .find 0] := by
  refine ⟨by decide, fun serves => ?_⟩
  exact absurd (serves.calm (by decide) (by decide)).2 (by decide)

end LiteServer.Util
