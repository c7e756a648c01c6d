import LiteServer.Lua.Returns
import LiteServer.Lua.Constructors

/-!
`clone` is a deep copy. Every table that the object reaches is copied once, and
the copies refer to each other as the tables do, shared tables and cycles
included. Metatables are shared with the original.
-/
namespace LiteServer.Lua.Class
open LiteServer.Lua.Objects

/-- A value with the copies of its tables. -/
def image (lookup_table : Ref → Option Ref) : LuaValue → Option LuaValue
  | .table t => (lookup_table t).map .table
  | v => some v

/-- The tables that are found from a table by its keys and values. -/
inductive Reached (h : Objects) (object : Ref) : Ref → Prop
  | object : Reached h object object
  | key {t u} : Reached h object t → (h.table t).field (.table u) ≠ .nil → Reached h object u
  | value {t u key} : Reached h object t → (h.table t).field key = .table u → Reached h object u

def asMetatable : LuaValue → Option Ref
  | .table metatable => some metatable
  | _ => none

/-- The fields of `u` are copies of those of `t`, but for these keys. -/
structure Filled (h : Objects) (s : CopyState) (t u : Ref) (rest : List LuaValue) : Prop where
  fields : ∀ key, (h.table t).field key ≠ .nil → key ∉ rest → ∃ key', image s.lookup_table key = some key' ∧
    image s.lookup_table ((h.table t).field key) = some ((s.heap.table u).field key')
  keys : ∀ key' ∈ (s.heap.table u).keys, ∃ key, (h.table t).field key ≠ .nil ∧ image s.lookup_table key = some key'

structure CopyOf (h : Objects) (s : CopyState) (t u : Ref) : Prop where
  filled : Filled h s t u []
  metatable : (s.heap.table u).metatable = asMetatable (h.getmetatable t)

/-- `lookup_table` pairs tables of `h` with all the younger ones. -/
structure Pairs (h : Objects) (s : CopyState) : Prop where
  grows : h.Grows s.heap
  old : ∀ {t u}, s.lookup_table t = some u → t < h.next
  young : ∀ {t u}, s.lookup_table t = some u → h.next ≤ u ∧ u < s.heap.next
  once : ∀ {t t' u}, s.lookup_table t = some u → s.lookup_table t' = some u → t = t'
  all : ∀ {u}, h.next ≤ u → u < s.heap.next → ∃ t, s.lookup_table t = some u

/-- Tables that were paired stay so. -/
def Extends (s s' : CopyState) : Prop := ∀ t u, s.lookup_table t = some u → s'.lookup_table t = some u

section
variable {h : Objects} {s s' s'' : CopyState} {v v' : LuaValue} {t u object new_table : Ref} {fuel : Nat}

theorem Extends.refl (s : CopyState) : Extends s s := fun _ _ paired => paired

theorem Extends.trans (first : Extends s s') (second : Extends s' s'') : Extends s s'' :=
  fun t u paired => second t u (first t u paired)

theorem Reached.trans {a b c : Ref} (first : Reached h a b) (second : Reached h b c) : Reached h a c := by
  induction second with
  | object => exact first
  | key _ set ih => exact ih.key set
  | value _ set ih => exact ih.value set

theorem image_none (uncopied : image s.lookup_table v = none) : ∃ t, v = .table t ∧ s.lookup_table t = none := by
  cases v with
  | table t => exact ⟨t, rfl, Option.map_eq_none_iff.mp uncopied⟩
  | _ => cases uncopied

theorem Extends.image (extended : Extends s s') (found : image s.lookup_table v = some v') :
    image s'.lookup_table v = some v' := by
  cases v with
  | table t =>
    obtain ⟨u, paired, same⟩ := Option.map_eq_some_iff.mp found
    exact Option.map_eq_some_iff.mpr ⟨u, extended t u paired, same⟩
  | _ => exact found

/-- Different values have different copies. -/
theorem Pairs.image_inj (pairs : Pairs h s) {v₁ v₂ : LuaValue} (first : image s.lookup_table v₁ = some v')
    (second : image s.lookup_table v₂ = some v') : v₁ = v₂ := by
  have table : ∀ t v, image s.lookup_table (.table t) = some v' → image s.lookup_table v = some v' → v = .table t := by
    intro t v here there
    obtain ⟨u, paired, rfl⟩ := Option.map_eq_some_iff.mp here
    cases v with
    | table t' =>
      obtain ⟨u', paired', same⟩ := Option.map_eq_some_iff.mp there
      obtain rfl := LuaValue.table.inj same
      rw [pairs.once paired paired']
    | _ => cases there
  cases v₁ with
  | table t => exact (table t v₂ first second).symm
  | _ =>
    cases v₂ with
    | table t => exact table t _ second first
    | _ => exact Option.some.inj (first.trans second.symm)

theorem Filled.kept {rest : List LuaValue} (filled : Filled h s t u rest) (extended : Extends s s')
    (same : s'.heap.table u = s.heap.table u) : Filled h s' t u rest := by
  constructor
  · intro key set done
    obtain ⟨key', copiedKey, copiedValue⟩ := filled.fields key set done
    rw [same]
    exact ⟨key', extended.image copiedKey, extended.image copiedValue⟩
  · rw [same]
    intro key' member
    obtain ⟨key, set, copiedKey⟩ := filled.keys key' member
    exact ⟨key, set, extended.image copiedKey⟩

theorem CopyOf.kept (copyOf : CopyOf h s t u) (extended : Extends s s') (same : s'.heap.table u = s.heap.table u) :
    CopyOf h s' t u := ⟨copyOf.filled.kept extended same, by rw [same, copyOf.metatable]⟩

theorem mem_keys_rawset {table : Table} {key other : LuaValue} (member : other ∈ (table.rawset key v).keys) :
    other = key ∨ other ∈ table.keys := by
  unfold Table.rawset at member
  split at member
  · exact Or.inr member
  · rcases List.mem_append.mp member with before | here
    · exact Or.inr before
    · exact Or.inl (List.mem_singleton.mp here)

/-- One more pair of a key and a value. -/
theorem Filled.rawset {key key' value : LuaValue} {rest : List LuaValue} (filled : Filled h s t u (key :: rest))
    (pairs : Pairs h s) (set : (h.table t).field key ≠ .nil) (copiedKey : image s.lookup_table key = some key')
    (copiedValue : image s.lookup_table ((h.table t).field key) = some value) :
    Filled h { s with heap := s.heap.rawset u key' value } t u rest := by
  constructor
  · intro other otherSet done
    show ∃ other', _ ∧ _ = some (((s.heap.rawset u key' value).table u).field other')
    rw [Heap.table_rawset_self, Table.field_rawset]
    by_cases same : other = key
    · subst same
      refine ⟨key', copiedKey, ?_⟩
      rw [Function.update_self]
      exact copiedValue
    · have before : other ∉ key :: rest := fun member => (List.mem_cons.mp member).elim same done
      obtain ⟨other', copiedOther, copied⟩ := filled.fields other otherSet before
      have apart : other' ≠ key' := fun same' => same (pairs.image_inj (same' ▸ copiedOther) copiedKey)
      refine ⟨other', copiedOther, ?_⟩
      rw [Function.update_of_ne apart]
      exact copied
  · intro other' member
    have member : other' ∈ ((s.heap.rawset u key' value).table u).keys := member
    rw [Heap.table_rawset_self] at member
    rcases mem_keys_rawset member with rfl | before
    · exact ⟨key, set, copiedKey⟩
    · exact filled.keys other' before

/-! ### A call of `_copy` -/

structure Call (h : Objects) (s : CopyState) (v v' : LuaValue) (s' : CopyState) : Prop where
  pairs : Pairs h s'
  extended : Extends s s'
  grows : s.heap.Grows s'.heap
  value : image s'.lookup_table v = some v'
  completes : ∀ t u, s.lookup_table t = none → s'.lookup_table t = some u →
    CopyOf h s' t u ∧ ∃ object, v = .table object ∧ Reached h object t

def Correct (h : Objects) (copy : CopyState → LuaValue → Option (LuaValue × CopyState)) : Prop :=
  ∀ s v v' s', Pairs h s → within h v → copy s v = some (v', s') → Call h s v v' s'

/-- A value that needs no new table. -/
theorem copy_met (met : image s.lookup_table v = some v') (fuel : Nat) : copy fuel s v = some (v', s) := by
  cases v with
  | table t =>
    obtain ⟨u, paired, rfl⟩ := Option.map_eq_some_iff.mp met
    cases fuel with
    | zero =>
      rw [copy, paired]
      rfl
    | succ fuel => rw [copy, paired]
  | _ =>
    obtain rfl := Option.some.inj met
    cases fuel <;> rfl

theorem Call.met (pairs : Pairs h s) (met : image s.lookup_table v = some v') : Call h s v v' s := by
  refine ⟨pairs, Extends.refl s, Heap.Grows.refl _, met, ?_⟩
  intro t u unmet paired
  cases unmet.symm.trans paired

/-- What the loop over the fields of `t` does, where `new_table` is for the copies. -/
structure FieldsCopied (h : Objects) (s : CopyState) (t new_table : Ref) (s' : CopyState) : Prop where
  pairs : Pairs h s'
  extended : Extends s s'
  filled : Filled h s' t new_table []
  others : ∀ u < s.heap.next, u ≠ new_table → s'.heap.table u = s.heap.table u
  completes : ∀ t' u', s.lookup_table t' = none → s'.lookup_table t' = some u' → CopyOf h s' t' u' ∧ Reached h t t'

theorem Pairs.rawset (pairs : Pairs h s) (young : h.next ≤ u) (key value : LuaValue) :
    Pairs h { s with heap := s.heap.rawset u key value } where
  grows := pairs.grows.rawset young _ _
  old := pairs.old
  young := pairs.young
  once := pairs.once
  all := pairs.all

theorem copyFields_copies {copy : CopyState → LuaValue → Option (LuaValue × CopyState)} (correct : Correct h copy)
    (fields : ∀ key, within h ((h.table t).field key)) {keys : List LuaValue} (inside : ∀ key ∈ keys, within h key)
    (pairs : Pairs h s) (paired : s.lookup_table t = some new_table) (filled : Filled h s t new_table keys)
    (copied : copyFields copy new_table (h.table t) keys s = some s') : FieldsCopied h s t new_table s' := by
  induction keys generalizing s with
  | nil =>
    obtain rfl := Option.some.inj copied
    refine ⟨pairs, Extends.refl s, filled, fun _ _ _ => rfl, ?_⟩
    intro t' u' unmet met
    cases unmet.symm.trans met
  | cons key keys ih =>
    have rest : ∀ other ∈ keys, within h other := fun other member => inside other (List.mem_cons_of_mem _ member)
    rw [copyFields] at copied
    by_cases unset : (h.table t).field key = .nil
    · rw [if_pos unset] at copied
      refine ih rest pairs paired ⟨?_, filled.keys⟩ copied
      intro other set done
      exact filled.fields other set fun member => (List.mem_cons.mp member).elim (fun same => set (same ▸ unset)) done
    · rw [if_neg unset] at copied
      simp only [Option.bind_eq_bind, Option.bind_eq_some_iff] at copied
      obtain ⟨⟨key', s₁⟩, copiedKey, ⟨value, s₂⟩, copiedValue, copied⟩ := copied
      have keyCall := correct _ _ _ _ pairs (inside key (List.mem_cons_self ..)) copiedKey
      have valueCall := correct _ _ _ _ keyCall.pairs (fields key) copiedValue
      have extended : Extends s s₂ := keyCall.extended.trans valueCall.extended
      have grows : s.heap.Grows s₂.heap := keyCall.grows.trans valueCall.grows
      have there := pairs.young paired
      have filled₂ : Filled h s₂ t new_table (key :: keys) := filled.kept extended (grows.table _ there.2)
      let s₃ : CopyState := { s₂ with heap := s₂.heap.rawset new_table key' value }
      have loop : FieldsCopied h s₃ t new_table s' := ih rest (valueCall.pairs.rawset there.1 key' value)
        (extended t new_table paired)
        (filled₂.rawset valueCall.pairs unset (valueCall.extended.image keyCall.value) valueCall.value) copied
      have kept : ∀ u < s₂.heap.next, u ≠ new_table → s'.heap.table u = s₂.heap.table u := fun u old apart =>
        (loop.others u old apart).trans (Heap.table_rawset_other apart ..)
      refine ⟨loop.pairs, extended.trans loop.extended, loop.filled, ?_, ?_⟩
      · intro u old apart
        exact (kept u (Nat.lt_of_lt_of_le old grows.next) apart).trans (grows.table u old)
      · intro t' u' unmet met
        have apart : ∀ {s₀ : CopyState}, Extends s s₀ → s₀.lookup_table t' = some u' → Pairs h s₀ → u' ≠ new_table := by
          intro s₀ extended met₀ pairs₀ same
          have same : t' = t := pairs₀.once (same ▸ met₀) (extended t new_table paired)
          rw [same, paired] at unmet
          cases unmet
        cases met₁ : s₁.lookup_table t' with
        | some u₁ =>
          -- met while the key was copied
          have met₂ := valueCall.extended t' u₁ met₁
          obtain rfl := Option.some.inj ((loop.extended t' u₁ met₂).symm.trans met)
          obtain ⟨copyOf, object, isTable, reached⟩ := keyCall.completes t' u₁ unmet met₁
          have old := (keyCall.pairs.young met₁).2
          have same : s'.heap.table u₁ = s₁.heap.table u₁ :=
            (kept u₁ (Nat.lt_of_lt_of_le old valueCall.grows.next) (apart keyCall.extended met₁ keyCall.pairs)).trans
              (valueCall.grows.table u₁ old)
          refine ⟨copyOf.kept (valueCall.extended.trans loop.extended) same, ?_⟩
          exact (Reached.object.key (isTable ▸ unset)).trans reached
        | none =>
          cases met₂ : s₂.lookup_table t' with
          | some u₂ =>
            -- met while the value was copied
            obtain rfl := Option.some.inj ((loop.extended t' u₂ met₂).symm.trans met)
            obtain ⟨copyOf, object, isTable, reached⟩ := valueCall.completes t' u₂ met₁ met₂
            have same := kept u₂ (valueCall.pairs.young met₂).2 (apart extended met₂ valueCall.pairs)
            exact ⟨copyOf.kept loop.extended same, (Reached.object.value isTable).trans reached⟩
          | none => exact loop.completes t' u' met₂ met

/-- A table that is met for the first time is paired with a new one. -/
theorem Pairs.mark (pairs : Pairs h s) (old : t < h.next) (unmet : s.lookup_table t = none) :
    Pairs h ⟨(s.heap.newTable none).2, Function.update s.lookup_table t (some s.heap.next)⟩ := by
  have marked : ∀ {t' u}, Function.update s.lookup_table t (some s.heap.next) t' = some u →
      (t' = t ∧ u = s.heap.next) ∨ s.lookup_table t' = some u := by
    intro t' u paired
    by_cases same : t' = t
    · subst same
      rw [Function.update_self] at paired
      exact Or.inl ⟨rfl, (Option.some.inj paired).symm⟩
    · rw [Function.update_of_ne same] at paired
      exact Or.inr paired
  refine ⟨pairs.grows.trans (Heap.newTable_grows ..), ?_, ?_, ?_, ?_⟩
  · intro t' u paired
    rcases marked paired with ⟨rfl, -⟩ | before
    · exact old
    · exact pairs.old before
  · intro t' u paired
    rcases marked paired with ⟨-, rfl⟩ | before
    · exact ⟨pairs.grows.next, Nat.lt_succ_self _⟩
    · exact ⟨(pairs.young before).1, Nat.lt_succ_of_lt (pairs.young before).2⟩
  · intro t₁ t₂ u first second
    rcases marked first with ⟨rfl, rfl⟩ | before₁
    · rcases marked second with ⟨rfl, -⟩ | before₂
      · rfl
      · exact absurd (pairs.young before₂).2 (Nat.lt_irrefl _)
    · rcases marked second with ⟨-, rfl⟩ | before₂
      · exact absurd (pairs.young before₁).2 (Nat.lt_irrefl _)
      · exact pairs.once before₁ before₂
  · intro u young there
    rcases Nat.lt_succ_iff_lt_or_eq.mp there with before | rfl
    · obtain ⟨t', paired⟩ := pairs.all young before
      have apart : t' ≠ t := by
        rintro rfl
        cases unmet.symm.trans paired
      exact ⟨t', (Function.update_of_ne apart ..).trans paired⟩
    · exact ⟨t, Function.update_self ..⟩

theorem setmetatable_asMetatable {heap heap' : Objects} {metatable : LuaValue}
    (set : heap.setmetatable u metatable = some heap') : heap' = heap.withMetatable u (asMetatable metatable) := by
  unfold Heap.setmetatable at set
  split at set
  · exact (Option.some.inj set).symm
  · exact (Option.some.inj set).symm
  · cases set

theorem getmetatable_grows {heap : Objects} (grows : h.Grows heap) (closed : Closed h) (old : t < h.next) :
    heap.getmetatable t = h.getmetatable t := by
  cases has : (h.table t).metatable with
  | none => rw [Heap.getmetatable_plain has, Heap.getmetatable_plain ((congrArg _ (grows.table t old)).trans has)]
  | some metatable =>
    simp only [Heap.getmetatable, grows.table t old, has, grows.table metatable (closed.metatable t old metatable has)]

/-- The last step of a copy of `t`. -/
theorem Pairs.setmetatable (pairs : Pairs h s) (young : h.next ≤ u) {heap : Objects} {metatable : LuaValue}
    (set : s.heap.setmetatable u metatable = some heap) : Pairs h { s with heap } := by
  have next := (Heap.setmetatable_field set).2
  refine ⟨pairs.grows.setmetatable young set, pairs.old, fun paired => ?_, pairs.once, fun young there => ?_⟩
  · exact ⟨(pairs.young paired).1, next ▸ (pairs.young paired).2⟩
  · exact pairs.all young (next ▸ there)

theorem copyTable_copies (closed : Closed h) (correct : Correct h (copy fuel)) (pairs : Pairs h s) (old : t < h.next)
    (unmet : s.lookup_table t = none) (copied : copy (fuel + 1) s (.table t) = some (v', s')) :
    Call h s (.table t) v' s' := by
  have grows := (copy_correct copied).grows
  let s₁ : CopyState := ⟨(s.heap.newTable none).2, Function.update s.lookup_table t (some s.heap.next)⟩
  have pairs₁ : Pairs h s₁ := pairs.mark old unmet
  have marked : s₁.lookup_table t = some s.heap.next := Function.update_self ..
  have same : s.heap.table t = h.table t := pairs.grows.table t old
  rw [copy, unmet] at copied
  simp only [Option.bind_eq_bind, Option.bind_eq_some_iff, same] at copied
  obtain ⟨s₂, filled, heap, set, done⟩ := copied
  obtain ⟨rfl, rfl⟩ := Prod.mk.inj (Option.some.inj done)
  have empty : Filled h s₁ t s.heap.next (h.table t).keys := by
    refine ⟨fun key set rest => absurd ((h.table t).covered key set) rest, fun key' member => ?_⟩
    have member : key' ∈ ((s.heap.newTable none).2.table s.heap.next).keys := member
    rw [Heap.table_newTable_self] at member
    cases member
  have loop := copyFields_copies correct (closed.fields t old) (closed.keys t old) pairs₁ marked empty filled
  have extended : Extends s s₂ := by
    intro t' u paired
    refine loop.extended t' u ?_
    have apart : t' ≠ t := by
      rintro rfl
      cases unmet.symm.trans paired
    exact (Function.update_of_ne apart ..).trans paired
  rw [getmetatable_grows loop.pairs.grows closed old] at set
  have finished : heap = s₂.heap.withMetatable s.heap.next (asMetatable (h.getmetatable t)) :=
    setmetatable_asMetatable set
  refine ⟨loop.pairs.setmetatable pairs.grows.next set, extended, grows, ?_, ?_⟩
  · exact Option.map_eq_some_iff.mpr ⟨s.heap.next, loop.extended t _ marked, rfl⟩
  · intro t' u' unmet' met
    by_cases here : t' = t
    · subst here
      obtain rfl := Option.some.inj ((loop.extended t' _ marked).symm.trans met)
      have table : heap.table s.heap.next =
          { s₂.heap.table s.heap.next with metatable := asMetatable (h.getmetatable t') } := by
        rw [finished]
        exact Heap.table_withMetatable_self ..
      refine ⟨⟨⟨?_, ?_⟩, by rw [table]⟩, t', rfl, .object⟩
      · rw [table]
        exact loop.filled.fields
      · rw [table]
        exact loop.filled.keys
    · have unmet₁ : s₁.lookup_table t' = none := (Function.update_of_ne here ..).trans unmet'
      obtain ⟨copyOf, reached⟩ := loop.completes t' u' unmet₁ met
      have apart : u' ≠ s.heap.next := fun same => here (loop.pairs.once (same ▸ met) (loop.extended t _ marked))
      refine ⟨copyOf.kept (Extends.refl _) ?_, t, rfl, reached⟩
      rw [finished]
      exact Function.update_of_ne apart ..

theorem copy_copies (closed : Closed h) (fuel : Nat) : Correct h (copy fuel) := by
  induction fuel with
  | zero =>
    intro s v v' s' pairs inside copied
    cases met : image s.lookup_table v with
    | some same =>
      obtain ⟨rfl, rfl⟩ := Prod.mk.inj (Option.some.inj ((copy_met met 0).symm.trans copied))
      exact Call.met pairs met
    | none =>
      obtain ⟨t, rfl, unmet⟩ := image_none met
      rw [copy, unmet] at copied
      cases copied
  | succ fuel ih =>
    intro s v v' s' pairs inside copied
    cases met : image s.lookup_table v with
    | some same =>
      obtain ⟨rfl, rfl⟩ := Prod.mk.inj (Option.some.inj ((copy_met met (fuel + 1)).symm.trans copied))
      exact Call.met pairs met
    | none =>
      obtain ⟨t, rfl, unmet⟩ := image_none met
      exact copyTable_copies closed ih pairs inside unmet copied

/-! ### `clone` -/

/-- The tables that `object` reaches are copied one to one, to all the new tables of `s`. -/
structure DeepCopy (h : Objects) (object : Ref) (s : CopyState) : Prop where
  pairs : Pairs h s
  copies : ∀ {t u}, s.lookup_table t = some u → CopyOf h s t u
  reached : ∀ t, (∃ u, s.lookup_table t = some u) ↔ Reached h object t

theorem Pairs.start (h : Objects) : Pairs h ⟨h, fun _ => none⟩ where
  grows := Heap.Grows.refl h
  old found := by simp at found
  young found := by simp at found
  once found := by simp at found
  all young there := absurd there (Nat.not_lt.mpr young)

theorem clone_copies (closed : Closed h) (old : object < h.next) {h' : Objects}
    (cloned : clone fuel h (.table object) = some (v', h')) :
    ∃ s : CopyState, s.heap = h' ∧ image s.lookup_table (.table object) = some v' ∧ DeepCopy h object s := by
  simp only [clone, Option.bind_eq_bind, Option.bind_eq_some_iff] at cloned
  obtain ⟨⟨copied, s⟩, copied', same⟩ := cloned
  obtain ⟨rfl, rfl⟩ := Prod.mk.inj (Option.some.inj same)
  have call := copy_copies closed fuel ⟨h, fun _ => none⟩ (.table object) _ s (Pairs.start h) old copied'
  have copies : ∀ {t u}, s.lookup_table t = some u → CopyOf h s t u := fun met => (call.completes _ _ rfl met).1
  refine ⟨s, rfl, call.value, call.pairs, copies, fun t => ⟨?_, ?_⟩⟩
  · rintro ⟨u, met⟩
    obtain ⟨object', isTable, reached⟩ := (call.completes t u rfl met).2
    obtain rfl := LuaValue.table.inj isTable
    exact reached
  · intro reached
    have paired : ∀ {t v}, image s.lookup_table (.table t) = some v → ∃ u, s.lookup_table t = some u := by
      intro t v found
      obtain ⟨u, met, -⟩ := Option.map_eq_some_iff.mp found
      exact ⟨u, met⟩
    induction reached with
    | object => exact paired call.value
    | key _ set ih =>
      obtain ⟨_, met⟩ := ih
      obtain ⟨key', copiedKey, -⟩ := (copies met).filled.fields _ set List.not_mem_nil
      exact paired copiedKey
    | value _ set ih =>
      obtain ⟨_, met⟩ := ih
      obtain ⟨_, _, copiedValue⟩ := (copies met).filled.fields _ (by rw [set]; simp) List.not_mem_nil
      rw [set] at copiedValue
      exact paired copiedValue

/-! ### Heaps in which `clone` works -/

/-- Tables only refer to tables, also as the `__metatable` of one another. -/
structure WellFormed (h : Objects) : Prop where
  keys : ∀ t < h.next, ∀ key ∈ (h.table t).keys, within h key
  fields : ∀ t < h.next, ∀ key, within h ((h.table t).field key)
  metatable : ∀ t < h.next, ∀ metatable, (h.table t).metatable = some metatable → metatable < h.next
  unprotected : ∀ t < h.next, (h.table t).field (.string "__metatable") = .nil ∨
    isTable ((h.table t).field (.string "__metatable")) = true

theorem within_mono {h' : Objects} (inside : within h v) (grown : h.next ≤ h'.next) : within h' v := by
  cases v with
  | table t => exact Nat.lt_of_lt_of_le inside grown
  | _ => trivial

theorem WellFormed.rawset {key : LuaValue} (wellFormed : WellFormed h) (keyInside : within h key) (inside : within h v)
    (visible : key = .string "__metatable" → v = .nil ∨ isTable v = true) (t : Ref) : WellFormed (h.rawset t key v) := by
  constructor
  · intro u there other member
    by_cases same : u = t
    · subst same
      rw [Heap.table_rawset_self] at member
      rcases mem_keys_rawset member with rfl | before
      · exact keyInside
      · exact wellFormed.keys u there other before
    · rw [Heap.table_rawset_other same] at member
      exact wellFormed.keys u there other member
  · intro u there other
    by_cases same : u = t
    · subst same
      rw [Heap.table_rawset_self, Table.field_rawset, Function.update_apply]
      split
      · exact inside
      · exact wellFormed.fields u there other
    · rw [Heap.table_rawset_other same]
      exact wellFormed.fields u there other
  · intro u there metatable has
    by_cases same : u = t
    · subst same
      rw [Heap.metatable_rawset] at has
      exact wellFormed.metatable u there metatable has
    · rw [Heap.table_rawset_other same] at has
      exact wellFormed.metatable u there metatable has
  · intro u there
    by_cases same : u = t
    · subst same
      rw [Heap.table_rawset_self, Table.field_rawset, Function.update_apply]
      split
      · exact visible (Eq.symm (by assumption))
      · exact wellFormed.unprotected u there
    · rw [Heap.table_rawset_other same]
      exact wellFormed.unprotected u there

theorem WellFormed.newTable (wellFormed : WellFormed h) : WellFormed (h.newTable none).2 := by
  have grows := Heap.newTable_grows h none
  have cases : ∀ u < (h.newTable none).2.next, u < h.next ∨ (h.newTable none).2.table u = .empty none := by
    intro u there
    rcases Nat.lt_succ_iff_lt_or_eq.mp there with old | rfl
    · exact Or.inl old
    · exact Or.inr (Heap.table_newTable_self h none)
  constructor
  · intro u there other member
    rcases cases u there with old | new
    · rw [grows.table u old] at member
      exact within_mono (wellFormed.keys u old other member) grows.next
    · rw [new] at member
      cases member
  · intro u there other
    rcases cases u there with old | new
    · rw [grows.table u old]
      exact within_mono (wellFormed.fields u old other) grows.next
    · rw [new]
      trivial
  · intro u there metatable has
    rcases cases u there with old | new
    · rw [grows.table u old] at has
      exact Nat.lt_of_lt_of_le (wellFormed.metatable u old metatable has) grows.next
    · rw [new] at has
      cases has
  · intro u there
    rcases cases u there with old | new
    · rw [grows.table u old]
      exact wellFormed.unprotected u old
    · rw [new]
      exact Or.inl rfl

theorem WellFormed.getmetatable (wellFormed : WellFormed h) (old : t < h.next) :
    within h (h.getmetatable t) ∧ (h.getmetatable t = .nil ∨ isTable (h.getmetatable t) = true) := by
  cases has : (h.table t).metatable with
  | none =>
    rw [Heap.getmetatable_plain has]
    exact ⟨trivial, Or.inl rfl⟩
  | some metatable =>
    have there := wellFormed.metatable t old metatable has
    have inside := wellFormed.fields metatable there (.string "__metatable")
    simp only [Heap.getmetatable, has]
    rcases wellFormed.unprotected metatable there with unset | table
    · rw [unset]
      exact ⟨there, Or.inr rfl⟩
    · cases value : (h.table metatable).field (.string "__metatable") with
      | table other =>
        rw [value] at inside
        exact ⟨inside, Or.inr rfl⟩
      | _ =>
        rw [value] at table
        cases table

theorem WellFormed.closed (wellFormed : WellFormed h) : Closed h :=
  ⟨wellFormed.keys, wellFormed.fields, wellFormed.metatable, fun _ old => (wellFormed.getmetatable old).2⟩

theorem asMetatable_within {metatable : Ref} (inside : within h v) (found : asMetatable v = some metatable) :
    metatable < h.next := by
  cases v with
  | table t =>
    obtain rfl := Option.some.inj found
    exact inside
  | _ => cases found

/-- The copies are as well formed as the tables that were there. -/
theorem DeepCopy.wellFormed (deepCopy : DeepCopy h object s) (wellFormed : WellFormed h) : WellFormed s.heap := by
  have grows := deepCopy.pairs.grows
  have copied : ∀ {v v'}, image s.lookup_table v = some v' → within s.heap v' := by
    intro v v' found
    cases v with
    | table t =>
      obtain ⟨u, paired, rfl⟩ := Option.map_eq_some_iff.mp found
      exact (deepCopy.pairs.young paired).2
    | _ =>
      obtain rfl := Option.some.inj found
      trivial
  have field : ∀ {t u}, s.lookup_table t = some u → ∀ key', (s.heap.table u).field key' ≠ .nil →
      ∃ key, image s.lookup_table key = some key' ∧
        image s.lookup_table ((h.table t).field key) = some ((s.heap.table u).field key') := by
    intro t u paired key' set
    obtain ⟨key, keySet, copiedKey⟩ := (deepCopy.copies paired).filled.keys key' ((s.heap.table u).covered key' set)
    obtain ⟨key'', copiedKey', copiedValue⟩ := (deepCopy.copies paired).filled.fields key keySet nofun
    obtain rfl := Option.some.inj (copiedKey.symm.trans copiedKey')
    exact ⟨key, copiedKey, copiedValue⟩
  constructor
  · intro u there key' member
    by_cases old : u < h.next
    · rw [grows.table u old] at member
      exact within_mono (wellFormed.keys u old key' member) grows.next
    · obtain ⟨t, paired⟩ := deepCopy.pairs.all (Nat.le_of_not_lt old) there
      obtain ⟨key, _, copiedKey⟩ := (deepCopy.copies paired).filled.keys key' member
      exact copied copiedKey
  · intro u there key'
    by_cases old : u < h.next
    · rw [grows.table u old]
      exact within_mono (wellFormed.fields u old key') grows.next
    · obtain ⟨t, paired⟩ := deepCopy.pairs.all (Nat.le_of_not_lt old) there
      by_cases set : (s.heap.table u).field key' = .nil
      · rw [set]
        trivial
      · obtain ⟨key, _, copiedValue⟩ := field paired key' set
        exact copied copiedValue
  · intro u there metatable has
    by_cases old : u < h.next
    · rw [grows.table u old] at has
      exact Nat.lt_of_lt_of_le (wellFormed.metatable u old metatable has) grows.next
    · obtain ⟨t, paired⟩ := deepCopy.pairs.all (Nat.le_of_not_lt old) there
      rw [(deepCopy.copies paired).metatable] at has
      have inside := (wellFormed.getmetatable (deepCopy.pairs.old paired)).1
      exact Nat.lt_of_lt_of_le (asMetatable_within inside has) grows.next
  · intro u there
    by_cases old : u < h.next
    · rw [grows.table u old]
      exact wellFormed.unprotected u old
    · obtain ⟨t, paired⟩ := deepCopy.pairs.all (Nat.le_of_not_lt old) there
      by_cases set : (s.heap.table u).field (.string "__metatable") = .nil
      · exact Or.inl set
      · obtain ⟨key, copiedKey, copiedValue⟩ := field paired (.string "__metatable") set
        cases key with
        | string name =>
          obtain rfl := LuaValue.string.inj (Option.some.inj copiedKey)
          rcases wellFormed.unprotected t (deepCopy.pairs.old paired) with unset | table
          · rw [unset] at copiedValue
            exact absurd (Option.some.inj copiedValue).symm set
          · cases value : (h.table t).field (.string "__metatable") with
            | table other =>
              rw [value] at copiedValue
              obtain ⟨u', _, same⟩ := Option.map_eq_some_iff.mp copiedValue
              rw [← same]
              exact Or.inr rfl
            | _ =>
              rw [value] at table
              cases table
        | table other =>
          obtain ⟨u', _, same⟩ := Option.map_eq_some_iff.mp copiedKey
          cases same
        | _ => cases copiedKey

/-- `clone` returns, and the copy is deep. -/
theorem clone_deepCopy (wellFormed : WellFormed h) (old : object < h.next) (enough : h.next ≤ fuel) :
    ∃ (s : CopyState) (new_table : Ref), clone fuel h (.table object) = some (.table new_table, s.heap) ∧
      s.lookup_table object = some new_table ∧ DeepCopy h object s ∧ WellFormed s.heap := by
  obtain ⟨v', h', cloned⟩ := clone_returns wellFormed.closed old enough
  obtain ⟨s, rfl, value, deepCopy⟩ := clone_copies wellFormed.closed old cloned
  obtain ⟨new_table, paired, rfl⟩ := Option.map_eq_some_iff.mp value
  exact ⟨s, new_table, cloned, paired, deepCopy, deepCopy.wellFormed wellFormed⟩

/-- A table that has itself as a field and as a key. -/
def cyclic : Objects :=
  ((noClasses.newTable none).2.rawset 1 (.string "self") (.table 1)).rawset 1 (.table 1) (.string "key")

theorem noClasses_wellFormed : WellFormed noClasses := ⟨nofun, fun _ _ _ => trivial, nofun, fun _ _ => Or.inl rfl⟩

theorem cyclic_wellFormed : WellFormed cyclic := by
  have there : (1 : Ref) < 2 := by decide
  have self := noClasses_wellFormed.newTable.rawset (show within _ (.string "self") from trivial)
    (show within _ (.table 1) from there) nofun 1
  exact self.rawset (show within _ (.table 1) from there) (show within _ (.string "key") from trivial) nofun 1

theorem clone_cyclic : ∃ (s : CopyState) (new_table : Ref), clone 2 cyclic (.table 1) = some (.table new_table, s.heap) ∧
    s.lookup_table 1 = some new_table ∧ DeepCopy cyclic 1 s ∧ WellFormed s.heap :=
  clone_deepCopy cyclic_wellFormed (by decide) (by decide)

end

end LiteServer.Lua.Class
