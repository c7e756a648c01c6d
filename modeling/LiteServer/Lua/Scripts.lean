import LiteServer.Lua.DeepCopy
import LiteServer.Lib.Transition

/-!
`clone` and `class` for scripts that make tables, write to them and share them
as they like. The only thing that they must not do is to hide a metatable behind
a `__metatable` that is no table.
-/
namespace LiteServer.Lua.Class
open LiteServer.Lua.Objects

instance (h : Objects) : (v : LuaValue) → Decidable (within h v)
  | .table t => inferInstanceAs (Decidable (t < h.next))
  | .nil => .isTrue trivial
  | .boolean _ => .isTrue trivial
  | .number _ => .isTrue trivial
  | .string _ => .isTrue trivial
  | .userdata _ => .isTrue trivial
  | .function _ => .isTrue trivial

inductive Statement where
  | newTable
  | newFunction
  | rawset (t : Ref) (key v : LuaValue)
  | setmetatable (t : Ref) (metatable : LuaValue)
  | clone (object : Ref)
  | class_ (classname : String) (super : LuaValue)
  deriving DecidableEq, Repr

/-- A statement works with values that there are; there are enough tables for their depth. -/
def exec (allClassList : Ref) (h : Objects) : Statement → Option Objects
  | .newTable => some (h.newTable none).2
  | .newFunction => some (h.newFunction .constructor).2
  | .rawset t key v => if t < h.next ∧ within h key ∧ within h v then some (h.rawset t key v) else none
  | .setmetatable t metatable => if t < h.next ∧ within h metatable then h.setmetatable t metatable else none
  | .clone object => if object < h.next then (clone h.next h (.table object)).map Prod.snd else none
  | .class_ classname super =>
    if within h super then (class_ h.next allClassList h classname super).map Prod.snd else none

/-- Metatables stay visible, and `AllClassList` is a plain table. -/
def Visible (allClassList : Ref) : Statement → Prop
  | .rawset _ key v => key = .string "__metatable" → v = .nil ∨ isTable v = true
  | .setmetatable t _ => t ≠ allClassList
  | _ => True

/-- The heap of a script before it starts. -/
def Blank (allClassList : Ref) (h : Objects) : Prop := allClassList < h.next ∧ ∀ t, h.table t = .empty none

/-- The heaps that a script may have. -/
def ScriptHeap (allClassList : Ref) : Objects → Prop :=
  Transition.Reachable (Blank allClassList) fun h h' => ∃ st, Visible allClassList st ∧ exec allClassList h st = some h'

/-- A superclass that is no native object. -/
def Inheritable (h : Objects) : LuaValue → Prop
  | .function _ => False
  | .table super => super < h.next ∧ (h.table super).metatable = none ∧ (h.table super).field (.string "__ctype") ≠ .number 1
  | _ => True

structure Sane (allClassList : Ref) (h : Objects) : Prop where
  wellFormed : WellFormed h
  list : allClassList < h.next
  plain : (h.table allClassList).metatable = none

section
variable {h h' : Objects} {t cls allClassList : Ref} {key v super : LuaValue} {fuel : Nat} {classname : String}

/-! ### What the operations keep -/

theorem WellFormed.withMetatable (wellFormed : WellFormed h) {metatable : Option Ref}
    (inside : ∀ m, metatable = some m → m < h.next) (t : Ref) : WellFormed (h.withMetatable t metatable) := by
  have same : ∀ u, ((h.withMetatable t metatable).table u).keys = (h.table u).keys ∧
      ((h.withMetatable t metatable).table u).field = (h.table u).field := by
    intro u
    by_cases here : u = t
    · subst here
      rw [Heap.table_withMetatable_self]
      exact ⟨rfl, rfl⟩
    · rw [show (h.withMetatable t metatable).table u = h.table u from Function.update_of_ne here ..]
      exact ⟨rfl, rfl⟩
  constructor
  · intro u there other member
    rw [(same u).1] at member
    exact wellFormed.keys u there other member
  · intro u there other
    rw [(same u).2]
    exact wellFormed.fields u there other
  · intro u there m has
    by_cases here : u = t
    · subst here
      rw [Heap.table_withMetatable_self] at has
      exact inside m has
    · rw [show (h.withMetatable t metatable).table u = h.table u from Function.update_of_ne here ..] at has
      exact wellFormed.metatable u there m has
  · intro u there
    rw [(same u).2]
    exact wellFormed.unprotected u there

theorem Sane.grows (sane : Sane allClassList h) (grows : h.Grows h') (wellFormed : WellFormed h') : Sane allClassList h' :=
  ⟨wellFormed, Nat.lt_of_lt_of_le sane.list grows.next, by rw [grows.table _ sane.list, sane.plain]⟩

theorem Sane.rawset (sane : Sane allClassList h) (keyInside : within h key) (inside : within h v)
    (visible : key = .string "__metatable" → v = .nil ∨ isTable v = true) (t : Ref) : Sane allClassList (h.rawset t key v) := by
  refine ⟨sane.wellFormed.rawset keyInside inside visible t, sane.list, ?_⟩
  by_cases same : allClassList = t
  · subst same
    rw [Heap.metatable_rawset, sane.plain]
  · rw [Heap.table_rawset_other same, sane.plain]

theorem Sane.setindex (sane : Sane allClassList h) {name : String} (inside : within h v)
    (visible : name ≠ "__metatable" ∨ isTable v = true) (set : h.setindex t name v = some h') :
    Sane allClassList h' ∧ h'.next = h.next := by
  obtain rfl := Heap.setindex_eq set
  refine ⟨sane.rawset (show within h (.string name) from trivial) inside (fun same => ?_) t, rfl⟩
  rcases visible with other | table
  · exact absurd (LuaValue.string.inj same) other
  · exact Or.inr table

theorem Sane.newFunction (sane : Sane allClassList h) (code : Code) : Sane allClassList (h.newFunction code).2 :=
  ⟨⟨sane.wellFormed.keys, sane.wellFormed.fields, sane.wellFormed.metatable, sane.wellFormed.unprotected⟩, sane.list,
    sane.plain⟩

theorem Sane.setmetatable (sane : Sane allClassList h) (inside : within h v) (other : t ≠ allClassList)
    (set : h.setmetatable t v = some h') : Sane allClassList h' := by
  obtain rfl := setmetatable_asMetatable set
  refine ⟨sane.wellFormed.withMetatable (fun m found => asMetatable_within inside found) t, sane.list, ?_⟩
  rw [show (h.withMetatable t _).table allClassList = h.table allClassList from Function.update_of_ne other.symm .., sane.plain]

theorem Sane.clone (sane : Sane allClassList h) {object : Ref} (old : object < h.next)
    (cloned : clone fuel h (.table object) = some (v, h')) :
    Sane allClassList h' ∧ ∃ cls, v = .table cls ∧ cls < h'.next := by
  obtain ⟨s, rfl, value, deepCopy⟩ := clone_copies sane.wellFormed.closed old cloned
  obtain ⟨cls, paired, rfl⟩ := Option.map_eq_some_iff.mp value
  exact ⟨sane.grows deepCopy.pairs.grows (deepCopy.wellFormed sane.wellFormed), cls, rfl, (deepCopy.pairs.young paired).2⟩

theorem Sane.inherit (sane : Sane allClassList h) (inside : within h super)
    (inherited : inherit fuel h super = some (cls, h')) : Sane allClassList h' ∧ cls < h'.next := by
  have root : ∀ {h₁}, ((h.newFunction .constructor).2.newTable none).2.setindex h.next "ctor"
      (.function h.nextFunction) = some h₁ → Sane allClassList h₁ ∧ h.next < h₁.next := by
    intro h₁ set
    have fresh := (sane.newFunction .constructor).grows (Heap.newTable_grows _ none)
      (sane.newFunction .constructor).wellFormed.newTable
    obtain ⟨sane₁, next⟩ := fresh.setindex (v := .function h.nextFunction) trivial (Or.inl (by decide)) set
    exact ⟨sane₁, next ▸ Nat.lt_succ_self _⟩
  cases super with
  | table super =>
    simp only [Class.inherit, Option.bind_eq_bind, Option.bind_eq_some_iff] at inherited
    obtain ⟨⟨v, h₁⟩, cloned, inherited⟩ := inherited
    obtain ⟨sane₁, cls', rfl, there⟩ := sane.clone inside cloned
    obtain ⟨h₂, set, same⟩ := Option.bind_eq_some_iff.mp inherited
    obtain ⟨rfl, rfl⟩ := Prod.mk.inj (Option.some.inj same)
    have grown : h.next ≤ h₁.next := by
      obtain ⟨s, rfl, -, deepCopy⟩ := clone_copies sane.wellFormed.closed inside cloned
      exact deepCopy.pairs.grows.next
    obtain ⟨sane₂, next⟩ := sane₁.setindex (v := .table super) (within_mono (v := .table super) inside grown)
      (Or.inr rfl) set
    exact ⟨sane₂, next ▸ there⟩
  | _ =>
    obtain ⟨h₁, set, same⟩ := Option.bind_eq_some_iff.mp inherited
    obtain ⟨rfl, rfl⟩ := Prod.mk.inj (Option.some.inj same)
    exact root set

theorem Sane.complete (sane : Sane allClassList h) (there : cls < h.next) {cls' : Ref}
    (completed : complete allClassList cls classname h = some (cls', h')) : Sane allClassList h' := by
  simp only [Class.complete, Option.bind_eq_bind, Option.bind_eq_some_iff] at completed
  obtain ⟨h₁, set₁, h₂, set₂, h₃, set₃, h₄, set₄, h₅, set₅, same⟩ := completed
  obtain ⟨rfl, rfl⟩ := Prod.mk.inj (Option.some.inj same)
  obtain ⟨sane₁, next₁⟩ := sane.setindex (v := .string classname) trivial (Or.inl (by decide)) set₁
  obtain ⟨sane₂, next₂⟩ := sane₁.setindex (v := .number 2) trivial (Or.inl (by decide)) set₂
  have there₂ : cls < h₂.next := by
    rw [next₂, next₁]
    exact there
  obtain ⟨sane₃, next₃⟩ := sane₂.setindex (v := .table cls) there₂ (Or.inr rfl) set₃
  obtain ⟨sane₄, next₄⟩ := (sane₃.newFunction (.new cls)).setindex (v := .function h₃.nextFunction) trivial
    (Or.inl (by decide)) set₄
  have there₄ : cls < h₄.next := by
    rw [show h₄.next = h₃.next from next₄, next₃]
    exact there₂
  exact (sane₄.setindex (v := .table cls) there₄ (Or.inr rfl) set₅).1

theorem Sane.class_ (sane : Sane allClassList h) (inside : within h super)
    (made : class_ fuel allClassList h classname super = some (cls, h')) : Sane allClassList h' := by
  obtain ⟨cls', h₁, inherited, completed⟩ := class_parts made
  obtain ⟨sane₁, there⟩ := sane.inherit inside inherited
  exact sane₁.complete there completed

theorem ScriptHeap.sane (script : ScriptHeap allClassList h) : Sane allClassList h := by
  refine script.invariant ?_ ?_
  · rintro h ⟨list, empty⟩
    refine ⟨⟨?_, ?_, ?_, ?_⟩, list, by rw [empty]; rfl⟩
    · intro t _ key member
      rw [empty] at member
      cases member
    · intro t _ key
      rw [empty]
      trivial
    · intro t _ metatable has
      rw [empty] at has
      cases has
    · intro t _
      rw [empty]
      exact Or.inl rfl
  · rintro h h' - sane ⟨st, visible, taken⟩
    cases st with
    | newTable =>
      obtain rfl := Option.some.inj taken
      exact sane.grows (Heap.newTable_grows h none) sane.wellFormed.newTable
    | newFunction =>
      obtain rfl := Option.some.inj taken
      exact sane.newFunction .constructor
    | rawset t key v =>
      rw [exec] at taken
      split at taken
      · next inside =>
        obtain rfl := Option.some.inj taken
        exact sane.rawset inside.2.1 inside.2.2 visible t
      · cases taken
    | setmetatable t metatable =>
      rw [exec] at taken
      split at taken
      · next inside => exact sane.setmetatable inside.2 visible taken
      · cases taken
    | clone object =>
      rw [exec] at taken
      split at taken
      · next inside =>
        obtain ⟨⟨v, _⟩, cloned, rfl⟩ := Option.map_eq_some_iff.mp taken
        exact (sane.clone inside cloned).1
      · cases taken
    | class_ classname super =>
      rw [exec] at taken
      split at taken
      · next inside =>
        obtain ⟨⟨cls, _⟩, made, rfl⟩ := Option.map_eq_some_iff.mp taken
        exact sane.class_ inside made
      · cases taken

/-! ### `class` returns -/

theorem native_inheritable (inheritable : Inheritable h super) : native h super = some false := by
  cases super with
  | table super =>
    obtain ⟨-, plain, ctype⟩ := inheritable
    rw [native, Heap.index_plain plain]
    exact congrArg some (decide_eq_false ctype)
  | function f => exact inheritable.elim
  | _ => rfl

theorem inherit_returns (sane : Sane allClassList h) (inheritable : Inheritable h super) (enough : h.next ≤ fuel) :
    ∃ cls h', inherit fuel h super = some (cls, h') ∧ h.Grows h' ∧ h.next ≤ cls ∧ (h'.table cls).metatable = none := by
  cases super with
  | table super =>
    obtain ⟨there, plain, -⟩ := inheritable
    obtain ⟨v', h₁, cloned⟩ := clone_returns sane.wellFormed.closed there enough
    obtain ⟨s', rfl, new⟩ := clone_correct cloned
    refine ⟨h.next, _, inherit_clone there plain cloned, new.grows.rawset (Nat.le_refl _) _ _, Nat.le_refl _, ?_⟩
    rw [Heap.metatable_rawset, new.plain there plain]
  | function f => exact inheritable.elim
  | _ =>
    let h₁ := (h.newFunction .constructor).2
    let h₂ := (h₁.newTable none).2
    have grows : h.Grows h₂ := (Heap.newFunction_grows h .constructor).trans (Heap.newTable_grows h₁ none)
    have plain : (h₂.table h.next).metatable = none := by
      rw [show h₂.table h.next = .empty none from Heap.table_newTable_self h₁ none]
      rfl
    refine ⟨h.next, h₂.rawset h.next (.string "ctor") (.function h.nextFunction), ?_, grows.rawset (Nat.le_refl _) _ _,
      Nat.le_refl _, (Heap.metatable_rawset ..).trans plain⟩
    show (h₂.setindex h.next "ctor" (.function h.nextFunction)).bind _ = _
    rw [Heap.setindex_plain plain]
    rfl

theorem class_works (sane : Sane allClassList h) (inheritable : Inheritable h super) (enough : h.next ≤ fuel)
    (classname : String) : ∃ cls h', class_ fuel allClassList h classname super = some (cls, h') := by
  obtain ⟨cls, h₁, inherited, grows, young, plain⟩ := inherit_returns sane inheritable enough
  have list := (completed_grows grows young classname).table allClassList sane.list
  refine ⟨cls, (completed cls classname h₁).rawset allClassList (.string classname) (.table cls), ?_⟩
  rw [class_, native_inheritable inheritable]
  show (inherit fuel h super).bind _ = _
  rw [inherited]
  show complete allClassList cls classname h₁ = _
  rw [complete_eq plain, Heap.setindex_plain (by rw [list, sane.plain])]
  rfl

/-- In whatever a script made of its tables, every table has a deep copy, and
    every class has subclasses. -/
theorem script_correct (script : ScriptHeap allClassList h) :
    (∀ object < h.next, ∃ (s : CopyState) (new_table : Ref),
      clone h.next h (.table object) = some (.table new_table, s.heap) ∧ s.lookup_table object = some new_table ∧
        DeepCopy h object s) ∧
    ∀ classname super, Inheritable h super → ∃ cls h', class_ h.next allClassList h classname super = some (cls, h') := by
  refine ⟨fun object old => ?_, fun classname super inheritable => ?_⟩
  · obtain ⟨s, new_table, cloned, paired, deepCopy, -⟩ :=
      clone_deepCopy script.sane.wellFormed old (Nat.le_refl _)
    exact ⟨s, new_table, cloned, paired, deepCopy⟩
  · exact class_works script.sane inheritable (Nat.le_refl _) classname

theorem cyclic_script : ScriptHeap 0 cyclic := by
  have start : ScriptHeap 0 noClasses := .start ⟨by decide, fun _ => rfl⟩
  have table : ScriptHeap 0 (noClasses.newTable none).2 := start.next ⟨.newTable, trivial, rfl⟩
  have self : ScriptHeap 0 ((noClasses.newTable none).2.rawset 1 (.string "self") (.table 1)) :=
    table.next ⟨.rawset 1 (.string "self") (.table 1), nofun, rfl⟩
  exact self.next ⟨.rawset 1 (.table 1) (.string "key"), nofun, rfl⟩

theorem script_cyclic : (∀ object < cyclic.next, ∃ (s : CopyState) (new_table : Ref),
      clone cyclic.next cyclic (.table object) = some (.table new_table, s.heap) ∧
        s.lookup_table object = some new_table ∧ DeepCopy cyclic object s) ∧
    ∀ classname super, Inheritable cyclic super →
      ∃ cls h', class_ cyclic.next 0 cyclic classname super = some (cls, h') := script_correct cyclic_script

end

end LiteServer.Lua.Class
