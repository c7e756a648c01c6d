import Mathlib.Logic.Function.Basic

/-!
Lua tables as scripts share them: a heap of tables with metatables, and
functions that are known by their addresses. An operation is `none` where Lua
raises an error, and where a metamethod that is a function would be called.
-/
namespace LiteServer.Lua.Objects

abbrev Ref := Nat

inductive LuaValue where
  | nil
  | boolean (b : Bool)
  | number (n : Int)
  | string (s : String)
  | userdata (p : Nat)
  | function (f : Nat)
  | table (t : Ref)
  deriving DecidableEq, Repr

def LuaValue.truthy : LuaValue → Bool
  | .nil => false
  | .boolean b => b
  | _ => true

/-- `pairs` goes through `keys`, which are enough. -/
structure Table where
  keys : List LuaValue
  field : LuaValue → LuaValue
  metatable : Option Ref
  covered : ∀ key, field key ≠ .nil → key ∈ keys

namespace Table

def empty (metatable : Option Ref) : Table := ⟨[], fun _ => .nil, metatable, fun _ set => absurd rfl set⟩

def rawset (t : Table) (key v : LuaValue) : Table where
  keys := if key ∈ t.keys then t.keys else t.keys ++ [key]
  field := Function.update t.field key v
  metatable := t.metatable
  covered other set := by
    by_cases same : other = key
    · subst same
      split
      · assumption
      · simp
    · rw [Function.update_of_ne same] at set
      have member := t.covered other set
      split
      · exact member
      · exact List.mem_append_left _ member

theorem field_rawset (t : Table) (key v : LuaValue) : (t.rawset key v).field = Function.update t.field key v := rfl

theorem metatable_rawset (t : Table) (key v : LuaValue) : (t.rawset key v).metatable = t.metatable := rfl

end Table

/-- `Code` is what is known of functions. -/
structure Heap (Code : Type) where
  table : Ref → Table
  next : Ref
  code : Nat → Code
  nextFunction : Nat

namespace Heap
variable {Code : Type}

/-- A table constructor `{}`, with `setmetatable` where there is a metatable. -/
def newTable (h : Heap Code) (metatable : Option Ref) : Ref × Heap Code :=
  (h.next, { h with table := Function.update h.table h.next (.empty metatable), next := h.next + 1 })

def newFunction (h : Heap Code) (code : Code) : Nat × Heap Code :=
  (h.nextFunction, { h with code := Function.update h.code h.nextFunction code, nextFunction := h.nextFunction + 1 })

def rawset (h : Heap Code) (t : Ref) (key v : LuaValue) : Heap Code :=
  { h with table := Function.update h.table t ((h.table t).rawset key v) }

def metamethod (h : Heap Code) (t : Ref) (event : String) : LuaValue :=
  match (h.table t).metatable with
  | none => .nil
  | some metatable => (h.table metatable).field (.string event)

/-- `v[key]`, through as many `__index` as there are links. -/
def indexLoop (h : Heap Code) : (links : Nat) → (v key : LuaValue) → Option LuaValue
  | 0, _, _ => none
  | links + 1, .table t, key =>
    if (h.table t).field key ≠ .nil then some ((h.table t).field key)
    else
      match h.metamethod t "__index" with
      | .nil => some .nil
      | .function _ => none
      | v => indexLoop h links v key
  | _, _, _ => none

/-- `v.key`; Lua follows 100 links. -/
def index (h : Heap Code) (v : LuaValue) (key : String) : Option LuaValue := h.indexLoop 100 v (.string key)

/-- `t.key = v`; a `__newindex` is not followed. -/
def setindex (h : Heap Code) (t : Ref) (key : String) (v : LuaValue) : Option (Heap Code) :=
  if (h.table t).field (.string key) = .nil ∧ h.metamethod t "__newindex" ≠ .nil then none
  else some (h.rawset t (.string key) v)

/-- A `__metatable` stands for the metatable that has it. -/
def getmetatable (h : Heap Code) (t : Ref) : LuaValue :=
  match (h.table t).metatable with
  | none => .nil
  | some metatable =>
    match (h.table metatable).field (.string "__metatable") with
    | .nil => .table metatable
    | v => v

def withMetatable (h : Heap Code) (t : Ref) (metatable : Option Ref) : Heap Code :=
  { h with table := Function.update h.table t { h.table t with metatable } }

def setmetatable (h : Heap Code) (t : Ref) : LuaValue → Option (Heap Code)
  | .nil => some (h.withMetatable t none)
  | .table metatable => some (h.withMetatable t (some metatable))
  | _ => none

/-! ### What stays -/

/-- Tables and functions were added, and those that were there are as they were. -/
structure Grows (h h' : Heap Code) : Prop where
  next : h.next ≤ h'.next
  table : ∀ t < h.next, h'.table t = h.table t
  nextFunction : h.nextFunction ≤ h'.nextFunction
  code : ∀ f < h.nextFunction, h'.code f = h.code f

variable {h h' h'' : Heap Code}

theorem Grows.refl (h : Heap Code) : Grows h h := ⟨Nat.le_refl _, fun _ _ => rfl, Nat.le_refl _, fun _ _ => rfl⟩

theorem Grows.trans (first : Grows h h') (second : Grows h' h'') : Grows h h'' where
  next := Nat.le_trans first.next second.next
  table t old := (second.table t (Nat.lt_of_lt_of_le old first.next)).trans (first.table t old)
  nextFunction := Nat.le_trans first.nextFunction second.nextFunction
  code f old := (second.code f (Nat.lt_of_lt_of_le old first.nextFunction)).trans (first.code f old)

theorem newTable_grows (h : Heap Code) (metatable : Option Ref) : Grows h (h.newTable metatable).2 where
  next := Nat.le_succ _
  table _ old := Function.update_of_ne (Nat.ne_of_lt old) ..
  nextFunction := Nat.le_refl _
  code _ _ := rfl

theorem table_newTable_self (h : Heap Code) (metatable : Option Ref) :
    (h.newTable metatable).2.table h.next = .empty metatable := Function.update_self ..

theorem code_newFunction_self (h : Heap Code) (code : Code) : (h.newFunction code).2.code h.nextFunction = code :=
  Function.update_self ..

theorem newFunction_grows (h : Heap Code) (code : Code) : Grows h (h.newFunction code).2 where
  next := Nat.le_refl _
  table _ _ := rfl
  nextFunction := Nat.le_succ _
  code _ old := Function.update_of_ne (Nat.ne_of_lt old) ..

/-- A table that is younger than `h` may be written to. -/
theorem Grows.rawset (grows : Grows h h') {t : Ref} (young : h.next ≤ t) (key v : LuaValue) :
    Grows h (h'.rawset t key v) where
  next := grows.next
  table other old := (Function.update_of_ne (Nat.ne_of_lt (Nat.lt_of_lt_of_le old young)) ..).trans (grows.table other old)
  nextFunction := grows.nextFunction
  code := grows.code

theorem table_withMetatable_self (h : Heap Code) (t : Ref) (metatable : Option Ref) :
    (h.withMetatable t metatable).table t = { h.table t with metatable } := Function.update_self ..

theorem Grows.setmetatable (grows : Grows h h') {t : Ref} (young : h.next ≤ t) {v : LuaValue}
    (set : h'.setmetatable t v = some h'') : Grows h h'' := by
  have changed : ∀ metatable, Grows h (h'.withMetatable t metatable) := fun metatable =>
    { grows with
      table := fun other old =>
        (Function.update_of_ne (Nat.ne_of_lt (Nat.lt_of_lt_of_le old young)) ..).trans (grows.table other old) }
  unfold Heap.setmetatable at set
  split at set
  · obtain rfl := Option.some.inj set
    exact changed none
  · obtain rfl := Option.some.inj set
    exact changed _
  · cases set

theorem setmetatable_field {t : Ref} {v : LuaValue} (set : h.setmetatable t v = some h') :
    (h'.table t).field = (h.table t).field ∧ h'.next = h.next := by
  unfold Heap.setmetatable at set
  split at set
  · obtain rfl := Option.some.inj set
    rw [table_withMetatable_self]
    exact ⟨rfl, rfl⟩
  · obtain rfl := Option.some.inj set
    rw [table_withMetatable_self]
    exact ⟨rfl, rfl⟩
  · cases set

theorem setmetatable_nil {t : Ref} (set : h.setmetatable t .nil = some h') : (h'.table t).metatable = none := by
  obtain rfl := Option.some.inj set
  rw [table_withMetatable_self]

theorem getmetatable_plain {t : Ref} (plain : (h.table t).metatable = none) : h.getmetatable t = .nil := by
  rw [getmetatable, plain]

theorem table_rawset_self (h : Heap Code) (t : Ref) (key v : LuaValue) :
    (h.rawset t key v).table t = (h.table t).rawset key v := Function.update_self ..

theorem table_rawset_other {t other : Ref} (apart : other ≠ t) (h : Heap Code) (key v : LuaValue) :
    (h.rawset t key v).table other = h.table other := Function.update_of_ne apart ..

/-- The string fields of a table after one of them was set. -/
theorem field_rawset (h : Heap Code) (t : Ref) (key other : String) (v : LuaValue) :
    ((h.rawset t (.string key) v).table t).field (.string other) =
      if other = key then v else (h.table t).field (.string other) := by
  rw [table_rawset_self, Table.field_rawset, Function.update_apply]
  by_cases same : other = key
  · rw [if_pos same, if_pos (congrArg LuaValue.string same)]
  · rw [if_neg same, if_neg fun strings => same (LuaValue.string.inj strings)]

theorem metatable_rawset (h : Heap Code) (t : Ref) (key v : LuaValue) :
    ((h.rawset t key v).table t).metatable = (h.table t).metatable := by
  rw [table_rawset_self, Table.metatable_rawset]

/-! ### Fields of tables without a metatable -/

theorem index_set {t : Ref} {key : String} (set : (h.table t).field (.string key) ≠ .nil) :
    h.index (.table t) key = some ((h.table t).field (.string key)) := by
  rw [index, indexLoop, if_pos set]

theorem index_plain {t : Ref} (plain : (h.table t).metatable = none) (key : String) :
    h.index (.table t) key = some ((h.table t).field (.string key)) := by
  by_cases set : (h.table t).field (.string key) = .nil
  · rw [index, indexLoop, if_neg (not_not.mpr set), metamethod, plain, set]
  · exact index_set set

theorem setindex_eq {t : Ref} {key : String} {v : LuaValue} (set : h.setindex t key v = some h') :
    h' = h.rawset t (.string key) v := by
  rw [setindex] at set
  split at set
  · cases set
  · exact (Option.some.inj set).symm

theorem setindex_plain {t : Ref} (plain : (h.table t).metatable = none) (key : String) (v : LuaValue) :
    h.setindex t key v = some (h.rawset t (.string key) v) := by
  rw [setindex, if_neg]
  rintro ⟨-, set⟩
  rw [metamethod, plain] at set
  exact set rfl

/-- A field that a table has not comes from the table that its `__index` is. -/
theorem index_inherited {t metatable base : Ref} {key : String} (unset : (h.table t).field (.string key) = .nil)
    (inherits : (h.table t).metatable = some metatable)
    (link : (h.table metatable).field (.string "__index") = .table base)
    (plain : (h.table base).metatable = none) :
    h.index (.table t) key = some ((h.table base).field (.string key)) := by
  have method : h.metamethod t "__index" = .table base := by
    rw [metamethod, inherits]
    exact link
  rw [index, indexLoop, if_neg (not_not.mpr unset), method]
  show h.indexLoop 99 (.table base) (.string key) = _
  by_cases set : (h.table base).field (.string key) = .nil
  · rw [indexLoop, if_neg (not_not.mpr set), metamethod, plain, set]
  · rw [indexLoop, if_pos set]

end Heap

end LiteServer.Lua.Objects
