import LiteServer.Lua.Objects

/-!
The class library of `class.lua`: `clone`, `class` where it inherits from no
native object, and the `New` of such a class. The code of a constructor is not
part of the library; `run` stands for what calling it does to the heap.
-/
namespace LiteServer.Lua.Class
open LiteServer.Lua.Objects

/-- `New` closes over its class. -/
inductive Code where
  | constructor
  | new (cls : Ref)
  deriving DecidableEq, Repr

abbrev Objects := Heap Code

/-! ### `clone` -/

structure CopyState where
  heap : Objects
  lookup_table : Ref → Option Ref

/-- The loop of `_copy` over the pairs of `object`. -/
def copyFields (copy : CopyState → LuaValue → Option (LuaValue × CopyState)) (new_table : Ref) (object : Table) :
    (keys : List LuaValue) → CopyState → Option CopyState
  | [], s => some s
  | key :: keys, s =>
    if object.field key = .nil then copyFields copy new_table object keys s
    else do
      let (copied, s) ← copy s key
      let (value, s) ← copy s (object.field key)
      copyFields copy new_table object keys { s with heap := s.heap.rawset new_table copied value }

/-- `fuel` bounds the depth; a table that was met before is no deeper call. -/
def copy : (fuel : Nat) → CopyState → LuaValue → Option (LuaValue × CopyState)
  | 0, s, .table t => (s.lookup_table t).map fun new_table => (.table new_table, s)
  | fuel + 1, s, .table t =>
    match s.lookup_table t with
    | some new_table => some (.table new_table, s)
    | none => do
      let object := s.heap.table t
      let (new_table, heap) := s.heap.newTable none
      let s := ⟨heap, Function.update s.lookup_table t (some new_table)⟩
      let s ← copyFields (copy fuel) new_table object object.keys s
      let heap ← s.heap.setmetatable new_table (s.heap.getmetatable t)
      return (.table new_table, { s with heap })
  | _, s, v => some (v, s)

def clone (fuel : Nat) (h : Objects) (object : LuaValue) : Option (LuaValue × Objects) := do
  let (copied, s) ← copy fuel ⟨h, fun _ => none⟩ object
  return (copied, s.heap)

/-! ### `class` -/

/-- Whether a class with this superclass is one of native objects. -/
def native (h : Objects) : (super : LuaValue) → Option Bool
  | .function _ => some true
  | .table super => do
    let ctype ← h.index (.table super) "__ctype"
    return ctype = .number 1
  | _ => some false

/-- What the class starts with: a clone of the superclass, or an empty constructor. -/
def inherit (fuel : Nat) (h : Objects) : (super : LuaValue) → Option (Ref × Objects)
  | .table super => do
    let (.table cls, h) ← clone fuel h (.table super) | none
    let h ← h.setindex cls "super" (.table super)
    return (cls, h)
  | _ => do
    let (ctor, h) := h.newFunction .constructor
    let (cls, h) := h.newTable none
    let h ← h.setindex cls "ctor" (.function ctor)
    return (cls, h)

/-- What `class` adds to `cls`. -/
def complete (allClassList cls : Ref) (classname : String) (h : Objects) : Option (Ref × Objects) := do
  let h ← h.setindex cls "__cname" (.string classname)
  let h ← h.setindex cls "__ctype" (.number 2)
  let h ← h.setindex cls "__index" (.table cls)
  let (new, h) := h.newFunction (.new cls)
  let h ← h.setindex cls "New" (.function new)
  let h ← h.setindex allClassList classname (.table cls)
  return (cls, h)

/-- `class` for objects of Lua; `none` for native ones. -/
def class_ (fuel : Nat) (allClassList : Ref) (h : Objects) (classname : String) (super : LuaValue) :
    Option (Ref × Objects) := do
  if ← native h super then none
  else
    let (cls, h) ← inherit fuel h super
    complete allClassList cls classname h

/-! ### `New` -/

/-- The loop of `IsSuperCtor`. -/
def isSuperCtorLoop (h : Objects) (instance_ : LuaValue) : (fuel : Nat) → (super : LuaValue) → Option Bool
  | 0, _ => none
  | fuel + 1, super =>
    if !super.truthy then some false
    else do
      let ctor ← h.index instance_ "ctor"
      let superCtor ← h.index super "ctor"
      if ctor = superCtor then return true
      else isSuperCtorLoop h instance_ fuel (← h.index super "super")

def isSuperCtor (fuel : Nat) (h : Objects) (instance_ : LuaValue) : Option Bool := do
  let super ← h.index instance_ "super"
  isSuperCtorLoop h instance_ fuel super

/-- The loop of `New` that fills `tabCtor`. -/
def superCtors (h : Objects) : (fuel : Nat) → (tabCtor : List LuaValue) → (tSuper : LuaValue) → Option (List LuaValue)
  | 0, _, _ => none
  | fuel + 1, tabCtor, tSuper =>
    if !tSuper.truthy then some tabCtor
    else do
      let inherited ← isSuperCtor fuel h tSuper
      let tabCtor := if inherited then tabCtor else tabCtor ++ [tSuper]
      superCtors h fuel tabCtor (← h.index tSuper "super")

/-- A call of a constructor. -/
structure CtorCall where
  ctor : Nat
  instance_ : LuaValue
  args : List LuaValue
  deriving DecidableEq, Repr

/-- What a constructor that is called does to the heap. -/
abbrev Run := CtorCall → Objects → Objects

/-- The last loop of `New`. -/
def callCtors (run : Run) (instance_ : LuaValue) (args : List LuaValue) :
    (tabCtor : List LuaValue) → Objects → Option (List CtorCall × Objects)
  | [], h => some ([], h)
  | entry :: tabCtor, h => do
    let .function ctor ← h.index entry "ctor" | none
    let call : CtorCall := ⟨ctor, instance_, args⟩
    let (calls, h) ← callCtors run instance_ args tabCtor (run call h)
    return (call :: calls, h)

structure Created where
  instance_ : LuaValue
  calls : List CtorCall
  heap : Objects

/-- `cls.New(...)`. -/
def new (run : Run) (fuel : Nat) (h : Objects) (cls : Ref) (args : List LuaValue) : Option Created := do
  let (instance_, h) := h.newTable (some cls)
  let h ← h.setindex instance_ "class" (.table cls)
  let instance_ := LuaValue.table instance_
  let inherited ← isSuperCtor fuel h instance_
  let tabCtor := if inherited then [] else [instance_]
  let tSuper ← h.index instance_ "super"
  let tabCtor ← superCtors h fuel tabCtor tSuper
  let (calls, heap) ← callCtors run instance_ args tabCtor.reverse h
  return ⟨instance_, calls, heap⟩

/-- The call of the field `New` of a class. -/
def callNew (run : Run) (fuel : Nat) (h : Objects) (cls : Ref) (args : List LuaValue) : Option Created := do
  let .function f ← h.index (.table cls) "New" | none
  let .new cls := h.code f | none
  new run fuel h cls args

end LiteServer.Lua.Class
