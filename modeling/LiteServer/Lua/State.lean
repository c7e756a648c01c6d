import Mathlib.Logic.Function.Basic
import LiteServer.Lib.IndexedStack

/-!
The Lua values, and the part of the C interface that the engine uses. The stack
grows as it needs to. An operation is `none` where an index is not on the stack.
-/
namespace LiteServer.Lua
open LiteServer.Lib

/-- The conversions of `lua_Number`. -/
class LuaNumber (Num : Type) where
  Float : Type
  ofInteger : Int → Num
  toInt : Num → BitVec 32
  toFloat : Num → Float
  zero : Num
  toString : Num → List UInt8
  ofString : List UInt8 → Option Num

/-- The keys that the engine gives to tables. -/
inductive Key (Num : Type) where
  | number (n : Num)
  | string (s : String)
  deriving DecidableEq, Repr

/-- A full userdata here is a block that holds a `LuaWrapBase*`. Functions and
    threads are known by their addresses only. -/
inductive Value (Num : Type) where
  | nil
  | boolean (b : Bool)
  | number (n : Num)
  | string (s : List UInt8)
  | lightuserdata (p : Nat)
  | userdata (pData : Nat) (metatable : Value Num)
  | table (fields : Key Num → Value Num)
  | function (address : Nat)
  | thread (address : Nat)

/-- What `lua_pcall` is asked to do. -/
structure Pcall (Num : Type) where
  func : Value Num
  args : List (Value Num)
  nres : Nat
  errfunc : Option (Value Num)

inductive Outcome (Num : Type) where
  | returned (results : List (Value Num))
  | failed (error : Value Num)
  | thrown (errid : Int) (stack : List (Value Num))

/-- The order in which a table is traversed: the entry behind a key, and the first
    one behind nil. -/
abbrev Traversal (Num : Type) := (Key Num → Value Num) → Value Num → Option (Value Num × Value Num)

/-- `registry` has the metatables that were registered by name. -/
structure LuaState (Num : Type) where
  stack : List (Value Num)
  globals : String → Value Num
  registry : String → Option (Key Num → Value Num)

namespace Value

variable {Num : Type}

def isfunction : Value Num → Bool
  | .function _ => true
  | _ => false

def toboolean : Value Num → Bool
  | .nil => false
  | .boolean b => b
  | _ => true

def tonumber [LuaNumber Num] : Value Num → Num
  | .number n => n
  | .string s => (LuaNumber.ofString s).getD LuaNumber.zero
  | _ => LuaNumber.zero

def tostring [LuaNumber Num] : Value Num → Option (List UInt8)
  | .string s => some s
  | .number n => some (LuaNumber.toString n)
  | _ => none

/-- `lua_tolstring` makes a number a string where it is. -/
def converted [LuaNumber Num] : Value Num → Value Num
  | .number n => .string (LuaNumber.toString n)
  | v => v

end Value

namespace LuaState

variable {Num : Type}

def gettop (L : LuaState Num) : Nat := L.stack.length

def push (L : LuaState Num) (v : Value Num) : LuaState Num := { L with stack := v :: L.stack }

def pop (L : LuaState Num) (n : Nat) : Option (LuaState Num) := do
  let stack ← IndexedStack.pop L.stack n
  return { L with stack }

def insert (L : LuaState Num) (index : Int) : Option (LuaState Num) := do
  let stack ← IndexedStack.insert L.stack index
  return { L with stack }

def getglobal (L : LuaState Num) (name : String) : LuaState Num := L.push (L.globals name)

def isfunction (L : LuaState Num) (index : Int) : Bool := ((IndexedStack.get L.stack index).map Value.isfunction).getD false

/-- A null pointer is pushed as nil. -/
def pushstring (L : LuaState Num) : Option (List UInt8) → LuaState Num
  | none => L.push .nil
  | some s => L.push (.string s)

def newuserdata (L : LuaState Num) (pData : Nat) : LuaState Num := L.push (.userdata pData .nil)

def getmetatable (L : LuaState Num) (name : String) : LuaState Num :=
  match L.registry name with
  | none => L.push .nil
  | some fields => L.push (.table fields)

/-- Only the userdata on the stack is given metatables. -/
def setmetatable (L : LuaState Num) (index : Int) : Option (LuaState Num) := do
  let .userdata pData _ ← IndexedStack.get L.stack index | none
  let metatable ← L.stack.head?
  let stack ← IndexedStack.set L.stack index (.userdata pData metatable)
  ({ L with stack } : LuaState Num).pop 1

def tolstring [LuaNumber Num] (L : LuaState Num) (index : Int) : Option (Option (List UInt8) × LuaState Num) := do
  let v ← IndexedStack.get L.stack index
  let stack ← IndexedStack.set L.stack index v.converted
  return (v.tostring, { L with stack })

def settable [DecidableEq Num] (L : LuaState Num) (index : Int) : Option (LuaState Num) := do
  let .table fields ← IndexedStack.get L.stack index | none
  let v ← L.stack.head?
  let key ← match L.stack.tail.head? with
    | some (.number n) => some (Key.number n)
    | _ => none
  let stack ← IndexedStack.set L.stack index (.table (Function.update fields key v))
  ({ L with stack } : LuaState Num).pop 2

/-- `lua_next`. The key is taken off, and the next one and its value put on. -/
def next (after : Traversal Num) (L : LuaState Num) (index : Int) : Option (Bool × LuaState Num) := do
  let .table fields ← IndexedStack.get L.stack index | none
  let key ← L.stack.head?
  let L ← L.pop 1
  match after fields key with
  | none => return (false, L)
  | some (key, v) => return (true, (L.push key).push v)

/-- `lua_settop(L, 0)`. -/
def clear (L : LuaState Num) : LuaState Num := { L with stack := [] }

/-- The handler that an index stands for, where 0 stands for none. -/
def errorHandler (L : LuaState Num) (errfunc : Int) : Option (Option (Value Num)) :=
  if errfunc = 0 then some none else (IndexedStack.get L.stack errfunc).map some

/-- What is on the stack for `lua_pcall`, and what is under it. -/
def request (L : LuaState Num) (narg nres : Nat) (errfunc : Int) : Option (Pcall Num × List (Value Num)) := do
  let func ← L.stack[narg]?
  let errfunc ← L.errorHandler errfunc
  return (⟨func, (L.stack.take narg).reverse, nres, errfunc⟩, L.stack.drop (narg + 1))

/-- Too few results are made up with nils, and too many are dropped. -/
def adjusted (nres : Nat) (results : List (Value Num)) : List (Value Num) :=
  results.take nres ++ List.replicate (nres - results.length) .nil

theorem isfunction_push (L : LuaState Num) (v : Value Num) : (L.push v).isfunction (-1) = v.isfunction := rfl

theorem pop_append {L : LuaState Num} {above below : List (Value Num)} (split : L.stack = above ++ below) :
    L.pop above.length = some { L with stack := below } := by
  rw [pop, split, IndexedStack.pop_append]
  rfl

theorem pop_all (L : LuaState Num) (stack : List (Value Num)) :
    ({ L with stack } : LuaState Num).pop stack.length = some { L with stack := [] } :=
  pop_append (show stack = stack ++ [] from (List.append_nil stack).symm)

theorem pop_cons (L : LuaState Num) (v : Value Num) (below : List (Value Num)) :
    ({ L with stack := v :: below } : LuaState Num).pop 1 = some { L with stack := below } :=
  pop_append (show _ = [v] ++ below from rfl)

theorem pop_push (L : LuaState Num) (v : Value Num) : (L.push v).pop 1 = some L := pop_cons L v L.stack

theorem pop_of_lt {L : LuaState Num} {n : Nat} (deep : L.stack.length < n) : L.pop n = none := by
  rw [pop, IndexedStack.pop_of_lt deep]
  rfl

/-- A key and a value on top of a table go into it. -/
theorem settable_correct [DecidableEq Num] (L : LuaState Num) (fields : Key Num → Value Num) (n : Num) (v : Value Num) :
    (((L.push (.table fields)).push (.number n)).push v).settable (-3) =
      some (L.push (.table (Function.update fields (.number n) v))) := by
  have index : (-3 : Int) = IndexedStack.under [v, .number n] := rfl
  have whole : (((L.push (.table fields)).push (.number n)).push v).stack = [v, .number n] ++ .table fields :: L.stack := rfl
  have popped : ({ L with stack := [v, .number n] ++ .table (Function.update fields (.number n) v) :: L.stack } :
      LuaState Num).pop 2 = some (L.push (.table (Function.update fields (.number n) v))) :=
    pop_append (show _ = [v, .number n] ++ .table (Function.update fields (.number n) v) :: L.stack from rfl)
  simp only [settable, index, whole, IndexedStack.get_under, IndexedStack.set_under, Option.bind_eq_bind, Option.bind_some]
  exact popped

/-- The table lies under the key at any depth. -/
theorem next_correct {L : LuaState Num} {above below : List (Value Num)} {fields : Key Num → Value Num}
    (split : L.stack = above ++ .table fields :: below) (after : Traversal Num) (key : Value Num) :
    (L.push key).next after (below.length + 1 : Nat) = some (match after fields key with
      | none => (false, L)
      | some (key, v) => (true, (L.push key).push v)) := by
  have table : IndexedStack.get (L.push key).stack (below.length + 1 : Nat) = some (.table fields) := by
    rw [push, split, ← List.cons_append]
    exact IndexedStack.get_over
  have top : (L.push key).stack.head? = some key := List.head?_cons
  simp only [next, table, top, pop_push, Option.bind_eq_bind, Option.bind_some]
  cases after fields key <;> rfl

theorem adjusted_length (nres : Nat) (results : List (Value Num)) : (adjusted nres results).length = nres := by
  rw [adjusted, List.length_append, List.length_take, List.length_replicate]
  omega

theorem adjusted_self (results : List (Value Num)) : adjusted results.length results = results := by
  rw [adjusted, List.take_length, Nat.sub_self, List.replicate_zero, List.append_nil]

/-- The operands of a call are the function and the arguments on top of it. -/
theorem request_correct {L : LuaState Num} {args below : List (Value Num)} {func : Value Num}
    (split : L.stack = args.reverse ++ func :: below) {errfunc : Int} {handler : Option (Value Num)}
    (handled : L.errorHandler errfunc = some handler) (nres : Nat) :
    L.request args.length nres errfunc = some (⟨func, args, nres, handler⟩, below) := by
  have called : L.stack[args.length]? = some func := by
    rw [split, List.getElem?_append_right (by simp)]
    simp
  have passed : (L.stack.take args.length).reverse = args := by
    rw [split, ← List.length_reverse, List.take_left, List.reverse_reverse]
  have kept : L.stack.drop (args.length + 1) = below := by
    rw [split, ← List.length_reverse, ← List.drop_drop, List.drop_left]
    rfl
  simp only [request, called, handled, passed, kept, Option.bind_eq_bind, Option.bind_some]
  rfl

theorem request_of_le {L : LuaState Num} {narg : Nat} (deep : L.stack.length ≤ narg) (nres : Nat) (errfunc : Int) :
    L.request narg nres errfunc = none := by
  rw [request, List.getElem?_eq_none deep]
  rfl

end LuaState

end LiteServer.Lua
