import Mathlib.Logic.Function.Basic
import LiteServer.Lua.State

/-!
`LuaUtil::Call` of `engine/lua`, without the messages it prints. A call is
`none` where it goes below the stack or reads an argument of another type.
-/
namespace LiteServer.Lua
open LiteServer.Lib

structure LuaWrapBase where
  address : Nat
  m_strWrapName : String
  deriving DecidableEq, Repr

/-- What `va_arg` can take: an argument, or where a result goes. -/
inductive Arg (Num : Type) where
  | double (d : Num)
  | int (i : BitVec 32)
  | string (s : Option (List UInt8))
  | pointer (p : Nat)
  | wrap (pData : LuaWrapBase)
  | result (p : Nat)

/-- What is written through a result pointer. -/
inductive Stored (Num : Type) [LuaNumber Num] where
  | boolean (b : Bool)
  | float (f : LuaNumber.Float Num)
  | double (d : Num)
  | int (i : BitVec 32)
  | string (s : Option (List UInt8))

abbrev Memory (Num : Type) [LuaNumber Num] := Nat → Option (Stored Num)

inductive Exit where
  | returned (code : Int)
  | threw (errid : Int)
  deriving DecidableEq, Repr

/-- A `lua_pcall` as it is made, with the rest of the signature and arguments. -/
structure Issued (Num : Type) where
  L : LuaState Num
  traceback : Int
  request : Pcall Num
  below : List (Value Num)
  sig : List Char
  vl : List (Arg Num)

namespace LuaUtil

variable {Num : Type} [LuaNumber Num]

def pushArgument (L : LuaState Num) (cSig : Char) (vl : List (Arg Num)) : Option (LuaState Num × List (Arg Num)) :=
  match cSig with
  | 'f' | 'd' =>
    match vl with
    | .double d :: vl => some (L.push (.number d), vl)
    | _ => none
  | 'i' =>
    match vl with
    | .int i :: vl => some (L.push (.number (LuaNumber.ofInteger i.toInt)), vl)
    | _ => none
  | 'b' =>
    match vl with
    | .int i :: vl => some (L.push (.boolean (i ≠ 0)), vl)
    | _ => none
  | 's' =>
    match vl with
    | .string s :: vl => some (L.pushstring s, vl)
    | _ => none
  | 'p' =>
    match vl with
    | .pointer p :: vl => some (L.push (.lightuserdata p), vl)
    | _ => none
  | 'w' =>
    match vl with
    | .wrap pData :: vl => do
      let L := L.newuserdata pData.address
      let L := L.getmetatable pData.m_strWrapName
      let L ← L.setmetatable (-2)
      return (L, vl)
    | _ => none
  | _ => some (L, vl)

/-- `narg` counts the characters, also those that push nothing. -/
def pushArguments (L : LuaState Num) :
    (sig : List Char) → (narg : Nat) → (vl : List (Arg Num)) → Option (LuaState Num × Nat × List Char × List (Arg Num))
  | [], narg, vl => some (L, narg, [], vl)
  | cSig :: sig, narg, vl =>
    if cSig = '>' then some (L, narg, sig, vl)
    else do
      let (L, vl) ← pushArgument L cSig vl
      pushArguments L sig (narg + 1) vl

def insertTraceback (L : LuaState Num) (functionIndex : Int) : Option (LuaState Num × Int) :=
  let L := L.getglobal "__ERR_TRACKBACK__"
  if !L.isfunction (-1) then do
    let L ← L.pop 1
    return (L, 0)
  else do
    let L ← L.insert (functionIndex - 1)
    return (L, functionIndex - 1)

/-- With the function on top of the stack. -/
def issue (L : LuaState Num) (sig : List Char) (vl : List (Arg Num)) : Option (Issued Num) := do
  let (L, narg, sig, vl) ← pushArguments L sig 0 vl
  let functionIndex : Int := -(narg + 1)
  let (L, traceback) ← insertTraceback L functionIndex
  let nres := sig.length
  let (request, below) ← L.request narg nres traceback
  return ⟨L, traceback, request, below, sig, vl⟩

/-- What the result characters store; the others store nothing. -/
def result (v : Value Num) : Char → Option (Stored Num)
  | 'b' => some (.boolean v.toboolean)
  | 'f' => some (.float (LuaNumber.toFloat v.tonumber))
  | 'd' => some (.double v.tonumber)
  | 'i' => some (.int (LuaNumber.toInt v.tonumber))
  | 's' => some (.string v.tostring)
  | _ => none

def retrieveResult (memory : Memory Num) (L : LuaState Num) (cSig : Char) (nres : Int) (vl : List (Arg Num)) :
    Option (Memory Num × LuaState Num × List (Arg Num)) := do
  let v ← IndexedStack.get L.stack nres
  match result v cSig with
  | none => some (memory, L, vl)
  | some stored =>
    match vl with
    | .result p :: vl => do
      let L ← if cSig = 's' then (L.tolstring nres).map Prod.snd else some L
      return (Function.update memory p (some stored), L, vl)
    | _ => none

def retrieve (memory : Memory Num) (L : LuaState Num) :
    (sig : List Char) → (nres : Int) → (vl : List (Arg Num)) → Option (Memory Num × LuaState Num)
  | [], _, _ => some (memory, L)
  | cSig :: sig, nres, vl => do
    let (memory, L, vl) ← retrieveResult memory L cSig nres vl
    let L ← L.pop 1
    retrieve memory L sig (nres + 1) vl

/-- What `Call` makes of the outcome of its `lua_pcall`. -/
def finish (outcome : Outcome Num) (memory : Memory Num) (top : Nat) (made : Issued Num) :
    Option (Exit × Memory Num × LuaState Num) :=
  match outcome with
  | .failed error => do
    let L := { made.L with stack := error :: made.below }
    if made.traceback = 0 then do
      let (_, L) ← L.tolstring (-1)
      let L ← L.pop 1
      return (.returned 2, memory, L)
    else do
      let L ← L.pop 2
      return (.returned 2, memory, L)
  | .thrown errid stack => do
    let L ← ({ made.L with stack } : LuaState Num).pop top
    return (.threw errid, memory, L)
  | .returned results => do
    let nres := made.request.nres
    let L := { made.L with stack := (LuaState.adjusted nres results).reverse ++ made.below }
    let (memory, L) ← retrieve memory L made.sig (-nres) made.vl
    let L ← if made.traceback ≠ 0 then L.pop 1 else some L
    let L ← L.pop top
    return (.returned 0, memory, L)

/-- `run` is what Lua does with the function; `lua_pcall` leaves its results or
    its error in place of the operands. -/
def call (run : Pcall Num → Outcome Num) (memory : Memory Num) (L : LuaState Num) (func : String) (sig : List Char)
    (vl : List (Arg Num)) : Option (Exit × Memory Num × LuaState Num) :=
  let top := L.gettop
  let L := L.getglobal func
  if !L.isfunction (-1) then do
    let L ← L.pop top
    return (.returned 1, memory, L)
  else do
    let made ← issue L sig vl
    finish (run made.request) memory top made

end LuaUtil

end LiteServer.Lua
