import LiteServer.Lua.Objects
import LiteServer.Lib.Transition

/-!
`LuaWrapExport`: classes of C++ whose objects scripts make, call and drop. A
class is known by its `ClassName`, and what its methods do is not part of it; a
call of one is recorded. The use of a deleted object is undefined, and `none`.
-/
namespace LiteServer.Lua.Wrap
open LiteServer.Lua.Objects

abbrev ClassName := String

structure WrapFuncInfo where
  Name : String
  Func : Nat
  deriving DecidableEq, Repr

/-- The closures that `Export` pushes; `Call` has its index as an upvalue. -/
inductive Code where
  | script
  | new (T : ClassName)
  | del (T : ClassName)
  | call (T : ClassName) (index : Nat)
  deriving DecidableEq, Repr

structure Object where
  T : ClassName
  alive : Bool
  deriving DecidableEq, Repr

/-- A block of `lua_newuserdata` that holds the pointer `p`. -/
structure Userdata where
  p : Nat
  metatable : Option Ref
  collected : Bool
  deriving DecidableEq, Repr

structure MethodCall where
  T : ClassName
  Func : Nat
  p : Nat
  deriving DecidableEq, Repr

structure State where
  heap : Heap Code
  globals : Ref
  registry : ClassName → Option Ref
  FunctionList : ClassName → List WrapFuncInfo
  objects : List Object
  userdata : List Userdata
  called : List MethodCall

/-! ### `Export` -/

/-- The constructor of `LuaWrapExport<T>`; `bind` is what each `T::Bind` pushes. -/
def construct (bind : ClassName → List WrapFuncInfo) (T : ClassName) (s : State) : State :=
  { s with FunctionList := Function.update s.FunctionList T (s.FunctionList T ++ bind T) }

def setFunc (h : Heap Code) (t : Ref) (key : String) (code : Code) : Heap Code :=
  (h.newFunction code).2.rawset t (.string key) (.function h.nextFunction)

/-- The loop over `FunctionList`, from `i` on. -/
def setCalls (T : ClassName) (class_index : Ref) : (i : Nat) → List WrapFuncInfo → Heap Code → Heap Code
  | _, [], h => h
  | i, info :: vList, h => setCalls T class_index (i + 1) vList (setFunc h class_index info.Name (.call T i))

def luaL_newmetatable (T : ClassName) (s : State) : Ref × State :=
  match s.registry T with
  | some meta_index => (meta_index, s)
  | none =>
    let (meta_index, heap) := s.heap.newTable none
    (meta_index, { s with heap, registry := Function.update s.registry T (some meta_index) })

/-- What `Export` writes, when both tables are there. -/
def exportTables (T : ClassName) (vList : List WrapFuncInfo) (class_index meta_index : Ref) (h : Heap Code) : Heap Code :=
  let h := h.rawset meta_index (.string "__metatable") (.table class_index)
  let h := setFunc h meta_index "__gc" (.del T)
  let h := setFunc h class_index "New" (.new T)
  let h := setFunc h class_index "Del" (.del T)
  let h := setCalls T class_index 0 vList h
  h.rawset meta_index (.string "__index") (.table class_index)

/-- `LuaWrapExport<T>().Export(L)`. None of the tables has a metatable. -/
def export_ (bind : ClassName → List WrapFuncInfo) (T : ClassName) (s : State) : State :=
  let s := construct bind T s
  let (class_index, heap) := s.heap.newTable none
  let s := { s with heap := heap.rawset s.globals (.string T) (.table class_index) }
  let (meta_index, s) := luaL_newmetatable T s
  { s with heap := exportTables T (s.FunctionList T) class_index meta_index s.heap }

/-! ### `New`, `Del` and `Call` -/

/-- `luaL_checkudata`; `none` where it raises an error. -/
def luaL_checkudata (s : State) (v : LuaValue) (T : ClassName) : Option Nat := do
  let .userdata u := v | none
  let ud ← s.userdata[u]?
  if ud.metatable.isSome ∧ ud.metatable = s.registry T then some ud.p else none

def new (T : ClassName) (s : State) : State :=
  { s with
    objects := s.objects ++ [⟨T, true⟩]
    userdata := s.userdata ++ [⟨s.objects.length, s.registry T, false⟩] }

def alive (s : State) (p : Nat) : Bool := (s.objects[p]?.map Object.alive).getD false

/-- `delete` of the pointer. -/
def delete (p : Nat) (s : State) : Option State :=
  if alive s p then some { s with objects := s.objects.modify p fun o => { o with alive := false } } else none

/-- The userdata is the last argument; an error leaves everything as it is. -/
def del (T : ClassName) (args : List LuaValue) (s : State) : Option State :=
  match luaL_checkudata s (args.getLastD .nil) T with
  | none => some s
  | some p => delete p s

/-- The method is called on the object of the first argument. -/
def call (T : ClassName) (index : Nat) (args : List LuaValue) (s : State) : Option State :=
  match luaL_checkudata s (args.headD .nil) T with
  | none => some s
  | some p => do
    let info ← (s.FunctionList T)[index]?
    if alive s p then some { s with called := s.called ++ [⟨T, info.Func, p⟩] } else none

def callFunction (f : Nat) (args : List LuaValue) (s : State) : Option State :=
  match s.heap.code f with
  | .script => some s
  | .new T => some (new T s)
  | .del T => del T args s
  | .call T index => call T index args s

/-- `obj.key` of a userdata goes to the `__index` of its metatable. -/
def index (s : State) (u : Nat) (key : String) : Option LuaValue := do
  let ud ← s.userdata[u]?
  let metatable ← ud.metatable
  let .table class_index := (s.heap.table metatable).field (.string "__index") | none
  s.heap.index (.table class_index) key

/-- `obj:Name(...)`. -/
def callMethod (u : Nat) (Name : String) (args : List LuaValue) (s : State) : Option State := do
  let .function f ← index s u Name | none
  callFunction f (.userdata u :: args) s

/-! ### Garbage -/

/-- A userdata that is garbage is given to the `__gc` of its metatable. -/
def collect (u : Nat) (s : State) : Option State := do
  let ud ← s.userdata[u]?
  let s := { s with userdata := s.userdata.modify u fun ud => { ud with collected := true } }
  let .function gc := (ud.metatable.map fun m => (s.heap.table m).field (.string "__gc")).getD .nil | some s
  callFunction gc [.userdata u] s

def usable (s : State) (u : Nat) : Bool := (s.userdata[u]?.map fun ud => !ud.collected).getD false

/-- `lua_close` gives all of them, the youngest first. -/
def close (s : State) : Option State :=
  ((List.range s.userdata.length).filter (usable s)).reverse.foldlM (fun s u => collect u s) s

/-! ### What scripts do -/

inductive Action where
  | export_ (T : ClassName)
  | newTable
  | newFunction
  | rawset (t : Ref) (key v : LuaValue)
  | setmetatable (t : Ref) (metatable : LuaValue)
  | call (f : Nat) (args : List LuaValue)
  | collect (u : Nat)
  deriving DecidableEq, Repr

def apply (bind : ClassName → List WrapFuncInfo) (s : State) : Action → Option State
  | .export_ T => some (export_ bind T s)
  | .newTable => some { s with heap := (s.heap.newTable none).2 }
  | .newFunction => some { s with heap := (s.heap.newFunction .script).2 }
  | .rawset t key v => some { s with heap := s.heap.rawset t key v }
  | .setmetatable t metatable => some { s with heap := (s.heap.setmetatable t metatable).getD s.heap }
  | .call f args => callFunction f args s
  | .collect u => collect u s

/-- The registry and what `__metatable` hides are out of reach of a script, as it
    has no debug library, and so is a userdata that was collected, as it keeps
    none in a weak table; the globals are a plain table, whose `__newindex` would
    be run by `Export`. -/
def Allowed (s : State) : Action → Prop
  | .rawset t _ _ => t < s.heap.next ∧ ∀ T, s.registry T ≠ some t
  | .setmetatable t _ => t < s.heap.next ∧ t ≠ s.globals ∧ ∀ T, s.registry T ≠ some t
  | .call f args => f < s.heap.nextFunction ∧ ∀ u, .userdata u ∈ args → usable s u
  | .collect u => usable s u
  | _ => True

/-- Before the first `Export`. -/
structure Init (s : State) : Prop where
  globals : s.globals < s.heap.next
  plain : (s.heap.table s.globals).metatable = none
  code : ∀ f, s.heap.code f = .script
  registry : ∀ T, s.registry T = none
  FunctionList : ∀ T, s.FunctionList T = []
  objects : s.objects = []
  userdata : s.userdata = []
  called : s.called = []

/-- The states of a process whose scripts are these. -/
def Reachable (bind : ClassName → List WrapFuncInfo) : State → Prop :=
  Transition.Reachable Init fun s s' => ∃ a, Allowed s a ∧ apply bind s a = some s'

/-! ### The classes that the engine and its tests wrap -/

def Bind : ClassName → List WrapFuncInfo
  | "RedisConnectorWrap" => [⟨"Connect", 0⟩, ⟨"Command", 1⟩, ⟨"SafeCommand", 2⟩]
  | "LuaObj" => [⟨"Test", 3⟩]
  | _ => []

/-- A process that has only its table of globals. -/
def noExports : State where
  heap := ⟨fun _ => .empty none, 1, fun _ => .script, 0⟩
  globals := 0
  registry _ := none
  FunctionList _ := []
  objects := []
  userdata := []
  called := []

theorem noExports_init : Init noExports where
  globals := by decide
  plain := rfl
  code _ := rfl
  registry _ := rfl
  FunctionList _ := rfl
  objects := rfl
  userdata := rfl
  called := rfl

/-- `LuaObj` is exported, an object of it is made, and its method is called. -/
def withObject : State := new "LuaObj" (export_ Bind "LuaObj" noExports)

def withCall : State := { withObject with called := [⟨"LuaObj", 3, 0⟩] }

theorem withObject_reachable : Reachable Bind withObject := by
  have exported : Reachable Bind (export_ Bind "LuaObj" noExports) := .next (.start noExports_init) ⟨.export_ "LuaObj", trivial, rfl⟩
  exact exported.next ⟨.call 1 [], ⟨by decide, nofun⟩, rfl⟩

theorem withCall_reachable : Reachable Bind withCall := by
  refine withObject_reachable.next ⟨.call 3 [.userdata 0], ⟨by decide, ?_⟩, rfl⟩
  intro u member
  obtain rfl := LuaValue.userdata.inj (List.mem_singleton.mp member)
  rfl

end LiteServer.Lua.Wrap
