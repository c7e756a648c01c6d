import Mathlib.Data.List.AList
import Mathlib.Logic.Function.Basic

/-!
The timing wheel of `engine/timer/wheel_timer`: five arrays of singly linked
lists of nodes, relinked in place through `next` and `tail` pointers. An
operation yields `none` where the C++ code would leave its arrays, follow a
pointer to a node that is not allocated, or take a missing node.
-/
namespace LiteServer.Timer

def timeNearShift : Nat := 8
def timeNear : Nat := 1 <<< timeNearShift
def timeLevelShift : Nat := 6
def timeLevel : Nat := 1 <<< timeLevelShift
def timeNearMask : BitVec 32 := BitVec.ofNat 32 (timeNear - 1)
def timeLevelMask : BitVec 32 := BitVec.ofNat 32 (timeLevel - 1)

/-- Address of a node on the C heap. -/
abbrev Addr := Nat
/-- Identity of a `TimerCallBack` object. -/
abbrev CallBack := Nat

structure TimerNode where
  expire : BitVec 32
  next : Option Addr
  callBack : CallBack
  deriving DecidableEq, Repr

/-- The lists `mNear[index]` and `mWheel[level][index]`. -/
inductive ListRef where
  | near (index : Nat)
  | wheel (level index : Nat)
  deriving DecidableEq, Repr

/-- A list that the constructor has initialised: `mWheel` has `TIME_NEAR`
    columns, of which only the first `TIME_LEVEL` are. -/
def ListRef.Indexed : ListRef → Prop
  | .near index => index < timeNear
  | .wheel level index => level < 4 ∧ index < timeLevel

instance (list : ListRef) : Decidable list.Indexed := by
  cases list <;> unfold ListRef.Indexed <;> infer_instance

/-- Where a `TimerNode *` that is written through can point: at the sentinel
    inside a list or at a node of the heap. -/
inductive NodePtr where
  | head (list : ListRef)
  | node (addr : Addr)
  deriving DecidableEq, Repr

/-- The `next` field of the sentinel, its other fields being unused, and the
    tail pointer. -/
structure TimerLinkList where
  head : Option Addr
  tail : NodePtr
  deriving DecidableEq, Repr

structure WheelTimer where
  nodes : AList fun _ : Addr => TimerNode
  lists : ListRef → TimerLinkList
  uTime : BitVec 32

/-- The constructor's state; `m_uTime` is left uninitialised there. -/
def WheelTimer.new (uTime : BitVec 32) : WheelTimer where
  nodes := ∅
  lists list := ⟨none, .head list⟩
  uTime := uTime

/-- `p->next = next`. -/
def setNext (t : WheelTimer) (p : NodePtr) (next : Option Addr) : Option WheelTimer :=
  match p with
  | .head list => some { t with lists := Function.update t.lists list { t.lists list with head := next } }
  | .node addr => do
    let node ← t.nodes.lookup addr
    return { t with nodes := t.nodes.insert addr { node with next := next } }

def clearLink (t : WheelTimer) (list : ListRef) : Option (Option Addr × WheelTimer) :=
  if list.Indexed then
    some ((t.lists list).head, { t with lists := Function.update t.lists list ⟨none, .head list⟩ })
  else none

def link (t : WheelTimer) (list : ListRef) (node : Addr) : Option WheelTimer :=
  if list.Indexed then do
    let t ← setNext t (t.lists list).tail (some node)
    let t := { t with lists := Function.update t.lists list { t.lists list with tail := .node node } }
    setNext t (.node node) none
  else none

/-- The level search of `AddNode`, `rounds` tests before its end at level 3.
    The mask keeps the value it has at level 0 in every round. -/
def levelFor (time curTime mask : BitVec 32) : (rounds : Nat) → Nat
  | 0 => 3
  | rounds + 1 =>
    if time ||| (mask - 1) == curTime ||| (mask - 1) then 3 - (rounds + 1)
    else levelFor time curTime mask rounds

/-- The list `AddNode` picks for a node that expires at `time`. -/
def listFor (time curTime : BitVec 32) : ListRef :=
  if time ||| timeNearMask == curTime ||| timeNearMask then
    .near (time &&& timeNearMask).toNat
  else
    let mask : BitVec 32 := BitVec.ofNat 32 (timeNear <<< timeLevelShift)
    let level := levelFor time curTime mask 3
    .wheel level ((time >>> (timeNearShift + level * timeLevelShift)) &&& timeLevelMask).toNat

def addNode (t : WheelTimer) (node : Addr) : Option WheelTimer := do
  let cell ← t.nodes.lookup node
  link t (listFor cell.expire t.uTime) node

/-- The walk of `MoveList` along a detached list. -/
def moveNodes : (fuel : Nat) → WheelTimer → Option Addr → Option WheelTimer
  | _, t, none => some t
  | 0, _, some _ => none
  | fuel + 1, t, some node => do
    let cell ← t.nodes.lookup node
    let t ← addNode t node
    moveNodes fuel t cell.next

/-- A walk that meets no node twice ends within as many rounds as there are
    nodes allocated. -/
def moveList (t : WheelTimer) (level index : Nat) : Option WheelTimer := do
  let (list, t) ← clearLink t (.wheel level index)
  moveNodes t.nodes.keys.length t list

/-- The cascading loop of `TimerShift`. -/
def shiftLevels : (fuel : Nat) → WheelTimer → (curTime mask time : BitVec 32) → (level : Nat) → Option WheelTimer
  | 0, _, _, _, _, _ => none
  | fuel + 1, t, curTime, mask, time, level =>
    if curTime &&& (mask - 1) == 0 then do
      let index := time &&& timeLevelMask
      let t ← if index ≠ 0 then moveList t level index.toNat else some t
      shiftLevels fuel t curTime (mask <<< timeLevelShift) (time >>> timeLevelShift) (level + 1)
    else some t

/-- The `MoveList` calls that the cascading loop makes. -/
def shiftCalls : (fuel : Nat) → (curTime mask time : BitVec 32) → (level : Nat) → Option (List (Nat × Nat))
  | 0, _, _, _, _ => none
  | fuel + 1, curTime, mask, time, level =>
    if curTime &&& (mask - 1) == 0 then do
      let index := time &&& timeLevelMask
      let calls ← shiftCalls fuel curTime (mask <<< timeLevelShift) (time >>> timeLevelShift) (level + 1)
      return (if index ≠ 0 then [(level, index.toNat)] else []) ++ calls
    else some []

/-- Five tests of the loop condition: the mask covers the whole word at the
    fifth, and a clock that is not zero fails it. -/
def timerShift (t : WheelTimer) : Option WheelTimer :=
  let t := { t with uTime := t.uTime + 1 }
  if t.uTime == 0 then moveList t 3 0
  else shiftLevels 5 t t.uTime (BitVec.ofNat 32 timeNear) (t.uTime >>> timeNearShift) 0

end LiteServer.Timer
