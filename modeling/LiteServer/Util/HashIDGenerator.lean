import Mathlib.Data.BitVec
import Mathlib.Logic.Function.Basic

/-!
`HashIDGenerator` of `engine/util`: a node array in which each ID gets a slot,
and buckets that chain the nodes. A pointer to a node is its index.
-/
namespace LiteServer.Util

/-- The `int` of an ID; -1 marks a free node. -/
abbrev ID := BitVec 32

structure HashIDNode where
  id : ID
  next : Option Nat
  deriving DecidableEq, Repr

structure HashIDGenerator where
  nCapacity : Nat
  nMod : ID
  nCount : Int
  pIDList : Nat → HashIDNode
  pHash : Nat → Option Nat

/-- The loop that doubles `upCap`, which is an `int`: `none` once it overflows. -/
def upCapLoop : (fuel upCap max : Nat) → Option Nat
  | 0, _, _ => none
  | fuel + 1, upCap, max =>
    if upCap < max then (if upCap * 2 < 2 ^ 31 then upCapLoop fuel (upCap * 2) max else none) else some upCap

namespace HashIDGenerator

/-- From 16, 27 doublings overflow. -/
def new (max : Nat) : Option HashIDGenerator := do
  let upCap ← upCapLoop 28 16 max
  return ⟨max, BitVec.ofNat 32 (upCap - 1), 0, fun _ => ⟨-1, none⟩, fun _ => none⟩

def hash (gen : HashIDGenerator) (id : ID) : Nat := (id &&& gen.nMod).toNat

def setNode (gen : HashIDGenerator) (node : Nat) (value : HashIDNode) : HashIDGenerator :=
  { gen with pIDList := Function.update gen.pIDList node value }

def isFull (gen : HashIDGenerator) : Bool := gen.nCount ≥ gen.nCapacity

/-- `none` where no node is free, as `node->next` is read before `node` is
    compared with `NULL`. -/
def insert (gen : HashIDGenerator) (id : ID) : Option (Bool × HashIDGenerator) := do
  let node ← (List.range gen.nCapacity).find? fun i => (gen.pIDList i).id == -1
  if (gen.pIDList node).next.isSome then return (false, gen)
  else
    let gen := { gen with nCount := gen.nCount + 1 }
    let hash := gen.hash id
    let gen := if (gen.pHash hash).isSome then gen.setNode node { gen.pIDList node with next := gen.pHash hash } else gen
    return (true, { gen with pHash := Function.update gen.pHash hash (some node) })

/-- The loop of `Find`; `none` while the fuel is too little, which it always is
    for a chain that comes back to itself. -/
def findLoop (gen : HashIDGenerator) (id : ID) : (fuel : Nat) → Option Nat → Option Int
  | _, none => some (-1)
  | 0, some _ => none
  | fuel + 1, some node =>
    if (gen.pIDList node).id = id then some node else gen.findLoop id fuel (gen.pIDList node).next

def find (gen : HashIDGenerator) (fuel : Nat) (id : ID) : Option Int := gen.findLoop id fuel (gen.pHash (gen.hash id))

/-- The loop of `Remove`, which looks at the node after `node`. -/
def removeLoop (gen : HashIDGenerator) (id : ID) : (fuel node : Nat) → Option (Int × HashIDGenerator)
  | 0, _ => none
  | fuel + 1, node =>
    match (gen.pIDList node).next with
    | none => some (-1, gen)
    | some cur =>
      if (gen.pIDList cur).id = id then
        let gen := gen.setNode node { gen.pIDList node with next := (gen.pIDList cur).next }
        let gen := gen.setNode cur ⟨-1, none⟩
        some (cur, { gen with nCount := gen.nCount - 1 })
      else gen.removeLoop id fuel cur

def remove (gen : HashIDGenerator) (fuel : Nat) (id : ID) : Option (Int × HashIDGenerator) :=
  let hash := gen.hash id
  match gen.pHash hash with
  | none => some (-1, gen)
  | some node =>
    if (gen.pIDList node).id = id then
      let gen := { gen with pHash := Function.update gen.pHash hash (gen.pIDList node).next }
      let gen := gen.setNode node ⟨-1, none⟩
      some (node, { gen with nCount := gen.nCount - 1 })
    else gen.removeLoop id fuel node

end HashIDGenerator

/-! ### Runs -/

inductive Op where
  | insert (id : ID)
  | remove (id : ID)
  | find (id : ID)
  deriving DecidableEq, Repr

inductive Answer where
  | inserted (ok : Bool)
  | removed (index : Int)
  | found (index : Int)
  deriving DecidableEq, Repr

namespace HashIDGenerator

def call (gen : HashIDGenerator) (fuel : Nat) : Op → Option (Answer × HashIDGenerator)
  | .insert id => (gen.insert id).map fun (ok, gen) => (.inserted ok, gen)
  | .remove id => (gen.remove fuel id).map fun (index, gen) => (.removed index, gen)
  | .find id => (gen.find fuel id).map fun index => (.found index, gen)

def run (gen : HashIDGenerator) (fuel : Nat) : List Op → Option (List Answer × HashIDGenerator)
  | [] => some ([], gen)
  | op :: ops => do
    let (answer, gen) ← gen.call fuel op
    let (answers, gen) ← gen.run fuel ops
    return (answer :: answers, gen)

end HashIDGenerator

/-! ### The map it implements -/

/-- The answers of a map from held IDs to indices below `max`, no index to two
    of them, that may choose any free index for an ID. -/
inductive Served (max : Nat) : (ID → Option Nat) → List Op → List Answer → Prop where
  | done {held} : Served max held [] []
  | insert {held id ops answers} {index : Nat} (absent : held id = none) (inside : index < max)
      (unused : ∀ other, held other ≠ some index) (rest : Served max (Function.update held id (some index)) ops answers) :
      Served max held (.insert id :: ops) (.inserted true :: answers)
  | remove {held id ops answers} {index : Nat} (present : held id = some index)
      (rest : Served max (Function.update held id none) ops answers) :
      Served max held (.remove id :: ops) (.removed index :: answers)
  | removeAbsent {held id ops answers} (absent : held id = none) (rest : Served max held ops answers) :
      Served max held (.remove id :: ops) (.removed (-1) :: answers)
  | find {held id ops answers} {index : Nat} (present : held id = some index) (rest : Served max held ops answers) :
      Served max held (.find id :: ops) (.found index :: answers)
  | findAbsent {held id ops answers} (absent : held id = none) (rest : Served max held ops answers) :
      Served max held (.find id :: ops) (.found (-1) :: answers)

/-- A fresh generator answers all operations, as a map does. -/
def ServesAsMap (max : Nat) (ops : List Op) : Prop :=
  ∃ gen fuel answers gen', HashIDGenerator.new max = some gen ∧ gen.run fuel ops = some (answers, gen') ∧
    Served max (fun _ => none) ops answers

end LiteServer.Util
