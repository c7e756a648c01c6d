import LiteServer.Lib.Transition
import Mathlib.Algebra.Group.Int.Defs
import Mathlib.Data.List.Sort
import Mathlib.Logic.Function.Basic

/-!
`SetObjPool` of `engine/util`: the set of the objects to hand out, and two
counters. An operation is `none` where a counter overflows.
-/
namespace LiteServer.Util
open Transition

/-- The address of an object. -/
abbrev ObjPtr := Nat

inductive ObjCall where
  | init
  | unInit
  deriving DecidableEq, Repr

/-- `m_setObj` is in ascending order, as a `std::set` is. The other fields only
    record the run: what was called on the object that an address has, the
    objects handed out and not released, and those of `Init` not handed out yet. -/
structure SetObjPool where
  setObj : List ObjPtr
  nNewTotal : Int
  nUseTotal : Int
  calls : ObjPtr → List ObjCall
  borrowed : List ObjPtr
  unused : List ObjPtr

/-- `n++` and `n--` of an `int`. -/
def increment (n : Int) : Option Int := if n + 1 < 2 ^ 31 then some (n + 1) else none
def decrement (n : Int) : Option Int := if -2 ^ 31 < n then some (n - 1) else none

namespace SetObjPool

def new : SetObjPool := ⟨[], 0, 0, fun _ => [], [], []⟩

def called (pool : SetObjPool) (pObj : ObjPtr) (call : ObjCall) : SetObjPool :=
  { pool with calls := Function.update pool.calls pObj (pool.calls pObj ++ [call]) }

/-- `m_setObj.insert`. -/
def insert (pool : SetObjPool) (pObj : ObjPtr) : SetObjPool :=
  { pool with setObj := if pObj ∈ pool.setObj then pool.setObj else pool.setObj.orderedInsert (· ≤ ·) pObj }

/-- `new Obj`, which finds `pObj`, with its `Init` and `m_nNewTotal++`. -/
def newObj (pool : SetObjPool) (pObj : ObjPtr) : Option SetObjPool := do
  let pool := { pool with calls := Function.update pool.calls pObj [] }
  let pool := pool.called pObj .init
  let nNewTotal ← increment pool.nNewTotal
  return { pool with nNewTotal }

/-- `Init` of as many objects as `new` finds addresses for. -/
def init (pool : SetObjPool) : (fresh : List ObjPtr) → Option SetObjPool
  | [] => some pool
  | pObj :: fresh => do
    let pool ← pool.newObj pObj
    init { pool.insert pObj with unused := pObj :: pool.unused } fresh

/-- The loop of `UnInit`, which deletes the first object in each round. -/
def unInitLoop (pool : SetObjPool) : (setObj : List ObjPtr) → SetObjPool
  | [] => { pool with setObj := [] }
  | pObj :: setObj => unInitLoop { pool with setObj, unused := pool.unused.erase pObj } setObj

def unInit (pool : SetObjPool) : SetObjPool := pool.unInitLoop pool.setObj

/-- `fresh` is what `new` finds if it is called. -/
def getFreeObj (pool : SetObjPool) (fresh : ObjPtr) : Option (ObjPtr × SetObjPool) := do
  let (pObj, pool) ← match pool.setObj with
    | [] => do
      let pool ← pool.newObj fresh
      some (fresh, pool)
    | pObj :: setObj =>
      let pool := pool.called pObj .init
      some (pObj, { pool with setObj, unused := pool.unused.erase pObj })
  let nUseTotal ← increment pool.nUseTotal
  return (pObj, { pool with nUseTotal, borrowed := pObj :: pool.borrowed })

/-- `none` stands for `NULL`. -/
def releaseObj (pool : SetObjPool) : (pObj : Option ObjPtr) → Option SetObjPool
  | none => some pool
  | some pObj => do
    let pool := pool.called pObj .unInit
    let pool := pool.insert pObj
    let nUseTotal ← decrement pool.nUseTotal
    return { pool with nUseTotal, borrowed := pool.borrowed.erase pObj }

def getNewTotal (pool : SetObjPool) : Int := pool.nNewTotal

def getUseTotal (pool : SetObjPool) : Int := pool.nNewTotal - (BitVec.ofNat 32 pool.setObj.length).toInt

end SetObjPool

/-! ### Runs -/

inductive PoolOp where
  | init (fresh : List ObjPtr)
  | unInit
  | getFreeObj (fresh : ObjPtr)
  | releaseObj (pObj : Option ObjPtr)
  deriving DecidableEq, Repr

def SetObjPool.apply (pool : SetObjPool) : PoolOp → Option SetObjPool
  | .init fresh => pool.init fresh
  | .unInit => some pool.unInit
  | .getFreeObj fresh => (pool.getFreeObj fresh).map Prod.snd
  | .releaseObj pObj => pool.releaseObj pObj

/-- `new` finds addresses that no object has, and only objects that were handed
    out are released. -/
def Permitted (pool : SetObjPool) : PoolOp → Prop
  | .init fresh => fresh.Nodup ∧ ∀ pObj ∈ fresh, pObj ∉ pool.setObj ++ pool.borrowed
  | .unInit => True
  | .getFreeObj fresh => pool.setObj = [] → fresh ∉ pool.borrowed
  | .releaseObj none => True
  | .releaseObj (some pObj) => pObj ∈ pool.borrowed

namespace SetObjPool
variable {pool pool' : SetObjPool} {pObj : ObjPtr} {fresh : List ObjPtr}

theorem insert_perm (outside : pObj ∉ pool.setObj) : (pool.insert pObj).setObj.Perm (pObj :: pool.setObj) := by
  rw [insert, if_neg outside]
  exact List.perm_orderedInsert _ _ _

/-- After `newObj`. -/
def made (pool : SetObjPool) (pObj : ObjPtr) : SetObjPool :=
  { pool with
    nNewTotal := pool.nNewTotal + 1
    calls := Function.update pool.calls pObj [.init] }

theorem newObj_eq (pool : SetObjPool) (pObj : ObjPtr) :
    pool.newObj pObj = if pool.nNewTotal + 1 < 2 ^ 31 then some (pool.made pObj) else none := by
  simp only [newObj, called, increment, Function.update_self, List.nil_append, Function.update_idem]
  split <;> rfl

/-- After `pObj` was handed out, and after it was returned. -/
def handed (pool : SetObjPool) (pObj : ObjPtr) : SetObjPool :=
  { pool with nUseTotal := pool.nUseTotal + 1, borrowed := pObj :: pool.borrowed }
def returned (pool : SetObjPool) (pObj : ObjPtr) : SetObjPool :=
  { (pool.called pObj .unInit).insert pObj with
    nUseTotal := pool.nUseTotal - 1
    borrowed := pool.borrowed.erase pObj }

/-- After the first object was taken out. -/
def reused (pool : SetObjPool) (pObj : ObjPtr) (setObj : List ObjPtr) : SetObjPool :=
  { pool.called pObj .init with setObj, unused := pool.unused.erase pObj }

theorem getFreeObj_empty (empty : pool.setObj = []) (fresh : ObjPtr) :
    pool.getFreeObj fresh =
      if pool.nNewTotal + 1 < 2 ^ 31 ∧ pool.nUseTotal + 1 < 2 ^ 31 then some (fresh, (pool.made fresh).handed fresh) else none := by
  simp only [getFreeObj, empty, newObj_eq]
  by_cases created : pool.nNewTotal + 1 < 2 ^ 31
  · rw [if_pos created]
    show ((increment pool.nUseTotal).bind fun nUseTotal => _) = _
    by_cases used : pool.nUseTotal + 1 < 2 ^ 31
    · rw [if_pos ⟨created, used⟩, increment, if_pos used]
      rfl
    · rw [if_neg fun both => used both.2, increment, if_neg used]
      rfl
  · rw [if_neg created, if_neg fun both => created both.1]
    rfl

theorem getFreeObj_first {setObj : List ObjPtr} (first : pool.setObj = pObj :: setObj) (fresh : ObjPtr) :
    pool.getFreeObj fresh =
      if pool.nUseTotal + 1 < 2 ^ 31 then some (pObj, (pool.reused pObj setObj).handed pObj) else none := by
  simp only [getFreeObj, first]
  show ((increment pool.nUseTotal).bind fun nUseTotal => _) = _
  rw [increment]
  split <;> rfl

theorem releaseObj_eq (pool : SetObjPool) (pObj : ObjPtr) :
    pool.releaseObj (some pObj) = if -2 ^ 31 < pool.nUseTotal then some (pool.returned pObj) else none := by
  show ((decrement pool.nUseTotal).bind fun nUseTotal => _) = _
  rw [decrement]
  split <;> rfl

theorem unInitLoop_eq (pool : SetObjPool) (setObj : List ObjPtr) :
    (pool.unInitLoop setObj).setObj = [] ∧ (pool.unInitLoop setObj).nNewTotal = pool.nNewTotal ∧
      (pool.unInitLoop setObj).nUseTotal = pool.nUseTotal ∧ (pool.unInitLoop setObj).borrowed = pool.borrowed := by
  induction setObj generalizing pool with
  | nil => exact ⟨rfl, rfl, rfl, rfl⟩
  | cons pObj setObj ih => exact ih _

/-! ### The counters -/

/-- The counters tell what the borrowers have, nobody has an object of the pool,
    and no two have the same. -/
structure Accounts (pool : SetObjPool) : Prop where
  getUseTotal : pool.getUseTotal = pool.borrowed.length
  nUseTotal : pool.nUseTotal = pool.borrowed.length
  outside : ∀ pObj ∈ pool.borrowed, pObj ∉ pool.setObj
  once : pool.borrowed.Nodup

/-- No object was deleted. -/
structure Balanced (pool : SetObjPool) : Prop where
  distinct : (pool.setObj ++ pool.borrowed).Nodup
  created : pool.nNewTotal = pool.setObj.length + pool.borrowed.length
  used : pool.nUseTotal = pool.borrowed.length
  small : pool.nNewTotal < 2 ^ 31

theorem Balanced.accounts (balanced : pool.Balanced) : pool.Accounts where
  getUseTotal := by
    have created := balanced.created
    have small := balanced.small
    have size : (BitVec.ofNat 32 pool.setObj.length).toInt = pool.setObj.length := by
      rw [BitVec.toInt_ofNat']
      exact Int.bmod_eq_of_le (by omega) (by omega)
    rw [SetObjPool.getUseTotal, size]
    omega
  nUseTotal := balanced.used
  outside := fun pObj taken member => List.disjoint_of_nodup_append balanced.distinct member taken
  once := balanced.distinct.of_append_right

theorem new_balanced : new.Balanced := ⟨List.nodup_nil, rfl, rfl, by decide⟩

theorem made_insert_perm (outside : pObj ∉ pool.setObj ++ pool.borrowed) :
    ((pool.made pObj).insert pObj).setObj.Perm (pObj :: pool.setObj) :=
  insert_perm fun member => outside (List.mem_append_left _ member)

theorem Balanced.inserted (balanced : pool.Balanced) (outside : pObj ∉ pool.setObj ++ pool.borrowed)
    (room : pool.nNewTotal + 1 < 2 ^ 31) :
    ({ (pool.made pObj).insert pObj with unused := pObj :: pool.unused } : SetObjPool).Balanced := by
  have added := made_insert_perm outside
  have length := added.length_eq
  have created := balanced.created
  constructor
  · exact (added.append_right pool.borrowed).nodup_iff.mpr (List.nodup_cons.mpr ⟨outside, balanced.distinct⟩)
  · show pool.nNewTotal + 1 = ((pool.made pObj).insert pObj).setObj.length + pool.borrowed.length
    rw [length, List.length_cons]
    omega
  · exact balanced.used
  · exact room

theorem inserted_apart (outside : pObj ∉ pool.setObj ++ pool.borrowed) (absent : pObj ∉ fresh)
    (apart : ∀ other ∈ fresh, other ∉ pool.setObj ++ pool.borrowed) :
    ∀ other ∈ fresh, other ∉ ((pool.made pObj).insert pObj).setObj ++ pool.borrowed := by
  intro other member inside
  rcases List.mem_cons.mp (((made_insert_perm outside).append_right pool.borrowed).subset inside) with rfl | before
  · exact absent member
  · exact apart other member before

theorem Balanced.init (balanced : pool.Balanced) (once : fresh.Nodup)
    (apart : ∀ pObj ∈ fresh, pObj ∉ pool.setObj ++ pool.borrowed) (created : pool.init fresh = some pool') :
    pool'.Balanced := by
  induction fresh generalizing pool with
  | nil =>
    cases Option.some.inj created
    exact balanced
  | cons pObj fresh ih =>
    obtain ⟨absent, once⟩ := List.nodup_cons.mp once
    obtain ⟨outside, apart⟩ := List.forall_mem_cons.mp apart
    rw [SetObjPool.init, newObj_eq] at created
    split at created
    · rename_i room
      exact ih (balanced.inserted outside room) once (inserted_apart outside absent apart) created
    · cases created

theorem init_isSome (small : pool.nNewTotal < 2 ^ 31) :
    (pool.init fresh).isSome ↔ pool.nNewTotal + fresh.length < 2 ^ 31 := by
  induction fresh generalizing pool with
  | nil => simpa [SetObjPool.init] using small
  | cons pObj fresh ih =>
    rw [SetObjPool.init, newObj_eq, List.length_cons]
    split
    · rename_i room
      rw [Option.bind_eq_bind, Option.bind_some, ih room]
      show pool.nNewTotal + 1 + _ < _ ↔ _
      omega
    · rename_i full
      simp only [Option.bind_eq_bind, Option.bind_none, Option.isSome_none, Bool.false_eq_true, false_iff]
      omega

theorem Balanced.getFreeObj (balanced : pool.Balanced) {fresh : ObjPtr} (apart : pool.setObj = [] → fresh ∉ pool.borrowed)
    (taken : pool.getFreeObj fresh = some (pObj, pool')) : pool'.Balanced := by
  have created := balanced.created
  have used := balanced.used
  cases stored : pool.setObj with
  | nil =>
    rw [getFreeObj_empty stored] at taken
    obtain ⟨⟨room, _⟩, same⟩ := Option.ite_none_right_eq_some.mp taken
    cases same
    rw [stored, List.length_nil] at created
    constructor
    · show (pool.setObj ++ pObj :: pool.borrowed).Nodup
      rw [stored]
      exact List.nodup_cons.mpr ⟨apart stored, balanced.distinct.of_append_right⟩
    · show pool.nNewTotal + 1 = pool.setObj.length + (pObj :: pool.borrowed).length
      rw [stored, List.length_nil, List.length_cons]
      omega
    · show pool.nUseTotal + 1 = (pObj :: pool.borrowed).length
      rw [List.length_cons]
      omega
    · exact room
  | cons first setObj =>
    rw [getFreeObj_first stored] at taken
    obtain ⟨_, same⟩ := Option.ite_none_right_eq_some.mp taken
    cases same
    rw [stored, List.length_cons] at created
    have distinct := balanced.distinct
    rw [stored] at distinct
    constructor
    · exact List.perm_middle.nodup_iff.mpr distinct
    · show pool.nNewTotal = setObj.length + (pObj :: pool.borrowed).length
      rw [List.length_cons]
      omega
    · show pool.nUseTotal + 1 = (pObj :: pool.borrowed).length
      rw [List.length_cons]
      omega
    · exact balanced.small

theorem Balanced.returned (balanced : pool.Balanced) (taken : pObj ∈ pool.borrowed) : (pool.returned pObj).Balanced := by
  have created := balanced.created
  have used := balanced.used
  have outside : pObj ∉ pool.setObj := balanced.accounts.outside pObj taken
  have added : ((pool.called pObj .unInit).insert pObj).setObj.Perm (pObj :: pool.setObj) := insert_perm outside
  have moved : ((pool.returned pObj).setObj ++ (pool.returned pObj).borrowed).Perm (pool.setObj ++ pool.borrowed) :=
    calc ((pool.returned pObj).setObj ++ pool.borrowed.erase pObj).Perm (pObj :: pool.setObj ++ pool.borrowed.erase pObj) :=
          added.append_right _
      _ |>.Perm (pool.setObj ++ pObj :: pool.borrowed.erase pObj) := List.perm_middle.symm
      _ |>.Perm (pool.setObj ++ pool.borrowed) := (List.perm_cons_erase taken).symm.append_left _
  have lengths := moved.length_eq
  have erased := List.length_erase_of_mem taken
  have some := List.length_pos_of_mem taken
  simp only [List.length_append] at lengths
  constructor
  · exact moved.nodup_iff.mpr balanced.distinct
  · show pool.nNewTotal = _
    omega
  · show pool.nUseTotal - 1 = (pool.borrowed.erase pObj).length
    omega
  · exact balanced.small

/-- `UnInit` finds nothing to delete, and no counter overflows. -/
def Careful (pool : SetObjPool) : PoolOp → Prop
  | .init fresh => pool.nNewTotal + fresh.length < 2 ^ 31
  | .unInit => pool.setObj = []
  | .getFreeObj _ => pool.setObj = [] → pool.nNewTotal + 1 < 2 ^ 31
  | .releaseObj _ => True

theorem Balanced.apply (balanced : pool.Balanced) {op : PoolOp} (permitted : Permitted pool op) (keeps : op ≠ .unInit)
    (taken : pool.apply op = some pool') : pool'.Balanced := by
  cases op with
  | init fresh => exact balanced.init permitted.1 permitted.2 taken
  | unInit => exact absurd rfl keeps
  | getFreeObj fresh =>
    obtain ⟨⟨pObj, pool''⟩, found, same⟩ := Option.map_eq_some_iff.mp taken
    cases same
    exact balanced.getFreeObj permitted found
  | releaseObj pObj =>
    cases pObj with
    | none =>
      cases Option.some.inj taken
      exact balanced
    | some pObj =>
      obtain ⟨_, same⟩ := Option.ite_none_right_eq_some.mp ((releaseObj_eq pool pObj).symm.trans taken)
      cases same
      exact balanced.returned permitted

theorem Balanced.apply_isSome (balanced : pool.Balanced) {op : PoolOp} (careful : Careful pool op) :
    (pool.apply op).isSome := by
  have created := balanced.created
  have used := balanced.used
  have small := balanced.small
  cases op with
  | init fresh => exact (init_isSome small).mpr careful
  | unInit => rfl
  | getFreeObj fresh =>
    rw [SetObjPool.apply, Option.isSome_map]
    cases stored : pool.setObj with
    | nil =>
      have room := careful stored
      rw [getFreeObj_empty stored, if_pos ⟨room, by omega⟩]
      rfl
    | cons first setObj =>
      rw [stored, List.length_cons] at created
      rw [getFreeObj_first stored, if_pos (by omega)]
      rfl
  | releaseObj pObj =>
    cases pObj with
    | none => rfl
    | some pObj =>
      rw [SetObjPool.apply, releaseObj_eq, if_pos (by omega)]
      rfl

theorem Balanced.unInit (balanced : pool.Balanced) (empty : pool.setObj = []) : pool.unInit = pool := by
  obtain ⟨setObj, nNewTotal, nUseTotal, calls, borrowed, unused⟩ := pool
  cases empty
  rfl

/-- Deleted objects count as used from then on. -/
theorem Balanced.unInit_unaccounted (balanced : pool.Balanced) (some : pool.setObj ≠ []) : ¬ pool.unInit.Accounts := by
  intro accounts
  obtain ⟨empty, created, _, borrowed⟩ := unInitLoop_eq pool pool.setObj
  have told := accounts.getUseTotal
  have before := balanced.created
  have positive := List.length_pos_iff.mpr some
  rw [SetObjPool.getUseTotal, SetObjPool.unInit, empty, created, borrowed] at told
  have none : (BitVec.ofNat 32 ([] : List ObjPtr).length).toInt = 0 := rfl
  omega

/-- The counters are right as long as `UnInit` deletes nothing and fewer than
    `2 ^ 31` objects are created. -/
theorem pool_accounts_iff (ops : List PoolOp) (permitted : Along SetObjPool.apply Permitted new ops) :
    Transition.Throughout SetObjPool.apply Accounts new ops ∧ Completes SetObjPool.apply new ops ↔
      Along SetObjPool.apply Careful new ops := by
  refine throughout_completes_iff_along (I := Balanced) (fun _ => Balanced.accounts) ?_ ?_ new_balanced permitted
  · intro pool op balanced permitted careful
    obtain ⟨pool', taken⟩ := Option.isSome_iff_exists.mp (balanced.apply_isSome careful)
    refine ⟨pool', taken, ?_⟩
    by_cases deletes : op = .unInit
    · subst deletes
      cases Option.some.inj taken
      rwa [balanced.unInit careful]
    · exact balanced.apply permitted deletes taken
  · intro pool op pool' balanced permitted careless taken
    cases op with
    | init fresh => exact absurd ((init_isSome balanced.small).mp (Option.isSome_iff_exists.mpr ⟨_, taken⟩)) careless
    | unInit =>
      cases Option.some.inj taken
      exact balanced.unInit_unaccounted careless
    | getFreeObj fresh =>
      obtain ⟨stored, full⟩ := Classical.not_imp.mp careless
      rw [SetObjPool.apply, getFreeObj_empty stored, if_neg fun both => full both.1] at taken
      cases taken
    | releaseObj pObj => exact absurd trivial careless

/-- Two objects come and go. -/
theorem two_objects_accounted :
    Transition.Throughout SetObjPool.apply Accounts new [.init [7, 3], .getFreeObj 1, .releaseObj (some 3)] ∧
      Completes SetObjPool.apply new [.init [7, 3], .getFreeObj 1, .releaseObj (some 3)] := by
  refine (pool_accounts_iff _ ?_).mpr ?_
  · refine ⟨by simp [Permitted, new], ?_⟩
    rintro _ ⟨⟩
    refine ⟨nofun, ?_⟩
    rintro _ ⟨⟩
    exact ⟨List.mem_singleton_self 3, fun _ _ => trivial⟩
  · refine ⟨by simp [Careful, new], ?_⟩
    rintro _ ⟨⟩
    refine ⟨nofun, ?_⟩
    rintro _ ⟨⟩
    exact ⟨trivial, fun _ _ => trivial⟩

theorem deleted_objects_used : ¬ ∀ ops, Along SetObjPool.apply Permitted new ops →
    Transition.Throughout SetObjPool.apply Accounts new ops := by
  intro always
  have permitted : Along SetObjPool.apply Permitted new [.init [7, 3], .unInit] := by
    refine ⟨by simp [Permitted, new], ?_⟩
    rintro _ ⟨⟩
    exact ⟨trivial, fun _ _ => trivial⟩
  have told := (((always _ permitted).2 _ rfl).2 _ rfl).getUseTotal
  cases told

end SetObjPool

end LiteServer.Util
