import LiteServer.Util.SetObjPool

/-!
What the objects of a `SetObjPool` see: `Init` when they are made and whenever
they are handed out, and `UnInit` when they are released. An object that the
`Init` of the pool made sees two in a row.
-/
namespace LiteServer.Util
open Transition

/-- `Init`, `UnInit`, `Init` and so on. -/
def lifecycle (n : Nat) : List ObjCall := (List.range n).map fun i => if i % 2 = 0 then .init else .unInit

theorem lifecycle_succ (n : Nat) :
    lifecycle (n + 1) = lifecycle n ++ [if n % 2 = 0 then .init else .unInit] := by
  rw [lifecycle, lifecycle, List.range_succ, List.map_append, List.map_singleton]

theorem lifecycle_init (k : Nat) : lifecycle (2 * k) ++ [.init] = lifecycle (2 * k + 1) := by
  rw [lifecycle_succ, if_pos (by omega)]

theorem lifecycle_unInit (k : Nat) : lifecycle (2 * k + 1) ++ [.unInit] = lifecycle (2 * (k + 1)) := by
  rw [show 2 * (k + 1) = 2 * k + 1 + 1 by omega, lifecycle_succ (2 * k + 1), if_neg (by omega)]

theorem lifecycle_twice (k m : Nat) : lifecycle (2 * k + 1) ++ [.init] ≠ lifecycle m := by
  intro same
  have length := congrArg List.length same
  simp only [lifecycle, List.length_append, List.length_map, List.length_range, List.length_singleton] at length
  subst length
  rw [show 2 * k + 1 + 1 = 2 * (k + 1) by omega, ← lifecycle_unInit, List.append_cancel_left_eq] at same
  cases same

namespace SetObjPool
variable {pool pool' : SetObjPool} {pObj fresh : ObjPtr}

/-- What each object saw alternates, and a borrower has an initialised one. -/
structure Alternates (pool : SetObjPool) : Prop where
  calls : ∀ pObj, ∃ n, pool.calls pObj = lifecycle n
  handedOut : ∀ pObj ∈ pool.borrowed, (pool.calls pObj).getLast? = some .init

structure Cycled (pool : SetObjPool) : Prop where
  balanced : pool.Balanced
  calls : ∀ pObj, ∃ n, pool.calls pObj = lifecycle n
  initialised : ∀ pObj, pObj ∈ pool.borrowed ∨ pObj ∈ pool.unused → ∃ k, pool.calls pObj = lifecycle (2 * k + 1)
  finished : ∀ pObj ∈ pool.setObj, pObj ∉ pool.unused → ∃ k, pool.calls pObj = lifecycle (2 * k)
  pooled : ∀ pObj ∈ pool.unused, pObj ∈ pool.setObj

theorem new_cycled : new.Cycled where
  balanced := new_balanced
  calls _ := ⟨0, rfl⟩
  initialised := by simp [new]
  finished := by simp [new]
  pooled := by simp [new]

theorem Cycled.alternates (cycled : pool.Cycled) : pool.Alternates where
  calls := cycled.calls
  handedOut pObj taken := by
    obtain ⟨k, calls⟩ := cycled.initialised pObj (.inl taken)
    rw [calls, ← lifecycle_init, List.getLast?_concat]

/-- One object saw a call, and the others are where they were. -/
theorem Cycled.moved (cycled : pool.Cycled) (balanced : pool'.Balanced) {calls : List ObjCall} {n : Nat}
    (seen : pool'.calls = Function.update pool.calls pObj calls) (whole : calls = lifecycle n)
    (out : pObj ∈ pool'.borrowed ∨ pObj ∈ pool'.unused → ∃ k, n = 2 * k + 1)
    (back : pObj ∈ pool'.setObj → pObj ∉ pool'.unused → ∃ k, n = 2 * k)
    (borrowed : ∀ other, other ≠ pObj → other ∈ pool'.borrowed → other ∈ pool.borrowed)
    (unused : ∀ other, other ≠ pObj → (other ∈ pool'.unused ↔ other ∈ pool.unused))
    (setObj : ∀ other, other ≠ pObj → (other ∈ pool'.setObj ↔ other ∈ pool.setObj))
    (pooled : pObj ∈ pool'.unused → pObj ∈ pool'.setObj) : pool'.Cycled where
  balanced := balanced
  calls other := by
    rw [seen, Function.update_apply]
    split
    · exact ⟨n, whole⟩
    · exact cycled.calls other
  initialised other outside := by
    rw [seen, Function.update_apply]
    split
    · rename_i same
      obtain ⟨k, rfl⟩ := out (same ▸ outside)
      exact ⟨k, whole⟩
    · rename_i differ
      exact cycled.initialised other (outside.imp (borrowed other differ) (unused other differ).mp)
  finished other stored used := by
    rw [seen, Function.update_apply]
    split
    · rename_i same
      subst same
      obtain ⟨k, rfl⟩ := back stored used
      exact ⟨k, whole⟩
    · rename_i differ
      exact cycled.finished other ((setObj other differ).mp stored) (mt (unused other differ).mpr used)
  pooled other member := by
    by_cases same : other = pObj
    · subst same
      exact pooled member
    · exact (setObj other same).mpr (cycled.pooled other ((unused other same).mp member))

theorem Cycled.inserted (cycled : pool.Cycled) (outside : pObj ∉ pool.setObj ++ pool.borrowed)
    (room : pool.nNewTotal + 1 < 2 ^ 31) :
    ({ (pool.made pObj).insert pObj with unused := pObj :: pool.unused } : SetObjPool).Cycled := by
  have added : ((pool.made pObj).insert pObj).setObj.Perm (pObj :: pool.setObj) :=
    insert_perm fun member => outside (List.mem_append_left _ member)
  refine cycled.moved (n := 1) (cycled.balanced.inserted outside room) rfl rfl ?_ ?_ ?_ ?_ ?_ ?_
  · exact fun _ => ⟨0, rfl⟩
  · exact fun _ used => absurd List.mem_cons_self used
  · exact fun other _ member => member
  · intro other differ
    exact List.mem_cons.trans (or_iff_right differ)
  · intro other differ
    exact added.mem_iff.trans (List.mem_cons.trans (or_iff_right differ))
  · exact fun _ => added.mem_iff.mpr List.mem_cons_self

theorem Cycled.init (cycled : pool.Cycled) {fresh : List ObjPtr} (once : fresh.Nodup)
    (apart : ∀ pObj ∈ fresh, pObj ∉ pool.setObj ++ pool.borrowed) (created : pool.init fresh = some pool') :
    pool'.Cycled := by
  induction fresh generalizing pool with
  | nil =>
    cases Option.some.inj created
    exact cycled
  | cons pObj fresh ih =>
    obtain ⟨absent, once⟩ := List.nodup_cons.mp once
    obtain ⟨outside, apart⟩ := List.forall_mem_cons.mp apart
    rw [SetObjPool.init, newObj_eq] at created
    split at created
    · rename_i room
      exact ih (cycled.inserted outside room) once (inserted_apart outside absent apart) created
    · cases created

/-- What `GetFreeObj` makes of an object: nobody has it, and it saw no `Init`
    since its last `UnInit`. -/
theorem Cycled.reused (cycled : pool.Cycled) {setObj : List ObjPtr} (first : pool.setObj = pObj :: setObj)
    (renews : pObj ∉ pool.unused) (balanced : ((pool.reused pObj setObj).handed pObj).Balanced) :
    ((pool.reused pObj setObj).handed pObj).Cycled := by
  have stored : pObj ∈ pool.setObj := by simp [first]
  obtain ⟨k, calls⟩ := cycled.finished pObj stored renews
  have kept : pool.unused.erase pObj = pool.unused := List.erase_of_not_mem renews
  refine cycled.moved (n := 2 * k + 1) balanced rfl ((congrArg (· ++ [.init]) calls).trans (lifecycle_init k)) ?_ ?_ ?_ ?_ ?_ ?_
  · exact fun _ => ⟨k, rfl⟩
  · exact fun stored _ => absurd stored (balanced.accounts.outside pObj List.mem_cons_self)
  · exact fun other differ member => List.mem_of_ne_of_mem differ member
  · intro other differ
    show other ∈ pool.unused.erase pObj ↔ _
    rw [kept]
  · intro other differ
    show other ∈ setObj ↔ other ∈ pool.setObj
    rw [first, List.mem_cons, or_iff_right differ]
  · intro used
    exact absurd (List.mem_of_mem_erase used) renews

theorem Cycled.getFreeObj (cycled : pool.Cycled) (permitted : pool.setObj = [] → fresh ∉ pool.borrowed)
    (renews : ∀ first, pool.setObj.head? = some first → first ∉ pool.unused)
    (taken : pool.getFreeObj fresh = some (pObj, pool')) : pool'.Cycled := by
  have balanced := cycled.balanced.getFreeObj permitted taken
  cases stored : pool.setObj with
  | nil =>
    rw [getFreeObj_empty stored] at taken
    obtain ⟨_, same⟩ := Option.ite_none_right_eq_some.mp taken
    cases same
    have none : ∀ other, other ∉ pool.unused := fun other used => by simpa [stored] using cycled.pooled other used
    refine cycled.moved (n := 1) balanced rfl rfl ?_ ?_ ?_ ?_ ?_ ?_
    · exact fun _ => ⟨0, rfl⟩
    · exact fun inside _ => absurd inside (balanced.accounts.outside pObj List.mem_cons_self)
    · exact fun other differ member => List.mem_of_ne_of_mem differ member
    · exact fun other _ => Iff.rfl
    · exact fun other _ => Iff.rfl
    · exact fun used => absurd used (none pObj)
  | cons first setObj =>
    rw [getFreeObj_first stored] at taken
    obtain ⟨_, same⟩ := Option.ite_none_right_eq_some.mp taken
    cases same
    exact cycled.reused stored (renews pObj (by simp [stored])) balanced

theorem Cycled.returned (cycled : pool.Cycled) (taken : pObj ∈ pool.borrowed) : (pool.returned pObj).Cycled := by
  obtain ⟨k, calls⟩ := cycled.initialised pObj (.inl taken)
  have outside : pObj ∉ pool.setObj := cycled.balanced.accounts.outside pObj taken
  have unused : pObj ∉ pool.unused := fun used => outside (cycled.pooled pObj used)
  have added : ((pool.called pObj .unInit).insert pObj).setObj.Perm (pObj :: pool.setObj) := insert_perm outside
  refine cycled.moved (n := 2 * (k + 1)) (cycled.balanced.returned taken) rfl
    ((congrArg (· ++ [.unInit]) calls).trans (lifecycle_unInit k)) ?_ ?_ ?_ ?_ ?_ ?_
  · rintro (borrowed | used)
    · exact absurd borrowed (List.Nodup.not_mem_erase cycled.balanced.accounts.once)
    · exact absurd used unused
  · exact fun _ _ => ⟨k + 1, rfl⟩
  · exact fun other _ member => List.mem_of_mem_erase member
  · exact fun other _ => Iff.rfl
  · intro other differ
    exact added.mem_iff.trans (List.mem_cons.trans (or_iff_right differ))
  · exact fun _ => added.mem_iff.mpr List.mem_cons_self

/-- `GetFreeObj` hands out no object that the `Init` of the pool made, unless it
    was handed out before. -/
def Renews (pool : SetObjPool) : PoolOp → Prop
  | .getFreeObj _ => ∀ first, pool.setObj.head? = some first → first ∉ pool.unused
  | _ => True

theorem Cycled.apply (cycled : pool.Cycled) {op : PoolOp} (permitted : Permitted pool op) (keeps : op ≠ .unInit)
    (renews : Renews pool op) (taken : pool.apply op = some pool') : pool'.Cycled := by
  cases op with
  | init fresh => exact cycled.init permitted.1 permitted.2 taken
  | unInit => exact absurd rfl keeps
  | getFreeObj fresh =>
    obtain ⟨⟨pObj, pool''⟩, found, same⟩ := Option.map_eq_some_iff.mp taken
    cases same
    exact cycled.getFreeObj permitted renews found
  | releaseObj pObj =>
    cases pObj with
    | none =>
      cases Option.some.inj taken
      exact cycled
    | some pObj =>
      obtain ⟨_, same⟩ := Option.ite_none_right_eq_some.mp ((releaseObj_eq pool pObj).symm.trans taken)
      cases same
      exact cycled.returned permitted

/-- An object of `Init` that was not handed out before sees a second `Init`. -/
theorem Cycled.twice (cycled : pool.Cycled) {op : PoolOp} (missed : ¬ Renews pool op) :
    ∃ pool', pool.apply op = some pool' ∧ ¬ pool'.Alternates := by
  cases op with
  | getFreeObj fresh =>
    obtain ⟨pObj, missed⟩ := not_forall.mp missed
    obtain ⟨front, used⟩ := Classical.not_imp.mp missed
    obtain ⟨setObj, first⟩ := List.head?_eq_some_iff.mp front
    obtain ⟨k, calls⟩ := cycled.initialised pObj (.inr (not_not.mp used))
    have created := cycled.balanced.created
    have counted := cycled.balanced.used
    have small := cycled.balanced.small
    rw [first, List.length_cons] at created
    refine ⟨(pool.reused pObj setObj).handed pObj, ?_, fun alternates => ?_⟩
    · rw [SetObjPool.apply, getFreeObj_first first, if_pos (by omega)]
      rfl
    · obtain ⟨n, seen⟩ := alternates.calls pObj
      refine lifecycle_twice k n (Eq.trans ?_ seen)
      show _ = Function.update pool.calls pObj (pool.calls pObj ++ [.init]) pObj
      rw [Function.update_self, calls]
  | init => exact absurd trivial missed
  | unInit => exact absurd trivial missed
  | releaseObj => exact absurd trivial missed

/-- The calls on each object alternate exactly as long as no object of `Init` is
    handed out for the first time. -/
theorem pool_alternates_iff (ops : List PoolOp) (keeps : .unInit ∉ ops)
    (permitted : Along SetObjPool.apply Permitted new ops) :
    Transition.Throughout SetObjPool.apply Alternates new ops ↔ Along SetObjPool.apply Renews new ops := by
  have allowed := permitted.and (R := (· ≠ .unInit)) fun op member same => keeps (same ▸ member)
  refine throughout_iff_along (I := Cycled) (fun _ => Cycled.alternates) ?_ ?_ new_cycled allowed
  · intro pool op pool' cycled allowed renews taken
    exact cycled.apply allowed.1 allowed.2 renews taken
  · exact fun pool op cycled _ missed => cycled.twice missed

/-- An object is lent twice, while one of `Init` stays behind it. -/
theorem object_lent_twice : Transition.Throughout SetObjPool.apply Alternates new
    [.getFreeObj 1, .init [5], .releaseObj (some 1), .getFreeObj 9] := by
  refine (pool_alternates_iff _ (by simp) ?_).mpr ?_
  · refine ⟨by simp [Permitted, new], ?_⟩
    rintro _ ⟨⟩
    refine ⟨by simp [Permitted, called, new], ?_⟩
    rintro _ ⟨⟩
    refine ⟨List.mem_singleton_self 1, ?_⟩
    rintro _ ⟨⟩
    exact ⟨fun empty => absurd empty (List.cons_ne_nil 1 [5]), fun _ _ => trivial⟩
  · refine ⟨by simp [Renews, new], ?_⟩
    rintro _ ⟨⟩
    refine ⟨trivial, ?_⟩
    rintro _ ⟨⟩
    refine ⟨trivial, ?_⟩
    rintro _ ⟨⟩
    refine ⟨?_, fun _ _ => trivial⟩
    rintro _ ⟨⟩
    decide

theorem preallocated_initialised_twice : ¬ ∀ ops, .unInit ∉ ops → Along SetObjPool.apply Permitted new ops →
    Transition.Throughout SetObjPool.apply Alternates new ops := by
  intro always
  have permitted : Along SetObjPool.apply Permitted new [.init [7], .getFreeObj 1] := by
    refine ⟨by simp [Permitted, new], ?_⟩
    rintro _ ⟨⟩
    exact ⟨fun empty => absurd empty (List.cons_ne_nil 7 []), fun _ _ => trivial⟩
  obtain ⟨n, seen⟩ := ((always _ (by simp) permitted).2 _ rfl).2 _ rfl |>.calls 7
  exact lifecycle_twice 0 n seen

end SetObjPool

end LiteServer.Util
