import LiteServer.Timer.Refinement
import Mathlib.Algebra.Order.BigOperators.Group.List
import Mathlib.Algebra.Order.Ring.Nat

/-!
`UpdateTime` on top of the threads: a clock reading decides how many calls of
`Update` follow. The number goes through an `int`, so that the wheel keeps in
step with the clock as long as the clock never jumps `2 ^ 31` ticks ahead.
-/
namespace LiteServer.Timer
open Transition

/-- The thread that calls `UpdateTime`. `point` is `m_uCurrentPoint`, `i` and
    `diff` the locals of the loop; `readings` and `updates` only record what
    `GetTime` returned and how often `Update` was called. -/
structure Clocked where
  system : System
  point : BitVec 64
  i : Int
  diff : Int
  readings : List (BitVec 64)
  updates : Nat

/-- The constructor took the reading `point`. -/
def Clocked.start (point : BitVec 64) (uTime : BitVec 32) : Clocked := ⟨.start uTime, point, 0, 0, [], 0⟩

/-- The last call of `UpdateTime` is over. -/
def Clocked.Returned (c : Clocked) : Prop := c.system.pc = .idle ∧ c.diff ≤ c.i

instance (c : Clocked) : Decidable c.Returned := inferInstanceAs (Decidable (_ ∧ _))

/-- `UpdateTime` up to its loop. -/
def Clocked.updateTime (c : Clocked) (cur_time : BitVec 64) : Clocked :=
  let c := { c with readings := c.readings ++ [cur_time] }
  if cur_time < c.point then { c with point := cur_time }
  else if cur_time ≠ c.point then
    { c with diff := ((cur_time - c.point).setWidth 32).toInt, point := cur_time, i := 0 }
  else c

/-- A step of an `Update` that the loop calls. -/
def Clocked.update (c : Clocked) : Option Clocked :=
  if c.Returned then none
  else do
    let system ← timerStep c.system
    return { c with
      system := system
      i := if system.pc = .idle then c.i + 1 else c.i
      updates := if c.system.pc = .idle then c.updates + 1 else c.updates }

/-- One step of this thread, or of one inside `AddTimer`. -/
inductive Clocked.Step : Clocked → Clocked → Prop where
  | updateTime {c : Clocked} (cur_time : BitVec 64) : c.Returned → Step c (c.updateTime cur_time)
  | update {c c' : Clocked} : c.update = some c' → Step c c'
  | allocate {c : Clocked} (call : Adding) (junk : BitVec 32) : Fresh c.system call →
      Step c { c with system := allocate c.system call junk }
  | addTimer {c : Clocked} {s : System} (call : Adding) : call ∈ c.system.adding → addTimer c.system call = some s →
      Step c { c with system := s }

def Clocked.Reachable (point : BitVec 64) (uTime : BitVec 32) : Clocked → Prop :=
  Transition.Reachable (fun c => c = Clocked.start point uTime) Clocked.Step

/-- By how much each reading is ahead of the one before it. -/
def advances (last : BitVec 64) : List (BitVec 64) → List Nat
  | [] => []
  | cur_time :: rest => (cur_time.toNat - last.toNat) :: advances cur_time rest

/-- The clock and the wheel agree: as many updates as the readings advanced. -/
structure Clocked.InStep (c : Clocked) (point : BitVec 64) (uTime : BitVec 32) : Prop where
  updates : c.updates = (advances point c.readings).sum
  uTime : c.system.timer.uTime = uTime + BitVec.ofNat 32 (advances point c.readings).sum
  point : c.point = c.readings.getLastD point

/-! ### Counting updates -/

theorem advances_snoc (last cur_time : BitVec 64) (readings : List (BitVec 64)) :
    advances last (readings ++ [cur_time]) =
      advances last readings ++ [cur_time.toNat - (readings.getLastD last).toNat] := by
  induction readings generalizing last with
  | nil => rfl
  | cons reading rest ih =>
    rw [List.cons_append, advances, ih, advances, List.cons_append]
    cases rest <;> rfl

/-- The iterations of the loop for an advance of the clock. -/
def rounds (advance : Nat) : Nat := (BitVec.ofNat 32 advance).toInt.toNat

theorem rounds_le (advance : Nat) : rounds advance ≤ advance := by
  rw [rounds, BitVec.toInt_eq_toNat_cond, BitVec.toNat_ofNat]
  split <;> omega

theorem rounds_eq_iff (advance : Nat) : rounds advance = advance ↔ advance < 2 ^ 31 := by
  rw [rounds, BitVec.toInt_eq_toNat_cond, BitVec.toNat_ofNat]
  split <;> omega

theorem sum_rounds_eq_iff (jumps : List Nat) : (jumps.map rounds).sum = jumps.sum ↔ ∀ jump ∈ jumps, jump < 2 ^ 31 := by
  constructor
  · intro same jump member
    rw [← rounds_eq_iff]
    by_contra differ
    have fewer := List.sum_lt_sum rounds id (fun n _ => rounds_le n) ⟨jump, member, lt_of_le_of_ne (rounds_le jump) differ⟩
    rw [List.map_id] at fewer
    omega
  · intro short
    rw [List.map_congr_left fun jump member => (rounds_eq_iff jump).mpr (short jump member), List.map_id']

/-- The part of an `Update` before the clock advances. -/
def Pc.unshifted : Pc → Nat
  | .onTimeOut .beforeShift _ _ => 1
  | .deleteCallBack .beforeShift _ _ => 1
  | .freeNode .beforeShift _ _ => 1
  | .relock .beforeShift _ => 1
  | _ => 0

/-- The clock advances once in each `Update`. -/
theorem execute_now {s s' : System} {phase : Phase} {index : Nat} (taken : execute s phase index = some s') :
    s'.now + s'.pc.unshifted = s.now + if phase = .beforeShift then 1 else 0 := by
  have after : ∀ (s s' : System) (index : Nat), execute s .afterShift index = some s' →
      s'.now + s'.pc.unshifted = s.now := by
    intro s s' index taken
    rcases executeLoop_cases taken with ended | ⟨timer, node, rfl⟩
    · cases ended
      rfl
    · rfl
  cases phase with
  | afterShift => exact after s s' index taken
  | beforeShift =>
    rcases executeLoop_cases taken with ended | ⟨timer, node, rfl⟩
    · obtain ⟨shifted, advanced, rest⟩ := Option.bind_eq_some_iff.mp ended
      obtain ⟨timer, _, done⟩ := Option.bind_eq_some_iff.mp advanced
      cases done
      exact after _ s' _ rest
    · rfl

theorem timerStep_now {s s' : System} (taken : timerStep s = some s') :
    s'.now + s'.pc.unshifted = s.now + if s.pc = .idle then 1 else s.pc.unshifted := by
  cases pc : s.pc with
  | idle =>
    rw [timerStep, pc] at taken
    exact execute_now taken
  | onTimeOut phase index list =>
    simp only [timerStep, pc, Option.bind_eq_bind, Option.bind_eq_some_iff] at taken
    obtain ⟨_, _, done⟩ := taken
    cases done
    cases phase <;> rfl
  | deleteCallBack phase index list =>
    simp only [timerStep, pc, Option.bind_eq_bind, Option.bind_eq_some_iff] at taken
    obtain ⟨_, _, done⟩ := taken
    cases done
    cases phase <;> rfl
  | freeNode phase index list =>
    simp only [timerStep, pc, Option.bind_eq_bind, Option.bind_eq_some_iff] at taken
    obtain ⟨node, _, done⟩ := taken
    cases next : node.next <;> simp only [next] at done <;> cases done <;> cases phase <;> rfl
  | relock phase index =>
    rw [timerStep, pc] at taken
    rw [execute_now taken]
    cases phase <;> rfl

/-- The readings, the loop and the clock, at any point of a run. -/
structure Clocked.Counted (c : Clocked) (point : BitVec 64) (uTime : BitVec 32) : Prop where
  inside : c.system.pc ≠ .idle → c.i < c.diff
  left : c.updates + (c.diff - c.i).toNat = ((advances point c.readings).map rounds).sum +
    if c.system.pc = .idle then 0 else 1
  now : c.system.now + c.system.pc.unshifted = uTime.toNat + c.updates
  point : c.point = c.readings.getLastD point
  reachable : Timer.Reachable (fun _ _ => True) uTime c.system

section
variable {point : BitVec 64} {uTime : BitVec 32} {c c' : Clocked}

theorem Clocked.Counted.updateTime (counted : c.Counted point uTime) (returned : c.Returned) (cur_time : BitVec 64) :
    (c.updateTime cur_time).Counted point uTime := by
  obtain ⟨idle, finished⟩ := returned
  have left := counted.left
  rw [if_pos idle] at left
  have last : (c.readings ++ [cur_time]).getLastD point = cur_time := by simp
  have jumps : ((advances point (c.readings ++ [cur_time])).map rounds).sum =
      c.updates + rounds (cur_time.toNat - c.point.toNat) := by
    rw [advances_snoc, List.map_append, List.sum_append, ← counted.point]
    simp only [List.map_cons, List.map_nil, List.sum_cons, List.sum_nil]
    omega
  unfold Clocked.updateTime
  by_cases backward : cur_time < c.point
  · have none : cur_time.toNat - c.point.toNat = 0 := by
      have := BitVec.lt_def.mp backward
      omega
    simp only [if_pos backward]
    refine { counted with left := ?_, point := last.symm }
    rw [jumps, none]
    simp only [idle, if_true]
    show c.updates + (c.diff - c.i).toNat = _
    rw [show rounds 0 = 0 from rfl]
    omega
  · by_cases same : cur_time = c.point
    · have none : cur_time.toNat - c.point.toNat = 0 := by
        rw [same]
        omega
      simp only [if_neg backward, if_neg (not_not.mpr same)]
      refine { counted with left := ?_, point := same.symm.trans last.symm }
      rw [jumps, none]
      simp only [idle, if_true]
      show c.updates + (c.diff - c.i).toNat = _
      rw [show rounds 0 = 0 from rfl]
      omega
    · have forward : (cur_time - c.point).setWidth 32 = BitVec.ofNat 32 (cur_time.toNat - c.point.toNat) := by
        have ahead := mt BitVec.lt_def.mpr backward
        apply BitVec.eq_of_toNat_eq
        simp only [BitVec.toNat_setWidth, BitVec.toNat_sub, BitVec.toNat_ofNat]
        omega
      simp only [if_neg backward, ne_eq, same, not_false_eq_true, if_true, forward]
      refine { counted with inside := fun busy => absurd idle busy, left := ?_, point := last.symm }
      rw [jumps]
      simp only [idle, if_true]
      show c.updates + (_ - 0 : Int).toNat = _
      rw [Int.sub_zero]
      rfl

theorem Clocked.Counted.update (counted : c.Counted point uTime) (taken : c.update = some c') :
    c'.Counted point uTime := by
  unfold Clocked.update at taken
  obtain ⟨running, rest⟩ := Option.ite_none_left_eq_some.mp taken
  obtain ⟨s', stepped, done⟩ := Option.bind_eq_some_iff.mp rest
  cases done
  have now := timerStep_now stepped
  have left := counted.left
  have before := counted.now
  have inside : c.i < c.diff := by
    by_cases idle : c.system.pc = .idle
    · by_contra finished
      exact running ⟨idle, by omega⟩
    · exact counted.inside idle
  refine ⟨?_, ?_, ?_, counted.point, counted.reachable.next (.timer stepped)⟩
  · intro busy
    simpa only [if_neg busy] using inside
  · by_cases ended : s'.pc = .idle <;> by_cases idle : c.system.pc = .idle <;>
      simp only [ended, idle, if_true, if_false] at left ⊢ <;> omega
  · by_cases idle : c.system.pc = .idle
    · rw [if_pos idle] at now
      have done : c.system.pc.unshifted = 0 := by rw [idle]; rfl
      simp only [if_pos idle]
      omega
    · rw [if_neg idle] at now
      simp only [if_neg idle]
      omega

theorem Clocked.Step.counted (taken : Clocked.Step c c') (counted : c.Counted point uTime) : c'.Counted point uTime := by
  cases taken with
  | updateTime cur_time returned => exact counted.updateTime returned cur_time
  | update taken => exact counted.update taken
  | allocate call junk fresh =>
    exact ⟨counted.inside, counted.left, counted.now, counted.point, counted.reachable.next (.allocate call junk fresh)⟩
  | addTimer call called added =>
    obtain ⟨node, _, rest⟩ := Option.bind_eq_some_iff.mp added
    obtain ⟨timer, _, done⟩ := Option.bind_eq_some_iff.mp rest
    cases done
    exact ⟨counted.inside, counted.left, counted.now, counted.point,
      counted.reachable.next (.addTimer call called trivial added)⟩

theorem Clocked.Reachable.counted (reached : Clocked.Reachable point uTime c) : c.Counted point uTime := by
  refine Transition.Reachable.invariant (P := fun c => c.Counted point uTime) ?_
    (fun _ _ _ counted taken => taken.counted counted) reached
  rintro _ rfl
  exact ⟨fun busy => absurd rfl busy, rfl, rfl, rfl, .start rfl⟩

end

/-- The wheel keeps in step with the clock exactly as long as no reading is
    `2 ^ 31` ticks or more ahead of the one before it. -/
theorem clock_in_step_iff (point : BitVec 64) (uTime : BitVec 32) (c : Clocked)
    (reached : Clocked.Reachable point uTime c) (returned : c.Returned) :
    c.InStep point uTime ↔ ∀ jump ∈ advances point c.readings, jump < 2 ^ 31 := by
  have counted := reached.counted
  obtain ⟨w, S, D, _, refines⟩ := counted.reachable.refines
  obtain ⟨idle, finished⟩ := returned
  have updates : c.updates = ((advances point c.readings).map rounds).sum := by
    have left := counted.left
    rw [if_pos idle] at left
    omega
  have now : c.system.now = uTime.toNat + c.updates := by
    have now := counted.now
    rw [idle] at now
    exact now
  rw [← sum_rounds_eq_iff, ← updates]
  refine ⟨Clocked.InStep.updates, fun same => ⟨same, ?_, counted.point⟩⟩
  rw [refines.uTime, Wheel.uTime, refines.now, now, same]
  apply BitVec.eq_of_toNat_eq
  simp only [BitVec.toNat_ofNat, BitVec.toNat_add]
  omega

/-! ### Runs of one thread -/

def Clocked.steps : Nat → Clocked → Option Clocked
  | 0, c => some c
  | n + 1, c => c.update >>= steps n

theorem Clocked.steps_reachable {point : BitVec 64} {uTime : BitVec 32} {n : Nat} {c c' : Clocked}
    (reached : Clocked.Reachable point uTime c) (run : c.steps n = some c') : Clocked.Reachable point uTime c' := by
  induction n generalizing c with
  | zero =>
    cases Option.some.inj run
    exact reached
  | succ n ih =>
    obtain ⟨after, taken, rest⟩ := Option.bind_eq_some_iff.mp run
    exact ih (reached.next (.update taken)) rest

/-- Two ticks, a step of the clock back, and one tick. -/
theorem three_ticks_in_step : ∃ c, Clocked.Reachable 5 0 c ∧ c.Returned ∧ c.readings = [7, 3, 4] ∧ c.updates = 3 ∧
    c.InStep 5 0 := by
  let two := ((Clocked.start 5 0).updateTime 7).steps 2
  have reachedTwo : Clocked.Reachable 5 0 (two.get (by decide)) :=
    Clocked.steps_reachable (Transition.Reachable.next (.start rfl) (.updateTime 7 (by decide))) (Option.some_get _).symm
  let three := (((two.get (by decide)).updateTime 3).updateTime 4).steps 1
  have reachedThree : Clocked.Reachable 5 0 (three.get (by decide)) :=
    Clocked.steps_reachable ((reachedTwo.next (.updateTime 3 (by decide))).next (.updateTime 4 (by decide)))
      (Option.some_get _).symm
  exact ⟨_, reachedThree, by decide, by decide, by decide,
    (clock_in_step_iff 5 0 _ reachedThree (by decide)).mpr (by decide)⟩

/-- A reading `2 ^ 31` ticks ahead is followed by no update. -/
theorem far_jump_out_of_step : ¬ ∀ (point : BitVec 64) (uTime : BitVec 32) (c : Clocked),
    Clocked.Reachable point uTime c → c.Returned → c.InStep point uTime := by
  intro always
  have reached : Clocked.Reachable 0 0 ((Clocked.start 0 0).updateTime (2 ^ 31)) :=
    Transition.Reachable.next (.start rfl) (.updateTime _ (by decide))
  have inStep := always 0 0 _ reached (by decide)
  exact absurd inStep.updates (by decide)

end LiteServer.Timer
