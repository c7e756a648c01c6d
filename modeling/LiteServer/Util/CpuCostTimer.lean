import LiteServer.Lib.Stopwatch
import Mathlib.Data.BitVec

/-!
`CpuCostTimer` of `engine/util`. The readings of the clocks are arbitrary.
-/
namespace LiteServer.Util
open Stopwatch

@[ext]
structure CpuTimes where
  twall : BitVec 64
  tuser : BitVec 64
  tsystem : BitVec 64
  deriving DecidableEq, Repr

/-! Times are added and subtracted in each field, modulo `2 ^ 64`. -/

instance : Zero CpuTimes := ⟨⟨0, 0, 0⟩⟩
instance : Add CpuTimes := ⟨fun a b => ⟨a.twall + b.twall, a.tuser + b.tuser, a.tsystem + b.tsystem⟩⟩
instance : Neg CpuTimes := ⟨fun a => ⟨-a.twall, -a.tuser, -a.tsystem⟩⟩
instance : Sub CpuTimes := ⟨fun a b => ⟨a.twall - b.twall, a.tuser - b.tuser, a.tsystem - b.tsystem⟩⟩

instance : AddCommGroup CpuTimes where
  nsmul := nsmulRec
  zsmul := zsmulRec
  add_assoc _ _ _ := CpuTimes.ext (add_assoc _ _ _) (add_assoc _ _ _) (add_assoc _ _ _)
  zero_add _ := CpuTimes.ext (zero_add _) (zero_add _) (zero_add _)
  add_zero _ := CpuTimes.ext (add_zero _) (add_zero _) (add_zero _)
  sub_eq_add_neg _ _ := CpuTimes.ext (sub_eq_add_neg _ _) (sub_eq_add_neg _ _) (sub_eq_add_neg _ _)
  neg_add_cancel _ := CpuTimes.ext (neg_add_cancel _) (neg_add_cancel _) (neg_add_cancel _)
  add_comm _ _ := CpuTimes.ext (add_comm _ _) (add_comm _ _) (add_comm _ _)

structure CpuCostTimer where
  times : CpuTimes
  bStop : Bool
  deriving DecidableEq, Repr

namespace CpuCostTimer

/-- In each operation `now` is what `GetCpuTimes` would read. -/
def start (_ : CpuCostTimer) (now : CpuTimes) : CpuCostTimer := ⟨now, false⟩

def isStoped (timer : CpuCostTimer) : Bool := timer.bStop

def stop (timer : CpuCostTimer) (now : CpuTimes) : CpuCostTimer :=
  if timer.isStoped then timer else ⟨now - timer.times, true⟩

def resume (timer : CpuCostTimer) (now : CpuTimes) : CpuCostTimer :=
  if !timer.isStoped then timer
  else
    let cur := timer.times
    let timer := timer.start now
    { timer with times := timer.times - cur }

def elapsed (timer : CpuCostTimer) (now : CpuTimes) : CpuTimes × CpuCostTimer :=
  if timer.isStoped then (timer.times, timer) else (now - timer.times, timer)

end CpuCostTimer

/-! ### Runs -/

inductive TimerCall where
  | start
  | stop
  | resume
  | elapsed
  deriving DecidableEq, Repr

/-- The timer after a call, and what the call returns. -/
def CpuCostTimer.call (timer : CpuCostTimer) (now : CpuTimes) : TimerCall → Option CpuTimes × CpuCostTimer
  | .start => (none, timer.start now)
  | .stop => (none, timer.stop now)
  | .resume => (none, timer.resume now)
  | .elapsed =>
    let (cur, timer) := timer.elapsed now
    (some cur, timer)

/-- What the `Elapsed` calls of a run return, each call with its reading. -/
def CpuCostTimer.run (timer : CpuCostTimer) : List (TimerCall × CpuTimes) → List CpuTimes
  | [] => []
  | (call, now) :: calls =>
    let (cur, timer) := timer.call now call
    cur.toList ++ timer.run calls

/-! ### The stretches it measures -/

/-- The stretches after a call; `Start` forgets those before it. -/
def stretchesAfter (s : Stretches CpuTimes) (now : CpuTimes) : TimerCall → Stretches CpuTimes
  | .start => .start now
  | .stop => s.stop now
  | .resume => s.resume now
  | .elapsed => s

/-- What the stretches took at each `Elapsed` call. -/
def measurements (s : Stretches CpuTimes) : List (TimerCall × CpuTimes) → List CpuTimes
  | [] => []
  | (call, now) :: calls =>
    let cur := if call = .elapsed then [s.measured now] else []
    cur ++ measurements (stretchesAfter s now call) calls

section
variable {timer : CpuCostTimer} {s : Stretches CpuTimes}

def CpuCostTimer.Measures (timer : CpuCostTimer) (s : Stretches CpuTimes) : Prop := Keeps timer.times timer.bStop s

theorem CpuCostTimer.Measures.call (measures : timer.Measures s) (now : CpuTimes) (call : TimerCall) :
    (timer.call now call).1.toList = (if call = .elapsed then [s.measured now] else []) ∧
      (timer.call now call).2.Measures (stretchesAfter s now call) := by
  obtain ⟨times, bStop⟩ := timer
  cases call with
  | start => exact ⟨rfl, keeps_start now⟩
  | stop =>
    refine ⟨rfl, ?_⟩
    cases bStop with
    | false => exact Keeps.stop measures now
    | true =>
      rw [stretchesAfter, Keeps.stop_again measures now]
      exact measures
  | resume =>
    refine ⟨rfl, ?_⟩
    cases bStop with
    | false =>
      rw [stretchesAfter, Keeps.resume_again measures now]
      exact measures
    | true => exact Keeps.resume measures now
  | elapsed =>
    have shown := Keeps.measured measures now
    cases bStop with
    | false => exact ⟨congrArg (fun cur => [cur]) shown, measures⟩
    | true => exact ⟨congrArg (fun cur => [cur]) shown, measures⟩

theorem CpuCostTimer.Measures.run (measures : timer.Measures s) (calls : List (TimerCall × CpuTimes)) :
    timer.run calls = measurements s calls := by
  induction calls generalizing timer s with
  | nil => rfl
  | cons first calls ih =>
    obtain ⟨call, now⟩ := first
    obtain ⟨shown, after⟩ := measures.call now call
    calc timer.run ((call, now) :: calls) = (timer.call now call).1.toList ++ (timer.call now call).2.run calls := rfl
      _ = measurements s ((call, now) :: calls) := by rw [shown, ih after, measurements]

end

/-- From `Start` on each `Elapsed` returns what the running stretches took, and
    leaves the timer as it was. -/
theorem elapsed_measures (timer : CpuCostTimer) (first : CpuTimes) (calls : List (TimerCall × CpuTimes)) :
    timer.run ((.start, first) :: calls) = measurements (.start first) calls ∧
      ∀ timer now, (CpuCostTimer.elapsed timer now).2 = timer := by
  constructor
  · have measures : (timer.start first).Measures (.start first) := keeps_start first
    exact measures.run calls
  · intro timer now
    unfold CpuCostTimer.elapsed
    split <;> rfl

end LiteServer.Util
