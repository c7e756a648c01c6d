import Mathlib.Algebra.BigOperators.Group.List.Basic
import Mathlib.Tactic.Abel

/-!
Stopwatches over readings that can be subtracted: the stretches that one ran,
and the one register from which it can tell how long they were.
-/
namespace Stopwatch
universe u
variable {G : Type u}

/-- The first and the last reading of each stretch that ended, and the first of
    the one that goes on. -/
structure Stretches (G : Type u) where
  ended : List (G × G)
  running : Option G

namespace Stretches

def start (now : G) : Stretches G := ⟨[], some now⟩

def stop (s : Stretches G) (now : G) : Stretches G :=
  match s.running with
  | none => s
  | some first => ⟨s.ended ++ [(first, now)], none⟩

def resume (s : Stretches G) (now : G) : Stretches G :=
  match s.running with
  | none => { s with running := some now }
  | some _ => s

variable [AddCommGroup G]

/-- What the stretches that ended took. -/
def total (s : Stretches G) : G := (s.ended.map fun (first, last) => last - first).sum

def measured (s : Stretches G) (now : G) : G := s.total + s.running.elim 0 (now - ·)

end Stretches

variable [AddCommGroup G] {s : Stretches G} {register : G} {stopped : Bool}

/-- While it runs the register has the reading from which it would have run
    without pauses, and the time that it took otherwise. -/
structure Keeps (register : G) (stopped : Bool) (s : Stretches G) : Prop where
  stopped : stopped = s.running.isNone
  register : register = s.running.elim s.total (· - s.total)

theorem keeps_start (now : G) : Keeps now false (.start now) where
  stopped := rfl
  register := (sub_zero now).symm

theorem Keeps.stop (keeps : Keeps register false s) (now : G) : Keeps (now - register) true (s.stop now) := by
  obtain ⟨first, running⟩ := Option.isSome_iff_exists.mp (Option.isNone_eq_false_iff.mp keeps.stopped.symm)
  have before : register = first - s.total := by simpa [running] using keeps.register
  constructor
  · simp [Stretches.stop, running]
  · calc now - register = s.total + (now - first) := by rw [before]; abel
      _ = (s.stop now).running.elim (s.stop now).total (· - (s.stop now).total) := by
        simp [Stretches.stop, running, Stretches.total]

theorem Keeps.resume (keeps : Keeps register true s) (now : G) : Keeps (now - register) false (s.resume now) := by
  have paused : s.running = none := Option.isNone_iff_eq_none.mp keeps.stopped.symm
  have before : register = s.total := by simpa [paused] using keeps.register
  constructor
  · simp [Stretches.resume, paused]
  · simp [Stretches.resume, paused, before, Stretches.total]

theorem Keeps.stop_again (keeps : Keeps register true s) (now : G) : s.stop now = s := by
  have paused : s.running = none := Option.isNone_iff_eq_none.mp keeps.stopped.symm
  rw [Stretches.stop, paused]

theorem Keeps.resume_again (keeps : Keeps register false s) (now : G) : s.resume now = s := by
  obtain ⟨first, running⟩ := Option.isSome_iff_exists.mp (Option.isNone_eq_false_iff.mp keeps.stopped.symm)
  rw [Stretches.resume, running]

/-- What the stopwatch shows. -/
theorem Keeps.measured (keeps : Keeps register stopped s) (now : G) :
    (if stopped then register else now - register) = s.measured now := by
  obtain ⟨rfl, rfl⟩ := keeps
  cases running : s.running with
  | none => simp [Stretches.measured, running]
  | some first =>
    calc now - (first - s.total) = s.total + (now - first) := by abel
      _ = s.measured now := by simp [Stretches.measured, running]

end Stopwatch
