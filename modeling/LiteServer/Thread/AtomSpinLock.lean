import LiteServer.Lib.Locking

/-!
The two locks of `engine/thread` that `AutoLock` is used with: `SpinLock` is a
mutex, and `AtomSpinLock` an atomic flag.
-/
namespace LiteServer.Thread
open Locking

/-- `std::mutex`: whether it is owned. -/
def SpinLock : Lock Bool where
  start := false
  lock owned := (!owned, true)
  tryLock owned := (!owned, true)
  unlock _ := false

/-- `test_and_set` of `std::atomic_flag`: what the flag was, and the flag after. -/
def testAndSet (flag : Bool) : Bool × Bool := (flag, true)

/-- `Lock` goes on until `test_and_set` returns false; `TryLock` returns what it
    returns. -/
def AtomSpinLock : Lock Bool where
  start := false
  lock flag :=
    let (set, flag) := testAndSet flag
    (!set, flag)
  tryLock flag := testAndSet flag
  unlock _ := false

/-- A lock is free while its flag is clear. -/
def Free (flag : Bool) : Prop := flag = false

theorem AtomSpinLock.takes : Takes Free AtomSpinLock.lock := by
  intro flag
  cases flag <;> simp [AtomSpinLock, testAndSet, Free]

theorem AtomSpinLock.frees (flag : Bool) : Free (AtomSpinLock.unlock flag) := rfl

theorem SpinLock.takes : Takes Free SpinLock.lock ∧ Takes Free SpinLock.tryLock := by
  constructor <;>
  · intro flag
    cases flag <;> simp [SpinLock, Free]

variable {Thread : Type*} [DecidableEq Thread]

/-- What the mutex means: at most one thread is in its critical section. -/
theorem spinLock_exclusive (calls : List (Thread × Call)) (s : Threads Bool Thread)
    (ran : (Threads.start SpinLock).run SpinLock calls = some s) : Exclusive s :=
  ((start_held (show Free SpinLock.start from rfl)).run SpinLock.takes.1 (fun _ => rfl) (.inl SpinLock.takes.2) ran).exclusive

/-- Along a run no two threads are in their critical sections, and a `TryLock`
    that returns false does not take the lock. -/
def Excludes (lock : Lock Bool) (calls : List (Thread × Call)) : Prop :=
  ∀ before after s, calls = before ++ after → (Threads.start lock).run lock before = some s →
    Exclusive s ∧ ∀ t, after.head? = some (t, .tryLock) → (lock.tryLock s.shared).1 = false →
      (lock.tryLock s.shared).2 = s.shared

theorem Excludes.prefix_of {lock : Lock Bool} {calls more : List (Thread × Call)} (excludes : Excludes lock (calls ++ more)) :
    Excludes lock calls := by
  intro before after s split ran
  obtain ⟨exclusive, declines⟩ := excludes before (after ++ more) s (by rw [split, List.append_assoc]) ran
  refine ⟨exclusive, fun t next => declines t ?_⟩
  cases after with
  | nil => cases next
  | cons _ _ => exact next

/-- As long as `TryLock` is not called, the flag is set while a thread is inside. -/
theorem held_of_run {calls : List (Thread × Call)} {s : Threads Bool Thread} (untried : ∀ t, (t, Call.tryLock) ∉ calls)
    (ran : (Threads.start AtomSpinLock).run AtomSpinLock calls = some s) : Held Free s :=
  (start_held (show Free AtomSpinLock.start from rfl)).run AtomSpinLock.takes AtomSpinLock.frees (.inr untried) ran

/-- The first `TryLock` of a run lets a second thread in, or takes a free lock
    and says it did not. -/
theorem tryLock_fails {calls : List (Thread × Call)} {t : Thread} {s s' : Threads Bool Thread}
    (untried : ∀ t, (t, Call.tryLock) ∉ calls) (ran : (Threads.start AtomSpinLock).run AtomSpinLock calls = some s)
    (taken : s.step AtomSpinLock t .tryLock = some s') : ¬ Excludes AtomSpinLock (calls ++ [(t, .tryLock)]) := by
  intro excludes
  have held := held_of_run untried ran
  obtain ⟨outside, after⟩ := Option.ite_none_right_eq_some.mp taken
  cases flag : s.shared with
  | false =>
    -- It was free: the flag is set now, and the caller told it is not.
    have declined := (excludes calls [(t, .tryLock)] s rfl ran).2 t rfl (by simp [AtomSpinLock, testAndSet, flag])
    simp [AtomSpinLock, testAndSet, flag] at declined
  | true =>
    have owned : ¬ ∀ u, s.place u ≠ .critical := fun none => by simpa [Free, flag] using held.free_iff.mpr none
    obtain ⟨u, inside⟩ := not_forall_not.mp owned
    have differ : u ≠ t := by
      rintro rfl
      rw [outside] at inside
      cases inside
    have entered : s' = ⟨true, Function.update s.place t .critical⟩ := by
      simpa [AtomSpinLock, testAndSet, flag] using after.symm
    have both := (excludes (calls ++ [(t, .tryLock)]) [] s' (List.append_nil _).symm
      (by rw [run_snoc, ran, Option.bind_some, taken])).1
    refine differ (both u t ?_ ?_)
    · rw [entered]
      exact (Function.update_of_ne differ _ _).trans inside
    · rw [entered]
      exact Function.update_self ..

/-- `AtomSpinLock` excludes exactly as long as `TryLock` is not called. -/
theorem atomSpinLock_excludes_iff (calls : List (Thread × Call))
    (possible : ((Threads.start AtomSpinLock : Threads Bool Thread).run AtomSpinLock calls).isSome) :
    Excludes AtomSpinLock calls ↔ ∀ t, (t, Call.tryLock) ∉ calls := by
  constructor
  · intro excludes
    induction calls using List.reverseRecOn with
    | nil => simp
    | append_singleton calls last ih =>
      obtain ⟨t, call⟩ := last
      obtain ⟨s', whole⟩ := Option.isSome_iff_exists.mp possible
      rw [run_snoc] at whole
      obtain ⟨s, ran, taken⟩ := Option.bind_eq_some_iff.mp whole
      have untried := ih (by simp [ran]) excludes.prefix_of
      have last : call ≠ .tryLock := by
        rintro rfl
        exact tryLock_fails untried ran taken excludes
      intro u member
      rcases List.mem_append.mp member with earlier | now
      · exact untried u earlier
      · cases List.mem_singleton.mp now
        exact last rfl
  · intro untried before after s split ran
    have held := held_of_run (fun t member => untried t (split ▸ List.mem_append_left _ member)) ran
    refine ⟨held.exclusive, fun t next => ?_⟩
    refine absurd ?_ (untried t)
    rw [split]
    exact List.mem_append_right _ (List.mem_of_head? next)

/-- Two threads, one after the other. -/
theorem two_threads_excluded : Excludes AtomSpinLock
    ([(0, .lock), (0, .attempt), (1, .lock), (1, .attempt), (0, .unlock), (1, .attempt)] : List (Fin 2 × Call)) :=
  (atomSpinLock_excludes_iff _ rfl).mpr (by decide)

/-- One thread holds the lock; another's `TryLock` returns true. -/
theorem tryLock_enters_held_lock : ¬ ∀ calls : List (Fin 2 × Call),
    ((Threads.start AtomSpinLock : Threads Bool (Fin 2)).run AtomSpinLock calls).isSome →
    Excludes AtomSpinLock calls := by
  intro always
  have both := (always [(0, .lock), (0, .attempt), (1, .tryLock)] rfl _ [] _ (List.append_nil _).symm rfl).1 0 1 rfl rfl
  cases both

end LiteServer.Thread
