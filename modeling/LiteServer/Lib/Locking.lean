import Mathlib.Data.List.Induction
import Mathlib.Logic.Function.Basic

/-!
Threads that share one lock: any number of them call its operations in any
order, every attempt of `Lock` being a step of its own.
-/
namespace Locking
universe u v

/-- What a lock offers. `lock` is one attempt, that may have to be made again. -/
structure Lock (State : Type u) where
  start : State
  lock : State → Bool × State
  tryLock : State → Bool × State
  unlock : State → State

inductive Place where
  | outside
  | locking
  | critical
  deriving DecidableEq, Repr

inductive Call where
  | lock
  | attempt
  | tryLock
  | unlock
  deriving DecidableEq, Repr

structure Threads (State : Type u) (Thread : Type v) where
  shared : State
  place : Thread → Place

variable {State : Type u} {Thread : Type v} [DecidableEq Thread] (lock : Lock State)

def Threads.start : Threads State Thread := ⟨lock.start, fun _ => .outside⟩

/-- A thread is in its critical section from where an operation let it in, and
    leaves it with `Unlock`. -/
def Threads.step (s : Threads State Thread) (t : Thread) : Call → Option (Threads State Thread)
  | .lock => if s.place t = .outside then some { s with place := Function.update s.place t .locking } else none
  | .attempt =>
    if s.place t = .locking then
      let (entered, shared) := lock.lock s.shared
      some ⟨shared, if entered then Function.update s.place t .critical else s.place⟩
    else none
  | .tryLock =>
    if s.place t = .outside then
      let (entered, shared) := lock.tryLock s.shared
      some ⟨shared, if entered then Function.update s.place t .critical else s.place⟩
    else none
  | .unlock =>
    if s.place t = .critical then some ⟨lock.unlock s.shared, Function.update s.place t .outside⟩ else none

def Threads.run (s : Threads State Thread) (calls : List (Thread × Call)) : Option (Threads State Thread) :=
  calls.foldlM (fun s (t, call) => s.step lock t call) s

def Exclusive (s : Threads State Thread) : Prop := ∀ t u, s.place t = .critical → s.place u = .critical → t = u

/-! ### Locks that exclude -/

/-- An attempt lets a thread in exactly when the lock is free, takes it then,
    and leaves it as it is otherwise. -/
def Takes (free : State → Prop) (attempt : State → Bool × State) : Prop :=
  ∀ s, if (attempt s).1 then free s ∧ ¬ free (attempt s).2 else ¬ free s ∧ (attempt s).2 = s

/-- The lock is free exactly when no thread is in its critical section. -/
structure Held (free : State → Prop) (s : Threads State Thread) : Prop where
  exclusive : Exclusive s
  free_iff : free s.shared ↔ ∀ t, s.place t ≠ .critical

variable {lock} {free : State → Prop} {s s' : Threads State Thread} {t : Thread} {call : Call}
  {calls : List (Thread × Call)}

theorem run_snoc : s.run lock (calls ++ [(t, call)]) = (s.run lock calls).bind fun s' => s'.step lock t call := by
  simp only [Threads.run, List.foldlM_append, List.foldlM_cons, List.foldlM_nil, bind_pure]
  rfl

/-- A thread enters where the lock was free. -/
theorem Held.enter (held : Held free s) {shared : State} (was : free s.shared) (taken : ¬ free shared) :
    Held free ⟨shared, Function.update s.place t .critical⟩ := by
  have alone := held.free_iff.mp was
  have own : ∀ u, Function.update s.place t Place.critical u = .critical → u = t := by
    intro u inside
    by_contra other
    rw [Function.update_of_ne other] at inside
    exact alone u inside
  constructor
  · intro u v first second
    rw [own u first, own v second]
  · constructor
    · exact fun is => absurd is taken
    · exact fun none => absurd (Function.update_self ..) (none t)

/-- A thread that is not in its critical section moves, but not into it. -/
theorem Held.elsewhere (held : Held free s) {place : Place} (outside : s.place t ≠ .critical)
    (still : place ≠ .critical) : Held free ⟨s.shared, Function.update s.place t place⟩ := by
  have same : ∀ u, Function.update s.place t place u = .critical ↔ s.place u = .critical := by
    intro u
    by_cases own : u = t
    · subst own
      simp [outside, still]
    · rw [Function.update_of_ne own]
  constructor
  · exact fun u v first second => held.exclusive u v ((same u).mp first) ((same v).mp second)
  · rw [held.free_iff]
    exact forall_congr' fun u => not_congr (same u).symm

theorem Held.attempt (held : Held free s) {attempt : State → Bool × State} (takes : Takes free attempt) :
    Held free ⟨(attempt s.shared).2, if (attempt s.shared).1 then Function.update s.place t .critical else s.place⟩ := by
  have took := takes s.shared
  split at took
  · rename_i entered
    rw [if_pos entered]
    exact held.enter took.1 took.2
  · rename_i refused
    rw [if_neg refused, took.2]
    exact held

theorem Held.leave (held : Held free s) (frees : ∀ s, free (lock.unlock s)) (inside : s.place t = .critical) :
    Held free ⟨lock.unlock s.shared, Function.update s.place t .outside⟩ := by
  have nobody : ∀ u, Function.update s.place t Place.outside u ≠ .critical := by
    intro u
    by_cases own : u = t
    · subst own
      simp
    · rw [Function.update_of_ne own]
      exact fun other => own (held.exclusive u t other inside)
  constructor
  · exact fun u _ first => absurd first (nobody u)
  · constructor
    · exact fun _ => nobody
    · exact fun _ => frees s.shared

/-- Every operation that a thread calls takes the lock as it should. -/
theorem Held.step (held : Held free s) (takes : Takes free lock.lock) (frees : ∀ s, free (lock.unlock s))
    (tries : call = .tryLock → Takes free lock.tryLock) (taken : s.step lock t call = some s') : Held free s' := by
  cases call with
  | lock =>
    obtain ⟨outside, after⟩ := Option.ite_none_right_eq_some.mp taken
    cases Option.some.inj after
    exact held.elsewhere (by simp [outside]) (by simp)
  | attempt =>
    obtain ⟨_, after⟩ := Option.ite_none_right_eq_some.mp taken
    cases Option.some.inj after
    exact held.attempt takes
  | tryLock =>
    obtain ⟨_, after⟩ := Option.ite_none_right_eq_some.mp taken
    cases Option.some.inj after
    exact held.attempt (tries rfl)
  | unlock =>
    obtain ⟨inside, after⟩ := Option.ite_none_right_eq_some.mp taken
    cases Option.some.inj after
    exact held.leave frees inside

theorem Held.run (takes : Takes free lock.lock) (frees : ∀ s, free (lock.unlock s))
    (tries : Takes free lock.tryLock ∨ ∀ t, (t, Call.tryLock) ∉ calls) (held : Held free s)
    (ran : s.run lock calls = some s') : Held free s' := by
  induction calls using List.reverseRecOn generalizing s' with
  | nil =>
    cases Option.some.inj ran
    exact held
  | append_singleton calls last ih =>
    obtain ⟨t, call⟩ := last
    rw [run_snoc] at ran
    obtain ⟨before, ran, taken⟩ := Option.bind_eq_some_iff.mp ran
    have earlier := ih (tries.imp_right fun none t member => none t (List.mem_append_left _ member)) ran
    refine earlier.step takes frees ?_ taken
    rintro rfl
    exact tries.resolve_right fun none => none t (by simp)

omit [DecidableEq Thread] in
theorem start_held (fresh : free lock.start) : Held free (Threads.start lock : Threads State Thread) where
  exclusive := by simp [Exclusive, Threads.start]
  free_iff := by simp [Threads.start, fresh]

end Locking
