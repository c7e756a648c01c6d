import LiteServer.Lib.Locking
import LiteServer.Lib.Transition

/-!
Operations on an object that threads share, each made under one lock. The accesses
of an operation are steps of their own, with steps of other threads between them.
What the lock excludes makes an operation one step again: the operations answer
as they do one after another, in the order in which they return.
-/
namespace Guarded
open Locking Relation
universe u v w x

variable {Object Op Local Answer : Type u} {State : Type v} {Thread : Type w}

/-- What an operation does while it has the lock: where it starts, its accesses,
    and where it ends with which answer. -/
structure Body (Object Op Local Answer : Type u) where
  enter : Op → Local
  access : Local × Object → Local × Object → Prop
  leave : Local → Answer → Prop

namespace Body
variable (body : Body Object Op Local Answer)

/-- An operation on an object that nobody else uses. -/
def Alone (op : Op) (answer : Answer) (o o' : Object) : Prop :=
  ∃ l, ReflTransGen body.access (body.enter op, o) (l, o') ∧ body.leave l answer

/-- Operations one after another. -/
inductive Serial (o : Object) : List (Op × Answer) → Object → Prop
  | nil : Serial o [] o
  | snoc {done o' o'' op answer} (before : Serial o done o') (last : body.Alone op answer o' o'') :
      Serial o (done ++ [(op, answer)]) o''

/-- From wherever an operation has got to, it can end. -/
def Ends : Prop :=
  ∀ op o l o', ReflTransGen body.access (body.enter op, o) (l, o') →
    ∃ l' o'' answer, ReflTransGen body.access (l, o') (l', o'') ∧ body.leave l' answer

end Body

/-! ### Threads -/

inductive Place (Op Local : Type u) where
  | outside
  | locking (op : Op)
  | critical (op : Op) (l : Local)

def Place.kind : Place Op Local → Locking.Place
  | outside => .outside
  | locking _ => .locking
  | critical _ _ => .critical

/-- `returned` only records the run: the operations that have returned. -/
structure Threads (State : Type v) (Object Op Local Answer : Type u) (Thread : Type w) where
  lock : State
  object : Object
  place : Thread → Place Op Local
  returned : List (Op × Answer)

def Threads.start (lock : Lock State) (o : Object) : Threads State Object Op Local Answer Thread :=
  ⟨lock.start, o, fun _ => .outside, []⟩

/-- The same threads without their operations. -/
def Threads.kinds (s : Threads State Object Op Local Answer Thread) : Locking.Threads State Thread :=
  ⟨s.lock, Place.kind ∘ s.place⟩

section
variable [DecidableEq Thread] (lock : Lock State) (body : Body Object Op Local Answer)

/-- An attempt to take the lock is a step, and so is one that fails. -/
inductive Step : Threads State Object Op Local Answer Thread → Threads State Object Op Local Answer Thread → Prop
  | call {s} (t : Thread) (op : Op) : s.place t = .outside →
      Step s { s with place := Function.update s.place t (.locking op) }
  | enter {s} (t : Thread) (op : Op) (state : State) : s.place t = .locking op → lock.lock s.lock = (true, state) →
      Step s { s with lock := state, place := Function.update s.place t (.critical op (body.enter op)) }
  | wait {s} (t : Thread) (op : Op) (state : State) : s.place t = .locking op → lock.lock s.lock = (false, state) →
      Step s { s with lock := state }
  | access {s} (t : Thread) (op : Op) (l l' : Local) (o : Object) : s.place t = .critical op l →
      body.access (l, s.object) (l', o) →
      Step s { s with object := o, place := Function.update s.place t (.critical op l') }
  | leave {s} (t : Thread) (op : Op) (l : Local) (answer : Answer) : s.place t = .critical op l → body.leave l answer →
      Step s { s with
        lock := lock.unlock s.lock
        place := Function.update s.place t .outside
        returned := s.returned ++ [(op, answer)] }

def Reachable (o : Object) : Threads State Object Op Local Answer Thread → Prop :=
  Transition.Reachable (· = Threads.start lock o) (Step lock body)

end

section
variable [DecidableEq Thread] {lock : Lock State} {body : Body Object Op Local Answer} {free : State → Prop}
  {s s' : Threads State Object Op Local Answer Thread} {o : Object} {t : Thread} {op : Op} {l : Local}

omit [DecidableEq Thread] in
theorem kind_critical {p : Place Op Local} : p.kind = .critical ↔ ∃ op l, p = .critical op l := by
  cases p <;> simp [Place.kind]

/-- What stands at a thread after one of them moved. -/
theorem moved_place {place : Thread → Place Op Local} {t u : Thread} {p q : Place Op Local}
    (is : Function.update place t p u = q) : u = t ∧ p = q ∨ u ≠ t ∧ place u = q := by
  by_cases own : u = t
  · subst own
    rw [Function.update_self] at is
    exact .inl ⟨rfl, is⟩
  · rw [Function.update_of_ne own] at is
    exact .inr ⟨own, is⟩

/-- A step is one of the threads without their operations, or none. -/
theorem Step.kinds (taken : Step lock body s s') :
    s'.kinds = s.kinds ∨ ∃ t call, call ≠ .tryLock ∧ s.kinds.step lock t call = some s'.kinds := by
  cases taken with
  | call t op outside =>
    right
    refine ⟨t, .lock, nofun, ?_⟩
    simp [Threads.kinds, Locking.Threads.step, Function.comp_update, Place.kind, outside]
  | enter t op state locking entered =>
    right
    refine ⟨t, .attempt, nofun, ?_⟩
    simp [Threads.kinds, Locking.Threads.step, Function.comp_update, Place.kind, locking, entered]
  | wait t op state locking refused =>
    right
    refine ⟨t, .attempt, nofun, ?_⟩
    simp [Threads.kinds, Locking.Threads.step, Place.kind, locking, refused]
  | access t op l l' o critical accessed =>
    left
    have same : Function.update (Place.kind ∘ s.place) t Locking.Place.critical = Place.kind ∘ s.place := by
      rw [Function.update_eq_self_iff, Function.comp_apply, critical]
      rfl
    rw [Threads.kinds, Function.comp_update]
    exact congrArg _ same
  | leave t op l answer critical left =>
    right
    refine ⟨t, .unlock, nofun, ?_⟩
    simp [Threads.kinds, Locking.Threads.step, Function.comp_update, Place.kind, critical]

/-! ### What is kept -/

/-- The operations that have returned were made one after another, and the one
    that has the lock goes on where they ended. -/
structure Linear (free : State → Prop) (body : Body Object Op Local Answer) (o : Object)
    (s : Threads State Object Op Local Answer Thread) : Prop where
  held : Held free s.kinds
  serial : ∃ o', body.Serial o s.returned o' ∧ ((∀ t op l, s.place t ≠ .critical op l) → s.object = o') ∧
    ∀ t op l, s.place t = .critical op l → ReflTransGen body.access (body.enter op, o') (l, s.object)

omit [DecidableEq Thread] in
theorem Linear.alone (linear : Linear free body o s) (critical : s.place t = .critical op l) {u : Thread} {op' : Op}
    {l' : Local} (other : s.place u = .critical op' l') : u = t :=
  linear.held.exclusive u t (kind_critical.mpr ⟨_, _, other⟩) (kind_critical.mpr ⟨_, _, critical⟩)

omit [DecidableEq Thread] in
theorem start_linear (fresh : free lock.start) (body : Body Object Op Local Answer) (o : Object) :
    Linear free body o (Threads.start lock o : Threads State Object Op Local Answer Thread) where
  held := start_held fresh
  serial := ⟨o, .nil, fun _ => rfl, nofun⟩

theorem Linear.step (linear : Linear free body o s) (takes : Takes free lock.lock) (frees : ∀ s, free (lock.unlock s))
    (taken : Step lock body s s') : Linear free body o s' := by
  have held : Held free s'.kinds := by
    rcases taken.kinds with same | ⟨t, call, other, moved⟩
    · exact same ▸ linear.held
    · exact linear.held.step takes frees (fun same => absurd same other) moved
  refine ⟨held, ?_⟩
  obtain ⟨o', serial, nobody, somebody⟩ := linear.serial
  cases taken with
  | call t op outside =>
    have same : ∀ u op' l,
        Function.update s.place t (.locking op) u = .critical op' l ↔ s.place u = .critical op' l := by
      intro u op' l
      by_cases own : u = t
      · subst own
        simp [outside]
      · rw [Function.update_of_ne own]
    refine ⟨o', serial, fun none => nobody fun u op' l => ?_, fun u op' l inside => ?_⟩
    · exact mt (same u op' l).mpr (none u op' l)
    · exact somebody u op' l ((same u op' l).mp inside)
  | enter t op state locking entered =>
    have took := takes s.lock
    rw [entered, if_pos rfl] at took
    have none : ∀ u op' l, s.place u ≠ .critical op' l := fun u op' l inside =>
      linear.held.free_iff.mp took.1 u (kind_critical.mpr ⟨_, _, inside⟩)
    refine ⟨o', serial, fun still => absurd (Function.update_self ..) (still t op (body.enter op)), ?_⟩
    intro u op' l inside
    rcases moved_place inside with ⟨-, same⟩ | ⟨-, inside⟩
    · obtain ⟨rfl, rfl⟩ := Place.critical.inj same
      rw [← nobody none]
    · exact absurd inside (none u op' l)
  | wait t op state locking refused => exact ⟨o', serial, nobody, somebody⟩
  | access t op l l' o'' critical accessed =>
    refine ⟨o', serial, fun still => absurd (Function.update_self ..) (still t op l'), ?_⟩
    intro u op' l'' inside
    rcases moved_place inside with ⟨-, same⟩ | ⟨other, inside⟩
    · obtain ⟨rfl, rfl⟩ := Place.critical.inj same
      exact (somebody t op l critical).tail accessed
    · exact absurd (linear.alone critical inside) other
  | leave t op l answer critical left =>
    have none : ∀ u op' l', Function.update s.place t .outside u ≠ .critical op' l' := by
      intro u op' l' inside
      rcases moved_place inside with ⟨-, same⟩ | ⟨other, inside⟩
      · cases same
      · exact other (linear.alone critical inside)
    exact ⟨s.object, serial.snoc ⟨l, somebody t op l critical, left⟩, fun _ => rfl,
      fun u op' l' inside => absurd inside (none u op' l')⟩

theorem Reachable.linear (fresh : free lock.start) (takes : Takes free lock.lock) (frees : ∀ s, free (lock.unlock s))
    (reached : Reachable lock body o s) : Linear free body o s := by
  refine Transition.Reachable.invariant ?_ (fun _ _ _ linear taken => linear.step takes frees taken) reached
  rintro _ rfl
  exact start_linear fresh body o

/-! ### Returning -/

/-- The thread that has the lock makes its accesses. -/
theorem accesses (critical : s.place t = .critical op l) {l' : Local} {o' : Object}
    (run : ReflTransGen body.access (l, s.object) (l', o')) :
    ReflTransGen (Step lock body) s { s with object := o', place := Function.update s.place t (.critical op l') } := by
  have through : ∀ next, ReflTransGen body.access (l, s.object) next → ReflTransGen (Step lock body) s
      { s with object := next.2, place := Function.update s.place t (.critical op next.1) } := by
    intro next run
    induction run with
    | refl =>
      have same : Function.update s.place t (.critical op l) = s.place := by
        rw [← critical, Function.update_eq_self]
      rw [same]
    | @tail before after _ accessed ih =>
      let between := { s with object := before.2, place := Function.update s.place t (.critical op before.1) }
      have here : between.place t = .critical op before.1 := Function.update_self ..
      have last : Step lock body between _ := .access t op before.1 after.1 after.2 here accessed
      simp only [between, Function.update_idem] at last
      exact ih.tail last
  exact through (l', o') run

/-- It can give the lock back, while the other threads wait. -/
theorem Linear.leaves (linear : Linear free body o s) (ends : body.Ends) (critical : s.place t = .critical op l) :
    ∃ s', ReflTransGen (Step lock body) s s' ∧ s'.place = Function.update s.place t .outside := by
  obtain ⟨o', _, _, somebody⟩ := linear.serial
  obtain ⟨l', o'', answer, run, left⟩ := ends op o' l s.object (somebody t op l critical)
  refine ⟨_, (accesses critical run).tail (.leave t op l' answer (Function.update_self ..) left), ?_⟩
  exact Function.update_idem ..

/-- A call that waits for the lock can get it and return. -/
theorem Linear.enters (linear : Linear free body o s) (takes : Takes free lock.lock)
    (frees : ∀ s, free (lock.unlock s)) (ends : body.Ends) (waiting : s.place t = .locking op) :
    ∃ s', ReflTransGen (Step lock body) s s' ∧ s'.place t = .outside := by
  have later : ∀ s', ReflTransGen (Step lock body) s s' → Linear free body o s' := by
    intro s' run
    induction run with
    | refl => exact linear
    | tail _ taken ih => exact ih.step takes frees taken
  -- Whoever has the lock gives it back first.
  obtain ⟨s₁, run, none, still⟩ :
      ∃ s₁, ReflTransGen (Step lock body) s s₁ ∧ free s₁.lock ∧ s₁.place t = .locking op := by
    by_cases idle : ∃ u op' l, s.place u = .critical op' l
    · obtain ⟨u, op', l, critical⟩ := idle
      obtain ⟨s₁, run, places⟩ := linear.leaves ends critical
      have apart : t ≠ u := by
        rintro rfl
        cases waiting.symm.trans critical
      refine ⟨s₁, run, (later s₁ run).held.free_iff.mpr fun v inside => ?_, ?_⟩
      · obtain ⟨op'', l', inside⟩ := kind_critical.mp inside
        rw [places] at inside
        rcases moved_place inside with ⟨-, same⟩ | ⟨other, inside⟩
        · cases same
        · exact other (linear.alone critical inside)
      · rw [places, Function.update_of_ne apart, waiting]
    · refine ⟨s, .refl, linear.held.free_iff.mpr fun v inside => idle ?_, waiting⟩
      obtain ⟨op', l, inside⟩ := kind_critical.mp inside
      exact ⟨v, op', l, inside⟩
  have took := takes s₁.lock
  have entered : (lock.lock s₁.lock).1 = true := by
    by_contra refused
    rw [if_neg refused] at took
    exact took.1 none
  have inside : Step lock body s₁ _ := .enter t op (lock.lock s₁.lock).2 still (Prod.ext entered rfl)
  obtain ⟨s₂, rest, places⟩ := ((later s₁ run).step takes frees inside).leaves ends
    (show Function.update s₁.place t (.critical op (body.enter op)) t = _ from Function.update_self ..)
  refine ⟨s₂, (run.tail inside).trans rest, ?_⟩
  rw [places, Function.update_self]

/-- Nobody waits for ever: whatever the others are at, a call can return. -/
theorem Linear.returns (linear : Linear free body o s) (takes : Takes free lock.lock)
    (frees : ∀ s, free (lock.unlock s)) (ends : body.Ends) (inside : s.place t ≠ .outside) :
    ∃ s', ReflTransGen (Step lock body) s s' ∧ s'.place t = .outside := by
  cases at_ : s.place t with
  | outside => exact absurd at_ inside
  | locking op => exact linear.enters takes frees ends at_
  | critical op l =>
    obtain ⟨s', run, places⟩ := linear.leaves ends at_
    refine ⟨s', run, ?_⟩
    rw [places, Function.update_self]

end

end Guarded
