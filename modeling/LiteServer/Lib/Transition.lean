import Mathlib.Logic.Relation

/-!
Transition systems: reachable states, the induction that carries an invariant
along every run, and finite runs with the action of each step. Operations that
may be undefined, and what holds all along a sequence of them.
-/
namespace Transition
universe u v
variable {State : Type u} {Spec : Type v}

/-- The states that finitely many steps reach from an initial one. -/
def Reachable (init : State → Prop) (step : State → State → Prop) (s : State) : Prop :=
  ∃ start, init start ∧ Relation.ReflTransGen step start s

variable {init : State → Prop} {step : State → State → Prop} {s s' : State}

theorem Reachable.start (initial : init s) : Reachable init step s := ⟨s, initial, .refl⟩

theorem Reachable.next (reached : Reachable init step s) (taken : step s s') : Reachable init step s' := by
  obtain ⟨start, initial, run⟩ := reached
  exact ⟨start, initial, run.tail taken⟩

/-- What holds initially and is kept by every step from a reachable state
    holds of every reachable state. -/
theorem Reachable.invariant {P : State → Prop} (initial : ∀ s, init s → P s)
    (kept : ∀ s s', Reachable init step s → P s → step s s' → P s') (reached : Reachable init step s) : P s := by
  obtain ⟨start, started, run⟩ := reached
  induction run with
  | refl => exact initial start started
  | @tail b c before taken ih => exact kept b c ⟨start, started, before⟩ ih taken

/-- A run of a restricted system is a run of the system. -/
theorem Reachable.mono {step' : State → State → Prop} (weaker : ∀ s s', step s s' → step' s s')
    (reached : Reachable init step s) : Reachable init step' s := by
  obtain ⟨start, started, run⟩ := reached
  exact ⟨start, started, Relation.ReflTransGen.mono weaker _ _ run⟩

variable {Action : Type v} {labelled : State → Action → State → Prop} {start : State}

/-- A run from a state, with the state and the action of each step. -/
inductive Run (labelled : State → Action → State → Prop) (start : State) : List (State × Action) → State → Prop
  | nil : Run labelled start [] start
  | snoc {steps s s' action} (run : Run labelled start steps s) (taken : labelled s action s') :
      Run labelled start (steps ++ [(s, action)]) s'

/-! ### Sequences of operations -/

variable {apply : State → Action → Option State} {P : State → Prop} {Q Allowed : State → Action → Prop} {a : Action}
  {actions : List Action}

/-- `P` holds of every state that the operations lead to. -/
def Throughout (apply : State → Action → Option State) (P : State → Prop) : State → List Action → Prop
  | s, [] => P s
  | s, a :: actions => P s ∧ ∀ s', apply s a = some s' → Throughout apply P s' actions

/-- Every operation is defined where it is made. -/
def Completes (apply : State → Action → Option State) : State → List Action → Prop
  | _, [] => True
  | s, a :: actions => ∃ s', apply s a = some s' ∧ Completes apply s' actions

/-- `Q` holds of every operation in the state in which it is made. -/
def Along (apply : State → Action → Option State) (Q : State → Action → Prop) : State → List Action → Prop
  | _, [] => True
  | s, a :: actions => Q s a ∧ ∀ s', apply s a = some s' → Along apply Q s' actions

theorem Throughout.first (holds : Throughout apply P s actions) : P s := by
  cases actions with
  | nil => exact holds
  | cons => exact holds.1

theorem Along.and {R : Action → Prop} (holds : Along apply Q s actions) (each : ∀ a ∈ actions, R a) :
    Along apply (fun s a => Q s a ∧ R a) s actions := by
  induction actions generalizing s with
  | nil => trivial
  | cons a actions ih =>
    obtain ⟨now, later⟩ := List.forall_mem_cons.mp each
    exact ⟨⟨holds.1, now⟩, fun s' taken => ih (holds.2 s' taken) later⟩

/-- With an invariant that `Q` keeps, and whose loss is seen at once, `P` holds
    all along exactly as long as `Q` does. -/
theorem throughout_iff_along {I : State → Prop} (holds : ∀ s, I s → P s)
    (kept : ∀ s a s', I s → Allowed s a → Q s a → apply s a = some s' → I s')
    (lost : ∀ s a, I s → Allowed s a → ¬ Q s a → ∃ s', apply s a = some s' ∧ ¬ P s')
    (initial : I s) (allowed : Along apply Allowed s actions) :
    Throughout apply P s actions ↔ Along apply Q s actions := by
  induction actions generalizing s with
  | nil => exact iff_of_true (holds s initial) trivial
  | cons a actions ih =>
    obtain ⟨here, later⟩ := allowed
    constructor
    · rintro ⟨_, after⟩
      have now : Q s a := by
        refine Classical.byContradiction fun missed => ?_
        obtain ⟨s', taken, broken⟩ := lost s a initial here missed
        exact broken (after s' taken).first
      exact ⟨now, fun s' taken => (ih (kept s a s' initial here now taken) (later s' taken)).mp (after s' taken)⟩
    · rintro ⟨now, after⟩
      refine ⟨holds s initial, fun s' taken => ?_⟩
      exact (ih (kept s a s' initial here now taken) (later s' taken)).mpr (after s' taken)

/-- As before, where an operation that does not meet `Q` may also be undefined. -/
theorem throughout_completes_iff_along {I : State → Prop} (holds : ∀ s, I s → P s)
    (kept : ∀ s a, I s → Allowed s a → Q s a → ∃ s', apply s a = some s' ∧ I s')
    (lost : ∀ s a s', I s → Allowed s a → ¬ Q s a → apply s a = some s' → ¬ P s')
    (initial : I s) (allowed : Along apply Allowed s actions) :
    Throughout apply P s actions ∧ Completes apply s actions ↔ Along apply Q s actions := by
  induction actions generalizing s with
  | nil => exact iff_of_true ⟨holds s initial, trivial⟩ trivial
  | cons a actions ih =>
    obtain ⟨here, later⟩ := allowed
    constructor
    · rintro ⟨⟨_, after⟩, s', taken, ends⟩
      have now : Q s a := by
        refine Classical.byContradiction fun missed => ?_
        exact lost s a s' initial here missed taken (after s' taken).first
      obtain ⟨_, same, invariant⟩ := kept s a initial here now
      cases Option.some.inj (taken.symm.trans same)
      have rest := (ih invariant (later s' taken)).mp ⟨after s' taken, ends⟩
      exact ⟨now, fun _ other => Option.some.inj (taken.symm.trans other) ▸ rest⟩
    · rintro ⟨now, after⟩
      obtain ⟨s', taken, invariant⟩ := kept s a initial here now
      obtain ⟨through, ends⟩ := (ih invariant (later s' taken)).mpr (after s' taken)
      exact ⟨⟨holds s initial, fun _ other => Option.some.inj (taken.symm.trans other) ▸ through⟩, s', taken, ends⟩

end Transition
