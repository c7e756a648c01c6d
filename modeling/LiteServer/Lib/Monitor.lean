import Mathlib.Data.List.Basic
import Mathlib.Data.List.Infix

/-!
Protocols that a trace keeps: each event is about one thing or none, and every
thing has a state that the events about it move on.
-/
namespace Monitor
universe u v w

/-- `next` is `none` where an event is out of place. -/
structure Protocol (Thing : Type u) (State : Type v) (Event : Type w) where
  about : Event → Option Thing
  start : State
  next : State → Event → Option State

variable {Thing : Type u} {State : Type v} {Event : Type w} [DecidableEq Thing] (protocol : Protocol Thing State Event)

/-- The state of a thing after a trace, `none` if an event about it was out of
    place. -/
def Protocol.after (x : Thing) (trace : List Event) : Option State :=
  (trace.filter fun event => protocol.about event = some x).foldlM protocol.next protocol.start

variable {protocol} {x : Thing} {trace more : List Event} {event : Event} {state : State}

theorem after_nil : protocol.after x [] = some protocol.start := by
  simp [Protocol.after]

theorem after_append_other (silent : ∀ event ∈ more, protocol.about event ≠ some x) :
    protocol.after x (trace ++ more) = protocol.after x trace := by
  have none_heard : more.filter (fun event => protocol.about event = some x) = [] := by
    simpa [List.filter_eq_nil_iff] using silent
  simp [Protocol.after, none_heard]

theorem after_snoc (heard : protocol.about event = some x) :
    protocol.after x (trace ++ [event]) = (protocol.after x trace).bind (protocol.next · event) := by
  simp [Protocol.after, heard]

/-- Among the new events is one about a thing. -/
theorem after_one {first last : List Event} (before : ∀ event ∈ first, protocol.about event ≠ some x)
    (heard : protocol.about event = some x) (behind : ∀ event ∈ last, protocol.about event ≠ some x) :
    protocol.after x (trace ++ (first ++ event :: last)) = (protocol.after x trace).bind (protocol.next · event) := by
  have order : trace ++ (first ++ event :: last) = trace ++ first ++ [event] ++ last := by simp
  rw [order, after_append_other behind, after_snoc heard, after_append_other before]

/-- What is true of the start and kept by every event that is in place. -/
theorem after_invariant (holds : List Event → State → Prop) (start : holds [] protocol.start)
    (other : ∀ trace event state, protocol.about event ≠ some x → holds trace state → holds (trace ++ [event]) state)
    (heard : ∀ trace event state state', protocol.about event = some x → holds trace state →
      protocol.next state event = some state' → holds (trace ++ [event]) state')
    (reached : protocol.after x trace = some state) : holds trace state := by
  induction trace using List.reverseRecOn generalizing state with
  | nil =>
    cases after_nil.symm.trans reached
    exact start
  | append_singleton trace event ih =>
    by_cases about : protocol.about event = some x
    · rw [after_snoc about, Option.bind_eq_some_iff] at reached
      obtain ⟨before, earlier, moved⟩ := reached
      exact heard trace event before state about (ih earlier) moved
    · rw [after_append_other (by simpa using about)] at reached
      exact other trace event state about (ih reached)

end Monitor
