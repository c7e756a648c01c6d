import Mathlib.Data.List.Infix
import Mathlib.Data.List.Induction

/-!
What the events of a trace last said of a thing: some events give it a value,
and others use it with one.
-/
namespace Latest
universe u v w

/-- The value that an event gives a thing, and the one it uses it with. -/
structure Marks (Thing : Type u) (Value : Type v) (Event : Type w) where
  gives : Thing → Event → Option Value
  uses : Thing → Event → Option Value

variable {Thing : Type u} {Value : Type v} {Event : Type w} (marks : Marks Thing Value Event)

def Marks.latest (x : Thing) (trace : List Event) : Option Value :=
  trace.foldl (fun last event => (marks.gives x event).or last) none

/-- Things are used with the value they were last given. -/
def Marks.Agreed (trace : List Event) : Prop :=
  ∀ before event x value, before ++ [event] <+: trace → marks.uses x event = some value →
    marks.latest x before = some value

variable {marks} {trace more : List Event} {x : Thing} {value : Value} {event : Event}

theorem latest_snoc : marks.latest x (trace ++ [event]) = (marks.gives x event).or (marks.latest x trace) := by
  simp [Marks.latest]

theorem latest_given (gives : marks.gives x event = some value) : marks.latest x (trace ++ [event]) = some value := by
  rw [latest_snoc, gives, Option.some_or]

theorem latest_append (silent : ∀ event ∈ more, marks.gives x event = none) :
    marks.latest x (trace ++ more) = marks.latest x trace := by
  induction more using List.reverseRecOn with
  | nil => rw [List.append_nil]
  | append_singleton more event ih =>
    rw [← List.append_assoc, latest_snoc, silent event (by simp), Option.none_or]
    exact ih fun e member => silent e (List.mem_append_left _ member)

theorem agreed_nil : marks.Agreed [] := by
  intro before event x value prefixed
  simp at prefixed

theorem Marks.Agreed.snoc (agreed : marks.Agreed trace)
    (used : ∀ x value, marks.uses x event = some value → marks.latest x trace = some value) :
    marks.Agreed (trace ++ [event]) := by
  intro before event' x value prefixed uses
  rcases List.prefix_concat_iff.mp prefixed with same | earlier
  · obtain ⟨rfl, rfl⟩ := List.append_singleton_inj.mp same
    exact used x value uses
  · exact agreed before event' x value earlier uses

theorem Marks.Agreed.append (agreed : marks.Agreed trace) (unused : ∀ event ∈ more, ∀ x, marks.uses x event = none) :
    marks.Agreed (trace ++ more) := by
  induction more using List.reverseRecOn with
  | nil => rwa [List.append_nil]
  | append_singleton more event ih =>
    rw [← List.append_assoc]
    refine (ih fun e member => unused e (List.mem_append_left _ member)).snoc ?_
    intro x value uses
    rw [unused event (by simp) x] at uses
    cases uses

end Latest
