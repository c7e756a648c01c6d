import Mathlib.Data.List.Infix
import Mathlib.Data.List.Induction

/-!
Lifetimes in a trace: things that events open, close and use, over and over.
-/
namespace Lifetime
universe u v

/-- Which events open, close and use a thing. -/
structure Marks (Thing : Type u) (Event : Type v) where
  opens : Thing → Event → Bool
  closes : Thing → Event → Bool
  uses : Thing → Event → Bool

variable {Thing : Type u} {Event : Type v} (marks : Marks Thing Event)

/-- A thing was closed and not opened again. -/
def Marks.closed (x : Thing) (trace : List Event) : Bool :=
  trace.foldl (fun closed event => marks.closes x event || (closed && !marks.opens x event)) false

/-- Nothing is used while it is closed. -/
def Marks.Respected (trace : List Event) : Prop :=
  ∀ before event x, before ++ [event] <+: trace → marks.uses x event = true → marks.closed x before = false

variable {marks} {trace more : List Event} {x : Thing} {event : Event}

@[simp] theorem closed_nil : marks.closed x [] = false := rfl

@[simp] theorem closed_append_eq : marks.closed x (trace ++ more) =
    more.foldl (fun closed event => marks.closes x event || (closed && !marks.opens x event)) (marks.closed x trace) := by
  simp [Marks.closed]

theorem closed_snoc :
    marks.closed x (trace ++ [event]) = (marks.closes x event || (marks.closed x trace && !marks.opens x event)) := by
  simp

theorem respected_nil : marks.Respected [] := by
  intro before event x prefixed
  simp at prefixed

theorem Marks.Respected.snoc (respected : marks.Respected trace)
    (unused : ∀ x, marks.uses x event = true → marks.closed x trace = false) : marks.Respected (trace ++ [event]) := by
  intro before event' x prefixed uses
  rcases List.prefix_concat_iff.mp prefixed with same | earlier
  · obtain ⟨rfl, rfl⟩ := List.append_singleton_inj.mp same
    exact unused x uses
  · exact respected before event' x earlier uses

theorem Marks.Respected.extend (respected : marks.Respected trace) (unused : ∀ x, marks.uses x event = false) :
    marks.Respected (trace ++ [event]) := by
  apply respected.snoc
  intro x uses
  rw [unused x] at uses
  cases uses

theorem closed_append (unmarked : ∀ event ∈ more, marks.opens x event = false ∧ marks.closes x event = false) :
    marks.closed x (trace ++ more) = marks.closed x trace := by
  induction more using List.reverseRecOn with
  | nil => rw [List.append_nil]
  | append_singleton more event ih =>
    obtain ⟨opens, closes⟩ := unmarked event (by simp)
    rw [← List.append_assoc, closed_snoc, opens, closes, ih fun e member => unmarked e (List.mem_append_left _ member)]
    simp

theorem Marks.Respected.append (respected : marks.Respected trace)
    (unused : ∀ event ∈ more, ∀ x, marks.uses x event = false) : marks.Respected (trace ++ more) := by
  induction more using List.reverseRecOn with
  | nil => rwa [List.append_nil]
  | append_singleton more event ih =>
    rw [← List.append_assoc]
    exact (ih fun e member => unused e (List.mem_append_left _ member)).extend (unused event (by simp))

end Lifetime
