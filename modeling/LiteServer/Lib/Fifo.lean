import Mathlib.Data.List.Infix
import Mathlib.Data.List.TakeWhile

/-!
Queues: elements leave at the front, in the order in which they stood and were
put in at the back.
-/
namespace Fifo
universe u
variable {α : Type u} {taken queue taken' queue' taken'' queue'' new : List α} {a : α}

/-- What was taken since is what was in the queue, followed by what was put in
    since, but for what is in it now. -/
def Follows (taken queue taken' queue' : List α) : Prop :=
  ∃ new put, taken' = taken ++ new ∧ queue ++ put = new ++ queue'

theorem Follows.refl : Follows taken queue taken queue := ⟨[], [], by simp, by simp⟩

theorem Follows.put : Follows taken queue taken (queue ++ [a]) := ⟨[], [a], by simp, by simp⟩

theorem Follows.take : Follows taken (a :: queue) (taken ++ [a]) queue := ⟨[a], [], by simp, by simp⟩

theorem Follows.trans (first : Follows taken queue taken' queue') (second : Follows taken' queue' taken'' queue'') :
    Follows taken queue taken'' queue'' := by
  obtain ⟨new, put, rfl, moved⟩ := first
  obtain ⟨new', put', rfl, moved'⟩ := second
  refine ⟨new ++ new', put ++ put', List.append_assoc .., ?_⟩
  rw [← List.append_assoc, moved, List.append_assoc, moved', List.append_assoc]

/-- What is not in the queue is taken only after everything that is. -/
theorem Follows.ahead [DecidableEq α] (follows : Follows taken queue (taken ++ new) queue') (out : a ∉ queue)
    (again : a ∈ new) : queue <+: new.takeWhile (· ≠ a) := by
  obtain ⟨new', put, same, moved⟩ := follows
  obtain rfl := List.append_cancel_left same
  have inside : ∀ b ∈ queue, b ≠ a := fun b member equal => out (equal ▸ member)
  rcases List.append_eq_append_iff.mp moved with ⟨rest, rfl, _⟩ | ⟨rest, rfl, _⟩
  · rw [List.takeWhile_append_of_pos (by simpa using inside)]
    exact List.prefix_append ..
  · exact absurd (List.mem_append_left _ again) out

end Fifo
