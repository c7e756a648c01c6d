import LiteServer.Lua.Doubles

/-!
Tables whose values have the keys from 1 on, and the length operator,
`table.insert` and `lua_next` on them.
-/
namespace LiteServer.Lua

/-- The table that `{v1, v2, ...}` constructs. -/
def array (values : List (Value Int)) : Key Int → Value Int
  | .number n => if 1 ≤ n then values[(n - 1).toNat]?.getD .nil else .nil
  | .string _ => .nil

/-- The first border from `n` on; `none` while the fuel is too little. -/
def border (fields : Key Int → Value Int) : (fuel : Nat) → (n : Nat) → Option Nat
  | 0, _ => none
  | fuel + 1, n =>
    match fields (.number (n + 1 : Nat)) with
    | .nil => some n
    | _ => border fields fuel (n + 1)

def tableInsert (fuel : Nat) (fields : Key Int → Value Int) (v : Value Int) : Option (Key Int → Value Int) := do
  let n ← border fields fuel 0
  return Function.update fields (.number (n + 1 : Nat)) v

/-- The key under which a traversal has passed `i` values. -/
def passed (i : Nat) : Value Int := if i = 0 then .nil else .number i

/-- The values of an array are traversed in ascending order. -/
def Ascending (after : Traversal Int) : Prop :=
  ∀ values, (∀ v ∈ values, v ≠ .nil) → ∀ i ≤ values.length,
    after (array values) (passed i) = values[i]?.map fun v => (passed (i + 1), v)

def following : Value Int → Int
  | .number n => n + 1
  | _ => 1

/-- A traversal of arrays only. -/
def arrayOrder : Traversal Int := fun fields key =>
  match fields (.number (following key)) with
  | .nil => none
  | v => some (.number (following key), v)

section
variable {values : List (Value Int)} {v : Value Int} {fuel i : Nat}

theorem array_succ (values : List (Value Int)) (i : Nat) :
    array values (.number (i + 1 : Nat)) = values[i]?.getD .nil := by
  show (if (1 : Int) ≤ (i + 1 : Nat) then values[((i + 1 : Nat) - 1 : Int).toNat]?.getD .nil else .nil) = _
  rw [if_pos (by omega), show ((i + 1 : Nat) - 1 : Int).toNat = i by omega]

theorem array_snoc (values : List (Value Int)) (v : Value Int) :
    Function.update (array values) (.number (values.length + 1 : Nat)) v = array (values ++ [v]) := by
  funext key
  by_cases here : key = .number (values.length + 1 : Nat)
  · rw [here, Function.update_self, array_succ, List.getElem?_concat_length]
    rfl
  · rw [Function.update_of_ne here]
    cases key with
    | string s => rfl
    | number n =>
      by_cases positive : 1 ≤ n
      · obtain ⟨i, rfl⟩ : ∃ i : Nat, n = (i + 1 : Nat) := ⟨(n - 1).toNat, by omega⟩
        have other : i ≠ values.length := fun same => here (by rw [same])
        rw [array_succ, array_succ]
        by_cases inside : i < values.length
        · rw [List.getElem?_append_left inside]
        · rw [List.getElem?_eq_none (by omega), List.getElem?_eq_none (by rw [List.length_append, List.length_singleton]; omega)]
      · simp only [array, if_neg positive]

theorem border_array (present : ∀ v ∈ values, v ≠ .nil) (inside : i ≤ values.length) (enough : values.length < i + fuel) :
    border (array values) fuel i = some values.length := by
  induction fuel generalizing i with
  | zero => omega
  | succ fuel ih =>
    rw [border, array_succ]
    by_cases last : i = values.length
    · rw [List.getElem?_eq_none last.ge, last]
      rfl
    · have here : i < values.length := by omega
      have set := present _ (List.getElem_mem here)
      rw [List.getElem?_eq_getElem here, Option.getD_some]
      split
      · exact absurd ‹_› set
      · exact ih (by omega) (by omega)

theorem tableInsert_array (present : ∀ v ∈ values, v ≠ .nil) (enough : values.length < fuel) :
    tableInsert fuel (array values) v = some (array (values ++ [v])) := by
  rw [tableInsert, border_array present (Nat.zero_le _) (by omega), ← array_snoc]
  rfl

/-- One round of a traversal of an array, which lies at any depth. -/
theorem next_array {after : Traversal Int} (ascending : Ascending after) (present : ∀ v ∈ values, v ≠ .nil)
    (inside : i ≤ values.length) {L : LuaState Int} {above below : List (Value Int)}
    (split : L.stack = above ++ .table (array values) :: below) :
    (L.push (passed i)).next after (below.length + 1 : Nat) = some (match values[i]? with
      | none => (false, L)
      | some v => (true, (L.push (passed (i + 1))).push v)) := by
  rw [LuaState.next_correct split, ascending values present i inside]
  cases values[i]? <;> rfl

end

theorem arrayOrder_ascending : Ascending arrayOrder := by
  intro values present i inside
  have next : following (passed i) = (i + 1 : Nat) := by
    by_cases first : i = 0
    · subst first
      rfl
    · simp [passed, first, following]
  rw [arrayOrder, next, array_succ]
  by_cases last : i = values.length
  · rw [List.getElem?_eq_none last.ge]
    rfl
  · have here : i < values.length := by omega
    have set := present _ (List.getElem_mem here)
    rw [List.getElem?_eq_getElem here, Option.getD_some, Option.map_some]
    split
    · exact absurd ‹_› set
    · rw [passed, if_neg (by omega)]

end LiteServer.Lua
