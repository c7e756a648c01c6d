import Mathlib.Data.Finset.Card
import Mathlib.Data.Finset.Range
import LiteServer.Db.RedisConnectorWrap

/-!
What Lua reads from a reply. The list of a reply begins at index 0, where
`ipairs` does not look.
-/
namespace LiteServer.Db
open LiteServer.Lua

/-! ### The table -/

mutual

/-- The table that `FillReply` leaves on the stack. -/
def replyTable : RedisReply → Value Int
  | .mk type integer str element =>
    let list := if element.length > 0 then .table (elementFields (fun _ => .nil) 0 element) else .nil
    let fields : Key Int → Value Int := fun _ => .nil
    let fields := Function.update fields (.number 1) (.number (nearest 53 type.toInt))
    let fields := Function.update fields (.number 2) (.number (nearest 53 integer.toInt))
    let fields := Function.update fields (.number 3) (.number (nearest 53 str.length))
    let fields := Function.update fields (.number 4) (.string str)
    let fields := Function.update fields (.number 5) (.number (nearest 53 element.length))
    .table (Function.update fields (.number 6) list)

def elementFields (fields : Key Int → Value Int) (i : Nat) : List RedisReply → Key Int → Value Int
  | [] => fields
  | reply :: element => elementFields (Function.update fields (.number (nearest 53 i)) (replyTable reply)) (i + 1) element

end

mutual

theorem fillReply_total_correct (L : LuaState Int) : (reply : RedisReply) → fillReply L reply = some (L.push (replyTable reply))
  | .mk type integer str element => by
    simp only [fillReply, pushinteger, LuaState.settable_correct, Option.bind_eq_bind, Option.bind_some]
    by_cases some_elements : element.length > 0
    · simp only [if_pos some_elements, fillElements_total_correct, Option.bind_some, LuaState.settable_correct]
      rw [replyTable, if_pos some_elements]
      rfl
    · simp only [if_neg some_elements]
      rw [replyTable, if_neg some_elements]
      rfl

theorem fillElements_total_correct (L : LuaState Int) (fields : Key Int → Value Int) (i : Nat) : (element : List RedisReply) →
    fillElements (L.push (.table fields)) i element = some (L.push (.table (elementFields fields i element)))
  | [] => by rw [fillElements, elementFields]
  | reply :: element => by
    simp only [fillElements, pushinteger, fillReply_total_correct, LuaState.settable_correct, fillElements_total_correct,
      Option.bind_eq_bind, Option.bind_some]
    rw [elementFields]
    rfl

end

/-! ### The round trip -/

mutual

/-- The reply as it was sent. -/
def received : RedisReply → LuaReply
  | .mk type integer str element => .mk type.toInt integer.toInt str.length str element.length (receivedAll element)

def receivedAll : List RedisReply → List LuaReply
  | [] => []
  | reply :: element => received reply :: receivedAll element

end

def stringArray (strings : List (List UInt8)) : RedisReply := .mk 2 0 [] (strings.map fun s => .mk 1 0 s [])

/-- What was sent is read, and a list of strings is returned whole. -/
def RoundTrips (reply : RedisReply) : Prop :=
  ∀ L : LuaState Int, ∃ rep, fillReply L reply = some (L.push rep) ∧
    (∃ fuel, readReply fuel rep = some (received reply)) ∧
    ∀ strings, reply = stringArray strings → ∃ fuel, commandList fuel rep = some (.returned (strings.map .string))

/-- The integer is a double. -/
def Exact (n : Int) : Prop := nearest 53 n = n

theorem receivedAll_length (element : List RedisReply) : (receivedAll element).length = element.length := by
  induction element with
  | nil => rfl
  | cons reply element ih => rw [receivedAll, List.length_cons, List.length_cons, ih]

/-- Only indices below the number of elements are set. -/
theorem elementFields_set {fields : Key Int → Value Int} {i : Nat} {element : List RedisReply} {k : Int}
    (set : elementFields fields i element (.number k) ≠ .nil) :
    fields (.number k) ≠ .nil ∨ ∃ j < i + element.length, k = nearest 53 j := by
  induction element generalizing fields i with
  | nil => exact Or.inl set
  | cons reply element ih =>
    rw [elementFields] at set
    rcases ih set with before | ⟨j, inside, same⟩
    · by_cases here : k = nearest 53 i
      · exact Or.inr ⟨i, by rw [List.length_cons]; omega, here⟩
      · rw [Function.update_of_ne (by simpa using here)] at before
        exact Or.inl before
    · exact Or.inr ⟨j, by rw [List.length_cons]; omega, same⟩

theorem ipairs_succ {list : Value Int} {fuel : Nat} {i : Int} {v : Value Int} (found : index list i = some v)
    (present : v ≠ .nil) : ipairs list (fuel + 1) i = (ipairs list fuel (i + 1)).bind fun values => some (v :: values) := by
  rw [ipairs, found]
  cases v <;> first | rfl | exact absurd rfl present

theorem ipairs_set {list : Value Int} {fuel : Nat} {i : Int} {values : List (Value Int)}
    (read : ipairs list fuel i = some values) {j : Nat} (inside : j < values.length) :
    ∃ v, index list (i + j) = some v ∧ v ≠ .nil := by
  induction fuel generalizing i values j with
  | zero => cases read
  | succ fuel ih =>
    cases found : index list i with
    | none =>
      rw [ipairs, found] at read
      cases read
    | some v =>
      by_cases present : v = .nil
      · rw [ipairs, found, present] at read
        cases read
        cases inside
      · rw [ipairs_succ found present, Option.bind_eq_some_iff] at read
        obtain ⟨rest, following, same⟩ := read
        cases same
        cases j with
        | zero => exact ⟨v, by simpa using found, present⟩
        | succ j =>
          have next := ih following (Nat.lt_of_succ_lt_succ inside)
          rw [Int.add_assoc, Int.add_comm 1] at next
          exact next

/-- With the index 0 set, `ipairs` finds fewer indices than there are elements. -/
theorem list_shorter {element : List RedisReply} {fuel : Nat} {values : List (Value Int)}
    (read : ipairs (.table (elementFields (fun _ => .nil) 0 element)) fuel 1 = some values) (nonempty : element ≠ []) :
    values.length < element.length := by
  by_contra enough
  have covered : (Finset.range (element.length + 1)).image (fun j : Nat => (j : Int)) ⊆
      (Finset.range element.length).image fun j : Nat => nearest 53 j := by
    intro k member
    obtain ⟨j, inside, rfl⟩ := Finset.mem_image.mp member
    rw [Finset.mem_range] at inside
    rw [Finset.mem_image]
    cases j with
    | zero => exact ⟨0, Finset.mem_range.mpr (List.length_pos_iff.mpr nonempty), rfl⟩
    | succ j =>
      obtain ⟨v, found, present⟩ := ipairs_set read (show j < values.length by omega)
      have same : (1 + j : Int) = (j + 1 : Nat) := by omega
      rw [same] at found
      cases found
      rcases elementFields_set present with unset | ⟨i, below, key⟩
      · exact absurd rfl unset
      · exact ⟨i, Finset.mem_range.mpr (by omega), key.symm⟩
  have sizes := Finset.card_le_card covered
  have injective : Function.Injective fun j : Nat => (j : Int) := fun a b same => Int.ofNat.inj same
  rw [Finset.card_image_of_injective _ injective, Finset.card_range] at sizes
  have few := Finset.card_image_le (s := Finset.range element.length) (f := fun j : Nat => nearest 53 (j : Int))
  rw [Finset.card_range] at few
  omega

theorem listed_replyTable (fuel : Nat) (type : BitVec 32) (integer : BitVec 64) (str : List UInt8) (element : List RedisReply) :
    listed fuel (replyTable (.mk type integer str element)) =
      if element.length > 0 then ipairs (.table (elementFields (fun _ => .nil) 0 element)) fuel 1 else some [] := by
  rw [replyTable]
  by_cases some_elements : element.length > 0
  · rw [if_pos some_elements, if_pos some_elements]
    rfl
  · rw [if_neg some_elements, if_neg some_elements]
    rfl

/-- The numbers are read as the doubles that they became. -/
theorem readReply_replyTable (fuel : Nat) (type : BitVec 32) (integer : BitVec 64) (str : List UInt8)
    (element : List RedisReply) :
    readReply (fuel + 1) (replyTable (.mk type integer str element)) =
      (listed fuel (replyTable (.mk type integer str element))).bind fun values =>
        (values.mapM (readReply fuel)).bind fun vallist =>
          some (.mk (nearest 53 type.toInt) (nearest 53 integer.toInt) (nearest 53 str.length) str
            (nearest 53 element.length) vallist) := by
  rw [replyTable]
  rfl

theorem mapM_length {α β : Type} {f : α → Option β} {xs : List α} {ys : List β} (mapped : xs.mapM f = some ys) :
    ys.length = xs.length := by
  induction xs generalizing ys with
  | nil => cases mapped; rfl
  | cons x xs ih =>
    simp only [List.mapM_cons, Option.bind_eq_bind, Option.bind_eq_some_iff] at mapped
    obtain ⟨y, -, rest, following, same⟩ := mapped
    cases same
    rw [List.length_cons, List.length_cons, ih following]

theorem RoundTrips.exact {type : BitVec 32} {integer : BitVec 64} {str : List UInt8} {element : List RedisReply}
    (trips : RoundTrips (.mk type integer str element)) : element = [] ∧ Exact integer.toInt ∧ Exact str.length := by
  obtain ⟨rep, other, ⟨fuel, read⟩, -⟩ := trips ⟨[], fun _ => .nil, fun _ => none⟩
  have same : replyTable (.mk type integer str element) = rep := by
    have pushed := Option.some.inj ((fillReply_total_correct _ _).symm.trans other)
    simp only [LuaState.push, LuaState.mk.injEq, List.cons.injEq, and_true] at pushed
    exact pushed
  subst same
  cases fuel with
  | zero => cases read
  | succ fuel =>
    rw [readReply_replyTable, Option.bind_eq_some_iff] at read
    obtain ⟨values, list, read⟩ := read
    obtain ⟨vallist, mapped, read⟩ := Option.bind_eq_some_iff.mp read
    rw [received, Option.some.injEq, LuaReply.mk.injEq] at read
    obtain ⟨-, exact_integer, exact_length, -, -, rfl⟩ := read
    refine ⟨?_, exact_integer, exact_length⟩
    by_contra nonempty
    rw [listed_replyTable, if_pos (List.length_pos_iff.mpr nonempty)] at list
    have shorter := list_shorter list nonempty
    rw [← mapM_length mapped, receivedAll_length] at shorter
    exact lt_irrefl _ shorter

theorem round_trips_iff (type : BitVec 32) (integer : BitVec 64) (str : List UInt8) (element : List RedisReply) :
    RoundTrips (.mk type integer str element) ↔ element = [] ∧ Exact integer.toInt ∧ Exact str.length := by
  constructor
  · exact RoundTrips.exact
  · rintro ⟨rfl, exact_integer, exact_length⟩ L
    refine ⟨_, fillReply_total_correct L _, ⟨1, ?_⟩, ?_⟩
    · have below := BitVec.toInt_lt (x := type)
      have above := BitVec.le_toInt type
      have type_exact : nearest 53 type.toInt = type.toInt := nearest_of_lt (by omega)
      rw [readReply_replyTable, listed_replyTable, received, type_exact, exact_integer, exact_length]
      rfl
    · intro strings same
      rw [stringArray, RedisReply.mk.injEq] at same
      obtain ⟨rfl, rfl, rfl, none⟩ := same
      have empty : strings = [] := List.map_eq_nil_iff.mp none.symm
      subst empty
      refine ⟨0, ?_⟩
      rw [replyTable]
      rfl

theorem integer_round_trips : RoundTrips (.mk 3 7 [] []) :=
  (round_trips_iff 3 7 [] []).mpr ⟨rfl, rfl, rfl⟩

theorem single_element_lost : ¬RoundTrips (stringArray [[97]]) := by
  intro trips
  cases trips.exact.1

end LiteServer.Db
