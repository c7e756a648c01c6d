import LiteServer.Lua.Class

/-!
What `clone` and `class` make of a superclass: a new table with the plain fields
of the old one. The tables that were there before stay as they were.
-/
namespace LiteServer.Lua.Class
open LiteServer.Lua.Objects

/-! ### What a copy leaves alone -/

section
variable {s s' : CopyState} {v v' : LuaValue} {new_table : Ref} {object : Table} {fuel : Nat}

def isTable : LuaValue → Bool
  | .table _ => true
  | _ => false

/-- A copy only adds tables, and is the value itself where that is no table. -/
structure Copied (s : CopyState) (v v' : LuaValue) (s' : CopyState) : Prop where
  grows : s.heap.Grows s'.heap
  same : isTable v = false → v' = v
  table : isTable v = true → isTable v' = true

/-- The loop writes to the new table only, and to the keys that it copies. -/
theorem copyFields_correct {copy : CopyState → LuaValue → Option (LuaValue × CopyState)}
    (copies : ∀ s v v' s', copy s v = some (v', s') → Copied s v v' s') {before : Objects} {keys : List LuaValue}
    (young : before.next ≤ new_table) (grows : before.Grows s.heap) (there : new_table < s.heap.next)
    (copied : copyFields copy new_table object keys s = some s') :
    before.Grows s'.heap ∧ new_table < s'.heap.next ∧
      ∀ key, isTable (object.field (.string key)) = false → (s'.heap.table new_table).field (.string key) =
        if .string key ∈ keys ∧ object.field (.string key) ≠ .nil then object.field (.string key)
        else (s.heap.table new_table).field (.string key) := by
  induction keys generalizing s with
  | nil =>
    obtain rfl := Option.some.inj copied
    exact ⟨grows, there, fun key _ => by simp⟩
  | cons first keys ih =>
    rw [copyFields] at copied
    by_cases unset : object.field first = .nil
    · rw [if_pos unset] at copied
      obtain ⟨grown, there', fields⟩ := ih grows there copied
      refine ⟨grown, there', fun key plain => ?_⟩
      rw [fields key plain]
      by_cases here : LuaValue.string key = first
      · subst here
        simp [unset]
      · simp [here]
    · rw [if_neg unset] at copied
      simp only [Option.bind_eq_bind, Option.bind_eq_some_iff] at copied
      obtain ⟨⟨first', s₁⟩, copiedKey, ⟨value, s₂⟩, copiedValue, rest⟩ := copied
      have keyCopied := copies _ _ _ _ copiedKey
      have valueCopied := copies _ _ _ _ copiedValue
      have both := keyCopied.grows.trans valueCopied.grows
      have same : s₂.heap.table new_table = s.heap.table new_table := both.table _ there
      have further : new_table < s₂.heap.next := Nat.lt_of_lt_of_le there both.next
      obtain ⟨grown, there', fields⟩ := ih (s := { s₂ with heap := s₂.heap.rawset new_table first' value })
        ((grows.trans both).rawset young _ _) further rest
      refine ⟨grown, there', fun key plain => ?_⟩
      rw [fields key plain]
      show (if _ then _ else ((s₂.heap.rawset new_table first' value).table new_table).field (.string key)) = _
      rw [Heap.table_rawset_self, Table.field_rawset, same]
      by_cases here : LuaValue.string key = first
      · subst here
        rw [keyCopied.same rfl, Function.update_self, valueCopied.same plain]
        simp [unset]
      · have apart : LuaValue.string key ≠ first' := by
          rintro rfl
          cases first with
          | table t =>
            have table := keyCopied.table rfl
            cases table
          | _ => exact here (keyCopied.same rfl)
        rw [Function.update_of_ne apart]
        simp [here]

/-- Only a table that is met for the first time is work. -/
theorem copy_old (old : ∀ t, v = .table t → s.lookup_table t ≠ none) (fuel : Nat) :
    ∃ v', copy fuel s v = some (v', s) ∧ Copied s v v' s := by
  cases v with
  | table t =>
    obtain ⟨new_table, met⟩ := Option.ne_none_iff_exists'.mp (old t rfl)
    refine ⟨.table new_table, ?_, Heap.Grows.refl _, fun plain => Bool.noConfusion plain, fun _ => rfl⟩
    cases fuel with
    | zero =>
      rw [copy, met]
      rfl
    | succ fuel => rw [copy, met]
  | _ => exact ⟨_, by cases fuel <;> rfl, Heap.Grows.refl _, fun _ => rfl, fun table => table⟩

theorem new_of_not_old (new : ¬ ∀ t, v = .table t → s.lookup_table t ≠ none) :
    ∃ t, v = .table t ∧ s.lookup_table t = none := by
  by_contra none
  exact new fun t table unmet => none ⟨t, table, unmet⟩

/-- What a table that was not met before is copied to. -/
structure CopiedTable (s : CopyState) (t : Ref) (v' : LuaValue) (s' : CopyState) : Prop where
  value : v' = .table s.heap.next
  grows : s.heap.Grows s'.heap
  there : s.heap.next < s'.heap.next
  fields : ∀ key, isTable ((s.heap.table t).field (.string key)) = false →
    (s'.heap.table s.heap.next).field (.string key) = (s.heap.table t).field (.string key)
  plain : t < s.heap.next → (s.heap.table t).metatable = none → (s'.heap.table s.heap.next).metatable = none

theorem copyTable_correct (copies : ∀ s v v' s', copy fuel s v = some (v', s') → Copied s v v' s') {t : Ref}
    (unmet : s.lookup_table t = none) (copied : copy (fuel + 1) s (.table t) = some (v', s')) :
    CopiedTable s t v' s' := by
  rw [copy, unmet] at copied
  simp only [Option.bind_eq_bind, Option.bind_eq_some_iff] at copied
  obtain ⟨s₁, filled, heap, set, same⟩ := copied
  obtain ⟨rfl, rfl⟩ := Prod.mk.inj (Option.some.inj same)
  obtain ⟨grows, there, fields⟩ := copyFields_correct copies (Nat.le_refl s.heap.next)
    (Heap.newTable_grows s.heap none) (Nat.lt_succ_self _) filled
  obtain ⟨field, next⟩ := Heap.setmetatable_field set
  refine ⟨rfl, grows.setmetatable (Nat.le_refl _) set, next ▸ there, ?_, ?_⟩
  · intro key plain
    refine (congrFun field (.string key)).trans ((fields key plain).trans ?_)
    by_cases unset : (s.heap.table t).field (.string key) = .nil
    · rw [if_neg fun both => both.2 unset, unset]
      show ((s.heap.newTable none).2.table s.heap.next).field _ = _
      rw [Heap.table_newTable_self]
      rfl
    · rw [if_pos ⟨(s.heap.table t).covered _ unset, unset⟩]
  · intro old plain
    rw [Heap.getmetatable_plain (by rw [grows.table t old, plain])] at set
    exact Heap.setmetatable_nil set

theorem copy_correct (copied : copy fuel s v = some (v', s')) : Copied s v v' s' := by
  induction fuel generalizing s v v' s' with
  | zero =>
    by_cases old : ∀ t, v = .table t → s.lookup_table t ≠ none
    · obtain ⟨same, found, copied'⟩ := copy_old old 0
      obtain ⟨rfl, rfl⟩ := Prod.mk.inj (Option.some.inj (found.symm.trans copied))
      exact copied'
    · obtain ⟨t, rfl, unmet⟩ := new_of_not_old old
      rw [copy, unmet] at copied
      cases copied
  | succ fuel ih =>
    by_cases old : ∀ t, v = .table t → s.lookup_table t ≠ none
    · obtain ⟨same, found, copied'⟩ := copy_old old (fuel + 1)
      obtain ⟨rfl, rfl⟩ := Prod.mk.inj (Option.some.inj (found.symm.trans copied))
      exact copied'
    · obtain ⟨t, rfl, unmet⟩ := new_of_not_old old
      have new := copyTable_correct (fun s v v' s' => ih) unmet copied
      exact ⟨new.grows, fun plain => Bool.noConfusion plain, fun _ => by rw [new.value]; rfl⟩

end

/-! ### What a class is -/

/-- The fields of a class that the library works with. -/
structure IsClass (h : Objects) (cls : Ref) (super : LuaValue) (ctor : Nat) : Prop where
  there : cls < h.next
  plain : (h.table cls).metatable = none
  super : (h.table cls).field (.string "super") = super
  ctor : (h.table cls).field (.string "ctor") = .function ctor
  ctype : (h.table cls).field (.string "__ctype") = .number 2
  index : (h.table cls).field (.string "__index") = .table cls
  newindex : (h.table cls).field (.string "__newindex") = .nil
  new : ∃ f < h.nextFunction, (h.table cls).field (.string "New") = .function f ∧ h.code f = .new cls

/-- A new table that `class` goes on with. -/
structure Started (h h' : Objects) (cls : Ref) (super : LuaValue) (ctor : Nat) : Prop where
  grows : h.Grows h'
  young : h.next ≤ cls
  there : cls < h'.next
  plain : (h'.table cls).metatable = none
  super : (h'.table cls).field (.string "super") = super
  ctor : (h'.table cls).field (.string "ctor") = .function ctor
  newindex : (h'.table cls).field (.string "__newindex") = .nil

section
variable {fuel : Nat} {h h' : Objects} {cls super allClassList : Ref} {ctor : Nat} {classname : String}

theorem inherit_root {v : LuaValue} (root : isTable v = false) (inherited : inherit fuel h v = some (cls, h')) :
    Started h h' cls .nil h.nextFunction := by
  let h₁ := (h.newFunction .constructor).2
  let h₂ := (h₁.newTable none).2
  have grows : h.Grows h₂ := (Heap.newFunction_grows h .constructor).trans (Heap.newTable_grows h₁ none)
  have empty : h₂.table h.next = .empty none := Heap.table_newTable_self h₁ none
  have plain : (h₂.table h.next).metatable = none := by rw [empty]; rfl
  have made : inherit fuel h v = some (h.next, h₂.rawset h.next (.string "ctor") (.function h.nextFunction)) := by
    cases v with
    | table t => cases root
    | _ =>
      show (h₂.setindex h.next "ctor" (.function h.nextFunction)).bind _ = _
      rw [Heap.setindex_plain plain]
      rfl
  obtain ⟨rfl, rfl⟩ := Prod.mk.inj (Option.some.inj (made.symm.trans inherited))
  constructor
  · exact grows.rawset (Nat.le_refl _) _ _
  · exact Nat.le_refl _
  · exact Nat.lt_succ_self _
  · rw [Heap.metatable_rawset, plain]
  · rw [Heap.field_rawset, empty]
    rfl
  · rw [Heap.field_rawset, if_pos rfl]
  · rw [Heap.field_rawset, empty]
    rfl

theorem clone_correct {t : Ref} {v' : LuaValue} (cloned : clone fuel h (.table t) = some (v', h')) :
    ∃ s' : CopyState, s'.heap = h' ∧ CopiedTable ⟨h, fun _ => none⟩ t v' s' := by
  simp only [clone, Option.bind_eq_bind, Option.bind_eq_some_iff] at cloned
  obtain ⟨⟨copied, s'⟩, copied', same⟩ := cloned
  obtain ⟨rfl, rfl⟩ := Prod.mk.inj (Option.some.inj same)
  cases fuel with
  | zero => cases copied'
  | succ fuel => exact ⟨s', rfl, copyTable_correct (fun s v v' s' => copy_correct) rfl copied'⟩

theorem inherit_clone {v' : LuaValue} (there : super < h.next) (plain : (h.table super).metatable = none)
    (cloned : clone fuel h (.table super) = some (v', h')) :
    inherit fuel h (.table super) = some (h.next, h'.rawset h.next (.string "super") (.table super)) := by
  obtain ⟨s', rfl, new⟩ := clone_correct cloned
  rw [inherit, cloned, new.value]
  show (s'.heap.setindex h.next "super" (.table super)).bind _ = _
  rw [Heap.setindex_plain (new.plain there plain)]
  rfl

theorem inherit_subclass {base : LuaValue} (isClass : IsClass h super base ctor)
    (inherited : inherit fuel h (.table super) = some (cls, h')) : Started h h' cls (.table super) ctor := by
  cases cloned : clone fuel h (.table super) with
  | none =>
    rw [inherit, cloned] at inherited
    cases inherited
  | some made =>
    obtain ⟨v', h₁⟩ := made
    rw [inherit_clone isClass.there isClass.plain cloned] at inherited
    obtain ⟨rfl, rfl⟩ := Prod.mk.inj (Option.some.inj inherited)
    obtain ⟨s', rfl, new⟩ := clone_correct cloned
    have plain := new.plain isClass.there isClass.plain
    have ctor := new.fields "ctor" (by rw [isClass.ctor]; rfl)
    have newindex := new.fields "__newindex" (by rw [isClass.newindex]; rfl)
    constructor
    · exact new.grows.rawset (Nat.le_refl _) _ _
    · exact Nat.le_refl _
    · exact new.there
    · rw [Heap.metatable_rawset, plain]
    · rw [Heap.field_rawset, if_pos rfl]
    · rw [Heap.field_rawset, if_neg (by decide), ctor, isClass.ctor]
    · rw [Heap.field_rawset, if_neg (by decide), newindex, isClass.newindex]

/-- What `class` does to the tables and functions that were there before. -/
structure Keeps (allClassList : Ref) (h h' : Objects) : Prop where
  next : h.next ≤ h'.next
  table : ∀ t < h.next, t ≠ allClassList → h'.table t = h.table t
  nextFunction : h.nextFunction ≤ h'.nextFunction
  code : ∀ f < h.nextFunction, h'.code f = h.code f

/-- The heap when the fields of `cls` are set. -/
def completed (cls : Ref) (classname : String) (h : Objects) : Objects :=
  let named := (h.rawset cls (.string "__cname") (.string classname)).rawset cls (.string "__ctype") (.number 2)
  let (new, h) := (named.rawset cls (.string "__index") (.table cls)).newFunction (.new cls)
  h.rawset cls (.string "New") (.function new)

theorem complete_eq (plain : (h.table cls).metatable = none) :
    complete allClassList cls classname h =
      ((completed cls classname h).setindex allClassList classname (.table cls)).bind fun h => some (cls, h) := by
  let h₁ := h.rawset cls (.string "__cname") (.string classname)
  let h₂ := h₁.rawset cls (.string "__ctype") (.number 2)
  let h₃ := h₂.rawset cls (.string "__index") (.table cls)
  have plain₁ : (h₁.table cls).metatable = none := (Heap.metatable_rawset ..).trans plain
  have plain₂ : (h₂.table cls).metatable = none := (Heap.metatable_rawset ..).trans plain₁
  have plain₃ : ((h₃.newFunction (.new cls)).2.table cls).metatable = none := (Heap.metatable_rawset ..).trans plain₂
  rw [complete, Heap.setindex_plain plain]
  show (h₁.setindex cls "__ctype" _).bind _ = _
  rw [Heap.setindex_plain plain₁]
  show (h₂.setindex cls "__index" _).bind _ = _
  rw [Heap.setindex_plain plain₂]
  show ((h₃.newFunction (.new cls)).2.setindex cls "New" _).bind _ = _
  rw [Heap.setindex_plain plain₃]
  rfl

theorem completed_grows (grows : h.Grows h') (young : h.next ≤ cls) (classname : String) :
    h.Grows (completed cls classname h') := by
  have named := (grows.rawset young (.string "__cname") (.string classname)).rawset young (.string "__ctype") (.number 2)
  exact ((named.rawset young _ _).trans (Heap.newFunction_grows _ _)).rawset young _ _

theorem completed_field (cls : Ref) (classname : String) (h : Objects) (key : String) :
    ((completed cls classname h).table cls).field (.string key) =
      if key = "New" then .function h.nextFunction else if key = "__index" then .table cls
      else if key = "__ctype" then .number 2 else if key = "__cname" then .string classname
      else (h.table cls).field (.string key) := by
  let h₁ := h.rawset cls (.string "__cname") (.string classname)
  let h₂ := h₁.rawset cls (.string "__ctype") (.number 2)
  let h₃ := h₂.rawset cls (.string "__index") (.table cls)
  refine (Heap.field_rawset (h₃.newFunction (.new cls)).2 cls "New" key _).trans ?_
  show (if _ then _ else (h₃.table cls).field _) = _
  rw [Heap.field_rawset, Heap.field_rawset, Heap.field_rawset]
  rfl

theorem completed_plain (plain : (h.table cls).metatable = none) (classname : String) :
    ((completed cls classname h).table cls).metatable = none := by
  let h₁ := h.rawset cls (.string "__cname") (.string classname)
  let h₂ := h₁.rawset cls (.string "__ctype") (.number 2)
  refine (Heap.metatable_rawset ((h₂.rawset cls (.string "__index") (.table cls)).newFunction (.new cls)).2 ..).trans ?_
  show ((h₂.rawset cls (.string "__index") (.table cls)).table cls).metatable = none
  rw [Heap.metatable_rawset, Heap.metatable_rawset, Heap.metatable_rawset, plain]

theorem complete_correct {h₁ : Objects} {cls' : Ref} {base : LuaValue} (started : Started h h₁ cls base ctor)
    (list : allClassList < h.next) (done : complete allClassList cls classname h₁ = some (cls', h')) :
    cls' = cls ∧ IsClass h' cls base ctor ∧ Keeps allClassList h h' := by
  rw [complete_eq started.plain, Option.bind_eq_some_iff] at done
  obtain ⟨h₂, listed, same⟩ := done
  obtain ⟨rfl, rfl⟩ := Prod.mk.inj (Option.some.inj same)
  obtain rfl := Heap.setindex_eq listed
  have apart : cls ≠ allClassList := Nat.ne_of_gt (Nat.lt_of_lt_of_le list started.young)
  have grows := completed_grows started.grows started.young classname
  have same := Heap.table_rawset_other apart (completed cls classname h₁) (.string classname) (.table cls)
  have field := completed_field cls classname h₁
  refine ⟨rfl, ⟨started.there, ?_, ?_, ?_, ?_, ?_, ?_, ?_⟩, ?_⟩
  · rw [same, completed_plain started.plain]
  · rw [same]
    exact (field "super").trans started.super
  · rw [same]
    exact (field "ctor").trans started.ctor
  · rw [same]
    exact field "__ctype"
  · rw [same]
    exact field "__index"
  · rw [same]
    exact (field "__newindex").trans started.newindex
  · rw [same]
    exact ⟨h₁.nextFunction, Nat.lt_succ_self _, field "New", Heap.code_newFunction_self _ _⟩
  · exact ⟨grows.next, fun t old other => (Heap.table_rawset_other other ..).trans (grows.table t old),
      grows.nextFunction, grows.code⟩

theorem class_parts {v : LuaValue} (made : class_ fuel allClassList h classname v = some (cls, h')) :
    ∃ cls' h₁, inherit fuel h v = some (cls', h₁) ∧ complete allClassList cls' classname h₁ = some (cls, h') := by
  rw [class_, Option.bind_eq_bind, Option.bind_eq_some_iff] at made
  obtain ⟨isNative, _, made⟩ := made
  cases isNative with
  | true => cases made
  | false =>
    rw [if_neg Bool.false_ne_true, Option.bind_eq_bind, Option.bind_eq_some_iff] at made
    obtain ⟨⟨cls', h₁⟩, inherited, completed⟩ := made
    exact ⟨cls', h₁, inherited, completed⟩

/-- What `class` returns. -/
structure Made (allClassList : Ref) (h : Objects) (cls : Ref) (super : LuaValue) (ctor : Nat) (h' : Objects) : Prop where
  isClass : IsClass h' cls super ctor
  young : h.next ≤ cls
  keeps : Keeps allClassList h h'

theorem class_root {v : LuaValue} (root : isTable v = false) (list : allClassList < h.next)
    (made : class_ fuel allClassList h classname v = some (cls, h')) :
    Made allClassList h cls .nil h.nextFunction h' := by
  obtain ⟨cls', h₁, inherited, completed⟩ := class_parts made
  have started := inherit_root root inherited
  obtain ⟨rfl, isClass, keeps⟩ := complete_correct started list completed
  exact ⟨isClass, started.young, keeps⟩

theorem class_subclass {base : LuaValue} (isClass : IsClass h super base ctor) (list : allClassList < h.next)
    (made : class_ fuel allClassList h classname (.table super) = some (cls, h')) :
    Made allClassList h cls (.table super) ctor h' := by
  obtain ⟨cls', h₁, inherited, completed⟩ := class_parts made
  have started := inherit_subclass isClass inherited
  obtain ⟨rfl, isClass, keeps⟩ := complete_correct started list completed
  exact ⟨isClass, started.young, keeps⟩

end

end LiteServer.Lua.Class
