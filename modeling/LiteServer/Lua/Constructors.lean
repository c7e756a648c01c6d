import LiteServer.Lua.Clones
import Mathlib.Data.List.Forall2
import Mathlib.Data.List.Infix

/-!
Which constructors `New` calls. A class that has been given none has that of its
superclass, and `IsSuperCtor` finds it there; so every constructor that a class
was given is called once, from the root on.
-/
namespace LiteServer.Lua.Class
open LiteServer.Lua.Objects

/-! ### Chains of classes -/

/-- A class below the root, and the constructor it was given. -/
structure Member where
  cls : Ref
  own : Option Nat

section
variable (root : Ref) (rootCtor : Nat)

/-- The last class of a chain; the classes below the root are listed from the last. -/
def newest : List Member → Ref
  | [] => root
  | m :: _ => m.cls

def classes (ms : List Member) : List Ref := ms.map Member.cls ++ [root]

/-- What the field `ctor` of the last class has. -/
def ctorOf : List Member → Nat
  | [] => rootCtor
  | m :: ms => m.own.getD (ctorOf ms)

/-- The constructors that were given, from the last one to that of the root. -/
def constructors (ms : List Member) : List Nat := ms.filterMap Member.own ++ [rootCtor]

end

/-- The string keys that the library uses. -/
def machinery : List String := ["super", "ctor", "__ctype", "__index", "__newindex", "New"]

/-- Other code may do anything but change what `class` set up in these classes. -/
structure Leaves (cs : List Ref) (h h' : Objects) : Prop where
  next : h.next ≤ h'.next
  nextFunction : h.nextFunction ≤ h'.nextFunction
  code : ∀ f < h.nextFunction, h'.code f = h.code f
  plain : ∀ cls ∈ cs, (h'.table cls).metatable = (h.table cls).metatable
  field : ∀ cls ∈ cs, ∀ key ∈ machinery, (h'.table cls).field (.string key) = (h.table cls).field (.string key)

/-- The chains that programs build: classes are made one below the other, and
    the last one is given a constructor, with any other code between. The root
    has the empty constructor until it is given one. -/
inductive Built (allClassList : Ref) : Objects → (root : Ref) → (rootCtor : Nat) → List Member → Prop
  | root {fuel h classname super cls h'} : allClassList < h.next → isTable super = false →
      class_ fuel allClassList h classname super = some (cls, h') → Built allClassList h' cls h.nextFunction []
  | rootCtor {h root rootCtor ctor h'} : Built allClassList h root rootCtor [] →
      h.setindex root "ctor" (.function ctor) = some h' → Built allClassList h' root ctor []
  | subclass {fuel h root rootCtor ms classname cls h'} : Built allClassList h root rootCtor ms →
      class_ fuel allClassList h classname (.table (newest root ms)) = some (cls, h') →
      Built allClassList h' root rootCtor (⟨cls, none⟩ :: ms)
  | ctor {h root rootCtor m ms ctor h'} : Built allClassList h root rootCtor (m :: ms) →
      h.setindex m.cls "ctor" (.function ctor) = some h' →
      Built allClassList h' root rootCtor (⟨m.cls, some ctor⟩ :: ms)
  | other {h root rootCtor ms h'} : Built allClassList h root rootCtor ms → Leaves (classes root ms) h h' →
      Built allClassList h' root rootCtor ms

/-! ### What the classes of a chain have -/

def superOf (root : Ref) : List Member → LuaValue
  | [] => .nil
  | _ :: ms => .table (newest root ms)

/-- Every class of a chain is one, and the older ones are not the last one. -/
def Linked (h : Objects) (root : Ref) (rootCtor : Nat) : List Member → Prop
  | [] => IsClass h root .nil rootCtor
  | m :: ms => IsClass h m.cls (.table (newest root ms)) (ctorOf rootCtor (m :: ms)) ∧ m.cls ∉ classes root ms ∧
      Linked h root rootCtor ms

section
variable {allClassList root cls : Ref} {rootCtor ctor : Nat} {h h' : Objects} {super : LuaValue} {m : Member}
  {ms : List Member}

theorem IsClass.leaves (isClass : IsClass h cls super ctor) {cs : List Ref} (leaves : Leaves cs h h') (member : cls ∈ cs) :
    IsClass h' cls super ctor := by
  have field := leaves.field cls member
  obtain ⟨f, old, new, code⟩ := isClass.new
  constructor
  · exact Nat.lt_of_lt_of_le isClass.there leaves.next
  · rw [leaves.plain cls member, isClass.plain]
  · rw [field "super" (by decide), isClass.super]
  · rw [field "ctor" (by decide), isClass.ctor]
  · rw [field "__ctype" (by decide), isClass.ctype]
  · rw [field "__index" (by decide), isClass.index]
  · rw [field "__newindex" (by decide), isClass.newindex]
  · refine ⟨f, Nat.lt_of_lt_of_le old leaves.nextFunction, ?_, ?_⟩
    · rw [field "New" (by decide), new]
    · rw [leaves.code f old, code]

/-- A class is given another constructor. -/
theorem IsClass.given (isClass : IsClass h cls super ctor) {ctor' : Nat}
    (given : h.setindex cls "ctor" (.function ctor') = some h') : IsClass h' cls super ctor' := by
  obtain rfl := Heap.setindex_eq given
  obtain ⟨f, old, new, code⟩ := isClass.new
  constructor
  · exact isClass.there
  · rw [Heap.metatable_rawset, isClass.plain]
  · rw [Heap.field_rawset, if_neg (by decide), isClass.super]
  · rw [Heap.field_rawset, if_pos rfl]
  · rw [Heap.field_rawset, if_neg (by decide), isClass.ctype]
  · rw [Heap.field_rawset, if_neg (by decide), isClass.index]
  · rw [Heap.field_rawset, if_neg (by decide), isClass.newindex]
  · exact ⟨f, old, by rw [Heap.field_rawset, if_neg (by decide), new], code⟩

theorem Linked.last (linked : Linked h root rootCtor ms) :
    IsClass h (newest root ms) (superOf root ms) (ctorOf rootCtor ms) := by
  cases ms with
  | nil => exact linked
  | cons m ms => exact linked.1

theorem Linked.leaves (linked : Linked h root rootCtor ms) {cs : List Ref} (leaves : Leaves cs h h')
    (members : ∀ cls ∈ classes root ms, cls ∈ cs) : Linked h' root rootCtor ms := by
  induction ms with
  | nil => exact IsClass.leaves linked leaves (members root (List.mem_singleton_self root))
  | cons m ms ih =>
    obtain ⟨isClass, apart, older⟩ := linked
    exact ⟨isClass.leaves leaves (members m.cls (List.mem_cons_self ..)), apart,
      ih older fun cls member => members cls (List.mem_cons_of_mem _ member)⟩

/-- `class` leaves the classes alone that were there before. -/
theorem Keeps.leaves {cs : List Ref} (keeps : Keeps allClassList h h') (there : ∀ cls ∈ cs, cls < h.next ∧ cls ≠ allClassList) :
    Leaves cs h h' where
  next := keeps.next
  nextFunction := keeps.nextFunction
  code := keeps.code
  plain cls member := by rw [keeps.table cls (there cls member).1 (there cls member).2]
  field cls member key _ := by rw [keeps.table cls (there cls member).1 (there cls member).2]

/-- Giving a class a constructor leaves the other classes alone. -/
theorem given_leaves {cs : List Ref} (given : h.setindex cls "ctor" (.function ctor) = some h') (apart : cls ∉ cs) :
    Leaves cs h h' := by
  obtain rfl := Heap.setindex_eq given
  have same : ∀ other ∈ cs, (h.rawset cls (.string "ctor") (.function ctor)).table other = h.table other :=
    fun other member => Heap.table_rawset_other (show other ≠ cls from fun here => apart (here ▸ member)) ..
  exact ⟨Nat.le_refl _, Nat.le_refl _, fun _ _ => rfl, fun other member => by rw [same other member],
    fun other member key _ => by rw [same other member]⟩

structure Sound (allClassList : Ref) (h : Objects) (root : Ref) (rootCtor : Nat) (ms : List Member) : Prop where
  list : allClassList < h.next
  linked : Linked h root rootCtor ms
  there : ∀ cls ∈ classes root ms, cls < h.next ∧ cls ≠ allClassList

theorem Built.sound (built : Built allClassList h root rootCtor ms) : Sound allClassList h root rootCtor ms := by
  induction built with
  | root list plain made =>
    obtain ⟨isClass, young, keeps⟩ := class_root plain list made
    refine ⟨Nat.lt_of_lt_of_le list keeps.next, isClass, ?_⟩
    intro cls member
    obtain rfl := List.mem_singleton.mp member
    exact ⟨isClass.there, Nat.ne_of_gt (Nat.lt_of_lt_of_le list young)⟩
  | rootCtor _ given ih =>
    have next := congrArg Heap.next (Heap.setindex_eq given)
    refine ⟨next ▸ ih.list, IsClass.given ih.linked given, ?_⟩
    intro cls member
    exact ⟨next ▸ (ih.there cls member).1, (ih.there cls member).2⟩
  | subclass _ made ih =>
    obtain ⟨isClass, young, keeps⟩ := class_subclass ih.linked.last ih.list made
    have older := keeps.leaves ih.there
    refine ⟨Nat.lt_of_lt_of_le ih.list keeps.next, ⟨isClass, ?_, ih.linked.leaves older fun _ member => member⟩, ?_⟩
    · exact fun member => Nat.not_lt.mpr young (ih.there _ member).1
    · intro cls member
      rcases List.mem_cons.mp member with rfl | old
      · exact ⟨isClass.there, Nat.ne_of_gt (Nat.lt_of_lt_of_le ih.list young)⟩
      · exact ⟨Nat.lt_of_lt_of_le (ih.there cls old).1 keeps.next, (ih.there cls old).2⟩
  | ctor _ given ih =>
    have next := congrArg Heap.next (Heap.setindex_eq given)
    obtain ⟨isClass, apart, older⟩ := ih.linked
    refine ⟨next ▸ ih.list, ⟨isClass.given given, apart, older.leaves (given_leaves given apart) fun _ member => member⟩, ?_⟩
    intro cls member
    exact ⟨next ▸ (ih.there cls member).1, (ih.there cls member).2⟩
  | other _ leaves ih =>
    refine ⟨Nat.lt_of_lt_of_le ih.list leaves.next, ih.linked.leaves leaves fun _ member => member, ?_⟩
    intro cls member
    exact ⟨Nat.lt_of_lt_of_le (ih.there cls member).1 leaves.next, (ih.there cls member).2⟩

end

/-! ### Which constructors are inherited -/

/-- The constructors that the classes of a chain have. -/
def ctorsOf (rootCtor : Nat) : List Member → List Nat
  | [] => [rootCtor]
  | m :: ms => ctorOf rootCtor (m :: ms) :: ctorsOf rootCtor ms

/-- Whether the last class has the constructor of an older one. -/
def inherits (rootCtor : Nat) : List Member → Bool
  | [] => false
  | m :: ms => decide (ctorOf rootCtor (m :: ms) ∈ ctorsOf rootCtor ms)

/-- The classes that were given a constructor, and the root. -/
def owners (root : Ref) : List Member → List LuaValue
  | [] => [.table root]
  | m :: ms => (if m.own.isNone then [] else [.table m.cls]) ++ owners root ms

/-- What has the last class of a chain, which is the class or an instance of it. -/
structure Reads (h : Objects) (root : Ref) (rootCtor : Nat) (ms : List Member) (v : LuaValue) : Prop where
  super : h.index v "super" = some (superOf root ms)
  ctor : h.index v "ctor" = some (.function (ctorOf rootCtor ms))

section
variable {root : Ref} {rootCtor : Nat} {h : Objects} {m : Member} {ms : List Member} {v : LuaValue} {fuel : Nat}

theorem ctorOf_mem (rootCtor : Nat) (ms : List Member) : ctorOf rootCtor ms ∈ ctorsOf rootCtor ms := by
  cases ms with
  | nil => exact List.mem_singleton_self rootCtor
  | cons m ms => exact List.mem_cons_self ..

theorem ctorOf_constructors (rootCtor : Nat) (ms : List Member) : ctorOf rootCtor ms ∈ constructors rootCtor ms := by
  induction ms with
  | nil => exact List.mem_singleton_self rootCtor
  | cons m ms ih =>
    obtain ⟨cls, own⟩ := m
    cases own with
    | none => exact ih
    | some ctor => exact List.mem_cons_self ..

theorem ctorsOf_constructors {ctor : Nat} (has : ctor ∈ ctorsOf rootCtor ms) : ctor ∈ constructors rootCtor ms := by
  induction ms with
  | nil => exact has
  | cons m ms ih =>
    rcases List.mem_cons.mp has with rfl | older
    · exact ctorOf_constructors rootCtor (m :: ms)
    · obtain ⟨cls, own⟩ := m
      cases own with
      | none => exact ih older
      | some ctor => exact List.mem_cons_of_mem _ (ih older)

/-- A class has the constructor of an older one where it was given none. -/
theorem inherits_eq (distinct : (constructors rootCtor (m :: ms)).Nodup) : inherits rootCtor (m :: ms) = m.own.isNone := by
  obtain ⟨cls, own⟩ := m
  cases own with
  | none => exact decide_eq_true (ctorOf_mem rootCtor ms)
  | some ctor =>
    refine decide_eq_false fun has => ?_
    exact (List.nodup_cons.mp distinct).1 (ctorsOf_constructors has)

theorem Linked.reads (linked : Linked h root rootCtor ms) : Reads h root rootCtor ms (.table (newest root ms)) where
  super := by rw [Heap.index_plain linked.last.plain, linked.last.super]
  ctor := by rw [Heap.index_plain linked.last.plain, linked.last.ctor]

/-- One round of the loop of `IsSuperCtor`. -/
theorem isSuperCtorLoop_succ (linked : Linked h root rootCtor ms) {ctor : Nat}
    (has : h.index v "ctor" = some (.function ctor)) (fuel : Nat) :
    isSuperCtorLoop h v (fuel + 1) (.table (newest root ms)) =
      if ctor = ctorOf rootCtor ms then some true else isSuperCtorLoop h v fuel (superOf root ms) := by
  have reads := linked.reads
  rw [isSuperCtorLoop, if_neg (by simp [LuaValue.truthy]), has, reads.ctor, reads.super]
  simp only [Option.bind_eq_bind, Option.bind_some, LuaValue.function.injEq]
  rfl

theorem isSuperCtorLoop_correct (linked : Linked h root rootCtor ms) {ctor : Nat}
    (has : h.index v "ctor" = some (.function ctor)) (enough : ms.length + 1 < fuel) :
    isSuperCtorLoop h v fuel (.table (newest root ms)) = some (decide (ctor ∈ ctorsOf rootCtor ms)) := by
  obtain ⟨fuel, rfl⟩ := Nat.exists_eq_add_of_lt (Nat.zero_lt_of_lt enough)
  rw [Nat.zero_add, isSuperCtorLoop_succ linked has]
  induction ms generalizing fuel with
  | nil =>
    by_cases same : ctor = ctorOf rootCtor []
    · rw [if_pos same]
      subst same
      simp [ctorsOf]
    · obtain ⟨fuel, rfl⟩ := Nat.exists_eq_add_of_lt (show 0 < fuel by omega)
      rw [if_neg same]
      have other : ctor ≠ rootCtor := same
      simp [ctorsOf, other, superOf, isSuperCtorLoop, LuaValue.truthy]
  | cons m ms ih =>
    by_cases same : ctor = ctorOf rootCtor (m :: ms)
    · rw [if_pos same]
      simp [ctorsOf, same]
    · rw [List.length_cons] at enough
      obtain ⟨fuel, rfl⟩ := Nat.exists_eq_add_of_lt (show 0 < fuel by omega)
      rw [if_neg same, superOf, Nat.zero_add, isSuperCtorLoop_succ linked.2.2 has, ih linked.2.2 fuel (by omega)]
      simp [ctorsOf, same]

theorem isSuperCtor_correct (linked : Linked h root rootCtor ms) (reads : Reads h root rootCtor ms v)
    (enough : ms.length < fuel) : isSuperCtor fuel h v = some (inherits rootCtor ms) := by
  rw [isSuperCtor, reads.super]
  cases ms with
  | nil =>
    obtain ⟨fuel, rfl⟩ := Nat.exists_eq_add_of_lt enough
    rfl
  | cons m ms => exact isSuperCtorLoop_correct linked.2.2 reads.ctor enough

theorem distinct_tail (distinct : (constructors rootCtor (m :: ms)).Nodup) : (constructors rootCtor ms).Nodup := by
  obtain ⟨cls, own⟩ := m
  cases own with
  | none => exact distinct
  | some ctor => exact (List.nodup_cons.mp distinct).2

/-- One round of the loop of `New` over the superclasses. -/
theorem superCtors_succ (linked : Linked h root rootCtor ms) (tabCtor : List LuaValue) (enough : ms.length < fuel) :
    superCtors h (fuel + 1) tabCtor (.table (newest root ms)) =
      superCtors h fuel (if inherits rootCtor ms then tabCtor else tabCtor ++ [.table (newest root ms)])
        (superOf root ms) := by
  have reads := linked.reads
  rw [superCtors, if_neg (by simp [LuaValue.truthy]), isSuperCtor_correct linked reads enough, reads.super]
  rfl

theorem superCtors_correct (linked : Linked h root rootCtor ms) (distinct : (constructors rootCtor ms).Nodup)
    (tabCtor : List LuaValue) (enough : ms.length + 1 < fuel) :
    superCtors h fuel tabCtor (.table (newest root ms)) = some (tabCtor ++ owners root ms) := by
  obtain ⟨fuel, rfl⟩ := Nat.exists_eq_add_of_lt (Nat.zero_lt_of_lt enough)
  rw [Nat.zero_add, superCtors_succ linked tabCtor (by omega)]
  induction ms generalizing fuel tabCtor with
  | nil =>
    obtain ⟨fuel, rfl⟩ := Nat.exists_eq_add_of_lt (show 0 < fuel by omega)
    rfl
  | cons m ms ih =>
    rw [List.length_cons] at enough
    obtain ⟨fuel, rfl⟩ := Nat.exists_eq_add_of_lt (show 0 < fuel by omega)
    rw [inherits_eq distinct, superOf, Nat.zero_add, superCtors_succ linked.2.2 _ (by omega),
      ih linked.2.2 (distinct_tail distinct) _ fuel (by omega), owners]
    cases m.own with
    | none => rfl
    | some ctor => exact congrArg some (List.append_assoc ..)

/-- Each of these classes has the constructor that it was given. -/
theorem owners_constructors (linked : Linked h root rootCtor ms) :
    List.Forall₂ (fun entry ctor => h.index entry "ctor" = some (.function ctor)) (owners root ms)
      (constructors rootCtor ms) := by
  induction ms with
  | nil => exact .cons linked.reads.ctor .nil
  | cons m ms ih =>
    obtain ⟨cls, own⟩ := m
    cases own with
    | none => exact ih linked.2.2
    | some ctor => exact .cons linked.reads.ctor (ih linked.2.2)

theorem owners_classes {entry : LuaValue} (member : entry ∈ owners root ms) : entry ∈ (classes root ms).map .table := by
  induction ms with
  | nil => exact member
  | cons m ms ih =>
    rcases List.mem_append.mp member with here | older
    · cases given : m.own with
      | none =>
        rw [given] at here
        cases here
      | some ctor =>
        rw [given] at here
        obtain rfl := List.mem_singleton.mp here
        exact List.mem_cons_self ..
    · exact List.mem_cons_of_mem _ (ih older)

/-- The heap after these calls. -/
def after (run : Run) (calls : List CtorCall) (h : Objects) : Objects := calls.foldl (fun h call => run call h) h

/-- However far the calls have come, the `ctor` of these values is what it was. -/
def Steady (run : Run) (calls : List CtorCall) (vs : List LuaValue) (h : Objects) : Prop :=
  ∀ before, before <+: calls → ∀ v ∈ vs, (after run before h).index v "ctor" = h.index v "ctor"

def ctorCalls (instance_ : LuaValue) (args : List LuaValue) (ctors : List Nat) : List CtorCall :=
  ctors.map fun ctor => ⟨ctor, instance_, args⟩

theorem Steady.tail {run : Run} {call : CtorCall} {calls : List CtorCall} {vs : List LuaValue}
    (steady : Steady run (call :: calls) vs h) : Steady run calls vs (run call h) := by
  intro before upTo v member
  have later := steady (call :: before) (List.cons_prefix_cons.mpr ⟨rfl, upTo⟩) v member
  have first := steady [call] (List.cons_prefix_cons.mpr ⟨rfl, List.nil_prefix⟩) v member
  exact later.trans first.symm

theorem callCtors_correct {run : Run} {vs entries : List LuaValue} {ctors : List Nat} {instance_ : LuaValue}
    {args : List LuaValue} (steady : Steady run (ctorCalls instance_ args ctors) vs h)
    (members : ∀ entry ∈ entries, entry ∈ vs)
    (has : List.Forall₂ (fun entry ctor => h.index entry "ctor" = some (.function ctor)) entries ctors) :
    callCtors run instance_ args entries h =
      some (ctorCalls instance_ args ctors, after run (ctorCalls instance_ args ctors) h) := by
  induction entries generalizing ctors h with
  | nil =>
    cases has
    rfl
  | cons entry entries ih =>
    cases has with
    | @cons _ ctor _ ctors first rest =>
      let call : CtorCall := ⟨ctor, instance_, args⟩
      have later : ∀ entry ∈ entries, entry ∈ vs := fun other member => members other (List.mem_cons_of_mem _ member)
      have kept : ∀ v ∈ vs, (run call h).index v "ctor" = h.index v "ctor" :=
        steady [call] (List.cons_prefix_cons.mpr ⟨rfl, List.nil_prefix⟩)
      have has : List.Forall₂ (fun entry ctor => (run call h).index entry "ctor" = some (.function ctor)) entries ctors :=
        ((List.forall₂_and_left _ _).mpr ⟨later, rest⟩).imp fun other _ both => (kept other both.1).trans both.2
      rw [callCtors, first]
      show (callCtors run instance_ args entries (run call h)).bind _ = _
      rw [ih (Steady.tail steady) later has]
      rfl

/-! ### What `New` calls -/

variable {allClassList cls : Ref} {super : LuaValue} {ctor : Nat}

theorem Linked.grows {h' : Objects} (linked : Linked h root rootCtor ms) (grows : h.Grows h')
    (there : ∀ cls ∈ classes root ms, cls < h.next) : Linked h' root rootCtor ms := by
  refine linked.leaves ⟨grows.next, grows.nextFunction, grows.code, ?_, ?_⟩ fun _ member => member
  · intro cls member
    rw [grows.table cls (there cls member)]
  · intro cls member key _
    rw [grows.table cls (there cls member)]

/-- What `tabCtor` holds in the end: whose constructor is called, from the last one on. -/
theorem tabCtor_correct (linked : Linked h root rootCtor ms) (distinct : (constructors rootCtor ms).Nodup)
    (reads : Reads h root rootCtor ms v) (enough : ms.length < fuel) :
    ∃ entries, superCtors h fuel (if inherits rootCtor ms then [] else [v]) (superOf root ms) = some entries ∧
      (∀ entry ∈ entries, entry ∈ v :: (classes root ms).map .table) ∧
      List.Forall₂ (fun entry ctor => h.index entry "ctor" = some (.function ctor)) entries (constructors rootCtor ms) := by
  cases ms with
  | nil =>
    obtain ⟨fuel, rfl⟩ := Nat.exists_eq_add_of_lt enough
    refine ⟨[v], rfl, ?_, .cons reads.ctor .nil⟩
    intro entry member
    obtain rfl := List.mem_singleton.mp member
    exact List.mem_cons_self ..
  | cons m ms =>
    have older : ∀ entry ∈ owners root ms, entry ∈ v :: (classes root (m :: ms)).map .table := fun entry member =>
      List.mem_cons_of_mem _ (List.mem_cons_of_mem _ (owners_classes member))
    have rest := owners_constructors linked.2.2
    rw [inherits_eq distinct, superOf]
    rw [superCtors_correct linked.2.2 (distinct_tail distinct) _ enough]
    obtain ⟨cls, own⟩ := m
    cases own with
    | none => exact ⟨_, rfl, older, rest⟩
    | some ctor =>
      refine ⟨_, rfl, ?_, .cons reads.ctor rest⟩
      intro entry member
      rcases List.mem_cons.mp member with rfl | later
      · exact List.mem_cons_self ..
      · exact older entry later

/-- What `New` makes before it calls a constructor. -/
def instantiated (h : Objects) (cls : Ref) : Objects :=
  (h.newTable (some cls)).2.rawset h.next (.string "class") (.table cls)

/-- The field `New` of a class closes over it. -/
theorem callNew_eq (isClass : IsClass h cls super ctor) (run : Run) (fuel : Nat) (args : List LuaValue) :
    callNew run fuel h cls args = new run fuel h cls args := by
  obtain ⟨f, _, new_, code⟩ := isClass.new
  rw [callNew, Heap.index_plain isClass.plain, new_]
  simp only [Option.bind_eq_bind, Option.bind_some, code]

theorem instantiated_grows (h : Objects) (cls : Ref) : h.Grows (instantiated h cls) :=
  (Heap.newTable_grows h (some cls)).rawset (Nat.le_refl _) _ _

theorem instantiated_set (isClass : IsClass h cls super ctor) :
    (h.newTable (some cls)).2.setindex h.next "class" (.table cls) = some (instantiated h cls) := by
  have newindex : (h.newTable (some cls)).2.metamethod h.next "__newindex" = .nil := by
    rw [Heap.metamethod, Heap.table_newTable_self]
    show ((h.newTable (some cls)).2.table cls).field (.string "__newindex") = .nil
    rw [(Heap.newTable_grows h _).table cls isClass.there, isClass.newindex]
  rw [Heap.setindex, if_neg fun both => both.2 newindex]
  rfl

/-- An instance has what its class has. -/
theorem instantiated_index (isClass : IsClass (instantiated h cls) cls super ctor) {key : String} (other : key ≠ "class") :
    (instantiated h cls).index (.table h.next) key = some (((instantiated h cls).table cls).field (.string key)) := by
  have fresh := Heap.table_newTable_self h (some cls)
  refine Heap.index_inherited ?_ ?_ isClass.index isClass.plain
  · rw [instantiated, Heap.field_rawset, if_neg other, fresh]
    rfl
  · rw [instantiated, Heap.metatable_rawset, fresh]
    rfl

theorem instantiated_reads (linked : Linked (instantiated h (newest root ms)) root rootCtor ms) :
    Reads (instantiated h (newest root ms)) root rootCtor ms (.table h.next) where
  super := by rw [instantiated_index linked.last (by decide), linked.last.super]
  ctor := by rw [instantiated_index linked.last (by decide), linked.last.ctor]

/-- Every constructor that a class was given is called once, from the root on,
    unless one of them changes which constructor the classes or the instance have. -/
theorem callNew_calls (built : Built allClassList h root rootCtor ms) (distinct : (constructors rootCtor ms).Nodup)
    {run : Run} (args : List LuaValue)
    (steady : Steady run (ctorCalls (.table h.next) args (constructors rootCtor ms).reverse)
      (.table h.next :: (classes root ms).map .table) (instantiated h (newest root ms)))
    (enough : ms.length < fuel) :
    ∃ created, callNew run fuel h (newest root ms) args = some created ∧ created.instance_ = .table h.next ∧
      created.calls = ctorCalls created.instance_ args (constructors rootCtor ms).reverse ∧
      (created.calls.map CtorCall.ctor).Nodup := by
  have sound := built.sound
  let h₂ := instantiated h (newest root ms)
  have linked : Linked h₂ root rootCtor ms :=
    sound.linked.grows (instantiated_grows h _) fun cls member => (sound.there cls member).1
  have reads := instantiated_reads linked
  obtain ⟨entries, collected, members, has⟩ := tabCtor_correct linked distinct reads enough
  have called := callCtors_correct steady (fun entry member => members entry (List.mem_reverse.mp member))
    (List.forall₂_reverse_iff.mpr has)
  let calls := ctorCalls (.table h.next) args (constructors rootCtor ms).reverse
  refine ⟨⟨.table h.next, calls, after run calls h₂⟩, ?_, rfl, rfl, ?_⟩
  · rw [callNew_eq sound.linked.last, new]
    show ((h.newTable (some (newest root ms))).2.setindex h.next "class" (.table (newest root ms))).bind _ = _
    rw [instantiated_set sound.linked.last]
    show (isSuperCtor fuel h₂ (.table h.next)).bind _ = _
    rw [isSuperCtor_correct linked reads enough]
    show (h₂.index (.table h.next) "super").bind _ = _
    rw [reads.super]
    show (superCtors h₂ fuel (if inherits rootCtor ms then [] else [.table h.next]) (superOf root ms)).bind _ = _
    rw [collected]
    show (callCtors run (.table h.next) args entries.reverse h₂).bind _ = _
    rw [called]
    rfl
  · show (List.map CtorCall.ctor (List.map _ _)).Nodup
    rw [List.map_map, List.Nodup, show CtorCall.ctor ∘ _ = id from rfl, List.map_id, List.pairwise_reverse]
    exact distinct.imp Ne.symm

end

/-! ### A chain of three, whose middle class was given no constructor -/

/-- An empty `AllClassList`, and twenty functions. -/
def noClasses : Objects := ⟨fun _ => .empty none, 1, fun _ => .constructor, 20⟩

def made (result : Option (Ref × Objects)) : Objects := (result.map Prod.snd).getD noClasses

theorem made_eq {result : Option (Ref × Objects)} {cls : Ref} (first : result.map Prod.fst = some cls) :
    result = some (cls, made result) := by
  cases result with
  | none => cases first
  | some pair =>
    obtain rfl := Option.some.inj first
    rfl

def madeRoot : Objects := made (class_ 1 0 noClasses "Entity" .nil)

def givenRoot : Objects := madeRoot.rawset 1 (.string "ctor") (.function 3)

def madeMiddle : Objects := made (class_ 3 0 givenRoot "Unit" (.table 1))

def madeLast : Objects := made (class_ 3 0 madeMiddle "Player" (.table 2))

def givenLast : Objects := madeLast.rawset 3 (.string "ctor") (.function 4)

theorem givenLast_built : Built 0 givenLast 1 3 [⟨3, some 4⟩, ⟨2, none⟩] := by
  have root : Built 0 madeRoot 1 20 [] := .root (by decide) rfl (made_eq (by decide +kernel))
  have given : Built 0 givenRoot 1 3 [] := root.rootCtor (Heap.setindex_plain (by decide +kernel) ..)
  have middle : Built 0 madeMiddle 1 3 [⟨2, none⟩] := given.subclass (made_eq (by decide +kernel))
  have last : Built 0 madeLast 1 3 [⟨3, none⟩, ⟨2, none⟩] := middle.subclass (made_eq (by decide +kernel))
  exact last.ctor (Heap.setindex_plain (by decide +kernel) ..)

/-- The constructors of the root and of the last class are called, each once. -/
theorem callNew_calls_three :
    ∃ created, callNew (fun _ h => h) 3 givenLast 3 [.number 7] = some created ∧
      created.instance_ = .table givenLast.next ∧
      created.calls = ctorCalls created.instance_ [.number 7] [3, 4] ∧ (created.calls.map CtorCall.ctor).Nodup := by
  refine callNew_calls givenLast_built (by decide) [.number 7] ?_ (by decide)
  intro before _ v _
  rw [after, List.foldl_fixed]

/-- A constructor that gives its instance another one. -/
def replaces : Run := fun call h =>
  match call.instance_ with
  | .table t => h.rawset t (.string "ctor") (.function 5)
  | _ => h

/-- The constructor of the last class is looked up in the instance when it is
    its turn: what the root put there is called, although no class was changed. -/
theorem callNew_replaced :
    Built 0 givenLast 1 3 [⟨3, some 4⟩, ⟨2, none⟩] ∧ (constructors 3 [⟨3, some 4⟩, ⟨2, none⟩]).Nodup ∧
      Steady replaces (ctorCalls (.table givenLast.next) [.number 7] [3, 4])
        ((classes 1 [⟨3, some 4⟩, ⟨2, none⟩]).map .table) (instantiated givenLast 3) ∧
      (callNew replaces 3 givenLast 3 [.number 7]).map (fun created => created.calls.map CtorCall.ctor) = some [3, 5] := by
  refine ⟨givenLast_built, by decide, ?_, by decide +kernel⟩
  intro before upTo
  rw [← List.mem_inits] at upTo
  revert before
  decide +kernel

end LiteServer.Lua.Class
