import LiteServer.Lua.Exports

/-!
What scripts find of a class that was exported. A method that is called by its
name is the one that was bound last, also for objects that were made before the
class was exported again; and a method is only ever called on an object of its
own class.
-/
namespace LiteServer.Lua.Wrap
open LiteServer.Lua.Objects

section
variable {bind : ClassName → List WrapFuncInfo} {s s' : State} {T : ClassName} {u : Nat} {class_index : Ref}
  {Name : String} {info : WrapFuncInfo}

/-- A method of a class is one that its `Bind` names, and it is only called on
    objects of the class. -/
theorem called_typed (reached : Reachable bind s) :
    ∀ m ∈ s.called, (∃ info ∈ bind m.T, info.Func = m.Func) ∧ ∃ o, s.objects[m.p]? = some o ∧ o.T = m.T := by
  intro m member
  obtain ⟨listed, alive, object⟩ := reached.sound.called m member
  exact ⟨listed, ⟨m.T, alive⟩, object, rfl⟩

theorem withCall_typed : (∃ info ∈ Bind "LuaObj", info.Func = 3) ∧
    ∃ o, withCall.objects[0]? = some o ∧ o.T = "LuaObj" :=
  called_typed withCall_reachable ⟨"LuaObj", 3, 0⟩ (List.mem_singleton_self _)

/-! ### Methods by their names -/

/-- A step that neither exports the class again nor writes to this field of it. -/
def Later (bind : ClassName → List WrapFuncInfo) (T : ClassName) (class_index : Ref) (Name : String) (s s' : State) : Prop :=
  ∃ a, Allowed s a ∧ apply bind s a = some s' ∧ a ≠ .export_ T ∧ ∀ v, a ≠ .rawset class_index (.string Name) v

/-- Where a call of the method `Name` goes. -/
structure Dispatches (bind : ClassName → List WrapFuncInfo) (T : ClassName) (class_index : Ref) (Name : String)
    (info : WrapFuncInfo) (s : State) : Prop where
  sound : Sound bind s
  there : class_index < s.heap.next
  notGlobals : class_index ≠ s.globals
  notMeta : ∀ T', s.registry T' ≠ some class_index
  registered : ∃ m, s.registry T = some m ∧ Registered s.heap T class_index m
  method : ∃ index, (s.FunctionList T)[index]? = some info ∧ Holds s.heap class_index Name (.call T index)

theorem Holds.kept {h h' : Heap Code} {code : Code} (holds : Holds h class_index Name code)
    (same : (h'.table class_index).field (.string Name) = (h.table class_index).field (.string Name))
    (nextFunction : h.nextFunction ≤ h'.nextFunction) (old : ∀ f < h.nextFunction, h'.code f = h.code f) :
    Holds h' class_index Name code := by
  obtain ⟨f, there, field, is⟩ := holds
  exact ⟨f, Nat.lt_of_lt_of_le there nextFunction, same.trans field, (old f there).trans is⟩

theorem export_dispatches (sound : Sound bind s) (entry : bound (bind T) Name = some info) :
    Dispatches bind T s.heap.next Name info (export_ bind T s) := by
  have sound' := sound.export_ T
  obtain ⟨m, h, prepared, same⟩ := export_prepared sound T
  rw [same] at sound' ⊢
  have exported := exportTables_exported T (s.FunctionList T ++ bind T) h prepared.apart
  refine ⟨sound', exported.next ▸ prepared.next, Nat.ne_of_gt sound.globals, ?_, ⟨m, Function.update_self .., exported.registered⟩, ?_⟩
  · intro T' has
    have has : Function.update s.registry T (some m) T' = some s.heap.next := has
    by_cases here : T' = T
    · subst here
      rw [Function.update_self] at has
      exact prepared.apart (Option.some.inj has).symm
    · rw [Function.update_of_ne here] at has
      exact Nat.lt_irrefl _ (sound.registered has).1
  · obtain ⟨index, listed, holds⟩ := exported.method Name info (by rw [bound_append, entry]; rfl)
    refine ⟨index, ?_, holds⟩
    show (Function.update s.FunctionList T (s.FunctionList T ++ bind T) T)[index]? = some info
    rw [Function.update_self]
    exact listed

theorem Dispatches.other (dispatches : Dispatches bind T class_index Name info s) {T' : ClassName} (different : T' ≠ T) :
    Dispatches bind T class_index Name info (export_ bind T' s) := by
  have sound := dispatches.sound
  have sound' := sound.export_ T'
  obtain ⟨m', h, prepared, same⟩ := export_prepared sound T'
  rw [same] at sound' ⊢
  have exported := exportTables_exported T' (s.FunctionList T' ++ bind T') h prepared.apart
  obtain ⟨m, known, registered⟩ := dispatches.registered
  obtain ⟨index, listed, holds⟩ := dispatches.method
  have apart : ∀ t < s.heap.next, t ≠ s.globals → (∀ known : s.registry T' = some t, False) →
      (exportTables T' (s.FunctionList T' ++ bind T') s.heap.next m' h).table t = s.heap.table t := by
    intro t old notGlobals unknown
    have notMeta : t ≠ m' := by
      rintro rfl
      rcases prepared.known with known' | ⟨-, young⟩
      · exact unknown known'
      · exact Nat.lt_asymm old young
    exact (exported.others t (Nat.ne_of_lt old) notMeta).trans (prepared.old t old notGlobals)
  have nextFunction : s.heap.nextFunction ≤ (exportTables T' (s.FunctionList T' ++ bind T') s.heap.next m' h).nextFunction :=
    prepared.nextFunction ▸ exported.nextFunction
  have old : ∀ f < s.heap.nextFunction,
      (exportTables T' (s.FunctionList T' ++ bind T') s.heap.next m' h).code f = s.heap.code f := fun f before =>
    (exported.old f (prepared.nextFunction ▸ before)).trans (congrFun prepared.code f)
  have classSame := apart class_index dispatches.there dispatches.notGlobals (dispatches.notMeta T')
  have metaSame := apart m (sound.registered known).1 (sound.registered known).2.1
    fun known' => different (sound.distinct known' known)
  refine ⟨sound', ?_, dispatches.notGlobals, ?_, ⟨m, (Function.update_of_ne different.symm ..).trans known,
    registered.kept metaSame nextFunction old⟩, index, ?_, holds.kept (by rw [classSame]) nextFunction old⟩
  · exact Nat.lt_trans dispatches.there (exported.next ▸ prepared.next)
  · intro T'' has
    have has : Function.update s.registry T' (some m') T'' = some class_index := has
    by_cases here : T'' = T'
    · subst here
      rw [Function.update_self] at has
      obtain rfl := Option.some.inj has
      rcases prepared.known with known' | ⟨-, young⟩
      · exact dispatches.notMeta T'' known'
      · exact Nat.lt_asymm dispatches.there young
    · rw [Function.update_of_ne here] at has
      exact dispatches.notMeta T'' has
  · show (Function.update s.FunctionList T' _ T)[index]? = some info
    rw [Function.update_of_ne different.symm]
    exact listed

theorem Dispatches.scripted (dispatches : Dispatches bind T class_index Name info s) {h : Heap Code} (scripted : Scripted s h)
    (same : (h.table class_index).field (.string Name) = (s.heap.table class_index).field (.string Name)) :
    Dispatches bind T class_index Name info { s with heap := h } := by
  obtain ⟨m, known, registered⟩ := dispatches.registered
  obtain ⟨index, listed, holds⟩ := dispatches.method
  exact ⟨dispatches.sound.scripted scripted, Nat.lt_of_lt_of_le dispatches.there scripted.next, dispatches.notGlobals,
    dispatches.notMeta, ⟨m, known, registered.kept (scripted.others T m known) scripted.nextFunction scripted.old⟩, index,
    listed, holds.kept same scripted.nextFunction scripted.old⟩

/-- What calls and the garbage collector leave alone. -/
structure SameTables (s s' : State) : Prop where
  heap : s'.heap = s.heap
  globals : s'.globals = s.globals
  registry : s'.registry = s.registry
  FunctionList : s'.FunctionList = s.FunctionList

theorem delete_sameTables {p : Nat} (deleted : delete p s = some s') : SameTables s s' := by
  obtain ⟨-, rfl⟩ := delete_eq deleted
  exact ⟨rfl, rfl, rfl, rfl⟩

theorem callFunction_sameTables {f : Nat} {args : List LuaValue} (called : callFunction f args s = some s') :
    SameTables s s' := by
  have unchanged : SameTables s s := ⟨rfl, rfl, rfl, rfl⟩
  rw [callFunction] at called
  cases code : s.heap.code f with
  | script =>
    rw [code] at called
    obtain rfl := Option.some.inj called
    exact unchanged
  | new T =>
    rw [code] at called
    obtain rfl := Option.some.inj called
    exact ⟨rfl, rfl, rfl, rfl⟩
  | del T =>
    simp only [code, del] at called
    split at called
    · obtain rfl := Option.some.inj called
      exact unchanged
    · exact delete_sameTables called
  | call T i =>
    simp only [code, call] at called
    split at called
    · obtain rfl := Option.some.inj called
      exact unchanged
    · obtain ⟨info, -, called⟩ := Option.bind_eq_some_iff.mp called
      split at called
      · obtain rfl := Option.some.inj called
        exact ⟨rfl, rfl, rfl, rfl⟩
      · cases called

theorem collect_sameTables (sound : Sound bind s) (collected : collect u s = some s') : SameTables s s' := by
  obtain ⟨ud, found, -⟩ := Option.bind_eq_some_iff.mp collected
  rw [collect_eq sound found] at collected
  have same := delete_sameTables collected
  exact ⟨same.heap, same.globals, same.registry, same.FunctionList⟩

theorem Dispatches.sameTables (dispatches : Dispatches bind T class_index Name info s) (same : SameTables s s')
    (sound : Sound bind s') : Dispatches bind T class_index Name info s' := by
  obtain ⟨heap, globals, registry, FunctionList⟩ := same
  exact ⟨sound, heap ▸ dispatches.there, globals ▸ dispatches.notGlobals, registry ▸ dispatches.notMeta,
    heap ▸ registry ▸ dispatches.registered, heap ▸ FunctionList ▸ dispatches.method⟩

theorem Dispatches.later (dispatches : Dispatches bind T class_index Name info s)
    (later : Later bind T class_index Name s s') : Dispatches bind T class_index Name info s' := by
  obtain ⟨a, allowed, taken, again, untouched⟩ := later
  have sound' := dispatches.sound.apply allowed taken
  cases a with
  | export_ T' =>
    obtain rfl := Option.some.inj taken
    exact dispatches.other fun same => again (same ▸ rfl)
  | newTable =>
    obtain rfl := Option.some.inj taken
    have grows := Heap.newTable_grows s.heap none
    refine dispatches.scripted (scripted_grows dispatches.sound grows ?_) (by rw [grows.table _ dispatches.there])
    exact fun _ there young => absurd there (Nat.not_lt.mpr young)
  | newFunction =>
    obtain rfl := Option.some.inj taken
    refine dispatches.scripted (scripted_grows dispatches.sound (Heap.newFunction_grows s.heap .script) ?_) rfl
    intro f there young
    obtain rfl : f = s.heap.nextFunction := Nat.le_antisymm (Nat.lt_succ_iff.mp there) young
    exact Heap.code_newFunction_self s.heap .script
  | rawset t key v =>
    obtain rfl := Option.some.inj taken
    refine dispatches.scripted (scripted_rawset allowed.2 key v) ?_
    by_cases here : class_index = t
    · subst here
      have other : LuaValue.string Name ≠ key := fun same => untouched v (same ▸ rfl)
      rw [Heap.table_rawset_self, Table.field_rawset, Function.update_of_ne other]
    · rw [Heap.table_rawset_other here]
  | setmetatable t metatable =>
    obtain rfl := Option.some.inj taken
    refine dispatches.scripted (scripted_setmetatable allowed.2.2 allowed.2.1 metatable) ?_
    have kept : ∀ m, ((s.heap.withMetatable t m).table class_index).field = (s.heap.table class_index).field := by
      intro m
      by_cases here : class_index = t
      · subst here
        rw [Heap.table_withMetatable_self]
      · rw [show (s.heap.withMetatable t m).table class_index = _ from Function.update_of_ne here ..]
    cases metatable with
    | nil => exact congrFun (kept none) _
    | table m => exact congrFun (kept (some m)) _
    | _ => rfl
  | call f args => exact dispatches.sameTables (callFunction_sameTables taken) sound'
  | collect u => exact dispatches.sameTables (collect_sameTables dispatches.sound taken) sound'

/-- `obj:Name(...)` calls the method that `Bind` names last, whenever the object was made. -/
theorem Dispatches.callMethod (dispatches : Dispatches bind T class_index Name info s)
    (object : s.objects[u]? = some ⟨T, true⟩) (args : List LuaValue) :
    callMethod u Name args s = some { s with called := s.called ++ [⟨T, info.Func, u⟩] } := by
  have sound := dispatches.sound
  obtain ⟨m, known, registered⟩ := dispatches.registered
  obtain ⟨i, listed, f, there, field, code⟩ := dispatches.method
  obtain ⟨ud, found⟩ : ∃ ud, s.userdata[u]? = some ud :=
    ⟨_, List.getElem?_eq_getElem (sound.count ▸ (List.getElem?_eq_some_iff.mp object).1)⟩
  obtain ⟨owns, T', m', alive', has, known', object'⟩ := sound.userdata found
  obtain ⟨rfl, -⟩ := Object.mk.inj (Option.some.inj (object.symm.trans object'))
  obtain rfl := Option.some.inj (known'.symm.trans known)
  have looked : index s u Name = some (.function f) := by
    rw [index, found]
    simp only [Option.bind_eq_bind, Option.bind_some, has, registered.index]
    rw [Heap.index_set (by rw [field]; exact nofun), field]
  have checked : luaL_checkudata s (.userdata u) T = some u := by
    rw [luaL_checkudata, found]
    show (if _ then some ud.p else none) = _
    rw [if_pos ⟨by rw [has]; rfl, has.trans known.symm⟩, owns]
  have living : alive s u = true := by rw [alive, object]; rfl
  rw [Wrap.callMethod, looked]
  show callFunction f (.userdata u :: args) s = _
  rw [callFunction, code]
  show call T i (.userdata u :: args) s = _
  rw [call, show luaL_checkudata s ((LuaValue.userdata u :: args).headD .nil) T = _ from checked]
  show ((s.FunctionList T)[i]?).bind _ = _
  rw [listed]
  show (if alive s u then _ else _) = _
  rw [if_pos living]

theorem Dispatches.run (dispatches : Dispatches bind T class_index Name info s)
    (later : Relation.ReflTransGen (Later bind T class_index Name) s s') : Dispatches bind T class_index Name info s' := by
  induction later with
  | refl => exact dispatches
  | tail _ step ih => exact ih.later step

/-- Once a class was exported, a method that is called by its name on any object of
    the class, old or new, is the one that `Bind` names last; until the class is
    exported again, or a script writes to the very field. -/
theorem method_dispatch (reached : Reachable bind s) (entry : bound (bind T) Name = some info)
    (later : Relation.ReflTransGen (Later bind T s.heap.next Name) (export_ bind T s) s')
    (object : s'.objects[u]? = some ⟨T, true⟩) (args : List LuaValue) :
    callMethod u Name args s' = some { s' with called := s'.called ++ [⟨T, info.Func, u⟩] } :=
  ((export_dispatches reached.sound entry).run later).callMethod object args

/-- The object is older than the second export. -/
theorem withObject_dispatch : callMethod 0 "Test" [] (export_ Bind "LuaObj" withObject) =
    some { export_ Bind "LuaObj" withObject with called := [] ++ [⟨"LuaObj", 3, 0⟩] } :=
  method_dispatch withObject_reachable (show bound (Bind "LuaObj") "Test" = some ⟨"Test", 3⟩ from rfl) .refl rfl []

end

end LiteServer.Lua.Wrap
