import LiteServer.Lua.LuaWrap

/-!
What `Export` makes of the table of a class and of its metatable, and what every
state has of the classes that were exported.
-/
namespace LiteServer.Lua.Wrap
open LiteServer.Lua.Objects

/-- The entry of `FunctionList` that a name stands for: the last one. -/
def bound : List WrapFuncInfo → (Name : String) → Option WrapFuncInfo
  | [], _ => none
  | info :: vList, Name => (bound vList Name).or (if info.Name = Name then some info else none)

theorem bound_append (before vList : List WrapFuncInfo) (Name : String) :
    bound (before ++ vList) Name = (bound vList Name).or (bound before Name) := by
  induction before with
  | nil => exact (Option.or_none ..).symm
  | cons info before ih => rw [List.cons_append, bound, ih, bound, Option.or_assoc]

section
variable {h : Heap Code} {T : ClassName} {t other class_index meta_index : Ref} {key : String} {code : Code}
  {vList : List WrapFuncInfo} {i : Nat}

/-! ### What the loop writes -/

theorem setFunc_other (apart : other ≠ t) : (setFunc h t key code).table other = h.table other :=
  Heap.table_rawset_other apart ..

theorem setFunc_metatable : ((setFunc h t key code).table t).metatable = (h.table t).metatable := Heap.metatable_rawset ..

theorem setFunc_field (Name : String) : ((setFunc h t key code).table t).field (.string Name) =
    if Name = key then .function h.nextFunction else (h.table t).field (.string Name) := Heap.field_rawset ..

theorem setFunc_code_old {f : Nat} (old : f < h.nextFunction) : (setFunc h t key code).code f = h.code f :=
  (Heap.newFunction_grows h code).code f old

theorem setFunc_code_self : (setFunc h t key code).code h.nextFunction = code := Heap.code_newFunction_self h code

/-- Functions with these codes were added to a table, and nothing else was written. -/
structure Adds (codes : Code → Prop) (t : Ref) (h h' : Heap Code) : Prop where
  next : h'.next = h.next
  others : ∀ other, other ≠ t → h'.table other = h.table other
  metatable : (h'.table t).metatable = (h.table t).metatable
  nextFunction : h.nextFunction ≤ h'.nextFunction
  old : ∀ f < h.nextFunction, h'.code f = h.code f
  new : ∀ f < h'.nextFunction, h.nextFunction ≤ f → codes (h'.code f)

theorem setFunc_adds {codes : Code → Prop} (among : codes code) : Adds codes t h (setFunc h t key code) where
  next := rfl
  others _ apart := setFunc_other apart
  metatable := setFunc_metatable
  nextFunction := Nat.le_succ _
  old _ := setFunc_code_old
  new f there young := by
    obtain rfl : f = h.nextFunction := Nat.le_antisymm (Nat.lt_succ_iff.mp there) young
    rw [setFunc_code_self]
    exact among

theorem Adds.trans {codes : Code → Prop} {h' h'' : Heap Code} (first : Adds codes t h h') (second : Adds codes t h' h'') :
    Adds codes t h h'' where
  next := second.next.trans first.next
  others other apart := (second.others other apart).trans (first.others other apart)
  metatable := second.metatable.trans first.metatable
  nextFunction := Nat.le_trans first.nextFunction second.nextFunction
  old f old := (second.old f (Nat.lt_of_lt_of_le old first.nextFunction)).trans (first.old f old)
  new f there young := by
    by_cases before : f < h'.nextFunction
    · rw [second.old f before]
      exact first.new f before young
    · exact second.new f there (Nat.le_of_not_lt before)

def Calls (T : ClassName) (size : Nat) (code : Code) : Prop := ∃ index, code = .call T index ∧ index < size

theorem setCalls_adds {size : Nat} (fits : i + vList.length ≤ size) :
    Adds (Calls T size) class_index h (setCalls T class_index i vList h) := by
  induction vList generalizing i h with
  | nil =>
    exact ⟨rfl, fun _ _ => rfl, rfl, Nat.le_refl _, fun _ _ => rfl,
      fun f there young => absurd there (Nat.not_lt.mpr young)⟩
  | cons info vList ih =>
    rw [List.length_cons] at fits
    exact (setFunc_adds ⟨i, rfl, by omega⟩).trans (ih (by omega))

/-- The last entry of a name is the one that stays. -/
theorem setCalls_field (T : ClassName) (class_index : Ref) (i : Nat) (vList : List WrapFuncInfo) (h : Heap Code)
    (Name : String) :
    match bound vList Name with
    | none => ((setCalls T class_index i vList h).table class_index).field (.string Name) =
        (h.table class_index).field (.string Name)
    | some info => ∃ f j, f < (setCalls T class_index i vList h).nextFunction ∧ vList[j]? = some info ∧
        ((setCalls T class_index i vList h).table class_index).field (.string Name) = .function f ∧
        (setCalls T class_index i vList h).code f = .call T (i + j) := by
  induction vList generalizing i h with
  | nil => exact rfl
  | cons info vList ih =>
    have rest := ih (i + 1) (setFunc h class_index info.Name (.call T i))
    rw [bound]
    cases later : bound vList Name with
    | some info' =>
      rw [later] at rest
      obtain ⟨f, j, there, entry, field, code⟩ := rest
      exact ⟨f, j + 1, there, entry, field, by rw [show i + (j + 1) = i + 1 + j by omega]; exact code⟩
    | none =>
      rw [later, setFunc_field] at rest
      have adds : Adds (Calls T (i + 1 + vList.length)) class_index (setFunc h class_index info.Name (.call T i))
        (setCalls T class_index i (info :: vList) h) := setCalls_adds (Nat.le_refl _)
      by_cases here : info.Name = Name
      · rw [if_pos here.symm] at rest
        rw [if_pos here]
        refine ⟨h.nextFunction, 0, Nat.lt_of_lt_of_le (Nat.lt_succ_self _) adds.nextFunction, rfl, rest, ?_⟩
        exact (adds.old _ (Nat.lt_succ_self _)).trans setFunc_code_self
      · rw [if_neg fun same => here same.symm] at rest
        rw [if_neg here]
        exact rest

/-! ### What `Export` leaves -/

/-- What the metatable of a class has. -/
structure Registered (h : Heap Code) (T : ClassName) (class_index meta_index : Ref) : Prop where
  index : (h.table meta_index).field (.string "__index") = .table class_index
  protected_ : (h.table meta_index).field (.string "__metatable") = .table class_index
  gc : ∃ f < h.nextFunction, (h.table meta_index).field (.string "__gc") = .function f ∧ h.code f = .del T

/-- A field of the table of a class that holds this function. -/
def Holds (h : Heap Code) (class_index : Ref) (Name : String) (code : Code) : Prop :=
  ∃ f < h.nextFunction, (h.table class_index).field (.string Name) = .function f ∧ h.code f = code

structure Exported (T : ClassName) (vList : List WrapFuncInfo) (class_index meta_index : Ref) (h h' : Heap Code) : Prop where
  next : h'.next = h.next
  others : ∀ t, t ≠ class_index → t ≠ meta_index → h'.table t = h.table t
  metatable : (h'.table class_index).metatable = (h.table class_index).metatable ∧
    (h'.table meta_index).metatable = (h.table meta_index).metatable
  nextFunction : h.nextFunction ≤ h'.nextFunction
  old : ∀ f < h.nextFunction, h'.code f = h.code f
  new : ∀ f < h'.nextFunction, h.nextFunction ≤ f → h'.code f = .del T ∨ h'.code f = .new T ∨ Calls T vList.length (h'.code f)
  registered : Registered h' T class_index meta_index
  method : ∀ Name info, bound vList Name = some info → ∃ index, vList[index]? = some info ∧
    Holds h' class_index Name (.call T index)
  makes : bound vList "New" = none → Holds h' class_index "New" (.new T)
  deletes : bound vList "Del" = none → Holds h' class_index "Del" (.del T)

theorem exportTables_exported (T : ClassName) (vList : List WrapFuncInfo) (h : Heap Code)
    (apart : class_index ≠ meta_index) :
    Exported T vList class_index meta_index h (exportTables T vList class_index meta_index h) := by
  let codes : Code → Prop := fun code => code = .del T ∨ code = .new T ∨ Calls T vList.length code
  let h₁ := h.rawset meta_index (.string "__metatable") (.table class_index)
  let h₂ := setFunc h₁ meta_index "__gc" (.del T)
  let h₃ := setFunc h₂ class_index "New" (.new T)
  let h₄ := setFunc h₃ class_index "Del" (.del T)
  let h₅ := setCalls T class_index 0 vList h₄
  let h₆ := h₅.rawset meta_index (.string "__index") (.table class_index)
  have gc : Adds codes meta_index h₁ h₂ := setFunc_adds (Or.inl rfl)
  have makes : Adds codes class_index h₂ h₃ := setFunc_adds (Or.inr (Or.inl rfl))
  have deletes : Adds codes class_index h₃ h₄ := setFunc_adds (Or.inl rfl)
  have looped : Adds (Calls T vList.length) class_index h₄ h₅ := setCalls_adds (Nat.le_of_eq (Nat.zero_add _))
  have calls : Adds codes class_index h₄ h₅ :=
    { looped with new := fun f there young => Or.inr (Or.inr (looped.new f there young)) }
  have methods : Adds codes class_index h₂ h₅ := (makes.trans deletes).trans calls
  have gcOld : h₁.nextFunction < h₅.nextFunction := Nat.lt_of_lt_of_le (Nat.lt_succ_self _) methods.nextFunction
  have meta₂ : h₅.table meta_index = h₂.table meta_index := methods.others _ apart.symm
  have field₆ : ∀ Name, (h₆.table meta_index).field (.string Name) =
      if Name = "__index" then .table class_index else (h₂.table meta_index).field (.string Name) := by
    intro Name
    rw [← meta₂]
    exact Heap.field_rawset ..
  have class₆ : h₆.table class_index = h₅.table class_index := Heap.table_rawset_other apart ..
  have kept : ∀ Name code, bound vList Name = none → Holds h₄ class_index Name code → Holds h₆ class_index Name code := by
    rintro Name code unbound ⟨f, there, field, is⟩
    have same := setCalls_field T class_index 0 vList h₄ Name
    rw [unbound] at same
    refine ⟨f, Nat.lt_of_lt_of_le there calls.nextFunction, ?_, (calls.old f there).trans is⟩
    rw [class₆]
    exact same.trans field
  refine ⟨?_, ?_, ⟨?_, ?_⟩, ?_, ?_, ?_, ⟨?_, ?_, ?_⟩, ?_, ?_, ?_⟩
  · exact methods.next
  · intro t notClass notMeta
    have first : h₆.table t = h₅.table t := Heap.table_rawset_other notMeta ..
    rw [show (exportTables T vList class_index meta_index h).table t = h₅.table t from first, methods.others t notClass,
      gc.others t notMeta]
    exact Heap.table_rawset_other notMeta ..
  · refine (congrArg Table.metatable class₆).trans (methods.metatable.trans ?_)
    rw [gc.others _ apart]
    exact congrArg Table.metatable (Heap.table_rawset_other apart ..)
  · refine (Heap.metatable_rawset ..).trans ((congrArg Table.metatable meta₂).trans (gc.metatable.trans ?_))
    exact Heap.metatable_rawset ..
  · exact Nat.le_trans gc.nextFunction methods.nextFunction
  · intro f old
    exact (methods.old f (Nat.lt_of_lt_of_le old gc.nextFunction)).trans (gc.old f old)
  · intro f there young
    by_cases before : f < h₂.nextFunction
    · rw [show (exportTables T vList class_index meta_index h).code f = h₂.code f from methods.old f before]
      exact gc.new f before young
    · exact methods.new f there (Nat.le_of_not_lt before)
  · exact (field₆ "__index").trans (if_pos rfl)
  · refine (field₆ "__metatable").trans ((if_neg (by decide)).trans ((setFunc_field ..).trans ((if_neg (by decide)).trans ?_)))
    exact (Heap.field_rawset ..).trans (if_pos rfl)
  · refine ⟨h₁.nextFunction, gcOld, ?_, ?_⟩
    · exact (field₆ "__gc").trans ((if_neg (by decide)).trans ((setFunc_field ..).trans (if_pos rfl)))
    · exact (methods.old _ (Nat.lt_succ_self _)).trans setFunc_code_self
  · intro Name info entry
    have found := setCalls_field T class_index 0 vList h₄ Name
    rw [entry] at found
    obtain ⟨f, j, there, listed, field, code⟩ := found
    refine ⟨j, listed, f, there, (congrArg (fun t => t.field (.string Name)) class₆).trans field, ?_⟩
    rw [Nat.zero_add] at code
    exact code
  · intro unbound
    refine kept "New" _ unbound ⟨h₂.nextFunction, ?_, ?_, ?_⟩
    · exact Nat.lt_of_lt_of_le (Nat.lt_succ_self _) deletes.nextFunction
    · exact (setFunc_field ..).trans ((if_neg (by decide)).trans ((setFunc_field ..).trans (if_pos rfl)))
    · exact (deletes.old _ (Nat.lt_succ_self _)).trans setFunc_code_self
  · intro unbound
    exact kept "Del" _ unbound ⟨h₃.nextFunction, Nat.lt_succ_self _, (setFunc_field ..).trans (if_pos rfl), setFunc_code_self⟩

end

/-! ### What every state has -/

/-- Metatables are told apart by their classes, closures by their entries, and
    each userdata has the object that was made with it. -/
structure Sound (bind : ClassName → List WrapFuncInfo) (s : State) : Prop where
  globals : s.globals < s.heap.next
  plain : (s.heap.table s.globals).metatable = none
  registered : ∀ {T m}, s.registry T = some m → m < s.heap.next ∧ m ≠ s.globals ∧ (s.heap.table m).metatable = none ∧
    ∃ class_index < s.heap.next, Registered s.heap T class_index m
  distinct : ∀ {T T' m}, s.registry T = some m → s.registry T' = some m → T = T'
  index : ∀ {f T i}, f < s.heap.nextFunction → s.heap.code f = .call T i → i < (s.FunctionList T).length
  new : ∀ {f T}, f < s.heap.nextFunction → s.heap.code f = .new T → ∃ m, s.registry T = some m
  FunctionList : ∀ {T info}, info ∈ s.FunctionList T → info ∈ bind T
  count : s.objects.length = s.userdata.length
  userdata : ∀ {u} {ud : Userdata}, s.userdata[u]? = some ud → ud.p = u ∧ ∃ T m alive, ud.metatable = some m ∧ s.registry T = some m ∧
    s.objects[u]? = some ⟨T, alive⟩
  called : ∀ m ∈ s.called, (∃ info ∈ bind m.T, info.Func = m.Func) ∧ ∃ alive, s.objects[m.p]? = some ⟨m.T, alive⟩

section
variable {bind : ClassName → List WrapFuncInfo} {s s' : State} {T : ClassName} {u : Nat}

theorem Init.sound (init : Init s) : Sound bind s where
  globals := init.globals
  plain := init.plain
  registered registered := by
    rw [init.registry] at registered
    cases registered
  distinct registered := by
    rw [init.registry] at registered
    cases registered
  index _ code := by
    rw [init.code] at code
    cases code
  new _ code := by
    rw [init.code] at code
    cases code
  FunctionList member := by
    rw [init.FunctionList] at member
    cases member
  count := by rw [init.objects, init.userdata]; rfl
  userdata found := by
    rw [init.userdata] at found
    cases found
  called m member := by
    rw [init.called] at member
    cases member

/-- Scripts add tables and functions, and write to tables that are no metatables of classes. -/
structure Scripted (s : State) (h : Heap Code) : Prop where
  next : s.heap.next ≤ h.next
  plain : (h.table s.globals).metatable = (s.heap.table s.globals).metatable
  others : ∀ T m, s.registry T = some m → h.table m = s.heap.table m
  nextFunction : s.heap.nextFunction ≤ h.nextFunction
  old : ∀ f < s.heap.nextFunction, h.code f = s.heap.code f
  new : ∀ f < h.nextFunction, s.heap.nextFunction ≤ f → h.code f = .script

theorem Registered.kept {h h' : Heap Code} {class_index m : Ref} (registered : Registered h T class_index m)
    (same : h'.table m = h.table m) (nextFunction : h.nextFunction ≤ h'.nextFunction)
    (old : ∀ f < h.nextFunction, h'.code f = h.code f) : Registered h' T class_index m := by
  obtain ⟨f, there, field, code⟩ := registered.gc
  refine ⟨by rw [same, registered.index], by rw [same, registered.protected_], f, Nat.lt_of_lt_of_le there nextFunction,
    by rw [same, field], by rw [old f there, code]⟩

theorem Sound.scripted (sound : Sound bind s) {h : Heap Code} (scripted : Scripted s h) :
    Sound bind { s with heap := h } := by
  have code : ∀ {f code}, f < h.nextFunction → h.code f = code → code ≠ .script →
      f < s.heap.nextFunction ∧ s.heap.code f = code := by
    intro f code there is other
    by_cases old : f < s.heap.nextFunction
    · exact ⟨old, (scripted.old f old).symm.trans is⟩
    · exact absurd (is.symm.trans (scripted.new f there (Nat.le_of_not_lt old))) other
  refine ⟨?_, ?_, ?_, sound.distinct, ?_, ?_, sound.FunctionList, sound.count, sound.userdata, sound.called⟩
  · exact Nat.lt_of_lt_of_le sound.globals scripted.next
  · exact scripted.plain.trans sound.plain
  · intro T m has
    obtain ⟨there, apart, plain, class_index, classThere, registered⟩ := sound.registered has
    have same := scripted.others T m has
    exact ⟨Nat.lt_of_lt_of_le there scripted.next, apart, (congrArg Table.metatable same).trans plain, class_index,
      Nat.lt_of_lt_of_le classThere scripted.next, registered.kept same scripted.nextFunction scripted.old⟩
  · intro f T i there is
    obtain ⟨old, before⟩ := code there is nofun
    exact sound.index old before
  · intro f T there is
    obtain ⟨old, before⟩ := code there is nofun
    exact sound.new old before

theorem scripted_grows {h : Heap Code} (sound : Sound bind s) (grows : s.heap.Grows h)
    (new : ∀ f < h.nextFunction, s.heap.nextFunction ≤ f → h.code f = .script) : Scripted s h where
  next := grows.next
  plain := by rw [grows.table _ sound.globals]
  others _ m has := grows.table m (sound.registered has).1
  nextFunction := grows.nextFunction
  old := grows.code
  new := new

/-! ### `Export` keeps it -/

/-- The heap when `Export` has both tables. -/
structure Prepared (s : State) (T : ClassName) (m : Ref) (h : Heap Code) : Prop where
  next : s.heap.next < h.next
  there : m < h.next
  apart : s.heap.next ≠ m
  known : s.registry T = some m ∨ s.registry T = none ∧ s.heap.next < m
  old : ∀ t < s.heap.next, t ≠ s.globals → h.table t = s.heap.table t
  globals : (h.table s.globals).metatable = none ∧ (h.table s.globals).field (.string T) = .table s.heap.next
  plain : (h.table s.heap.next).metatable = none ∧ (h.table m).metatable = none
  nextFunction : h.nextFunction = s.heap.nextFunction
  code : h.code = s.heap.code

theorem export_prepared (sound : Sound bind s) (T : ClassName) : ∃ m h, Prepared s T m h ∧
    export_ bind T s = { s with
      registry := Function.update s.registry T (some m)
      FunctionList := Function.update s.FunctionList T (s.FunctionList T ++ bind T)
      heap := exportTables T (s.FunctionList T ++ bind T) s.heap.next m h } := by
  let h₁ := (s.heap.newTable none).2
  let h₂ := h₁.rawset s.globals (.string T) (.table s.heap.next)
  have fresh : s.heap.next ≠ s.globals := Nat.ne_of_gt sound.globals
  have class₂ : (h₂.table s.heap.next).metatable = none := by
    rw [Heap.table_rawset_other fresh, show h₁.table s.heap.next = .empty none from Heap.table_newTable_self s.heap none]
    rfl
  have old₂ : ∀ t < s.heap.next, t ≠ s.globals → h₂.table t = s.heap.table t := fun t old apart =>
    (Heap.table_rawset_other apart ..).trans ((Heap.newTable_grows s.heap none).table t old)
  have globals₂ : (h₂.table s.globals).metatable = none ∧ (h₂.table s.globals).field (.string T) = .table s.heap.next := by
    refine ⟨(Heap.metatable_rawset ..).trans ?_, (Heap.field_rawset ..).trans (if_pos rfl)⟩
    rw [(Heap.newTable_grows s.heap none).table _ sound.globals, sound.plain]
  have listed : ∀ vLists : ClassName → List WrapFuncInfo, Function.update vLists T (vLists T ++ bind T) T = vLists T ++ bind T :=
    fun _ => Function.update_self ..
  cases known : s.registry T with
  | some m =>
    obtain ⟨there, apart, plain, -⟩ := sound.registered known
    refine ⟨m, h₂, ⟨Nat.lt_succ_self _, Nat.lt_succ_of_lt there, Nat.ne_of_gt there, Or.inl known, old₂, globals₂,
      ⟨class₂, ?_⟩, rfl, rfl⟩, ?_⟩
    · rw [old₂ m there apart, plain]
    · simp only [export_, construct, luaL_newmetatable, known, listed]
      rw [show Function.update s.registry T (some m) = s.registry from known ▸ Function.update_eq_self T s.registry]
      rfl
  | none =>
    let h₃ := (h₂.newTable none).2
    have grows : h₂.Grows h₃ := Heap.newTable_grows h₂ none
    have inside : ∀ t ≤ s.heap.next, h₃.table t = h₂.table t := fun t old => grows.table t (Nat.lt_succ_of_le old)
    refine ⟨s.heap.next + 1, h₃, ⟨Nat.lt_succ_of_lt (Nat.lt_succ_self _), Nat.lt_succ_self _, Nat.ne_of_lt (Nat.lt_succ_self _),
      Or.inr ⟨known, Nat.lt_succ_self _⟩, ?_, ?_, ⟨?_, ?_⟩, rfl, rfl⟩, ?_⟩
    · exact fun t old apart => (inside t (Nat.le_of_lt old)).trans (old₂ t old apart)
    · rw [inside _ (Nat.le_of_lt sound.globals)]
      exact globals₂
    · rw [inside _ (Nat.le_refl _), class₂]
    · rw [show h₃.table (s.heap.next + 1) = .empty none from Heap.table_newTable_self h₂ none]
      rfl
    · simp only [export_, construct, luaL_newmetatable, known, listed]
      rfl

theorem Prepared.globals_ne {m : Ref} {h : Heap Code} (prepared : Prepared s T m h) (sound : Sound bind s) :
    s.globals ≠ m := by
  rcases prepared.known with known | ⟨-, young⟩
  · exact (sound.registered known).2.1.symm
  · exact Nat.ne_of_lt (Nat.lt_trans sound.globals young)

/-- The metatables of other classes are as before. -/
theorem Prepared.other {m : Ref} {h : Heap Code} (prepared : Prepared s T m h) (sound : Sound bind s) {T' : ClassName}
    {m' : Ref} (different : T' ≠ T) (has : Function.update s.registry T (some m) T' = some m') :
    s.registry T' = some m' ∧ m' ≠ m := by
  rw [Function.update_of_ne different] at has
  refine ⟨has, ?_⟩
  rcases prepared.known with known | ⟨-, young⟩
  · exact fun same => different (sound.distinct has (same ▸ known))
  · exact Nat.ne_of_lt (Nat.lt_trans (sound.registered has).1 young)

theorem Prepared.stays {m : Ref} {h : Heap Code} (prepared : Prepared s T m h) {T' : ClassName} {m' : Ref}
    (has : s.registry T' = some m') : Function.update s.registry T (some m) T' = some m' := by
  by_cases here : T' = T
  · subst here
    rcases prepared.known with known | ⟨unknown, -⟩
    · rw [Function.update_self, ← known, has]
    · cases unknown.symm.trans has
  · exact (Function.update_of_ne here ..).trans has

theorem Sound.export_ (sound : Sound bind s) (T : ClassName) : Sound bind (export_ bind T s) := by
  obtain ⟨m, h, prepared, same⟩ := export_prepared sound T
  rw [same]
  have exported := exportTables_exported T (s.FunctionList T ++ bind T) h prepared.apart
  have notMeta := prepared.globals_ne sound
  have self : ∀ {m'}, Function.update s.registry T (some m) T = some m' → m = m' := fun has =>
    Option.some.inj ((Function.update_self T (some m) s.registry).symm.trans has)
  have codes : ∀ {f}, f < h.nextFunction → (exportTables T (s.FunctionList T ++ bind T) s.heap.next m h).code f = s.heap.code f :=
    fun old => (exported.old _ old).trans (congrFun prepared.code _)
  refine ⟨?_, ?_, ?_, ?_, ?_, ?_, ?_, sound.count, ?_, sound.called⟩
  · exact exported.next ▸ Nat.lt_trans sound.globals prepared.next
  · exact (congrArg Table.metatable (exported.others _ (Nat.ne_of_lt sound.globals) notMeta)).trans prepared.globals.1
  · intro T' m' has
    by_cases here : T' = T
    · subst here
      obtain rfl := self has
      exact ⟨exported.next ▸ prepared.there, notMeta.symm, exported.metatable.2.trans prepared.plain.2, s.heap.next,
        exported.next ▸ prepared.next, exported.registered⟩
    · obtain ⟨before, apart⟩ := prepared.other sound here has
      obtain ⟨there, notGlobals, plain, class_index, classThere, registered⟩ := sound.registered before
      have table := (exported.others m' (Nat.ne_of_lt there) apart).trans (prepared.old m' there notGlobals)
      have later : s.heap.next < (exportTables T (s.FunctionList T ++ bind T) s.heap.next m h).next :=
        exported.next ▸ prepared.next
      refine ⟨Nat.lt_trans there later, notGlobals, (congrArg Table.metatable table).trans plain, class_index,
        Nat.lt_trans classThere later, registered.kept table ?_ ?_⟩
      · exact prepared.nextFunction ▸ exported.nextFunction
      · exact fun f old => codes (prepared.nextFunction ▸ old)
  · intro T₁ T₂ m' first second
    by_cases here₁ : T₁ = T
    · by_cases here₂ : T₂ = T
      · rw [here₁, here₂]
      · subst here₁
        obtain rfl := self first
        exact absurd rfl (prepared.other sound here₂ second).2
    · by_cases here₂ : T₂ = T
      · subst here₂
        obtain rfl := self second
        exact absurd rfl (prepared.other sound here₁ first).2
      · exact sound.distinct (prepared.other sound here₁ first).1 (prepared.other sound here₂ second).1
  · intro f T' i there code
    by_cases old : f < h.nextFunction
    · have before := sound.index (prepared.nextFunction ▸ old) ((codes old).symm.trans code)
      show i < (Function.update s.FunctionList T (s.FunctionList T ++ bind T) T').length
      by_cases here : T' = T
      · subst here
        rw [Function.update_self, List.length_append]
        exact Nat.lt_add_right _ before
      · rw [Function.update_of_ne here]
        exact before
    · rcases exported.new f there (Nat.le_of_not_lt old) with isDel | isNew | ⟨j, isCall, fits⟩
      · cases isDel.symm.trans code
      · cases isNew.symm.trans code
      · cases isCall.symm.trans code
        show i < (Function.update s.FunctionList T (s.FunctionList T ++ bind T) T).length
        rw [Function.update_self]
        exact fits
  · intro f T' there code
    by_cases old : f < h.nextFunction
    · obtain ⟨m', has⟩ := sound.new (prepared.nextFunction ▸ old) ((codes old).symm.trans code)
      exact ⟨m', prepared.stays has⟩
    · rcases exported.new f there (Nat.le_of_not_lt old) with isDel | isNew | ⟨j, isCall, -⟩
      · cases isDel.symm.trans code
      · cases isNew.symm.trans code
        exact ⟨m, Function.update_self ..⟩
      · cases isCall.symm.trans code
  · intro T' info member
    have member : info ∈ Function.update s.FunctionList T (s.FunctionList T ++ bind T) T' := member
    by_cases here : T' = T
    · subst here
      rw [Function.update_self] at member
      exact (List.mem_append.mp member).elim sound.FunctionList id
    · rw [Function.update_of_ne here] at member
      exact sound.FunctionList member
  · intro u ud found
    obtain ⟨owns, T', m', alive, has, known, object⟩ := sound.userdata found
    exact ⟨owns, T', m', alive, has, prepared.stays known, object⟩

/-! ### Calls and garbage keep it -/

def kill (p : Nat) (objects : List Object) : List Object := objects.modify p fun o => { o with alive := false }

theorem kill_object {objects : List Object} {o : Object} (p : Nat) (found : objects[u]? = some o) :
    ∃ alive, (kill p objects)[u]? = some ⟨o.T, alive⟩ := by
  rw [kill, List.getElem?_modify, found]
  by_cases here : p = u
  · exact ⟨false, by simp [here]⟩
  · exact ⟨o.alive, by simp [here]⟩

theorem Sound.new_ (sound : Sound bind s) {m : Ref} (known : s.registry T = some m) : Sound bind (Wrap.new T s) := by
  have older : ∀ {u o}, s.objects[u]? = some o → (s.objects ++ [⟨T, true⟩])[u]? = some o := fun found =>
    (List.getElem?_append_left (List.getElem?_eq_some_iff.mp found).1).trans found
  refine ⟨sound.globals, sound.plain, sound.registered, sound.distinct, sound.index, sound.new, sound.FunctionList, ?_, ?_, ?_⟩
  · show (s.objects ++ _).length = (s.userdata ++ _).length
    rw [List.length_append, List.length_append, sound.count]
    rfl
  · intro u ud found
    have found : (s.userdata ++ [⟨s.objects.length, s.registry T, false⟩])[u]? = some ud := found
    by_cases old : u < s.userdata.length
    · rw [List.getElem?_append_left old] at found
      obtain ⟨owns, T', m', alive, has, registered, object⟩ := sound.userdata found
      exact ⟨owns, T', m', alive, has, registered, older object⟩
    · have there := (List.getElem?_eq_some_iff.mp found).1
      rw [List.length_append, List.length_singleton] at there
      obtain rfl : u = s.userdata.length := by omega
      rw [List.getElem?_concat_length] at found
      obtain rfl := Option.some.inj found
      refine ⟨sound.count, T, m, true, known, known, ?_⟩
      show (s.objects ++ [⟨T, true⟩])[s.userdata.length]? = _
      rw [← sound.count, List.getElem?_concat_length]
  · intro called member
    obtain ⟨listed, alive, object⟩ := sound.called called member
    exact ⟨listed, alive, older object⟩

theorem Sound.kill (sound : Sound bind s) (p : Nat) : Sound bind { s with objects := kill p s.objects } := by
  refine ⟨sound.globals, sound.plain, sound.registered, sound.distinct, sound.index, sound.new, sound.FunctionList, ?_, ?_, ?_⟩
  · exact (List.length_modify ..).trans sound.count
  · intro u ud found
    obtain ⟨owns, T, m, alive, has, registered, object⟩ := sound.userdata found
    obtain ⟨alive', object'⟩ := kill_object p object
    exact ⟨owns, T, m, alive', has, registered, object'⟩
  · intro called member
    obtain ⟨listed, alive, object⟩ := sound.called called member
    obtain ⟨alive', object'⟩ := kill_object p object
    exact ⟨listed, alive', object'⟩

theorem delete_eq {p : Nat} (deleted : delete p s = some s') : alive s p = true ∧ s' = { s with objects := kill p s.objects } := by
  rw [delete] at deleted
  split at deleted
  · exact ⟨by assumption, (Option.some.inj deleted).symm⟩
  · cases deleted

theorem Sound.del_ (sound : Sound bind s) {args : List LuaValue} (called : del T args s = some s') : Sound bind s' := by
  rw [del] at called
  cases checked : luaL_checkudata s (args.getLastD .nil) T with
  | none =>
    rw [checked] at called
    obtain rfl := Option.some.inj called
    exact sound
  | some p =>
    rw [checked] at called
    obtain ⟨-, rfl⟩ := delete_eq called
    exact sound.kill p

/-- What `luaL_checkudata` lets pass is the object of a userdata of this class. -/
theorem checkudata_object (sound : Sound bind s) {v : LuaValue} {p : Nat} (checked : luaL_checkudata s v T = some p) :
    v = .userdata p ∧ ∃ alive, s.objects[p]? = some ⟨T, alive⟩ := by
  cases v with
  | userdata u =>
    obtain ⟨ud, found, checked⟩ := Option.bind_eq_some_iff.mp checked
    split at checked
    · next same =>
      obtain rfl := Option.some.inj checked
      obtain ⟨rfl, T', m, alive, has, registered, object⟩ := sound.userdata found
      obtain rfl := sound.distinct registered (same.2.symm.trans has)
      exact ⟨rfl, alive, object⟩
    · cases checked
  | _ => cases checked

theorem Sound.call_ (sound : Sound bind s) {i : Nat} {args : List LuaValue} (called : call T i args s = some s') :
    Sound bind s' := by
  rw [call] at called
  cases checked : luaL_checkudata s (args.headD .nil) T with
  | none =>
    rw [checked] at called
    obtain rfl := Option.some.inj called
    exact sound
  | some p =>
    rw [checked] at called
    obtain ⟨info, listed, called⟩ := Option.bind_eq_some_iff.mp called
    split at called
    · obtain rfl := Option.some.inj called
      refine ⟨sound.globals, sound.plain, sound.registered, sound.distinct, sound.index, sound.new, sound.FunctionList,
        sound.count, sound.userdata, ?_⟩
      intro made member
      rcases List.mem_append.mp member with before | now
      · exact sound.called made before
      · obtain rfl := List.mem_singleton.mp now
        exact ⟨⟨info, sound.FunctionList (List.mem_of_getElem? listed), rfl⟩, (checkudata_object sound checked).2⟩
    · cases called

theorem Sound.callFunction (sound : Sound bind s) {f : Nat} {args : List LuaValue} (there : f < s.heap.nextFunction)
    (called : callFunction f args s = some s') : Sound bind s' := by
  rw [Wrap.callFunction] at called
  cases code : s.heap.code f with
  | script =>
    rw [code] at called
    obtain rfl := Option.some.inj called
    exact sound
  | new T =>
    rw [code] at called
    obtain rfl := Option.some.inj called
    obtain ⟨m, known⟩ := sound.new there code
    exact sound.new_ known
  | del T =>
    rw [code] at called
    exact sound.del_ called
  | call T i =>
    rw [code] at called
    exact sound.call_ called

def mark (u : Nat) (userdata : List Userdata) : List Userdata := userdata.modify u fun ud => { ud with collected := true }

theorem Sound.mark (sound : Sound bind s) (u : Nat) : Sound bind { s with userdata := mark u s.userdata } := by
  refine ⟨sound.globals, sound.plain, sound.registered, sound.distinct, sound.index, sound.new, sound.FunctionList,
    sound.count.trans (List.length_modify ..).symm, ?_, sound.called⟩
  intro u' ud found
  have found : (Wrap.mark u s.userdata)[u']? = some ud := found
  rw [Wrap.mark, List.getElem?_modify] at found
  obtain ⟨before, was, rfl⟩ := Option.map_eq_some_iff.mp found
  have owner := sound.userdata was
  split
  · exact owner
  · exact owner

/-- The garbage collector calls `Del`. -/
theorem collect_eq (sound : Sound bind s) {ud : Userdata} (found : s.userdata[u]? = some ud) :
    collect u s = delete u { s with userdata := mark u s.userdata } := by
  obtain ⟨owns, T, m, alive, has, known, object⟩ := sound.userdata found
  obtain ⟨-, -, -, class_index, -, registered⟩ := sound.registered known
  obtain ⟨gc, there, field, code⟩ := registered.gc
  have marked : (mark u s.userdata)[u]? = some { ud with collected := true } := by
    rw [mark, List.getElem?_modify, found]
    simp
  have checked : luaL_checkudata { s with userdata := mark u s.userdata } (.userdata u) T = some u := by
    show ((mark u s.userdata)[u]?).bind _ = _
    rw [marked]
    show (if ud.metatable.isSome = true ∧ ud.metatable = s.registry T then some ud.p else none) = _
    rw [if_pos ⟨by rw [has]; rfl, has.trans known.symm⟩, owns]
  rw [collect, found]
  simp only [Option.bind_eq_bind, Option.bind_some, has, Option.map_some, Option.getD_some, field]
  show Wrap.callFunction gc [.userdata u] { s with userdata := mark u s.userdata } = _
  rw [Wrap.callFunction, show ({ s with userdata := mark u s.userdata } : State).heap.code gc = .del T from code]
  show del T [.userdata u] _ = _
  rw [del, show luaL_checkudata { s with userdata := mark u s.userdata } ([LuaValue.userdata u].getLastD .nil) T = _ from checked]

theorem Sound.collect (sound : Sound bind s) (collected : collect u s = some s') : Sound bind s' := by
  obtain ⟨ud, found, -⟩ := Option.bind_eq_some_iff.mp collected
  rw [collect_eq sound found] at collected
  obtain ⟨-, rfl⟩ := delete_eq collected
  exact (sound.mark u).kill u

/-! ### Every run -/

theorem scripted_rawset {t : Ref} (apart : ∀ T, s.registry T ≠ some t) (key v : LuaValue) :
    Scripted s (s.heap.rawset t key v) where
  next := Nat.le_refl _
  plain := by
    by_cases here : s.globals = t
    · subst here
      rw [Heap.metatable_rawset]
    · rw [Heap.table_rawset_other here]
  others T m has := Heap.table_rawset_other (show m ≠ t by rintro rfl; exact apart T has) ..
  nextFunction := Nat.le_refl _
  old _ _ := rfl
  new _ there young := absurd there (Nat.not_lt.mpr young)

theorem scripted_setmetatable {t : Ref} (apart : ∀ T, s.registry T ≠ some t) (plain : t ≠ s.globals) (metatable : LuaValue) :
    Scripted s ((s.heap.setmetatable t metatable).getD s.heap) := by
  have changed : ∀ m, Scripted s (s.heap.withMetatable t m) := fun m =>
    { next := Nat.le_refl _
      plain := congrArg Table.metatable (Function.update_of_ne plain.symm ..)
      others := fun T m has => Function.update_of_ne (show m ≠ t by rintro rfl; exact apart T has) ..
      nextFunction := Nat.le_refl _
      old := fun _ _ => rfl
      new := fun _ there young => absurd there (Nat.not_lt.mpr young) }
  cases metatable with
  | nil => exact changed none
  | table m => exact changed (some m)
  | _ => exact ⟨Nat.le_refl _, rfl, fun _ _ _ => rfl, Nat.le_refl _, fun _ _ => rfl,
      fun _ there young => absurd there (Nat.not_lt.mpr young)⟩

theorem Sound.apply (sound : Sound bind s) {a : Action} (allowed : Allowed s a) (taken : apply bind s a = some s') :
    Sound bind s' := by
  cases a with
  | export_ T =>
    obtain rfl := Option.some.inj taken
    exact sound.export_ T
  | newTable =>
    obtain rfl := Option.some.inj taken
    refine sound.scripted (scripted_grows sound (Heap.newTable_grows s.heap none) ?_)
    exact fun _ there young => absurd there (Nat.not_lt.mpr young)
  | newFunction =>
    obtain rfl := Option.some.inj taken
    refine sound.scripted (scripted_grows sound (Heap.newFunction_grows s.heap .script) fun f there young => ?_)
    obtain rfl : f = s.heap.nextFunction := Nat.le_antisymm (Nat.lt_succ_iff.mp there) young
    exact Heap.code_newFunction_self s.heap .script
  | rawset t key v =>
    obtain rfl := Option.some.inj taken
    exact sound.scripted (scripted_rawset allowed.2 key v)
  | setmetatable t metatable =>
    obtain rfl := Option.some.inj taken
    exact sound.scripted (scripted_setmetatable allowed.2.2 allowed.2.1 metatable)
  | call f args => exact sound.callFunction allowed.1 taken
  | collect u => exact sound.collect taken

theorem Reachable.sound (reached : Reachable bind s) : Sound bind s :=
  Transition.Reachable.invariant (fun _ init => init.sound) (fun _ _ _ sound ⟨_, allowed, taken⟩ => sound.apply allowed taken)
    reached

end

end LiteServer.Lua.Wrap
