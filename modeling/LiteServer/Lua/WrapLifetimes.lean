import LiteServer.Lua.Exports
import Mathlib.Data.List.Nodup

/-!
Who deletes a wrapped object: the garbage collector, once, and `lua_close` at the
latest. A `Del` that a script calls is one more, so a process ends well exactly
when no script has deleted an object.
-/
namespace LiteServer.Lua.Wrap
open LiteServer.Lua.Objects Transition

/-- A call that deletes an object. -/
def Deletes (s : State) : Action → Prop
  | .call f args => ∃ T p, s.heap.code f = .del T ∧ luaL_checkudata s (args.getLastD .nil) T = some p
  | _ => False

/-- What scripts do, and `lua_close` after it; `none` where a deleted object was used. -/
def process (bind : ClassName → List WrapFuncInfo) (s : State) (actions : List Action) : Option State :=
  (actions.foldlM (apply bind) s).bind close

/-- The objects live as long as their userdata. -/
def Owned (s : State) : Prop := ∀ u ud, s.userdata[u]? = some ud → alive s u = !ud.collected

/-- A script may still get at an object that was deleted. -/
def Dangling (s : State) (u : Nat) : Prop := usable s u = true ∧ alive s u = false

section
variable {bind : ClassName → List WrapFuncInfo} {s s' : State} {T : ClassName} {u p : Nat} {a : Action}

theorem usable_userdata (usable : usable s u = true) : ∃ ud, s.userdata[u]? = some ud ∧ ud.collected = false := by
  rw [Wrap.usable] at usable
  cases found : s.userdata[u]? with
  | none =>
    rw [found] at usable
    cases usable
  | some ud =>
    rw [found] at usable
    exact ⟨ud, rfl, by simpa using usable⟩

theorem alive_kill (p u : Nat) (s : State) :
    alive { s with objects := kill p s.objects } u = if u = p then false else alive s u := by
  show ((kill p s.objects)[u]?.map Object.alive).getD false = _
  rw [kill, List.getElem?_modify, alive]
  by_cases here : u = p
  · subst here
    cases s.objects[u]? <;> simp
  · have here' : ¬ p = u := fun same => here same.symm
    cases s.objects[u]? <;> simp [here, here']

theorem usable_mark (p u : Nat) (s : State) :
    usable { s with userdata := mark p s.userdata } u = if u = p then false else usable s u := by
  show ((mark p s.userdata)[u]?.map fun ud => !ud.collected).getD false = _
  rw [mark, List.getElem?_modify, usable]
  by_cases here : u = p
  · subst here
    cases s.userdata[u]? <;> simp
  · have here' : ¬ p = u := fun same => here same.symm
    cases s.userdata[u]? <;> simp [here, here']

theorem alive_new (old : u < s.objects.length) (T : ClassName) : alive (new T s) u = alive s u := by
  show ((s.objects ++ [_])[u]?.map Object.alive).getD false = _
  rw [List.getElem?_append_left old, alive]

theorem usable_new (old : u < s.userdata.length) (T : ClassName) : usable (new T s) u = usable s u := by
  show ((s.userdata ++ [_])[u]?.map _).getD false = _
  rw [List.getElem?_append_left old, usable]

/-- Collecting a userdata deletes its object. -/
theorem collect_usable (sound : Sound bind s) (usable : usable s u = true) :
    collect u s = if alive s u then some { s with userdata := mark u s.userdata, objects := kill u s.objects } else none := by
  obtain ⟨ud, found, -⟩ := usable_userdata usable
  rw [collect_eq sound found]
  rfl

/-! ### Without `Del` -/

theorem owned_new (sound : Sound bind s) (owned : Owned s) (T : ClassName) : Owned (new T s) := by
  intro u ud found
  have found : (s.userdata ++ [⟨s.objects.length, s.registry T, false⟩])[u]? = some ud := found
  by_cases old : u < s.userdata.length
  · rw [List.getElem?_append_left old] at found
    rw [alive_new (sound.count ▸ old), owned u ud found]
  · have there := (List.getElem?_eq_some_iff.mp found).1
    rw [List.length_append, List.length_singleton] at there
    obtain rfl : u = s.userdata.length := by omega
    rw [List.getElem?_concat_length] at found
    obtain rfl := Option.some.inj found
    show ((s.objects ++ [_])[s.userdata.length]?.map Object.alive).getD false = true
    rw [← sound.count, List.getElem?_concat_length]
    rfl

theorem owned_collect (sound : Sound bind s) (owned : Owned s) (usable : usable s u = true) :
    ∃ s', collect u s = some s' ∧ Owned s' := by
  obtain ⟨ud, found, living⟩ := usable_userdata usable
  rw [collect_usable sound usable, owned u ud found, living]
  refine ⟨_, rfl, fun u' ud' found' => ?_⟩
  have found' : (mark u s.userdata)[u']? = some ud' := found'
  rw [mark, List.getElem?_modify] at found'
  obtain ⟨before, was, rfl⟩ := Option.map_eq_some_iff.mp found'
  have kept := alive_kill u u' { s with userdata := mark u s.userdata }
  by_cases here : u' = u
  · subst here
    rw [if_pos rfl] at kept ⊢
    exact kept
  · rw [if_neg here] at kept
    rw [if_neg fun same => here same.symm]
    exact kept.trans (owned u' before was)

/-- What a script does is defined, and the objects stay with their userdata. -/
theorem owned_apply (sound : Sound bind s) (owned : Owned s) (allowed : Allowed s a) (kept : ¬ Deletes s a) :
    ∃ s', apply bind s a = some s' ∧ Owned s' := by
  cases a with
  | export_ T =>
    refine ⟨_, rfl, ?_⟩
    obtain ⟨m, h, -, same⟩ := export_prepared sound T
    rw [same]
    exact owned
  | newTable => exact ⟨_, rfl, owned⟩
  | newFunction => exact ⟨_, rfl, owned⟩
  | rawset t key v => exact ⟨_, rfl, owned⟩
  | setmetatable t metatable => exact ⟨_, rfl, owned⟩
  | collect u => exact owned_collect sound owned allowed
  | call f args =>
    show ∃ s', callFunction f args s = some s' ∧ _
    rw [callFunction]
    cases code : s.heap.code f with
    | script => exact ⟨s, rfl, owned⟩
    | new T => exact ⟨_, rfl, owned_new sound owned T⟩
    | del T =>
      refine ⟨s, ?_, owned⟩
      cases checked : luaL_checkudata s (args.getLastD .nil) T with
      | none =>
        show del T args s = _
        rw [del, checked]
      | some p => exact absurd ⟨T, p, code, checked⟩ kept
    | call T i =>
      show ∃ s', call T i args s = some s' ∧ _
      rw [call]
      cases checked : luaL_checkudata s (args.headD .nil) T with
      | none => exact ⟨s, rfl, owned⟩
      | some p =>
        obtain ⟨isUserdata, -⟩ := checkudata_object sound checked
        have member : .userdata p ∈ args := by
          cases args with
          | nil => cases isUserdata
          | cons v args =>
            obtain rfl : v = .userdata p := isUserdata
            exact List.mem_cons_self ..
        obtain ⟨ud, found, living⟩ := usable_userdata (allowed.2 p member)
        have alive_ : alive s p = true := by rw [owned p ud found, living]; rfl
        have inside := sound.index allowed.1 code
        refine ⟨{ s with called := s.called ++ [⟨T, ((s.FunctionList T)[i]).Func, p⟩] }, ?_, owned⟩
        show ((s.FunctionList T)[i]?).bind _ = _
        rw [List.getElem?_eq_getElem inside]
        show (if alive s p then _ else _) = _
        rw [if_pos alive_]

theorem collectAll_owned {us : List Nat} (distinct : us.Nodup) (there : ∀ u ∈ us, usable s u = true)
    (sound : Sound bind s) (owned : Owned s) :
    ∃ s', us.foldlM (fun s u => collect u s) s = some s' ∧ Sound bind s' ∧ Owned s' ∧
      ∀ u, usable s' u = if u ∈ us then false else usable s u := by
  induction us generalizing s with
  | nil => exact ⟨s, rfl, sound, owned, fun u => by simp⟩
  | cons first us ih =>
    obtain ⟨apart, distinct⟩ := List.nodup_cons.mp distinct
    have here := there first (List.mem_cons_self ..)
    obtain ⟨s₁, collected, owned₁⟩ := owned_collect sound owned here
    have usable₁ : ∀ u, usable s₁ u = if u = first then false else usable s u := by
      rw [collect_usable sound here] at collected
      split at collected
      · obtain rfl := Option.some.inj collected
        exact fun u => usable_mark first u s
      · cases collected
    have later : ∀ u ∈ us, usable s₁ u = true := by
      intro u member
      have other : u ≠ first := by
        rintro rfl
        exact apart member
      rw [usable₁, if_neg other]
      exact there u (List.mem_cons_of_mem _ member)
    obtain ⟨s', rest, sound', owned', usable'⟩ := ih distinct later (sound.collect collected) owned₁
    refine ⟨s', ?_, sound', owned', fun u => ?_⟩
    · rw [List.foldlM_cons, collected]
      exact rest
    · rw [usable', usable₁]
      by_cases same : u = first
      · simp [same]
      · simp [same]

/-- `lua_close` deletes every object that is left. -/
theorem close_owned (sound : Sound bind s) (owned : Owned s) :
    ∃ s', close s = some s' ∧ ∀ o ∈ s'.objects, o.alive = false := by
  let us := ((List.range s.userdata.length).filter (usable s)).reverse
  have member : ∀ u, u ∈ us ↔ u < s.userdata.length ∧ usable s u = true := by
    intro u
    rw [List.mem_reverse, List.mem_filter, List.mem_range]
  have distinct : us.Nodup := List.nodup_reverse.mpr (List.nodup_range.filter _)
  obtain ⟨s', closed, sound', owned', usable'⟩ := collectAll_owned distinct (fun u inside => ((member u).mp inside).2) sound owned
  refine ⟨s', closed, fun o inside => ?_⟩
  obtain ⟨u, object⟩ := List.mem_iff_getElem?.mp inside
  have there : u < s'.userdata.length := sound'.count ▸ (List.getElem?_eq_some_iff.mp object).1
  have found : s'.userdata[u]? = some s'.userdata[u] := List.getElem?_eq_getElem there
  have unusable : usable s' u = false := by
    rw [usable']
    by_cases old : u ∈ us
    · rw [if_pos old]
    · rw [if_neg old]
      refine Bool.eq_false_iff.mpr fun here => old ((member u).mpr ⟨?_, here⟩)
      exact (List.getElem?_eq_some_iff.mp (usable_userdata here).choose_spec.1).1
  rw [Wrap.usable, found] at unusable
  have dead := owned' u _ found
  rw [alive, object, show s'.userdata[u].collected = true by simpa using unusable] at dead
  exact dead

/-! ### After a `Del` -/

theorem deletes_dangling (sound : Sound bind s) (allowed : Allowed s a) (deletes : Deletes s a)
    (taken : apply bind s a = some s') : ∃ u, Dangling s' u := by
  cases a with
  | call f args =>
    obtain ⟨T, p, code, checked⟩ := deletes
    obtain ⟨isUserdata, -⟩ := checkudata_object sound checked
    have taken : callFunction f args s = some s' := taken
    rw [callFunction, code] at taken
    have taken : del T args s = some s' := taken
    rw [del, checked] at taken
    obtain ⟨-, rfl⟩ := delete_eq taken
    have member : .userdata p ∈ args := by
      cases args with
      | nil => cases isUserdata
      | cons v args =>
        rw [← isUserdata, List.getLastD_cons]
        exact List.getLastD_mem_cons
    exact ⟨p, allowed.2 p member, (alive_kill p p s).trans (if_pos rfl)⟩
  | _ => exact deletes.elim

theorem Dangling.usable_lt (dangling : Dangling s u) : u < s.userdata.length :=
  (List.getElem?_eq_some_iff.mp (usable_userdata dangling.1).choose_spec.1).1

/-- Nothing brings the object back, and it cannot be collected. -/
theorem Dangling.apply (dangling : Dangling s u) (sound : Sound bind s) (allowed : Allowed s a)
    (taken : apply bind s a = some s') : Dangling s' u := by
  have there := dangling.usable_lt
  have killed : ∀ p, Dangling { s with objects := kill p s.objects } u := fun p =>
    ⟨dangling.1, (alive_kill p u s).trans (by rw [dangling.2, ite_self])⟩
  cases a with
  | export_ T =>
    obtain rfl := Option.some.inj taken
    obtain ⟨m, h, -, same⟩ := export_prepared sound T
    rw [same]
    exact dangling
  | newTable =>
    obtain rfl := Option.some.inj taken
    exact dangling
  | newFunction =>
    obtain rfl := Option.some.inj taken
    exact dangling
  | rawset t key v =>
    obtain rfl := Option.some.inj taken
    exact dangling
  | setmetatable t metatable =>
    obtain rfl := Option.some.inj taken
    exact dangling
  | collect p =>
    have taken : collect p s = some s' := taken
    rw [collect_usable sound allowed] at taken
    split at taken
    · next living =>
      obtain rfl := Option.some.inj taken
      have other : u ≠ p := by
        rintro rfl
        rw [dangling.2] at living
        cases living
      exact ⟨(usable_mark p u s).trans (by rw [if_neg other, dangling.1]), (killed p).2⟩
    · cases taken
  | call f args =>
    have taken : callFunction f args s = some s' := taken
    rw [callFunction] at taken
    cases code : s.heap.code f with
    | script =>
      rw [code] at taken
      obtain rfl := Option.some.inj taken
      exact dangling
    | new T =>
      rw [code] at taken
      obtain rfl := Option.some.inj taken
      exact ⟨(usable_new there T).trans dangling.1, (alive_new (sound.count ▸ there) T).trans dangling.2⟩
    | del T =>
      simp only [code, del] at taken
      split at taken
      · obtain rfl := Option.some.inj taken
        exact dangling
      · obtain ⟨-, rfl⟩ := delete_eq taken
        exact killed _
    | call T i =>
      simp only [code, call] at taken
      split at taken
      · obtain rfl := Option.some.inj taken
        exact dangling
      · obtain ⟨info, -, taken⟩ := Option.bind_eq_some_iff.mp taken
        split at taken
        · obtain rfl := Option.some.inj taken
          exact dangling
        · cases taken

theorem collectAll_dangling {us : List Nat} (sound : Sound bind s) (dead : alive s u = false) (member : u ∈ us)
    (there : ∀ u ∈ us, ∃ ud, s.userdata[u]? = some ud) : us.foldlM (fun s u => collect u s) s = none := by
  induction us generalizing s with
  | nil => cases member
  | cons first us ih =>
    obtain ⟨ud, found⟩ := there first (List.mem_cons_self ..)
    rw [List.foldlM_cons]
    cases collected : collect first s with
    | none => rfl
    | some s₁ =>
      have collected' := collected
      rw [collect_eq sound found] at collected'
      obtain ⟨living, rfl⟩ := delete_eq collected'
      have other : u ≠ first := by
        rintro rfl
        exact Bool.false_ne_true (dead.symm.trans living)
      refine ih (sound.collect collected) ?_ ((List.mem_cons.mp member).resolve_left other) fun u' later => ?_
      · exact (alive_kill first u { s with userdata := mark first s.userdata }).trans (by rw [if_neg other]; exact dead)
      · obtain ⟨ud', found'⟩ := there u' (List.mem_cons_of_mem _ later)
        show ∃ ud, (mark first s.userdata)[u']? = some ud
        rw [mark, List.getElem?_modify, found']
        exact ⟨_, rfl⟩

/-- `lua_close` deletes the object once more. -/
theorem Dangling.close (dangling : Dangling s u) (sound : Sound bind s) : close s = none := by
  refine collectAll_dangling sound dangling.2 (List.mem_reverse.mpr (List.mem_filter.mpr
    ⟨List.mem_range.mpr dangling.usable_lt, dangling.1⟩)) fun u' inside => ?_
  obtain ⟨ud, found, -⟩ := usable_userdata (List.mem_filter.mp (List.mem_reverse.mp inside)).2
  exact ⟨ud, found⟩

theorem Dangling.process {actions : List Action} (dangling : Dangling s u) (sound : Sound bind s)
    (allowed : Along (Wrap.apply bind) Allowed s actions) : process bind s actions = none := by
  induction actions generalizing s with
  | nil => exact dangling.close sound
  | cons a actions ih =>
    rw [Wrap.process, List.foldlM_cons]
    cases taken : Wrap.apply bind s a with
    | none => rfl
    | some s₁ => exact ih (dangling.apply sound allowed.1 taken) (sound.apply allowed.1 taken) (allowed.2 s₁ taken)

/-! ### Whole processes -/

theorem process_owned {actions : List Action} (sound : Sound bind s) (owned : Owned s)
    (allowed : Along (Wrap.apply bind) Allowed s actions) (kept : Along (Wrap.apply bind) (fun s a => ¬ Deletes s a) s actions) :
    ∃ s', process bind s actions = some s' ∧ ∀ o ∈ s'.objects, o.alive = false := by
  induction actions generalizing s with
  | nil => exact close_owned sound owned
  | cons a actions ih =>
    obtain ⟨s₁, taken, owned₁⟩ := owned_apply sound owned allowed.1 kept.1
    rw [process, List.foldlM_cons, taken]
    exact ih (sound.apply allowed.1 taken) owned₁ (allowed.2 s₁ taken) (kept.2 s₁ taken)

theorem process_deletes {actions : List Action} (sound : Sound bind s)
    (allowed : Along (Wrap.apply bind) Allowed s actions) (ends : process bind s actions = some s') :
    Along (Wrap.apply bind) (fun s a => ¬ Deletes s a) s actions := by
  induction actions generalizing s with
  | nil => trivial
  | cons a actions ih =>
    rw [process, List.foldlM_cons] at ends
    refine ⟨fun deletes => ?_, fun s₁ taken => ?_⟩
    · cases taken : Wrap.apply bind s a with
      | none =>
        rw [taken] at ends
        cases ends
      | some s₁ =>
        rw [taken] at ends
        obtain ⟨u, dangling⟩ := deletes_dangling sound allowed.1 deletes taken
        cases (dangling.process (sound.apply allowed.1 taken) (allowed.2 s₁ taken)).symm.trans ends
    · rw [taken] at ends
      exact ih (sound.apply allowed.1 taken) (allowed.2 s₁ taken) ends

/-- A process that ends with `lua_close` uses no deleted object exactly when its
    scripts never delete one; and then each object was deleted once. -/
theorem process_ends_iff {actions : List Action} (init : Init s) (allowed : Along (Wrap.apply bind) Allowed s actions) :
    ((∃ s', process bind s actions = some s') ↔ Along (Wrap.apply bind) (fun s a => ¬ Deletes s a) s actions) ∧
      ∀ s', process bind s actions = some s' → ∀ o ∈ s'.objects, o.alive = false := by
  have owned : Owned s := by
    intro u ud found
    rw [init.userdata] at found
    cases found
  refine ⟨⟨?_, ?_⟩, ?_⟩
  · rintro ⟨s', ends⟩
    exact process_deletes init.sound allowed ends
  · intro kept
    obtain ⟨s', ends, -⟩ := process_owned init.sound owned allowed kept
    exact ⟨s', ends⟩
  · intro s' ends
    obtain ⟨s'', ends', dead⟩ := process_owned init.sound owned allowed (process_deletes init.sound allowed ends)
    obtain rfl := Option.some.inj (ends.symm.trans ends')
    exact dead

/-- An object is made, its method is called, and it is deleted by `Del`. -/
def luaObjScript : List Action := [.export_ "LuaObj", .call 1 [], .call 3 [.userdata 0]]

theorem luaObjScript_allowed : Along (Wrap.apply Bind) Allowed noExports luaObjScript := by
  refine ⟨trivial, fun s₁ taken => ?_⟩
  obtain rfl := Option.some.inj taken
  refine ⟨⟨by decide, nofun⟩, fun s₂ taken => ?_⟩
  obtain rfl := Option.some.inj (show some withObject = some s₂ from taken)
  refine ⟨⟨by decide, fun u member => ?_⟩, fun _ _ => trivial⟩
  obtain rfl := LuaValue.userdata.inj (List.mem_singleton.mp member)
  rfl

/-- An object is made, a method called, and `lua_close` deletes it. -/
theorem luaObjScript_ends : ∃ s', process Bind noExports luaObjScript = some s' ∧ s'.objects.length = 1 ∧
    (∀ o ∈ s'.objects, o.alive = false) ∧
    Along (Wrap.apply Bind) (fun s a => ¬ Deletes s a) noExports luaObjScript := by
  obtain ⟨ends, deleted⟩ := process_ends_iff noExports_init luaObjScript_allowed
  exact ⟨_, rfl, rfl, deleted _ rfl, ends.mp ⟨_, rfl⟩⟩

end

end LiteServer.Lua.Wrap
