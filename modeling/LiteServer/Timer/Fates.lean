import LiteServer.Timer.Deadlines

/-!
What becomes of every timer. At the end of an `Update` it was dispatched if it
is due and level 3 hands it on, and is in a list if not; what level 3 does not
hand on stays there in every state of the run.
-/
namespace LiteServer.Timer
open LinkedList

/-- A node with the callback and the deadline of an entry is in a list. -/
def Filed (s : System) (list : ListRef) (e : Entry) : Prop :=
  ∃ nodes, Chain s.timer.nodes.lookup TimerNode.next (s.timer.lists list).head nodes ∧
    ∃ a ∈ nodes, ∃ node, s.timer.nodes.lookup a = some node ∧ node.expire = e.expire ∧ node.callBack = e.callBack

/-! ### Dispatched timers are due -/

section
variable {allowed : BitVec 32 → BitVec 32 → Prop} {w w' : Wheel}

theorem Wheel.Step.done_due (taken : Wheel.Step allowed w w') (sound : w.Sound) (due : ∀ e ∈ w.done, e.deadline ≤ w.now) :
    ∀ e ∈ w'.done, e.deadline ≤ w'.now := by
  cases taken with
  | add e since fits => exact due
  | detach rests => exact due
  | dispatch e rest runs =>
    intro f member
    rcases List.mem_append.mp member with before | now
    · exact due f before
    · rw [List.mem_singleton.mp now]
      exact ((sound.due e (by simp [runs])).1).le
  | shift rests empty => exact fun e member => Nat.le_succ_of_le (due e member)

theorem Wheel.done_due_of_reachable {start : BitVec 32}
    (short : ∀ uTime time, allowed uTime time → time.toNat < 2 ^ 31)
    (reached : Transition.Reachable (Wheel.Start start) (Wheel.Step allowed) w) : ∀ e ∈ w.done, e.deadline ≤ w.now := by
  refine Transition.Reachable.invariant (P := fun w => ∀ e ∈ w.done, e.deadline ≤ w.now) ?_ ?_ reached
  · rintro _ rfl
    simp
  · intro w w' before due taken
    exact taken.done_due (Wheel.sound_of_reachable short before) due

end

/-! ### Where a timer is -/

section
variable {s : System} {w : Wheel} {S : Slots Addr} {D : List Addr} {e : Entry}

theorem holds_of_mem {t : WheelTimer} {xs : List Addr} {es : List Entry} (related : List.Forall₂ (Holds t) xs es)
    (member : e ∈ es) : ∃ a ∈ xs, Holds t a e := by
  induction related with
  | nil => simp at member
  | @cons b f xs es holds _ ih =>
    rcases List.mem_cons.mp member with rfl | later
    · exact ⟨b, by simp, holds⟩
    · obtain ⟨a, inside, found⟩ := ih later
      exact ⟨a, by simp [inside], found⟩

/-- An entry in a slot of the wheel is in that list of the program. -/
theorem Refines.filed (refines : Refines s w S D) {list : ListRef} (held : e ∈ w.slots list) : Filed s list e := by
  obtain ⟨a, inside, holds⟩ := holds_of_mem (refines.slots list) held
  unfold Holds at holds
  obtain ⟨node, found, data⟩ := Option.map_eq_some_iff.mp holds
  exact ⟨S list, refines.linked.chain list, a, inside, node, found, congrArg Prod.fst data, congrArg Prod.snd data⟩

/-- The callback of an entry in a list was not dispatched. -/
theorem Refines.undispatched (refines : Refines s w S D) (conserved : (w.slots.pending ++ w.running ++ w.done).Perm w.added)
    {list : ListRef} (filed : Filed s list e) : e.callBack ∉ s.dispatched := by
  obtain ⟨nodes, chain, a, inside, node, found, -, callBack⟩ := filed
  obtain ⟨f, held, -, same⟩ := refines.entry_of_listed chain inside found
  have once := conserved.map Entry.callBack
  rw [List.map_append, List.map_append, ← refines.dispatched, refines.added] at once
  have apart := List.nodup_append.mp (once.nodup_iff.mpr refines.fresh.of_append_left)
  have inPending : e.callBack ∈ w.slots.pending.map Entry.callBack :=
    List.mem_map.mpr ⟨f, refines.pending_of_filed held, same.symm.trans callBack⟩
  intro dispatched
  exact apart.2.2 _ (List.mem_append_left _ inPending) _ dispatched rfl

/-- What was deleted or freed was dispatched before. -/
theorem Refines.dispatched_first (refines : Refines s w S D) {callBack : CallBack}
    (gone : callBack ∈ s.deleted ∨ callBack ∈ s.freed) : callBack ∈ s.dispatched := by
  have listed : some callBack ∈ s.dispatched.map some := by
    rcases gone with deleted | freed
    · rw [refines.deleted]
      exact List.mem_append_left _ (List.mem_map.mpr ⟨callBack, deleted, rfl⟩)
    · rw [refines.freed]
      exact List.mem_append_left _ (List.mem_map.mpr ⟨callBack, freed, rfl⟩)
  simpa using listed

end

/-! ### At the end of an `Update` -/

/-- A timer was dispatched exactly if it is due and its call reached its
    deadline, and is in a list otherwise. -/
def Settled (s : System) (e : Entry) : Prop :=
  (e.callBack ∈ s.dispatched ↔ e.time.toInt ≤ (s.now : Int) - e.since ∧ Reaches (BitVec.ofNat 32 e.since) e.time) ∧
    (e.callBack ∉ s.dispatched ↔ ∃ list : ListRef, list.Indexed ∧ Filed s list e)

/-- Every `Update` settles every timer. -/
theorem timers_settled (uTime : BitVec 32) (s s' : System) (reached : Reachable NonNegative uTime s)
    (taken : timerStep s = some s') (ended : s'.pc = .idle) : ∀ e ∈ s'.added, Settled s' e := by
  have reached' : Reachable NonNegative uTime s' := reached.next (.timer taken)
  obtain ⟨w, S, D, reachedWheel, refines⟩ := reached'.refines
  have conserved := Wheel.conserved_of_reachable reachedWheel
  have past := Wheel.done_due_of_reachable (fun _ _ => toInt_nonneg) reachedWheel
  have detached := refines.detached
  rw [ended] at detached
  have nothing : D = [] := chain_none detached
  subst nothing
  have running : w.running = [] := List.forall₂_nil_left_iff.mp refines.running
  intro e added
  have inWheel : e ∈ w.added := refines.added ▸ added
  have positive := Wheel.allowed_of_reachable reachedWheel e inWheel
  have now := refines.now
  have waited := waited_eq (toInt_nonneg positive) s'.now
  have somewhere := conserved.mem_iff.mpr inWheel
  rw [running, List.append_nil, List.mem_append] at somewhere
  constructor
  · constructor
    · intro dispatched
      have due : e.time.toInt ≤ (s'.now : Int) - e.since := by
        rw [refines.dispatched] at dispatched
        obtain ⟨f, done, same⟩ := List.mem_map.mp dispatched
        have addedToo : f ∈ w.added := conserved.mem_iff.mp (by simp [done])
        have here := past f done
        rw [refines.entry_unique (refines.added ▸ addedToo) added same] at here
        omega
      exact ⟨due, (dispatched_iff reached taken ended added due).mp dispatched⟩
    · rintro ⟨due, reaches⟩
      exact (dispatched_iff reached taken ended added due).mpr reaches
  · constructor
    · intro undispatched
      rcases somewhere with pending | done
      · obtain ⟨list, -, held⟩ := List.mem_flatMap.mp pending
        refine ⟨list, refines.linked.support list ?_, refines.filed held⟩
        intro empty
        have related := refines.slots list
        rw [empty] at related
        rw [List.forall₂_nil_left_iff.mp related] at held
        simp at held
      · refine absurd ?_ undispatched
        rw [refines.dispatched]
        exact List.mem_map.mpr ⟨e, done, rfl⟩
    · rintro ⟨list, -, filed⟩
      exact refines.undispatched conserved filed

theorem one_timer_settled :
    ∃ s s', oneTimer 0 1 4 = some s ∧ timerStep s = some s' ∧ s'.pc = .idle ∧ ∀ e ∈ s'.added, Settled s' e :=
  ⟨(oneTimer 0 1 4).get (by decide), (timerStep ((oneTimer 0 1 4).get (by decide))).get (by decide),
    by simp, by simp, by decide, timers_settled 0 _ _
      (oneTimer_reachable (by unfold NonNegative; decide) (Option.some_get _).symm) (Option.some_get _).symm (by decide)⟩

/-! ### In every state -/

/-- A timer in the list of level 3 that its deadline names, neither dispatched
    nor deleted nor freed. -/
structure Kept (s : System) (e : Entry) : Prop where
  filed : Filed s (.wheel 3 ((e.time + BitVec.ofNat 32 e.since).toNat / 2 ^ 26)) e
  undispatched : e.callBack ∉ s.dispatched
  undeleted : e.callBack ∉ s.deleted
  unfreed : e.callBack ∉ s.freed

/-- A timer whose call does not reach its deadline is kept in every later state. -/
theorem unreached_kept (uTime : BitVec 32) (s : System) (reached : Reachable NonNegative uTime s) :
    ∀ e ∈ s.added, ¬ Reaches (BitVec.ofNat 32 e.since) e.time → Kept s e := by
  obtain ⟨w, S, D, reachedWheel, refines⟩ := reached.refines
  have sound := Wheel.sound_of_reachable (fun _ _ => toInt_nonneg) reachedWheel
  have conserved := Wheel.conserved_of_reachable reachedWheel
  intro e added unreached
  have inWheel : e ∈ w.added := refines.added ▸ added
  have positive := Wheel.allowed_of_reachable reachedWheel e inWheel
  have lost : Lost e := by
    by_contra kept
    exact unreached ((reaches_iff positive).mpr kept)
  have somewhere := conserved.mem_iff.mpr inWheel
  rw [List.mem_append, List.mem_append] at somewhere
  rcases somewhere with (pending | runs) | done
  · obtain ⟨list, -, held⟩ := List.mem_flatMap.mp pending
    have here : list = .wheel 3 ((e.time + BitVec.ofNat 32 e.since).toNat / 2 ^ 26) := by
      have placed := sound.placed list e held
      match list, placed with
      | .near _, ⟨kept, _⟩ => exact absurd lost kept
      | .wheel 0 _, ⟨kept, _⟩ => exact absurd lost kept
      | .wheel 3 index, ⟨slot, _⟩ =>
        rw [← slot, BitVec.toNat_add, BitVec.toNat_ofNat, Entry.deadline]
        congr 1
        omega
    have filed := refines.filed held
    have undispatched := refines.undispatched conserved filed
    rw [here] at filed
    exact ⟨filed, undispatched, fun deleted => undispatched (refines.dispatched_first (.inl deleted)),
      fun freed => undispatched (refines.dispatched_first (.inr freed))⟩
  · exact absurd lost (sound.due e runs).2
  · exact absurd lost (sound.done e done)

/-- One tick of delay at the clock value 16383. -/
theorem one_tick_kept : ∃ s, oneTimer 16383 1 1 = some s ∧ s.added = [⟨0, 1, 16383⟩] ∧ Kept s ⟨0, 1, 16383⟩ :=
  ⟨(oneTimer 16383 1 1).get (by decide), by simp, by decide,
    unreached_kept 16383 _ (oneTimer_reachable (by unfold NonNegative; decide) (Option.some_get _).symm) _ (by decide)
      (by decide)⟩

end LiteServer.Timer
