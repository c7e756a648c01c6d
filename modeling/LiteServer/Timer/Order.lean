import LiteServer.Timer.Deadlines

/-!
Timers that are due at the same tick run in the order they were added. All of
them that the wheel hands on wait in one list at a time, which the clock alone
determines, so that a cascade finds the earlier ones before a later one can be
filed behind them.
-/
namespace LiteServer.Timer

/-- The entries of one deadline that the wheel hands on. -/
def Alike (deadline : Nat) (e : Entry) : Prop := e.deadline = deadline ∧ ¬ Lost e

instance (deadline : Nat) (e : Entry) : Decidable (Alike deadline e) := inferInstanceAs (Decidable (_ ∧ _))

/-- The one list they wait in at the clock value `now`. -/
def waitingList (deadline now : Nat) : ListRef :=
  if deadline / 2 ^ 8 = now / 2 ^ 8 then .near (deadline % 2 ^ 8)
  else if deadline / 2 ^ 14 = now / 2 ^ 14 then .wheel 0 (deadline / 2 ^ 8 % 2 ^ 6)
  else .wheel 3 (deadline / 2 ^ 26 % 2 ^ 6)

theorem placed_waiting {now : Nat} {list : ListRef} {e : Entry} (placed : Placed now list e) (kept : ¬ Lost e) :
    list = waitingList e.deadline now := by
  unfold waitingList
  match list, placed with
  | .near index, ⟨_, block, slot, _⟩ => rw [if_pos block, slot]
  | .wheel 0 index, ⟨_, block, slot, ahead⟩ => rw [if_neg (by omega), if_pos block, slot]
  | .wheel 3 index, ⟨slot, wait⟩ =>
    obtain ⟨free, ahead⟩ := wait.resolve_left kept
    unfold Stuck at free
    rw [if_neg (by omega), if_neg (by omega), slot]

/-- The entries of one deadline, by where they are: done, running or waiting,
    in the order they were added. -/
def Wheel.InOrder (w : Wheel) (deadline : Nat) : Prop :=
  (w.done ++ w.running ++ w.slots (waitingList deadline w.now)).filter (Alike deadline) = w.added.filter (Alike deadline)

section
variable {allowed : BitVec 32 → BitVec 32 → Prop} {w w' : Wheel} {deadline : Nat} {list : ListRef}

theorem Wheel.Sound.waits (sound : w.Sound) {e : Entry} (held : e ∈ w.slots list) (alike : Alike deadline e) :
    list = waitingList deadline w.now := by
  rw [placed_waiting (sound.placed list e held) alike.2, alike.1]

theorem Wheel.Sound.waits_nowhere_else (sound : w.Sound) (other : list ≠ waitingList deadline w.now) :
    (w.slots list).filter (Alike deadline) = [] :=
  List.filter_eq_nil_iff.mpr fun _ held alike => other (sound.waits held (of_decide_eq_true alike))

/-- What stays in the list that one deadline waits in was there before. -/
theorem Wheel.Sound.stays (deadline : Nat) (sound : w.Sound) (sound' : w'.Sound)
    (kept : ∀ e ∈ w.slots (waitingList deadline w.now), e ∈ w'.slots (waitingList deadline w.now)) :
    (w.slots (waitingList deadline w'.now)).filter (Alike deadline) =
      (w.slots (waitingList deadline w.now)).filter (Alike deadline) := by
  by_cases same : waitingList deadline w'.now = waitingList deadline w.now
  · rw [same]
  · rw [sound.waits_nowhere_else same]
    refine (List.filter_eq_nil_iff.mpr ?_).symm
    intro e held alike
    exact same (sound'.waits (kept e held) (of_decide_eq_true alike)).symm

/-- The clock's advance keeps the entries of one deadline together and in order. -/
theorem Wheel.Sound.shift_waiting (deadline : Nat) (sound : w.Sound) (sound' : w'.Sound)
    (advanced : w'.slots = w.slots.shift Entry.expire (BitVec.ofNat 32 w'.now)) :
    (w'.slots (waitingList deadline w'.now)).filter (Alike deadline) =
      (w.slots (waitingList deadline w.now)).filter (Alike deadline) := by
  unfold Slots.shift at advanced
  cases cascaded : cascadeOf (BitVec.ofNat 32 w'.now) with
  | none =>
    simp only [cascaded] at advanced
    rw [advanced]
    exact sound.stays deadline sound' fun e held => advanced ▸ held
  | some place =>
    obtain ⟨level, index⟩ := place
    simp only [cascaded] at advanced
    generalize ListRef.wheel level index = source at advanced
    rw [advanced, Slots.cascade, foldl_file_eq, List.filter_append]
    by_cases moved : source = waitingList deadline w.now
    · -- Their list is the one cascaded: all of them go on to the same list.
      have first : ((w.slots.clear source) (waitingList deadline w'.now)).filter (Alike deadline) = [] := by
        refine List.filter_eq_nil_iff.mpr ?_
        intro e held alike
        obtain ⟨before, other⟩ := mem_clear.mp held
        exact other (by rw [moved, ← sound.waits before (of_decide_eq_true alike)])
      rw [first, List.nil_append, ← moved, List.filter_filter]
      refine List.filter_congr ?_
      intro e held
      by_cases alike : Alike deadline e
      · have filed : e ∈ w'.slots (listFor e.expire (BitVec.ofNat 32 w'.now)) := by
          rw [advanced, mem_cascade]
          exact .inr ⟨held, rfl⟩
        simp [alike, sound'.waits filed alike]
      · simp [alike]
    · have second : ((w.slots source).filter fun e =>
          listFor e.expire (BitVec.ofNat 32 w'.now) = waitingList deadline w'.now).filter (Alike deadline) = [] := by
        rw [List.filter_comm, sound.waits_nowhere_else moved, List.filter_nil]
      rw [second, List.append_nil]
      have stays := sound.stays deadline sound' fun e held => by
        rw [advanced, mem_cascade]
        exact .inl ⟨held, Ne.symm moved⟩
      by_cases emptied : waitingList deadline w'.now = source
      · rw [← stays, emptied, sound.waits_nowhere_else moved]
        simp [Slots.clear]
      · rw [Slots.clear, Function.update_of_ne emptied]
        exact stays

theorem Wheel.Step.inOrder (taken : Wheel.Step allowed w w') (sound : w.Sound) (sound' : w'.Sound)
    (before : w.InOrder deadline) : w'.InOrder deadline := by
  unfold Wheel.InOrder at before ⊢
  cases taken with
  | add e since fits =>
    by_cases alike : Alike deadline e
    · have here : listFor e.expire w.uTime = waitingList deadline w.now :=
        sound'.waits (mem_push.mpr (.inr ⟨rfl, rfl⟩)) alike
      simp only [Slots.file, here, Slots.push, Function.update_self, ← List.append_assoc]
      rw [List.filter_append, before, List.filter_append]
    · have unseen : (w.slots.file Entry.expire w.uTime e (waitingList deadline w.now)).filter (Alike deadline) =
          (w.slots (waitingList deadline w.now)).filter (Alike deadline) := by
        rw [Slots.file, Slots.push, Function.update_apply]
        split
        · rename_i here
          simp [← here, alike]
        · rfl
      rw [List.filter_append, unseen, ← List.filter_append, before, List.filter_append]
      simp [alike]
  | detach rests =>
    rw [rests, List.append_nil] at before
    by_cases here : waitingList deadline w.now = w.current
    · simp only [here, Slots.clear, Function.update_self, List.append_nil]
      rw [← here, before]
    · have passed := sound.waits_nowhere_else (Ne.symm here)
      simp only [Slots.clear, Function.update_of_ne here]
      rw [List.filter_append, List.filter_append, passed, List.append_nil, ← List.filter_append, before]
  | dispatch e rest runs =>
    rw [runs] at before
    simpa using before
  | shift rests empty =>
    have waiting := sound.shift_waiting deadline sound' rfl
    rw [List.filter_append] at before ⊢
    rw [waiting]
    exact before

end

theorem Wheel.inOrder_of_reachable {start : BitVec 32} {w : Wheel}
    (reached : Transition.Reachable (Wheel.Start start) (Wheel.Step NonNegative) w) (deadline : Nat) : w.InOrder deadline := by
  refine Transition.Reachable.invariant (P := fun w => w.InOrder deadline) ?_ ?_ reached
  · rintro _ rfl
    rfl
  · intro w w' before inOrder taken
    have short : ∀ uTime time, NonNegative uTime time → time.toNat < 2 ^ 31 := fun _ _ => toInt_nonneg
    exact taken.inOrder (Wheel.sound_of_reachable short before) (Wheel.sound_of_reachable short (before.next taken)) inOrder

section
variable {uTime : BitVec 32} {s : System} {e f : Entry}

/-- Delays that wrap the clock less than once give one deadline. -/
theorem deadline_eq (first : e.time.toNat < 2 ^ 31) (second : f.time.toNat < 2 ^ 31) (same : e.expire = f.expire)
    (close : e.since < f.since + 2 ^ 31 ∧ f.since < e.since + 2 ^ 31) : e.deadline = f.deadline := by
  have values := congrArg BitVec.toNat same
  simp only [Entry.expire, Entry.deadline, BitVec.toNat_ofNat] at values ⊢
  omega

/-- Two entries of one order that keep it when the others are left out. -/
theorem sublist_of_filter {xs ys : List Entry} (p : Entry → Bool) (same : ys.filter p = xs.filter p)
    (pair : [e, f].Sublist xs) (first : p e) (second : p f) : [e, f].Sublist ys := by
  have kept := pair.filter p
  rw [List.filter_cons_of_pos first, List.filter_cons_of_pos second, List.filter_nil, ← same] at kept
  exact kept.trans List.filter_sublist

end

/-- Of two timers of one deadline that are both dispatched, the one added first
    is dispatched first. -/
theorem same_deadline_in_order (uTime : BitVec 32) (s : System) (reached : Reachable NonNegative uTime s) (e f : Entry)
    (added : [e, f].Sublist s.added) (same : e.expire = f.expire)
    (close : e.since < f.since + 2 ^ 31 ∧ f.since < e.since + 2 ^ 31)
    (dispatched : e.callBack ∈ s.dispatched ∧ f.callBack ∈ s.dispatched) :
    [e.callBack, f.callBack].Sublist s.dispatched := by
  obtain ⟨w, S, D, reachedWheel, refines⟩ := reached.refines
  have sound := Wheel.sound_of_reachable (fun _ _ => toInt_nonneg) reachedWheel
  have conserved := Wheel.conserved_of_reachable reachedWheel
  have once : (w.slots.pending ++ w.running ++ w.done).Nodup :=
    conserved.nodup_iff.mpr (refines.added ▸ refines.fresh.of_append_left.of_map Entry.callBack)
  have short : ∀ g ∈ s.added, g.time.toNat < 2 ^ 31 := fun g member =>
    toInt_nonneg (Wheel.allowed_of_reachable reachedWheel g (refines.added ▸ member))
  have isDone : ∀ g ∈ s.added, g.callBack ∈ s.dispatched → g ∈ w.done := by
    intro g member dispatched
    rw [refines.dispatched] at dispatched
    obtain ⟨h, done, callBack⟩ := List.mem_map.mp dispatched
    have addedToo : h ∈ s.added := refines.added ▸ conserved.mem_iff.mp (by simp [done])
    rwa [← refines.entry_unique addedToo member callBack]
  have eAdded : e ∈ s.added := added.subset (by simp)
  have fAdded : f ∈ s.added := added.subset (by simp)
  have eDone := isDone e eAdded dispatched.1
  have fDone := isDone f fAdded dispatched.2
  have alike : Alike e.deadline f :=
    ⟨(deadline_eq (short e eAdded) (short f fAdded) same close).symm, sound.done f fDone⟩
  have inOrder := Wheel.inOrder_of_reachable reachedWheel e.deadline
  rw [Wheel.InOrder, refines.added] at inOrder
  have whole := sublist_of_filter _ inOrder added (by simp [Alike, sound.done e eDone]) (by simp [alike])
  -- What is running or waiting was not dispatched.
  have apart : ∀ list, ∀ g ∈ w.running ++ w.slots list, g ∉ w.done := by
    intro list g member done
    refine (List.nodup_append.mp once).2.2 g ?_ g done rfl
    rcases List.mem_append.mp member with runs | waits
    · exact List.mem_append_right _ runs
    · exact List.mem_append_left _ (refines.pending_of_filed waits)
  have pair : [e, f].Sublist w.done := by
    refine sublist_of_filter (· ∈ w.done) ?_ whole (by simpa using eDone) (by simpa using fDone)
    have others : (w.running ++ w.slots (waitingList e.deadline w.now)).filter (· ∈ w.done) = [] :=
      List.filter_eq_nil_iff.mpr fun g member done => apart _ g member (of_decide_eq_true done)
    rw [List.append_assoc, List.filter_append, others, List.append_nil]
  rw [refines.dispatched]
  exact pair.map Entry.callBack

/-- At 254 a timer of three ticks goes to level 0, and one of a single tick that
    is added at 256 is due with it. -/
def twoTimers (n : Nat) : Option System := do
  let s ← oneTimer 254 3 2
  let s ← addTimer (allocate s ⟨1, 1, 1⟩ 0) ⟨1, 1, 1⟩
  timerSteps n s

theorem twoTimers_reachable {n : Nat} {s : System} (run : twoTimers n = some s) : Reachable NonNegative 254 s := by
  simp only [twoTimers, Option.bind_eq_bind, Option.bind_eq_some_iff] at run
  obtain ⟨before, waited, after, added, rest⟩ := run
  have reached := oneTimer_reachable (show NonNegative 254 3 by unfold NonNegative; decide) waited
  have start : before = (oneTimer 254 3 2).get (by decide) := (Option.get_of_eq_some _ waited).symm
  have fresh : Fresh before ⟨1, 1, 1⟩ := by
    subst start
    unfold Fresh
    decide
  exact timerSteps_reachable ((reached.next (.allocate _ 0 fresh)).next
    (.addTimer _ (by simp [allocate]) (show NonNegative _ 1 by unfold NonNegative; decide) added)) rest

theorem two_timers_in_order : ∃ s, twoTimers 6 = some s ∧ [0, 1].Sublist s.dispatched :=
  ⟨(twoTimers 6).get (by decide), by simp,
    same_deadline_in_order 254 _ (twoTimers_reachable (Option.some_get _).symm) ⟨0, 3, 254⟩ ⟨1, 1, 256⟩ (by decide)
      (by decide) (by decide) (by decide)⟩

end LiteServer.Timer
