import LiteServer.Lib.Transition
import LiteServer.Timer.Linked

/-!
What the wheel is for, on entries that remember when and for how long they were
added: entries are filed, the current slot is detached and run, and the clock
advances once its slot is empty. The clock is counted without wrapping; the
program's clock and deadlines are its values modulo `2 ^ 32`.
-/
namespace LiteServer.Timer

/-- A completed `AddTimer(callBack, time)`, made when the clock was `since`. -/
structure Entry where
  callBack : CallBack
  time : BitVec 32
  since : Nat
  deriving DecidableEq, Repr

def Entry.deadline (e : Entry) : Nat := e.since + e.time.toNat
def Entry.expire (e : Entry) : BitVec 32 := BitVec.ofNat 32 e.deadline

structure Wheel where
  slots : Slots Entry
  running : List Entry
  done : List Entry
  added : List Entry
  now : Nat

def Wheel.uTime (w : Wheel) : BitVec 32 := BitVec.ofNat 32 w.now
/-- The slot of the current tick. -/
def Wheel.current (w : Wheel) : ListRef := .near (w.now % 2 ^ 8)

/-- One step of the wheel; `allowed` restricts the clock values and delays of
    `AddTimer` calls. -/
inductive Wheel.Step (allowed : BitVec 32 → BitVec 32 → Prop) : Wheel → Wheel → Prop where
  | add (w : Wheel) (e : Entry) : e.since = w.now → allowed w.uTime e.time →
      Step allowed w { w with slots := w.slots.file Entry.expire w.uTime e, added := w.added ++ [e] }
  | detach (w : Wheel) : w.running = [] →
      Step allowed w { w with slots := w.slots.clear w.current, running := w.slots w.current }
  | dispatch (w : Wheel) (e : Entry) (rest : List Entry) : w.running = e :: rest →
      Step allowed w { w with running := rest, done := w.done ++ [e] }
  | shift (w : Wheel) : w.running = [] → w.slots w.current = [] →
      Step allowed w { w with slots := w.slots.shift Entry.expire (BitVec.ofNat 32 (w.now + 1)), now := w.now + 1 }

def Wheel.Start (uTime : BitVec 32) (w : Wheel) : Prop := w = ⟨fun _ => [], [], [], [], uTime.toNat⟩

/-! ### What is held -/

/-- Each list gets the entries that belong in it, behind what it held and in
    their order. -/
theorem foldl_file_eq {α : Type*} (expire : α → BitVec 32) (uTime : BitVec 32) (xs : List α) (S : Slots α) (list : ListRef) :
    xs.foldl (Slots.file expire uTime) S list = S list ++ xs.filter fun a => listFor (expire a) uTime = list := by
  induction xs generalizing S with
  | nil => simp
  | cons a rest ih =>
    rw [List.foldl_cons, ih, Slots.file, Slots.push]
    by_cases here : listFor (expire a) uTime = list
    · subst here
      simp
    · simp [here, Ne.symm here]

theorem mem_foldl_file {α : Type*} (expire : α → BitVec 32) (uTime : BitVec 32) (xs : List α) (S : Slots α)
    (list : ListRef) (a : α) :
    a ∈ xs.foldl (Slots.file expire uTime) S list ↔ a ∈ S list ∨ (a ∈ xs ∧ listFor (expire a) uTime = list) := by
  rw [foldl_file_eq, List.mem_append, List.mem_filter, decide_eq_true_eq]

theorem mem_cascade {α : Type*} (expire : α → BitVec 32) (uTime : BitVec 32) (S : Slots α) (from_ list : ListRef) (a : α) :
    a ∈ S.cascade expire uTime from_ list ↔
      (a ∈ S list ∧ list ≠ from_) ∨ (a ∈ S from_ ∧ listFor (expire a) uTime = list) := by
  rw [Slots.cascade, mem_foldl_file, mem_clear]

theorem foldl_file_pending {α : Type*} (expire : α → BitVec 32) (uTime : BitVec 32) (xs : List α) (S : Slots α) :
    (xs.foldl (Slots.file expire uTime) S).pending.Perm (xs ++ S.pending) := by
  induction xs generalizing S with
  | nil => exact List.Perm.refl _
  | cons a rest ih =>
    refine (ih _).trans (((push_pending S (listFor_indexed _ _) a).append_left rest).trans ?_)
    exact List.perm_middle

theorem cascade_pending {α : Type*} (expire : α → BitVec 32) (uTime : BitVec 32) (S : Slots α) {list : ListRef}
    (inside : list.Indexed) : (S.cascade expire uTime list).pending.Perm S.pending :=
  (foldl_file_pending expire uTime _ _).trans (clear_pending S inside).symm

theorem shift_pending {α : Type*} (expire : α → BitVec 32) (curTime : BitVec 32) (S : Slots α) :
    (S.shift expire curTime).pending.Perm S.pending := by
  unfold Slots.shift
  cases cascaded : cascadeOf curTime with
  | none => exact List.Perm.refl _
  | some place => exact cascade_pending expire curTime S (cascadeOf_indexed cascaded)

theorem current_indexed (w : Wheel) : w.current.Indexed := by
  have near : timeNear = 2 ^ 8 := by decide
  simp only [Wheel.current, ListRef.Indexed, near]
  omega

/-- Every entry is pending, running or done, and none is twice. -/
theorem Wheel.Step.conserved {allowed : BitVec 32 → BitVec 32 → Prop} {w w' : Wheel} (taken : Wheel.Step allowed w w')
    (before : (w.slots.pending ++ w.running ++ w.done).Perm w.added) :
    (w'.slots.pending ++ w'.running ++ w'.done).Perm w'.added := by
  cases taken with
  | add e since fits =>
    have filed := push_pending w.slots (listFor_indexed e.expire w.uTime) e
    have grown := (filed.append_right w.running).append_right w.done
    refine grown.trans (((before.cons e).trans ?_))
    exact (List.perm_append_singleton e w.added).symm
  | detach rests =>
    rw [rests, List.append_nil] at before
    have split := clear_pending w.slots (current_indexed w)
    exact ((split.trans List.perm_append_comm).append_right w.done).symm.trans before
  | dispatch e rest runs =>
    rw [runs] at before
    simp only [List.append_assoc] at before ⊢
    refine List.Perm.trans ?_ before
    refine List.Perm.append_left _ ?_
    rw [List.cons_append, ← List.append_assoc]
    exact List.perm_append_singleton e _
  | shift rests empty =>
    exact (((shift_pending Entry.expire _ w.slots).append_right _).append_right _).trans before

/-! ### Where entries wait -/

/-- Farther than level 0 reaches from a clock value whose low 26 bits are zero,
    which is when a list of level 3 is cascaded. -/
def Stuck (deadline : Nat) : Prop := 2 ^ 14 ≤ deadline % 2 ^ 26

/-- An entry that level 3 never hands on: it is filed there, and back there
    whenever its list is cascaded. -/
def Lost (e : Entry) : Prop := e.deadline / 2 ^ 14 ≠ e.since / 2 ^ 14 ∧ Stuck e.deadline

instance (deadline : Nat) : Decidable (Stuck deadline) := inferInstanceAs (Decidable (_ ≤ _))
instance (e : Entry) : Decidable (Lost e) := inferInstanceAs (Decidable (_ ∧ _))

/-- Where an entry may wait at the clock value `now`. -/
def Placed (now : Nat) (list : ListRef) (e : Entry) : Prop :=
  match list with
  | .near index => ¬ Lost e ∧ e.deadline / 2 ^ 8 = now / 2 ^ 8 ∧ e.deadline % 2 ^ 8 = index ∧ now ≤ e.deadline
  | .wheel 0 index => ¬ Lost e ∧ e.deadline / 2 ^ 14 = now / 2 ^ 14 ∧ e.deadline / 2 ^ 8 % 2 ^ 6 = index ∧
      now / 2 ^ 8 < e.deadline / 2 ^ 8
  | .wheel 3 index => e.deadline / 2 ^ 26 % 2 ^ 6 = index ∧
      (Lost e ∨ (¬ Stuck e.deadline ∧ now < e.deadline / 2 ^ 26 * 2 ^ 26))
  | .wheel _ _ => False

section
variable {now : Nat} {e : Entry}

/-- `AddNode` puts an entry that is due at most `2 ^ 31` ticks ahead where it
    may wait. -/
theorem placed_listFor (ahead : now ≤ e.deadline) (soon : e.deadline < now + 2 ^ 31)
    (reached : if Lost e then e.deadline / 2 ^ 14 ≠ now / 2 ^ 14 else
      e.deadline / 2 ^ 14 = now / 2 ^ 14 ∨ ¬ Stuck e.deadline) :
    Placed now (listFor e.expire (BitVec.ofNat 32 now)) e := by
  simp only [listFor_eq, Entry.expire, BitVec.toNat_ofNat]
  by_cases near : e.deadline % 2 ^ 32 / 2 ^ 8 = now % 2 ^ 32 / 2 ^ 8
  · have kept : ¬ Lost e := by
      intro lost
      rw [if_pos lost] at reached
      omega
    rw [if_pos near]
    refine ⟨kept, ?_, ?_, ahead⟩ <;> omega
  · rw [if_neg near]
    by_cases block : e.deadline % 2 ^ 32 / 2 ^ 14 = now % 2 ^ 32 / 2 ^ 14
    · have kept : ¬ Lost e := by
        intro lost
        rw [if_pos lost] at reached
        omega
      rw [if_pos block]
      refine ⟨kept, ?_, ?_, ?_⟩ <;> omega
    · rw [if_neg block]
      refine ⟨by omega, ?_⟩
      have apart : ¬ e.deadline / 2 ^ 14 = now / 2 ^ 14 := by omega
      by_cases lost : Lost e
      · exact .inl lost
      · rw [if_neg lost] at reached
        have free := reached.resolve_left apart
        refine .inr ⟨free, ?_⟩
        unfold Stuck at free
        omega

/-- An entry whose list is not cascaded may stay where it is when the clock
    advances past an empty slot. -/
theorem placed_kept {list : ListRef} (placed : Placed now list e) (later : list = .near (now % 2 ^ 8) → False)
    (still : ∀ level index, cascadeOf (BitVec.ofNat 32 (now + 1)) = some (level, index) → list ≠ .wheel level index) :
    Placed (now + 1) list e := by
  unfold cascadeOf at still
  simp only [BitVec.toNat_ofNat] at still
  match list, placed with
  | .near index, ⟨kept, block, slot, ahead⟩ =>
    have differ : e.deadline ≠ now := by
      intro same
      exact later (by rw [← slot, same])
    refine ⟨kept, ?_, slot, ?_⟩ <;> omega
  | .wheel 0 index, ⟨kept, block, slot, ahead⟩ =>
    have differ : ¬ ((now + 1) % 2 ^ 8 = 0 ∧ e.deadline / 2 ^ 8 = (now + 1) / 2 ^ 8) := by
      rintro ⟨low, same⟩
      have digit : (now + 1) % 2 ^ 32 / 2 ^ 8 % 2 ^ 6 = index := by omega
      have set : index ≠ 0 := by omega
      refine still 0 index ?_ rfl
      rw [if_neg (by omega), if_neg (by omega), digit, if_pos set]
    refine ⟨kept, ?_, slot, ?_⟩ <;> omega
  | .wheel 3 index, ⟨slot, wait⟩ =>
    refine ⟨slot, wait.imp id fun ⟨free, ahead⟩ => ⟨free, ?_⟩⟩
    -- Were the window of the deadline to open now, level 3 would be cascaded.
    have differ : now + 1 ≠ e.deadline / 2 ^ 26 * 2 ^ 26 := by
      intro same
      refine still 3 index ?_ rfl
      have digit : (now + 1) % 2 ^ 32 / 2 ^ 26 % 2 ^ 6 = index := by omega
      by_cases zero : (now + 1) % 2 ^ 32 = 0
      · rw [if_pos zero]
        have : index = 0 := by omega
        rw [this]
      · rw [if_neg zero, if_neg (by omega), if_neg (by omega), if_neg (by omega), if_neg (by omega), digit]
    omega

/-- An entry in the list that is cascaded may wait where it is filed next. -/
theorem placed_moved {level index : Nat} (placed : Placed now (.wheel level index) e)
    (soon : e.deadline < now + 2 ^ 31) (cascaded : cascadeOf (BitVec.ofNat 32 (now + 1)) = some (level, index)) :
    Placed (now + 1) (listFor e.expire (BitVec.ofNat 32 (now + 1))) e := by
  match level, placed with
  | 0, ⟨kept, block, slot, ahead⟩ =>
    obtain ⟨low, digit⟩ := cascadeOf_nearest cascaded
    rw [BitVec.toNat_ofNat] at low digit
    have opens : e.deadline / 2 ^ 8 = (now + 1) / 2 ^ 8 := by omega
    refine placed_listFor (by omega) (by omega) ?_
    rw [if_neg kept]
    left
    omega
  | 3, ⟨slot, wait⟩ =>
    obtain ⟨low, digit⟩ := cascadeOf_farthest cascaded
    rw [BitVec.toNat_ofNat] at low digit
    rcases wait with lost | ⟨free, ahead⟩
    · -- Farther than level 0 reaches, so it goes back to level 3.
      have far := lost.2
      unfold Stuck at far
      simp only [listFor_eq, Entry.expire, BitVec.toNat_ofNat]
      rw [if_neg (by omega), if_neg (by omega)]
      exact ⟨by omega, .inl lost⟩
    · have opens : now + 1 = e.deadline / 2 ^ 26 * 2 ^ 26 := by omega
      have kept : ¬ Lost e := fun lost => free lost.2
      unfold Stuck at free
      refine placed_listFor (by omega) (by omega) ?_
      rw [if_neg kept]
      left
      omega

end

/-- Where everything is at a step of a run, that what runs is due now, and that
    nothing runs that is lost. -/
structure Wheel.Sound (w : Wheel) : Prop where
  placed : ∀ list, ∀ e ∈ w.slots list, Placed w.now list e
  soon : ∀ list, ∀ e ∈ w.slots list, e.deadline < w.now + 2 ^ 31
  due : ∀ e ∈ w.running, e.deadline = w.now ∧ ¬ Lost e
  done : ∀ e ∈ w.done, ¬ Lost e

section
variable {allowed : BitVec 32 → BitVec 32 → Prop} {w w' : Wheel}

theorem Wheel.Step.sound (short : ∀ uTime time, allowed uTime time → time.toNat < 2 ^ 31)
    (taken : Wheel.Step allowed w w') (sound : w.Sound) : w'.Sound := by
  cases taken with
  | add e since fits =>
    have brief := short w.uTime e.time fits
    have deadline : e.deadline = w.now + e.time.toNat := by rw [Entry.deadline, since]
    refine ⟨?_, ?_, sound.due, sound.done⟩
    · intro list f held
      rcases mem_push.mp held with before | ⟨rfl, rfl⟩
      · exact sound.placed list f before
      · refine placed_listFor (show w.now ≤ _ by omega) (by show _ < w.now + _; omega) ?_
        split
        · rename_i lost
          rw [← since]
          exact lost.1
        · rename_i kept
          rw [Lost, since] at kept
          by_cases same : f.deadline / 2 ^ 14 = w.now / 2 ^ 14
          · exact .inl same
          · exact .inr fun stuck => kept ⟨same, stuck⟩
    · intro list f held
      rcases mem_push.mp held with before | ⟨_, rfl⟩
      · exact sound.soon list f before
      · show _ < w.now + _
        omega
  | detach rests =>
    refine ⟨fun list e held => sound.placed list e (mem_clear.mp held).1,
      fun list e held => sound.soon list e (mem_clear.mp held).1, ?_, sound.done⟩
    intro e runs
    obtain ⟨kept, block, slot, ahead⟩ := sound.placed w.current e runs
    refine ⟨?_, kept⟩
    show e.deadline = w.now
    omega
  | dispatch e rest runs =>
    refine ⟨sound.placed, sound.soon, fun f member => sound.due f (by rw [runs]; exact List.mem_cons_of_mem _ member),
      ?_⟩
    intro f member
    rcases List.mem_append.mp member with before | now
    · exact sound.done f before
    · rw [List.mem_singleton.mp now]
      exact (sound.due e (by simp [runs])).2
  | shift rests empty =>
    have idle : ∀ e ∈ w.running, e.deadline = w.now + 1 ∧ ¬ Lost e := by simp [rests]
    have later : ∀ list, ∀ e ∈ w.slots list, list = .near (w.now % 2 ^ 8) → False := by
      rintro list e held rfl
      rw [show w.slots (.near (w.now % 2 ^ 8)) = [] from empty] at held
      simp at held
    have soon : ∀ list, ∀ e ∈ w.slots list, e.deadline < w.now + 1 + 2 ^ 31 := fun list e held => by
      have := sound.soon list e held
      omega
    cases cascaded : cascadeOf (BitVec.ofNat 32 (w.now + 1)) with
    | none =>
      simp only [Slots.shift, cascaded]
      exact ⟨fun list e held => placed_kept (sound.placed list e held) (later list e held) (by simp [cascaded]),
        soon, idle, sound.done⟩
    | some place =>
      obtain ⟨level, index⟩ := place
      simp only [Slots.shift, cascaded]
      refine ⟨?_, ?_, idle, sound.done⟩
      · intro list e held
        rcases (mem_cascade _ _ _ _ _ _).mp held with ⟨stays, other⟩ | ⟨moved, rfl⟩
        · refine placed_kept (sound.placed list e stays) (later list e stays) ?_
          intro level' index' same
          rw [cascaded] at same
          cases same
          exact other
        · exact placed_moved (sound.placed _ e moved) (sound.soon _ e moved) cascaded
      · intro list e held
        rcases (mem_cascade _ _ _ _ _ _).mp held with ⟨stays, _⟩ | ⟨moved, _⟩
        · exact soon list e stays
        · exact soon _ e moved

theorem Wheel.sound_of_reachable {start : BitVec 32} (short : ∀ uTime time, allowed uTime time → time.toNat < 2 ^ 31)
    (reached : Transition.Reachable (Wheel.Start start) (Wheel.Step allowed) w) : w.Sound := by
  refine reached.invariant ?_ (fun _ _ _ sound taken => taken.sound short sound)
  rintro _ rfl
  exact ⟨by simp, by simp, by simp, by simp⟩

theorem Wheel.conserved_of_reachable {start : BitVec 32}
    (reached : Transition.Reachable (Wheel.Start start) (Wheel.Step allowed) w) :
    (w.slots.pending ++ w.running ++ w.done).Perm w.added := by
  refine Transition.Reachable.invariant (P := fun w => (w.slots.pending ++ w.running ++ w.done).Perm w.added) ?_
    (fun _ _ _ before taken => taken.conserved before) reached
  rintro _ rfl
  simp [Slots.pending, List.flatMap]

/-- Every entry was allowed when it was added. -/
theorem Wheel.allowed_of_reachable {start : BitVec 32}
    (reached : Transition.Reachable (Wheel.Start start) (Wheel.Step allowed) w) :
    ∀ e ∈ w.added, allowed (BitVec.ofNat 32 e.since) e.time := by
  refine Transition.Reachable.invariant (P := fun w => ∀ e ∈ w.added, allowed (BitVec.ofNat 32 e.since) e.time) ?_ ?_
    reached
  · rintro _ rfl
    simp
  · intro w w' _ before taken
    cases taken with
    | add e since fits =>
      intro f member
      rcases List.mem_append.mp member with earlier | new
      · exact before f earlier
      · rw [List.mem_singleton.mp new, since]
        exact fits
    | detach _ => exact before
    | dispatch _ _ _ => exact before
    | shift _ _ => exact before

/-- Once the current slot has been run, what is pending is due later or lost. -/
theorem Wheel.Sound.ahead (sound : w.Sound) (empty : w.slots w.current = []) {list : ListRef} {e : Entry}
    (held : e ∈ w.slots list) : Lost e ∨ w.now < e.deadline := by
  have placed := sound.placed list e held
  match list, placed with
  | .near index, ⟨_, block, slot, ahead⟩ =>
    right
    have differ : e.deadline ≠ w.now := by
      intro same
      rw [show ListRef.near index = w.current by rw [Wheel.current, ← slot, same], empty] at held
      simp at held
    omega
  | .wheel 0 index, ⟨_, block, slot, ahead⟩ => right; omega
  | .wheel 3 index, ⟨slot, wait⟩ =>
    refine wait.imp id fun ⟨_, ahead⟩ => ?_
    omega

end

end LiteServer.Timer
