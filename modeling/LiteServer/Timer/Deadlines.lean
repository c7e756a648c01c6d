import LiteServer.Timer.Refinement
import Mathlib.Data.List.Count

/-!
What every run of `WheelTimer` guarantees: no timer is lost or run twice, none
runs early or on a wrong tick, and none runs late as long as its deadline is
one that the wheel hands on.
-/
namespace LiteServer.Timer
open LinkedList

/-! ### Neither lost nor duplicated -/

theorem callBacks_related {t : WheelTimer} {xs : List Addr} {es : List Entry}
    (related : List.Forall₂ (Holds t) xs es) : xs.map (callBackOf t) = es.map fun e => some e.callBack := by
  induction related with
  | nil => rfl
  | cons holds _ ih => rw [List.map_cons, List.map_cons, holds.callBack, ih]

theorem count_some_callBack (es : List Entry) (callBack : CallBack) :
    (es.map fun e => some e.callBack).count (some callBack) = (es.map Entry.callBack).count callBack := by
  rw [← List.count_map_of_injective (es.map Entry.callBack) some (Option.some_injective _), List.map_map]
  rfl

/-- The lists are well formed, every completed timer is in one list, detached or
    dispatched, and there once, no step leaves the arrays or follows a stale
    pointer, and nothing is called, deleted or freed twice. -/
structure Conserved (s : System) : Prop where
  placed : ∃ (S : Slots Addr) (D : List Addr),
    (∀ list, Chain s.timer.nodes.lookup TimerNode.next (s.timer.lists list).head (S list) ∧
      (s.timer.lists list).tail = tailOf list (S list) ∧
      ((s.timer.lists list).tail = .head list ↔ (s.timer.lists list).head = none)) ∧
    (∀ list, S list ≠ [] → list.Indexed) ∧
    Chain s.timer.nodes.lookup TimerNode.next (s.pc.rest s.timer.nodes) D ∧
    (S.pending ++ D).Nodup ∧
    ∀ e ∈ s.added, (S.pending.map (callBackOf s.timer)).count (some e.callBack) +
      (D.map (callBackOf s.timer)).count (some e.callBack) + s.dispatched.count e.callBack = 1
  defined : timerStep s ≠ none ∧ ∀ call ∈ s.adding, addTimer s call ≠ none
  dispatched : s.dispatched.Nodup
  deleted : s.deleted.Nodup
  freed : s.freed.Nodup

/-- Timers are neither lost nor duplicated in any interleaving that adds each
    callback object once. -/
theorem timers_conserved (uTime : BitVec 32) (s : System) (reached : Reachable (fun _ _ => True) uTime s) :
    Conserved s := by
  obtain ⟨w, S, D, reachedWheel, refines⟩ := reached.refines
  have conserved := Wheel.conserved_of_reachable reachedWheel
  have fresh : (s.added.map Entry.callBack).Nodup := refines.fresh.of_append_left
  have pending : S.pending.map (callBackOf s.timer) = w.slots.pending.map fun e => some e.callBack := by
    simp only [Slots.pending, List.map_flatMap]
    exact List.flatMap_congr fun list _ => callBacks_related (refines.slots list)
  have running := callBacks_related refines.running
  have all := conserved.map Entry.callBack
  rw [refines.added, List.map_append, List.map_append, ← refines.dispatched] at all
  have dispatched : s.dispatched.Nodup := (all.nodup_iff.mpr fresh).of_append_right
  have deleted := dispatched.map (Option.some_injective _)
  have freed := deleted
  rw [refines.deleted] at deleted
  rw [refines.freed] at freed
  refine ⟨⟨S, D, fun list => ⟨refines.linked.chain list, refines.linked.tail list, ?_⟩, refines.linked.support,
    refines.detached, ?_, ?_⟩, ⟨?_, ?_⟩, dispatched, deleted.of_append_left.of_map some, freed.of_append_left.of_map some⟩
  · rw [refines.linked.tail list, tailOf]
    have chain := refines.linked.chain list
    cases empty : S list with
    | nil =>
      rw [empty] at chain
      simpa using chain
    | cons a rest =>
      rw [empty] at chain
      simp [List.getLast?_cons, chain.1]
  · have owned := refines.owned
    rw [List.append_assoc] at owned
    exact owned.of_append_left
  · intro e member
    have once := List.count_eq_one_of_mem fresh (List.mem_map.mpr ⟨e, member, rfl⟩)
    rw [← all.count_eq, List.count_append, List.count_append] at once
    rw [pending, running, count_some_callBack, count_some_callBack]
    exact once
  · obtain ⟨s', taken, _⟩ : ∃ s', timerStep s = some s' ∧ Follows (fun _ _ => True) w s' := timerStep_total refines
    simp [taken]
  · intro call called
    obtain ⟨s', _, _, done, _, _⟩ : ∃ s' w' S', addTimer s call = some s' ∧
      Wheel.Step (fun _ _ => True) w w' ∧ Refines s' w' S' D := addTimer_total refines called trivial
    simp [done]

theorem one_timer_conserved :
    ∃ s, oneTimer 0 1 1 = some s ∧ s.pc = .onTimeOut .afterShift 1 0 ∧ Conserved s :=
  ⟨(oneTimer 0 1 1).get (by decide), by simp, by decide,
    timers_conserved 0 _ (oneTimer_reachable trivial (Option.some_get _).symm)⟩

/-! ### Entries behind the nodes -/

section
variable {s : System} {w : Wheel} {S : Slots Addr} {D : List Addr}

theorem related_mem {t : WheelTimer} {xs : List Addr} {es : List Entry} (related : List.Forall₂ (Holds t) xs es)
    {a : Addr} (member : a ∈ xs) : ∃ e ∈ es, Holds t a e := by
  induction related with
  | nil => simp at member
  | @cons b f xs es holds _ ih =>
    rcases List.mem_cons.mp member with rfl | later
    · exact ⟨f, by simp, holds⟩
    · obtain ⟨e, inside, found⟩ := ih later
      exact ⟨e, by simp [inside], found⟩

/-- Each node met from the head of a list stands for an entry filed there. -/
theorem Refines.entry_of_listed (refines : Refines s w S D) {list : ListRef} {nodes : List Addr}
    (chain : Chain s.timer.nodes.lookup TimerNode.next (s.timer.lists list).head nodes) {a : Addr} (member : a ∈ nodes)
    {node : TimerNode} (found : s.timer.nodes.lookup a = some node) :
    ∃ e ∈ w.slots list, node.expire = e.expire ∧ node.callBack = e.callBack := by
  rw [chain_unique chain (refines.linked.chain list)] at member
  obtain ⟨e, held, holds⟩ := related_mem (refines.slots list) member
  rw [Holds, found, Option.map_some, Option.some.injEq] at holds
  exact ⟨e, held, congrArg Prod.fst holds, congrArg Prod.snd holds⟩

theorem Refines.pending_of_filed (refines : Refines s w S D) {list : ListRef} {e : Entry} (held : e ∈ w.slots list) :
    e ∈ w.slots.pending := by
  refine (mem_pending (fun other filed => refines.linked.support other ?_) e).mpr ⟨list, held⟩
  rintro empty
  have related := refines.slots other
  rw [empty] at related
  exact filed (List.forall₂_nil_left_iff.mp related)

/-- With distinct callback objects an entry is known by its callback. -/
theorem Refines.entry_unique (refines : Refines s w S D) {e f : Entry} (first : e ∈ s.added) (second : f ∈ s.added)
    (same : e.callBack = f.callBack) : e = f :=
  List.inj_on_of_nodup_map refines.fresh.of_append_left first second same

end

theorem toInt_nonneg {time : BitVec 32} (positive : 0 ≤ time.toInt) : time.toNat < 2 ^ 31 := by
  rw [BitVec.toInt_eq_toNat_cond] at positive
  have := time.isLt
  split at positive <;> omega

/-- The delay of an entry that is due at `now` is the time it has waited. -/
theorem waited_eq {e : Entry} (short : e.time.toNat < 2 ^ 31) (now : Nat) :
    (now : Int) - e.since = e.time.toInt + ((now : Int) - e.deadline) := by
  rw [BitVec.toInt_eq_toNat_of_lt (by omega), Entry.deadline]
  omega

/-! ### On its tick -/

/-- The delays of the claims about time: an `int` of at least zero. -/
def NonNegative (_ time : BitVec 32) : Prop := 0 ≤ time.toInt

/-- `OnTimeOut` is called at the tick `expire` names, `time` ticks after the node
    was added; a node in `mNear[index]` is due in this turn of the near wheel,
    at that index; and the clock advances past empty slots only. -/
structure OnTick (s : System) : Prop where
  onTimeOut : ∀ phase index list node, s.pc = .onTimeOut phase index list → s.timer.nodes.lookup list = some node →
    node.expire = s.timer.uTime ∧
      ∃ e ∈ s.added, e.callBack = node.callBack ∧ (s.now : Int) - e.since = e.time.toInt
  near : ∀ index nodes, Chain s.timer.nodes.lookup TimerNode.next (s.timer.lists (.near index)).head nodes →
    ∀ a ∈ nodes, ∀ node, s.timer.nodes.lookup a = some node →
      node.expire >>> timeNearShift = s.timer.uTime >>> timeNearShift ∧
        (node.expire &&& timeNearMask).toNat = index
  shifts : ∀ slot, Event.shift slot ∈ s.trace → slot = none

/-- No timer runs early or on a wrong tick. -/
theorem dispatched_on_time (uTime : BitVec 32) (s : System) (reached : Reachable NonNegative uTime s) : OnTick s := by
  obtain ⟨w, S, D, reachedWheel, refines⟩ := reached.refines
  have sound := Wheel.sound_of_reachable (fun _ _ => toInt_nonneg) reachedWheel
  have allowed := Wheel.allowed_of_reachable reachedWheel
  have conserved := Wheel.conserved_of_reachable reachedWheel
  refine ⟨?_, ?_, refines.shifts⟩
  · intro phase index list node pc found
    have detached := refines.detached
    rw [pc] at detached
    obtain ⟨node', rest, rfl, found', _⟩ := chain_some detached
    obtain ⟨e, es, holds, _, running⟩ := List.forall₂_cons_left_iff.mp refines.running
    rw [Holds, found, Option.map_some, Option.some.injEq] at holds
    have runs : e ∈ w.running := by simp [running]
    have due := (sound.due e runs).1
    have added : e ∈ w.added := conserved.mem_iff.mp (by simp [runs])
    refine ⟨?_, e, refines.added ▸ added, (congrArg Prod.snd holds).symm, ?_⟩
    · rw [show node.expire = e.expire from congrArg Prod.fst holds, Entry.expire, due, refines.uTime, Wheel.uTime]
    · rw [waited_eq (toInt_nonneg (allowed e added)), due, refines.now]
      omega
  · intro index nodes chain a member node found
    obtain ⟨e, held, expire, _⟩ := refines.entry_of_listed chain member found
    obtain ⟨_, block, slot, _⟩ := sound.placed _ e held
    rw [expire, refines.uTime, Entry.expire, Wheel.uTime]
    constructor
    · apply BitVec.eq_of_toNat_eq
      simp only [BitVec.toNat_ushiftRight, BitVec.toNat_ofNat, Nat.shiftRight_eq_div_pow, timeNearShift]
      omega
    · rw [Masks.and_mask_toNat _ _ 8 (by decide), BitVec.toNat_ofNat]
      omega

theorem one_timer_on_time :
    ∃ s, oneTimer 0 1 1 = some s ∧ s.pc = .onTimeOut .afterShift 1 0 ∧ OnTick s :=
  ⟨(oneTimer 0 1 1).get (by decide), by simp, by decide,
    dispatched_on_time 0 _ (oneTimer_reachable (by unfold NonNegative; decide) (Option.some_get _).symm)⟩

/-! ### Not late -/

/-- The calls after which a timer is run: the deadline lies in the clock's block
    of `2 ^ 14` ticks, or in the first `2 ^ 14` ticks of a block of `2 ^ 26`. -/
def Reaches (uTime time : BitVec 32) : Prop :=
  0 ≤ time.toInt ∧
    ((time + uTime).toNat / 2 ^ 14 = uTime.toNat / 2 ^ 14 ∨ (time + uTime).toNat % 2 ^ 26 < 2 ^ 14)

instance (uTime time : BitVec 32) : Decidable (Reaches uTime time) := by
  unfold Reaches
  infer_instance

theorem reaches_iff {e : Entry} (positive : 0 ≤ e.time.toInt) :
    Reaches (BitVec.ofNat 32 e.since) e.time ↔ ¬ Lost e := by
  have short := toInt_nonneg positive
  simp only [Reaches, positive, true_and, BitVec.toNat_add, BitVec.toNat_ofNat, Lost, Stuck, Entry.deadline]
  omega

/-- At the end of an `Update` a timer that is due has been dispatched exactly
    when its `AddTimer` call reached its deadline. -/
theorem dispatched_iff {uTime : BitVec 32} {s s' : System} (reached : Reachable NonNegative uTime s)
    (taken : timerStep s = some s') (ended : s'.pc = .idle) {e : Entry} (added : e ∈ s'.added)
    (due : e.time.toInt ≤ (s'.now : Int) - e.since) :
    e.callBack ∈ s'.dispatched ↔ Reaches (BitVec.ofNat 32 e.since) e.time := by
  obtain ⟨w, S, D, reachedWheel, refines⟩ := reached.refines
  obtain ⟨s'', taken', w', S', D', run, refines', atEnd⟩ : ∃ s', timerStep s = some s' ∧ Follows NonNegative w s' :=
    timerStep_total refines
  cases Option.some.inj (taken.symm.trans taken')
  obtain ⟨start, started, before⟩ := reachedWheel
  have reachedWheel' : Transition.Reachable (Wheel.Start uTime) (Wheel.Step NonNegative) w' :=
    ⟨start, started, before.trans run⟩
  have sound := Wheel.sound_of_reachable (fun _ _ => toInt_nonneg) reachedWheel'
  have conserved := Wheel.conserved_of_reachable reachedWheel'
  have filed : e ∈ w'.added := refines'.added ▸ added
  have positive := Wheel.allowed_of_reachable reachedWheel' e filed
  rw [reaches_iff positive, refines'.dispatched]
  constructor
  · intro dispatched
    obtain ⟨f, done, same⟩ := List.mem_map.mp dispatched
    have addedToo : f ∈ w'.added := conserved.mem_iff.mp (by simp [done])
    rw [← refines'.entry_unique (refines'.added ▸ addedToo) added same]
    exact sound.done f done
  · intro kept
    have detached := refines'.detached
    rw [ended] at detached
    have nothing : D' = [] := chain_none detached
    subst nothing
    have running : w'.running = [] := List.forall₂_nil_left_iff.mp refines'.running
    have somewhere := conserved.mem_iff.mpr filed
    rw [running, List.append_nil, List.mem_append] at somewhere
    refine somewhere.elim ?_ fun done => List.mem_map.mpr ⟨e, done, rfl⟩
    intro pending
    obtain ⟨list, _, held⟩ := List.mem_flatMap.mp pending
    have later := (sound.ahead (atEnd ended) held).resolve_left kept
    have waited := waited_eq (toInt_nonneg positive) s'.now
    have now := refines'.now
    omega

/-- At the end of an `Update`, a node that is still in a list waits for a later
    tick, and every other timer has been dispatched. -/
structure InTime (s : System) : Prop where
  pending : ∀ list nodes, Chain s.timer.nodes.lookup TimerNode.next (s.timer.lists list).head nodes →
    ∀ a ∈ nodes, ∀ node, s.timer.nodes.lookup a = some node →
      ∀ e ∈ s.added, e.callBack = node.callBack → (s.now : Int) - e.since < e.time.toInt
  dispatched : ∀ e ∈ s.added, e.time.toInt ≤ (s.now : Int) - e.since → e.callBack ∈ s.dispatched

/-- In every run whose `AddTimer` calls all reach their deadline, no timer is
    late at the end of any `Update`. -/
theorem no_timer_late (uTime : BitVec 32) (s s' : System) (reached : Reachable Reaches uTime s)
    (taken : timerStep s = some s') (ended : s'.pc = .idle) : InTime s' := by
  have positive : Reachable NonNegative uTime s := reached.mono fun _ _ => Step.mono fun _ _ reaches => reaches.1
  have reached' : Reachable Reaches uTime s' := reached.next (.timer taken)
  obtain ⟨w, S, D, reachedWheel, refines⟩ := reached'.refines
  have allowed := Wheel.allowed_of_reachable reachedWheel
  rw [refines.added] at allowed
  have dispatched : ∀ e ∈ s'.added, e.time.toInt ≤ (s'.now : Int) - e.since → e.callBack ∈ s'.dispatched :=
    fun e added due => (dispatched_iff positive taken ended added due).mpr (allowed e added)
  refine ⟨?_, dispatched⟩
  intro list nodes chain a member node found e added same
  -- A node that is still in a list cannot have been dispatched too.
  obtain ⟨f, held, _, callBack⟩ := refines.entry_of_listed chain member found
  have once := (Wheel.conserved_of_reachable reachedWheel).map Entry.callBack
  rw [List.map_append, List.map_append, ← refines.dispatched, refines.added] at once
  have apart := List.nodup_append.mp (once.nodup_iff.mpr refines.fresh.of_append_left)
  by_contra late
  have inPending : e.callBack ∈ w.slots.pending.map Entry.callBack :=
    List.mem_map.mpr ⟨f, refines.pending_of_filed held, (same.trans callBack).symm⟩
  exact apart.2.2 _ (List.mem_append_left _ inPending) _ (dispatched e added (by omega)) rfl

theorem one_timer_in_time :
    ∃ s s', oneTimer 0 1 4 = some s ∧ timerStep s = some s' ∧ s'.pc = .idle ∧ s'.dispatched = [0] ∧ InTime s' :=
  ⟨(oneTimer 0 1 4).get (by decide), (timerStep ((oneTimer 0 1 4).get (by decide))).get (by decide),
    by simp, by simp, by decide, by decide,
    no_timer_late 0 _ _ (oneTimer_reachable (by decide) (Option.some_get _).symm) (Option.some_get _).symm (by decide)⟩

/-- At the clock value 16383 a delay of one tick ends in `mWheel[3][0]`. -/
theorem one_timer_late : ¬ ∀ (uTime : BitVec 32) (s s' : System), Reachable NonNegative uTime s →
    timerStep s = some s' → s'.pc = .idle → InTime s' := by
  intro claim
  have positive : NonNegative 16383 1 := by unfold NonNegative; decide
  have inTime := claim 16383 ((oneTimer 16383 1 0).get (by decide))
    ((timerStep ((oneTimer 16383 1 0).get (by decide))).get (by decide))
    (oneTimer_reachable positive (Option.some_get _).symm) (Option.some_get _).symm (by decide)
  have dispatched := inTime.dispatched ⟨0, 1, 16383⟩ (by decide) (by decide)
  exact absurd dispatched (by decide)

end LiteServer.Timer
