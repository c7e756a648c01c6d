import LiteServer.Timer.Threads

/-!
Every run of the threads is a run of the wheel: the lists, the detached list
and the finished callbacks of a state stand for the entries of a reachable
`Wheel`, no step is undefined, and the pointers of every list are well formed.
-/
namespace LiteServer.Timer
open LinkedList Transition

/-! ### Events and program points -/

def dispatchedOf : Event → Option CallBack
  | .onTimeOut callBack => some callBack
  | _ => none
def deletedOf : Event → Option CallBack
  | .delete callBack => some callBack
  | _ => none
def freedOf : Event → Option CallBack
  | .free _ callBack => some callBack
  | _ => none

/-- The callbacks whose `OnTimeOut` was called, that were deleted, and whose
    nodes were freed, in order. -/
def System.dispatched (s : System) : List CallBack := s.trace.filterMap dispatchedOf
def System.deleted (s : System) : List CallBack := s.trace.filterMap deletedOf
def System.freed (s : System) : List CallBack := s.trace.filterMap freedOf

/-- The node whose `OnTimeOut` was called and that is not yet freed. -/
def Pc.current : Pc → List Addr
  | .deleteCallBack _ _ list => [list]
  | .freeNode _ _ list => [list]
  | _ => []
/-- The node whose callback is not yet deleted. -/
def Pc.undeleted : Pc → List Addr
  | .deleteCallBack _ _ list => [list]
  | _ => []
/-- The first node of the detached list that was not yet dispatched. -/
def Pc.rest (nodes : AList fun _ : Addr => TimerNode) : Pc → Option Addr
  | .idle => none
  | .relock _ _ => none
  | .onTimeOut _ _ list => some list
  | .deleteCallBack _ _ list => (nodes.lookup list).bind TimerNode.next
  | .freeNode _ _ list => (nodes.lookup list).bind TimerNode.next
/-- The local `index` of `TimerExecute` is the slot of the current tick. -/
def Pc.AtSlot (index : Nat) : Pc → Prop
  | .idle => True
  | .onTimeOut _ i _ => i = index
  | .deleteCallBack _ i _ => i = index
  | .freeNode _ i _ => i = index
  | .relock _ i => i = index

/-- A node of the heap stands for an entry. -/
def Holds (t : WheelTimer) (a : Addr) (e : Entry) : Prop :=
  (t.nodes.lookup a).map TimerNode.data = some (e.expire, e.callBack)

/-- A state of the threads stands for a state of the wheel: `S` are the nodes
    of the lists and `D` the detached nodes still to dispatch. -/
structure Refines (s : System) (w : Wheel) (S : Slots Addr) (D : List Addr) : Prop where
  linked : Linked s.timer S
  detached : Chain s.timer.nodes.lookup TimerNode.next (s.pc.rest s.timer.nodes) D
  owned : (S.pending ++ D ++ s.pc.current ++ s.adding.map Adding.node).Nodup
  slots : ∀ list, List.Forall₂ (Holds s.timer) (S list) (w.slots list)
  running : List.Forall₂ (Holds s.timer) D w.running
  calls : ∀ call ∈ s.adding, callBackOf s.timer call.node = some call.callBack
  current : ∀ a ∈ s.pc.current, (callBackOf s.timer a).isSome
  atSlot : s.pc.AtSlot (currentIndex s.timer)
  now : w.now = s.now
  uTime : s.timer.uTime = w.uTime
  added : w.added = s.added
  dispatched : s.dispatched = w.done.map Entry.callBack
  deleted : s.dispatched.map some = s.deleted.map some ++ s.pc.undeleted.map (callBackOf s.timer)
  freed : s.dispatched.map some = s.freed.map some ++ s.pc.current.map (callBackOf s.timer)
  fresh : (s.added.map Entry.callBack ++ s.adding.map Adding.callBack).Nodup
  shifts : ∀ slot, Event.shift slot ∈ s.trace → slot = none

/-! ### Entries and nodes -/

theorem Holds.expire {t : WheelTimer} {a : Addr} {e : Entry} (holds : Holds t a e) : expireOf t a = e.expire := by
  unfold Holds at holds
  rw [Option.map_eq_some_iff] at holds
  obtain ⟨node, found, data⟩ := holds
  simp [expireOf, found, (Prod.mk.inj data).1]

theorem Holds.callBack {t : WheelTimer} {a : Addr} {e : Entry} (holds : Holds t a e) :
    callBackOf t a = some e.callBack := by
  unfold Holds at holds
  rw [Option.map_eq_some_iff] at holds
  obtain ⟨node, found, data⟩ := holds
  simp [callBackOf, found, (Prod.mk.inj data).2]

/-- Related slots stay related when related entries with equal deadlines are
    filed, one by one. -/
theorem push_related {t : WheelTimer} {S : Slots Addr} {W : Slots Entry}
    (related : ∀ list, List.Forall₂ (Holds t) (S list) (W list)) {a : Addr} {e : Entry} (holds : Holds t a e)
    (list : ListRef) : ∀ other, List.Forall₂ (Holds t) (S.push list a other) (W.push list e other) := by
  intro other
  by_cases same : other = list
  · subst same
    simp only [Slots.push, Function.update_self]
    exact List.rel_append (related other) (.cons holds .nil)
  · simpa only [Slots.push, Function.update_of_ne same] using related other

theorem clear_related {t : WheelTimer} {S : Slots Addr} {W : Slots Entry}
    (related : ∀ list, List.Forall₂ (Holds t) (S list) (W list)) (list : ListRef) :
    ∀ other, List.Forall₂ (Holds t) (S.clear list other) (W.clear list other) := by
  intro other
  by_cases same : other = list
  · subst same
    simp [Slots.clear]
  · simpa only [Slots.clear, Function.update_of_ne same] using related other

theorem cascade_related {t : WheelTimer} {S : Slots Addr} {W : Slots Entry}
    (related : ∀ list, List.Forall₂ (Holds t) (S list) (W list)) (curTime : BitVec 32) (list : ListRef) :
    ∀ other, List.Forall₂ (Holds t) (S.cascade (expireOf t) curTime list other)
      (W.cascade Entry.expire curTime list other) := by
  have moved : ∀ (xs : List Addr) (es : List Entry) (S : Slots Addr) (W : Slots Entry),
      List.Forall₂ (Holds t) xs es → (∀ other, List.Forall₂ (Holds t) (S other) (W other)) →
      ∀ other, List.Forall₂ (Holds t) (xs.foldl (Slots.file (expireOf t) curTime) S other)
        (es.foldl (Slots.file Entry.expire curTime) W other) := by
    intro xs es S W entries slots
    induction entries generalizing S W with
    | nil => exact slots
    | @cons a e xs es holds _ ih =>
      simp only [List.foldl_cons]
      refine ih _ _ ?_
      simp only [Slots.file, holds.expire]
      exact push_related slots holds _
  exact moved _ _ _ _ (related list) (clear_related related list)

theorem shift_related {t : WheelTimer} {S : Slots Addr} {W : Slots Entry}
    (related : ∀ list, List.Forall₂ (Holds t) (S list) (W list)) (curTime : BitVec 32) :
    ∀ other, List.Forall₂ (Holds t) (S.shift (expireOf t) curTime other) (W.shift Entry.expire curTime other) := by
  unfold Slots.shift
  cases cascadeOf curTime with
  | none => exact related
  | some place => exact cascade_related related curTime _

theorem currentIndex_eq {t : WheelTimer} {w : Wheel} (uTime : t.uTime = w.uTime) :
    ListRef.near (currentIndex t) = w.current := by
  rw [currentIndex, uTime, Masks.and_mask_toNat _ _ 8 (by decide), Wheel.uTime, Wheel.current, BitVec.toNat_ofNat]
  congr 1
  omega

/-- The value `time + m_uTime` is the deadline of the entry. -/
theorem expire_eq {w : Wheel} {call : Adding} :
    call.time + w.uTime = (⟨call.callBack, call.time, w.now⟩ : Entry).expire := by
  apply BitVec.eq_of_toNat_eq
  simp only [Wheel.uTime, Entry.expire, Entry.deadline, BitVec.toNat_add, BitVec.toNat_ofNat]
  omega

theorem refines_start (uTime : BitVec 32) :
    Refines (.start uTime) ⟨fun _ => [], [], [], [], uTime.toNat⟩ (fun _ => []) [] where
  linked := linked_new uTime
  detached := rfl
  owned := by simp [System.start, Pc.current, Slots.pending, List.flatMap]
  slots := fun _ => .nil
  running := .nil
  calls := by simp [System.start]
  current := by simp [System.start, Pc.current]
  atSlot := trivial
  now := rfl
  uTime := by simp [System.start, WheelTimer.new, Wheel.uTime]
  added := rfl
  dispatched := rfl
  deleted := rfl
  freed := rfl
  fresh := by simp [System.start]
  shifts := by simp [System.start]

/-! ### Transport along unchanged cells -/

theorem Linked.congr {t t' : WheelTimer} {S : Slots Addr} (linked : Linked t S) (lists : t'.lists = t.lists)
    (same : ∀ a ∈ S.pending, t'.nodes.lookup a = t.nodes.lookup a) : Linked t' S := by
  refine ⟨?_, fun list => by rw [lists]; exact linked.tail list, linked.support, linked.once⟩
  intro list
  rw [lists]
  refine chain_congr ?_ (linked.chain list)
  intro a member
  rw [same a ((mem_pending linked.support a).mpr ⟨list, member⟩)]

theorem holds_related {t t' : WheelTimer} {xs : List Addr} {es : List Entry}
    (same : ∀ a ∈ xs, (t'.nodes.lookup a).map TimerNode.data = (t.nodes.lookup a).map TimerNode.data)
    (related : List.Forall₂ (Holds t) xs es) : List.Forall₂ (Holds t') xs es := by
  induction related with
  | nil => exact .nil
  | @cons a e xs es holds _ ih =>
    exact .cons ((same a (by simp)).trans holds) (ih fun b member => same b (by simp [member]))

theorem callBackOf_eq {t t' : WheelTimer} {a : Addr} (same : t'.nodes.lookup a = t.nodes.lookup a) :
    callBackOf t' a = callBackOf t a := by
  rw [callBackOf, callBackOf, same]

section
variable {s : System} {w : Wheel} {S : Slots Addr} {D : List Addr}

theorem Refines.list_pending (refines : Refines s w S D) {list : ListRef} {a : Addr} (member : a ∈ S list) :
    a ∈ S.pending := (mem_pending refines.linked.support a).mpr ⟨list, member⟩

/-- Every node that the state refers to is allocated. -/
theorem Refines.allocated (refines : Refines s w S D) {a : Addr}
    (member : a ∈ S.pending ++ D ++ s.pc.current ++ s.adding.map Adding.node) :
    (s.timer.nodes.lookup a).isSome := by
  simp only [List.mem_append, List.mem_map] at member
  rcases member with ((held | runs) | here) | ⟨call, called, rfl⟩
  · obtain ⟨list, inList⟩ := (mem_pending refines.linked.support a).mp held
    obtain ⟨node, found⟩ := chain_allocated (refines.linked.chain list) inList
    simp [found]
  · obtain ⟨node, found⟩ := chain_allocated refines.detached runs
    simp [found]
  · simpa [callBackOf] using refines.current a here
  · have known := refines.calls call called
    rw [callBackOf, Option.map_eq_some_iff] at known
    obtain ⟨node, found, _⟩ := known
    simp [found]

/-- Cells that the state does not refer to may change. -/
theorem Refines.heap (refines : Refines s w S D) (nodes : AList fun _ : Addr => TimerNode)
    (same : ∀ a ∈ S.pending ++ D ++ s.pc.current ++ s.adding.map Adding.node,
      nodes.lookup a = s.timer.nodes.lookup a) :
    Refines { s with timer := { s.timer with nodes := nodes } } w S D := by
  have inPending : ∀ a ∈ S.pending, nodes.lookup a = s.timer.nodes.lookup a := fun a held => same a (by simp [held])
  have inDetached : ∀ a ∈ D, nodes.lookup a = s.timer.nodes.lookup a := fun a runs => same a (by simp [runs])
  have inCurrent : ∀ a ∈ s.pc.current, nodes.lookup a = s.timer.nodes.lookup a := fun a here => same a (by simp [here])
  have callBacks : ∀ xs : List Addr, (∀ a ∈ xs, a ∈ s.pc.current) →
      xs.map (callBackOf { s.timer with nodes := nodes }) = xs.map (callBackOf s.timer) := fun xs inside =>
    List.map_congr_left fun a member => callBackOf_eq (inCurrent a (inside a member))
  have undeleted : ∀ a ∈ s.pc.undeleted, a ∈ s.pc.current := by
    cases s.pc <;> simp [Pc.undeleted, Pc.current]
  have rest : s.pc.rest nodes = s.pc.rest s.timer.nodes := by
    cases pc : s.pc <;> simp only [Pc.rest] <;> rw [inCurrent _ (by simp [pc, Pc.current])]
  exact { refines with
    linked := refines.linked.congr rfl inPending
    detached := by
      show Chain _ _ (s.pc.rest nodes) D
      rw [rest]
      exact chain_congr (fun a member => by rw [inDetached a member]) refines.detached
    slots := fun list => holds_related (fun a member => by rw [inPending a (refines.list_pending member)])
      (refines.slots list)
    running := holds_related (fun a member => by rw [inDetached a member]) refines.running
    calls := fun call called => by
      have known := same call.node (List.mem_append_right _ (List.mem_map.mpr ⟨call, called, rfl⟩))
      exact (callBackOf_eq known).trans (refines.calls call called)
    current := fun a here => by
      rw [callBackOf_eq (inCurrent a here)]
      exact refines.current a here
    deleted := refines.deleted.trans (congrArg _ (callBacks _ undeleted).symm)
    freed := refines.freed.trans (congrArg _ (callBacks _ fun a member => member).symm) }

/-- With nothing detached, the loop of `TimerExecute` detaches the current slot
    or finds it empty. -/
theorem executeLoop_total (refines : Refines s w S D) (idle : s.pc = .idle) (phase : Phase) (exit : Option System) :
    w.running = [] ∧ D = [] ∧
    ((w.slots w.current = [] ∧ (s.timer.lists w.current).head = none ∧
        executeLoop s phase (currentIndex s.timer) exit = exit) ∨
      ∃ s' node, executeLoop s phase (currentIndex s.timer) exit = some s' ∧
        s'.pc = .onTimeOut phase (currentIndex s.timer) node ∧
        Refines s' { w with slots := w.slots.clear w.current, running := w.slots w.current }
          (S.clear w.current) (S w.current)) := by
  have detached := refines.detached
  rw [idle] at detached
  have nothing : D = [] := chain_none detached
  subst nothing
  have rests : w.running = [] := List.forall₂_nil_left_iff.mp refines.running
  refine ⟨rests, rfl, ?_⟩
  have slot := currentIndex_eq refines.uTime
  have inside := current_indexed w
  have chain := refines.linked.chain w.current
  simp only [executeLoop, slot, inside, if_true]
  cases head : (s.timer.lists w.current).head with
  | none =>
    left
    rw [head] at chain
    have related := refines.slots w.current
    rw [chain_none chain] at related
    exact ⟨List.forall₂_nil_left_iff.mp related, rfl, rfl⟩
  | some node =>
    right
    obtain ⟨t', cleared, linked', nodes', uTime', _⟩ := clearLink_total_correct refines.linked inside
    rw [head] at chain
    have lookup : ∀ a, t'.nodes.lookup a = s.timer.nodes.lookup a := fun a => by rw [nodes']
    have data : ∀ a, (t'.nodes.lookup a).map TimerNode.data = (s.timer.nodes.lookup a).map TimerNode.data :=
      fun a => by rw [nodes']
    have callBacks := callBackOf_congr data
    have split := clear_pending S inside
    have owned := refines.owned
    have deleted := refines.deleted
    have freed := refines.freed
    simp only [idle, Pc.current, Pc.undeleted, List.append_nil, List.map_nil] at owned deleted freed
    refine ⟨{ s with timer := t', pc := .onTimeOut phase (currentIndex s.timer) node }, node,
      by simp [cleared, head], rfl, ?_⟩
    exact {
      linked := linked'
      detached := by
        show Chain t'.nodes.lookup _ (some node) _
        rw [nodes']
        exact chain
      owned := by
        simp only [Pc.current, List.append_nil]
        exact ((split.trans List.perm_append_comm).append_right _).nodup_iff.mp owned
      slots := fun list => holds_related (fun a _ => data a) (clear_related refines.slots w.current list)
      running := holds_related (fun a _ => data a) (refines.slots w.current)
      calls := fun call called => by rw [callBacks]; exact refines.calls call called
      current := by simp [Pc.current]
      atSlot := by simp [Pc.AtSlot, currentIndex, uTime']
      now := refines.now
      uTime := uTime'.trans refines.uTime
      added := refines.added
      dispatched := refines.dispatched
      deleted := by
        simp only [Pc.undeleted, List.map_nil, List.append_nil]
        exact deleted
      freed := by
        simp only [Pc.current, List.map_nil, List.append_nil]
        exact freed
      fresh := refines.fresh
      shifts := refines.shifts }

/-- Past an empty slot, `TimerShift` is the advance of the wheel. -/
theorem shiftStep_total (refines : Refines s w S []) (idle : s.pc = .idle)
    (head : (s.timer.lists w.current).head = none) :
    ∃ s', shiftStep s = some s' ∧ s'.pc = .idle ∧
      Refines s' { w with slots := w.slots.shift Entry.expire (BitVec.ofNat 32 (w.now + 1)), now := w.now + 1 }
        (S.shift (expireOf s.timer) (BitVec.ofNat 32 (w.now + 1))) [] := by
  obtain ⟨t', shifted, linked', relinked'⟩ := timerShift_total_correct refines.linked
  have advanced : s.timer.uTime + 1 = BitVec.ofNat 32 (w.now + 1) := by
    rw [refines.uTime, Wheel.uTime]
    apply BitVec.eq_of_toNat_eq
    simp
  rw [advanced] at linked'
  have data := relinked'.data
  have callBacks : callBackOf t' = callBackOf s.timer := callBackOf_congr data
  have pending := shift_pending (expireOf s.timer) (BitVec.ofNat 32 (w.now + 1)) S
  have owned := refines.owned
  refine ⟨{ s with
    timer := t'
    now := s.now + 1
    trace := s.trace ++ [.shift (s.timer.lists (.near (currentIndex s.timer))).head] },
    by simp [shiftStep, shifted], idle, ?_⟩
  have running : w.running = [] := List.forall₂_nil_left_iff.mp refines.running
  exact {
    linked := linked'
    detached := by simp [idle, Pc.rest]
    owned := (((pending.append_right _).append_right _).append_right _).nodup_iff.mpr owned
    slots := fun list => holds_related (fun a _ => data a) (shift_related refines.slots _ list)
    running := by simp [running]
    calls := fun call called => by rw [callBacks]; exact refines.calls call called
    current := by simp [idle, Pc.current]
    atSlot := by simp [idle, Pc.AtSlot]
    now := congrArg (· + 1) refines.now
    uTime := relinked'.time.trans advanced
    added := refines.added
    dispatched := by simpa [System.dispatched, List.filterMap_cons, dispatchedOf] using refines.dispatched
    deleted := by
      simpa [System.dispatched, System.deleted, List.filterMap_cons, dispatchedOf, deletedOf, idle, Pc.undeleted]
        using refines.deleted
    freed := by
      simpa [System.dispatched, System.freed, List.filterMap_cons, dispatchedOf, freedOf, idle, Pc.current]
        using refines.freed
    fresh := refines.fresh
    shifts := by
      intro slot logged
      simp only [List.mem_append, List.mem_singleton, Event.shift.injEq] at logged
      rcases logged with before | rfl
      · exact refines.shifts slot before
      · rw [currentIndex_eq refines.uTime]
        exact head }

variable {allowed : BitVec 32 → BitVec 32 → Prop}

/-- A state that `s` steps to, which stands for a wheel that `w` reaches. When
    `Update` ends there, the slot of the current tick is empty. -/
def Follows (allowed : BitVec 32 → BitVec 32 → Prop) (w : Wheel) (s' : System) : Prop :=
  ∃ w' S' D', Relation.ReflTransGen (Wheel.Step allowed) w w' ∧ Refines s' w' S' D' ∧
    (s'.pc = .idle → w'.slots w'.current = [])

/-- The stretch of `Update` from a loop test to the next release of the lock. -/
theorem execute_total (refines : Refines s w S D) (idle : s.pc = .idle) (phase : Phase) :
    ∃ s', execute s phase (currentIndex s.timer) = some s' ∧ Follows allowed w s' := by
  have started : ∀ (s s' : System) (w : Wheel) (S : Slots Addr) (D : List Addr) (phase : Phase) (node : Addr),
      w.running = [] → s'.pc = .onTimeOut phase (currentIndex s.timer) node →
      Refines s' { w with slots := w.slots.clear w.current, running := w.slots w.current } S D →
      Follows allowed w s' := by
    intro s s' w S D phase node rests pc refines'
    exact ⟨_, _, _, .single (.detach w rests), refines', by simp [pc]⟩
  cases phase with
  | afterShift =>
    obtain ⟨rests, rfl, ⟨empty, _, ended⟩ | ⟨s', node, detached, pc, refines'⟩⟩ :=
      executeLoop_total refines idle .afterShift (some { s with pc := .idle })
    · refine ⟨_, ended, w, S, [], .refl, ?_, fun _ => empty⟩
      rw [← idle]
      exact refines
    · exact ⟨s', detached, started s s' w _ _ _ node rests pc refines'⟩
  | beforeShift =>
    simp only [execute]
    obtain ⟨rests, rfl, ⟨empty, head, ended⟩ | ⟨s', node, detached, pc, refines'⟩⟩ :=
      executeLoop_total refines idle .beforeShift
        (shiftStep s >>= fun s => executeLoop s .afterShift (currentIndex s.timer) (some { s with pc := .idle }))
    · obtain ⟨s1, shifted, idle1, refines1⟩ := shiftStep_total refines idle head
      have advance : Wheel.Step allowed w _ := .shift w rests empty
      obtain ⟨rests1, _, ⟨empty1, _, ended1⟩ | ⟨s', node, detached, pc, refines'⟩⟩ :=
        executeLoop_total refines1 idle1 .afterShift (some { s1 with pc := .idle })
      · have rested : { s1 with pc := .idle } = s1 := by rw [← idle1]
        rw [rested] at ended1
        exact ⟨s1, ended.trans (by rw [shifted]; exact (rested ▸ ended1)), _, _, [], .single advance, refines1,
          fun _ => empty1⟩
      · obtain ⟨w', S', D', run, related, atEnd⟩ := started s1 s' _ _ _ _ node rests1 pc refines'
        exact ⟨s', ended.trans (by rw [shifted]; exact detached), w', S', D', .head advance run, related, atEnd⟩
    · exact ⟨s', detached, started s s' w _ _ _ node rests pc refines'⟩

/-- Taking the lock again goes on as from outside `Update`. -/
theorem Refines.resting {phase : Phase} {index : Nat} (refines : Refines s w S D) (pc : s.pc = .relock phase index) :
    Refines { s with pc := .idle } w S D := by
  have detached := refines.detached
  have owned := refines.owned
  have deleted := refines.deleted
  have freed := refines.freed
  rw [pc] at detached owned deleted freed
  exact { refines with
    detached := detached
    owned := owned
    current := by simp [Pc.current]
    atSlot := trivial
    deleted := deleted
    freed := freed }

theorem execute_resting (s : System) (phase : Phase) (index : Nat) :
    execute { s with pc := .idle } phase index = execute s phase index := by
  cases phase with
  | afterShift => rfl
  | beforeShift => cases shifted : timerShift s.timer <;> simp [execute, executeLoop, shiftStep, shifted]

/-- `OnTimeOut` is called for the first detached node. -/
theorem onTimeOut_refines {phase : Phase} {index : Nat} {list : Addr} (refines : Refines s w S D)
    (pc : s.pc = .onTimeOut phase index list) :
    ∃ node e es rest, s.timer.nodes.lookup list = some node ∧ node.callBack = e.callBack ∧ D = list :: rest ∧
      w.running = e :: es ∧
      Refines { s with pc := .deleteCallBack phase index list, trace := s.trace ++ [.onTimeOut node.callBack] }
        { w with running := es, done := w.done ++ [e] } S rest := by
  have detached := refines.detached
  have owned := refines.owned
  have deleted := refines.deleted
  have freed := refines.freed
  rw [pc] at detached owned deleted freed
  obtain ⟨node, rest, rfl, found, more⟩ := chain_some detached
  obtain ⟨e, es, holds, others, running⟩ := List.forall₂_cons_left_iff.mp refines.running
  have callBack : callBackOf s.timer list = some e.callBack := holds.callBack
  have same : node.callBack = e.callBack := by simpa [callBackOf, found] using callBack
  have dispatched := refines.dispatched
  simp only [Pc.undeleted, Pc.current, List.map_nil, List.append_nil, System.dispatched, System.deleted,
    System.freed] at deleted freed dispatched
  refine ⟨node, e, es, rest, found, same, rfl, running, ?_⟩
  exact {
    linked := refines.linked
    detached := by simpa [Pc.rest, found] using more
    owned := by
      refine List.Perm.nodup_iff ?_ |>.mp owned
      simp only [Pc.current, List.append_nil]
      refine List.Perm.append_right _ ?_
      rw [List.append_assoc]
      exact (List.perm_append_singleton list rest).symm.append_left _
    slots := refines.slots
    running := others
    calls := refines.calls
    current := by simp [Pc.current, callBack]
    atSlot := by simpa [pc, Pc.AtSlot] using refines.atSlot
    now := refines.now
    uTime := refines.uTime
    added := refines.added
    dispatched := by simp [System.dispatched, dispatchedOf, dispatched, same]
    deleted := by
      simp [System.dispatched, System.deleted, List.filterMap_cons, dispatchedOf, deletedOf, Pc.undeleted, deleted,
        callBack, same]
    freed := by
      simp [System.dispatched, System.freed, List.filterMap_cons, dispatchedOf, freedOf, Pc.current, freed,
        callBack, same]
    fresh := refines.fresh
    shifts := by simpa using refines.shifts }

theorem onTimeOut_total {phase : Phase} {index : Nat} {list : Addr} (refines : Refines s w S D)
    (pc : s.pc = .onTimeOut phase index list) :
    ∃ s', timerStep s = some s' ∧ Follows allowed w s' := by
  obtain ⟨node, e, es, rest, found, _, _, running, refines'⟩ := onTimeOut_refines refines pc
  exact ⟨_, by simp [timerStep, pc, found], _, S, rest, .single (.dispatch w e es running), refines', by simp⟩

/-- The callback of the dispatched node is deleted. -/
theorem deleteCallBack_refines {phase : Phase} {index : Nat} {list : Addr} (refines : Refines s w S D)
    (pc : s.pc = .deleteCallBack phase index list) :
    ∃ node, s.timer.nodes.lookup list = some node ∧
      Refines { s with pc := .freeNode phase index list, trace := s.trace ++ [.delete node.callBack] } w S D := by
  have detached := refines.detached
  have owned := refines.owned
  have deleted := refines.deleted
  have freed := refines.freed
  have current := refines.current
  have dispatched := refines.dispatched
  rw [pc] at detached owned deleted freed current
  obtain ⟨node, found⟩ : ∃ node, s.timer.nodes.lookup list = some node := by
    simpa [callBackOf, Option.isSome_iff_exists] using current list (by simp [Pc.current])
  have callBack : callBackOf s.timer list = some node.callBack := by simp [callBackOf, found]
  refine ⟨node, found, ?_⟩
  simp only [Pc.undeleted, Pc.current, List.map_cons, List.map_nil, callBack, System.dispatched, System.deleted,
    System.freed] at deleted freed dispatched
  exact { refines with
    detached := detached
    owned := owned
    current := current
    atSlot := by simpa [pc, Pc.AtSlot] using refines.atSlot
    dispatched := by simp [System.dispatched, List.filterMap_cons, dispatchedOf, dispatched]
    deleted := by
      simp [System.dispatched, System.deleted, List.filterMap_cons, dispatchedOf, deletedOf, Pc.undeleted, deleted]
    freed := by
      simp [System.dispatched, System.freed, List.filterMap_cons, dispatchedOf, freedOf, Pc.current, freed, callBack]
    shifts := by simpa using refines.shifts }

theorem deleteCallBack_total {phase : Phase} {index : Nat} {list : Addr} (refines : Refines s w S D)
    (pc : s.pc = .deleteCallBack phase index list) :
    ∃ s', timerStep s = some s' ∧ Follows allowed w s' := by
  obtain ⟨node, found, refines'⟩ := deleteCallBack_refines refines pc
  exact ⟨_, by simp [timerStep, pc, found], w, S, D, .refl, refines', by simp⟩

/-- Where `DispatchList` goes on when a node is freed before the nodes `D`. -/
def Pc.behind (phase : Phase) (index : Nat) : List Addr → Pc
  | [] => .relock phase index
  | next :: _ => .onTimeOut phase index next

/-- The dispatched node is freed and the walk goes on behind it. -/
theorem freeNode_refines {phase : Phase} {index : Nat} {list : Addr} (refines : Refines s w S D)
    (pc : s.pc = .freeNode phase index list) :
    ∃ node s', s.timer.nodes.lookup list = some node ∧ timerStep s = some s' ∧ s'.pc = .behind phase index D ∧
      s'.trace = s.trace ++ [.free list node.callBack] ∧ Refines s' w S D := by
  have detached := refines.detached
  have owned := refines.owned
  have deleted := refines.deleted
  have freed := refines.freed
  have current := refines.current
  have dispatched := refines.dispatched
  rw [pc] at detached owned deleted freed current
  obtain ⟨node, found⟩ : ∃ node, s.timer.nodes.lookup list = some node := by
    simpa [callBackOf, Option.isSome_iff_exists] using current list (by simp [Pc.current])
  have callBack : callBackOf s.timer list = some node.callBack := by simp [callBackOf, found]
  simp only [Pc.rest, found, Option.bind_some] at detached
  simp only [Pc.undeleted, Pc.current, List.map_cons, List.map_nil, List.append_nil, callBack, System.dispatched,
    System.deleted, System.freed] at deleted freed dispatched owned
  -- The freed node is on no list, not detached and not being added.
  have middle : (S.pending ++ D ++ list :: s.adding.map Adding.node).Nodup := by simpa [List.append_assoc] using owned
  have apart := List.nodup_cons.mp (List.perm_middle.nodup_iff.mp middle)
  have passed : ∀ pc : Pc, pc.current = [] → pc.undeleted = [] → pc.rest s.timer.nodes = node.next →
      pc.AtSlot (currentIndex s.timer) → Refines { s with
        pc := pc
        timer := { s.timer with nodes := s.timer.nodes.erase list }
        trace := s.trace ++ [Event.free list node.callBack] } w S D := by
    intro pc noCurrent noUndeleted rest atSlot
    have unfreed : Refines { s with pc := pc, trace := s.trace ++ [Event.free list node.callBack] } w S D :=
      { refines with
        detached := by
          show Chain _ _ (pc.rest s.timer.nodes) D
          rw [rest]
          exact detached
        owned := by
          show (_ ++ _ ++ pc.current ++ _).Nodup
          rw [noCurrent, List.append_nil]
          exact apart.2
        current := by
          show ∀ a ∈ pc.current, _
          simp [noCurrent]
        atSlot := atSlot
        dispatched := by simp [System.dispatched, List.filterMap_cons, dispatchedOf, dispatched]
        deleted := by
          simp [System.dispatched, System.deleted, List.filterMap_cons, dispatchedOf, deletedOf, deleted, noUndeleted]
        freed := by
          simp [System.dispatched, System.freed, List.filterMap_cons, dispatchedOf, freedOf, freed, noCurrent]
        shifts := by simpa using refines.shifts }
    refine unfreed.heap _ fun a member => AList.lookup_erase_ne ?_
    rintro rfl
    refine apart.1 ?_
    simpa [noCurrent] using member
  have atSlot : index = currentIndex s.timer := by simpa [pc, Pc.AtSlot] using refines.atSlot
  cases D with
  | nil =>
    have next : node.next = none := detached
    exact ⟨node, _, found, by simp [timerStep, pc, found, next], rfl, rfl,
      passed (.relock phase index) rfl rfl next.symm atSlot⟩
  | cons after rest =>
    have next : node.next = some after := detached.1
    exact ⟨node, _, found, by simp [timerStep, pc, found, next], rfl, rfl,
      passed (.onTimeOut phase index after) rfl rfl next.symm atSlot⟩

theorem freeNode_total {phase : Phase} {index : Nat} {list : Addr} (refines : Refines s w S D)
    (pc : s.pc = .freeNode phase index list) :
    ∃ s', timerStep s = some s' ∧ Follows allowed w s' := by
  obtain ⟨node, s', _, taken, pc', _, refines'⟩ := freeNode_refines refines pc
  refine ⟨s', taken, w, S, D, .refl, refines', ?_⟩
  cases D <;> simp [pc', Pc.behind]

theorem timerStep_total (refines : Refines s w S D) : ∃ s', timerStep s = some s' ∧ Follows allowed w s' := by
  cases pc : s.pc with
  | idle => simpa [timerStep, pc] using execute_total refines pc .beforeShift
  | onTimeOut phase index list => exact onTimeOut_total refines pc
  | deleteCallBack phase index list => exact deleteCallBack_total refines pc
  | freeNode phase index list => exact freeNode_total refines pc
  | relock phase index =>
    have atSlot : index = currentIndex s.timer := by simpa [pc, Pc.AtSlot] using refines.atSlot
    obtain ⟨s', taken, follows⟩ : ∃ s', _ = some s' ∧ Follows allowed w s' := execute_total (refines.resting pc) rfl phase
    refine ⟨s', ?_, follows⟩
    rw [execute_resting] at taken
    simpa [timerStep, pc, atSlot] using taken

/-- An `AddTimer` call has allocated its node. -/
theorem allocate_refines (refines : Refines s w S D) {call : Adding} (junk : BitVec 32) (fresh : Fresh s call) :
    Refines (allocate s call junk) w S D := by
  obtain ⟨free, notAdded, notAdding⟩ := fresh
  have apart : call.node ∉ S.pending ++ D ++ s.pc.current ++ s.adding.map Adding.node := by
    intro member
    have := refines.allocated member
    simp [free] at this
  have stored := refines.heap (s.timer.nodes.insert call.node ⟨junk, none, call.callBack⟩)
    fun a member => AList.lookup_insert_ne (by rintro rfl; exact apart member)
  exact { stored with
    owned := by
      simp only [allocate, List.map_append, List.map_cons, List.map_nil, ← List.append_assoc]
      exact (List.perm_append_singleton _ _).nodup_iff.mpr (List.nodup_cons.mpr ⟨apart, refines.owned⟩)
    calls := by
      intro other called
      simp only [allocate, List.mem_append, List.mem_singleton] at called
      rcases called with before | rfl
      · exact stored.calls other before
      · simp [allocate, callBackOf]
    fresh := by
      simp only [allocate, List.map_append, List.map_cons, List.map_nil, ← List.append_assoc]
      refine (List.perm_append_singleton _ _).nodup_iff.mpr (List.nodup_cons.mpr ⟨?_, refines.fresh⟩)
      rw [List.mem_append]
      exact fun either => either.elim notAdded notAdding }

/-- What a call of `AddTimer` adds at the clock value `now`. -/
def Adding.entry (call : Adding) (now : Nat) : Entry := ⟨call.callBack, call.time, now⟩

/-- The critical section of `AddTimer` is the filing of a new entry. -/
theorem addTimer_refines (refines : Refines s w S D) {call : Adding} (called : call ∈ s.adding) :
    ∃ s' S', addTimer s call = some s' ∧ s'.pc = s.pc ∧ s'.trace = s.trace ∧
      Refines s' { w with
        slots := w.slots.file Entry.expire w.uTime (call.entry w.now)
        added := w.added ++ [call.entry w.now] } S' D := by
  have known := refines.calls call called
  rw [callBackOf, Option.map_eq_some_iff] at known
  obtain ⟨node, found, sameCallBack⟩ := known
  have split : s.adding.Perm (call :: s.adding.erase call) := List.perm_cons_erase called
  have owned := ((split.map Adding.node).append_left (S.pending ++ D ++ s.pc.current)).nodup_iff.mp refines.owned
  rw [List.map_cons, List.perm_middle.nodup_iff, List.nodup_cons] at owned
  let e : Entry := call.entry w.now
  -- While the call is in its critical section nothing refers to its node.
  have dropped : Refines { s with adding := s.adding.erase call } w S D := { refines with
    owned := owned.2
    calls := fun other member => refines.calls other (List.mem_of_mem_erase member)
    fresh := by
      have fresh := ((split.map Adding.callBack).append_left (s.added.map Entry.callBack)).nodup_iff.mp refines.fresh
      rw [List.map_cons, List.perm_middle.nodup_iff, List.nodup_cons] at fresh
      exact fresh.2 }
  let t : WheelTimer := { s.timer with
    nodes := s.timer.nodes.insert call.node { node with expire := call.time + s.timer.uTime } }
  have stored : Refines { s with timer := t, adding := s.adding.erase call } w S D :=
    dropped.heap _ fun a member => AList.lookup_insert_ne (by rintro rfl; exact owned.1 member)
  have unlisted : call.node ∉ S.pending := fun held => owned.1 (by simp [held])
  have lookup : t.nodes.lookup call.node = some { node with expire := call.time + s.timer.uTime } :=
    AList.lookup_insert _
  obtain ⟨t', filed, linked', relinked'⟩ := addNode_total_correct stored.linked lookup unlisted
  have data := relinked'.data
  have callBacks : callBackOf t' = callBackOf t := callBackOf_congr data
  have holds : Holds t call.node e := by
    simp [Holds, lookup, TimerNode.data, sameCallBack, refines.uTime, expire_eq, e, Adding.entry]
  have pending := file_pending (expireOf t) t.uTime S call.node
  have away : ∀ a ∈ D ++ s.pc.current, t'.nodes.lookup a = t.nodes.lookup a := by
    intro a member
    refine relinked'.frame a ?_
    intro listed
    rcases List.mem_cons.mp listed with rfl | held
    · exact owned.1 (by simp only [List.mem_append] at member ⊢; tauto)
    · have apart := owned.2
      rw [List.append_assoc, List.append_assoc] at apart
      refine (List.nodup_append.mp apart).2.2 a held a ?_ rfl
      rw [← List.append_assoc]
      exact List.mem_append_left _ member
  refine ⟨{ s with timer := t', adding := s.adding.erase call, added := s.added ++ [⟨call.callBack, call.time, s.now⟩] },
    S.file (expireOf t) t.uTime call.node, by simp [addTimer, found, t] at filed ⊢; simp [filed], rfl, rfl, ?_⟩
  exact {
    linked := linked'
    detached := by
      have rest : s.pc.rest t'.nodes = s.pc.rest t.nodes := by
        cases pc : s.pc <;> simp only [Pc.rest] <;> rw [away _ (by simp [pc, Pc.current])]
      show Chain _ _ (s.pc.rest t'.nodes) D
      rw [rest]
      exact chain_congr (fun a member => by rw [away a (by simp [member])]) stored.detached
    owned := (((pending.append_right D).append_right s.pc.current).append_right _).nodup_iff.mpr
      (List.nodup_cons.mpr owned)
    slots := by
      have filedAt : listFor (expireOf t call.node) t.uTime = listFor e.expire w.uTime := by
        rw [holds.expire, show t.uTime = w.uTime from refines.uTime]
      intro list
      simp only [Slots.file, filedAt]
      exact holds_related (fun a _ => data a) (push_related stored.slots holds _ list)
    running := holds_related (fun a _ => data a) stored.running
    calls := fun other member => by rw [callBacks]; exact stored.calls other member
    current := fun a here => by rw [callBacks]; exact stored.current a here
    atSlot := by simpa [currentIndex, relinked'.time, t] using refines.atSlot
    now := refines.now
    uTime := relinked'.time.trans refines.uTime
    added := by simp [refines.added, refines.now, Adding.entry]
    dispatched := refines.dispatched
    deleted := by
      rw [callBacks]
      exact stored.deleted
    freed := by
      rw [callBacks]
      exact stored.freed
    fresh := by
      have fresh := ((split.map Adding.callBack).append_left (s.added.map Entry.callBack)).nodup_iff.mp refines.fresh
      simpa [List.append_assoc] using fresh
    shifts := refines.shifts }

theorem addTimer_total (refines : Refines s w S D) {call : Adding} (called : call ∈ s.adding)
    (fits : allowed s.timer.uTime call.time) :
    ∃ s' w' S', addTimer s call = some s' ∧ Wheel.Step allowed w w' ∧ Refines s' w' S' D := by
  obtain ⟨s', S', added, _, _, refines'⟩ := addTimer_refines refines called
  exact ⟨s', _, S', added, .add w (call.entry w.now) rfl (by rw [← refines.uTime]; exact fits), refines'⟩

theorem Step.follows {s' : System} (refines : Refines s w S D) (taken : Step allowed s s') :
    ∃ w' S' D', Relation.ReflTransGen (Wheel.Step allowed) w w' ∧ Refines s' w' S' D' := by
  cases taken with
  | timer done =>
    obtain ⟨s'', done', w', S', D', run, related, _⟩ : ∃ s', _ = some s' ∧ Follows allowed w s' := timerStep_total refines
    cases Option.some.inj (done.symm.trans done')
    exact ⟨w', S', D', run, related⟩
  | allocate call junk fresh => exact ⟨w, S, D, .refl, allocate_refines refines junk fresh⟩
  | addTimer call called fits done =>
    obtain ⟨s'', w', S', done', added, related⟩ := addTimer_total refines called fits
    cases Option.some.inj (done.symm.trans done')
    exact ⟨w', S', D, .single added, related⟩

/-- Every state of a run stands for a wheel that the wheel's own steps reach. -/
theorem Reachable.refines {uTime : BitVec 32} (reached : Reachable allowed uTime s) :
    ∃ w S D, Transition.Reachable (Wheel.Start uTime) (Wheel.Step allowed) w ∧ Refines s w S D := by
  refine Transition.Reachable.invariant (P := fun s => ∃ w S D, Transition.Reachable (Wheel.Start uTime)
    (Wheel.Step allowed) w ∧ Refines s w S D) ?_ ?_ reached
  · rintro _ rfl
    exact ⟨_, _, _, .start rfl, refines_start uTime⟩
  · rintro s s' _ ⟨w, S, D, ⟨start, started, before⟩, refines⟩ taken
    obtain ⟨w', S', D', run, related⟩ := taken.follows refines
    exact ⟨w', S', D', ⟨start, started, before.trans run⟩, related⟩

end

end LiteServer.Timer
