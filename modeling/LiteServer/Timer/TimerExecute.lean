import LiteServer.Timer.Deadlines

/-!
One call of `TimerExecute` whose callbacks add timers themselves. A timer of at
least one tick is never filed in the slot that is being run, so that the loop
ends after the nodes that it found there.
-/
namespace LiteServer.Timer
open LinkedList

/-- Callbacks that add timers: the delays that `OnTimeOut` passes to `AddTimer`,
    one call after another, the objects it makes for them, and what `malloc`
    returns. -/
structure Rearming where
  delays : System → CallBack → List (BitVec 32)
  object : System → CallBack
  malloc : System → Addr
  junk : System → BitVec 32
  fresh : ∀ s time, Fresh s ⟨malloc s, object s, time⟩
  positive : ∀ s callBack, ∀ time ∈ delays s callBack, 1 ≤ time.toInt

/-- The `AddTimer` calls of one callback. -/
def Rearming.addTimers (env : Rearming) : List (BitVec 32) → System → Option System
  | [], s => some s
  | time :: rest, s => do
    let call : Adding := ⟨env.malloc s, env.object s, time⟩
    let s ← addTimer (allocate s call (env.junk s)) call
    env.addTimers rest s

/-- A step of the timer thread, with what the callback it calls does. -/
def Rearming.step (env : Rearming) (s : System) : Option System :=
  match s.pc with
  | .onTimeOut _ _ list => do
    let node ← s.timer.nodes.lookup list
    let called ← timerStep s
    env.addTimers (env.delays s node.callBack) called
  | _ => timerStep s

def Rearming.run (env : Rearming) : (fuel : Nat) → System → Option System
  | 0, s => if s.pc = .idle then some s else none
  | fuel + 1, s => if s.pc = .idle then some s else env.step s >>= env.run fuel

/-- One call of `TimerExecute`: behind the shift nothing follows its loop. -/
def Rearming.timerExecute (env : Rearming) (fuel : Nat) (s : System) : Option System :=
  execute s .afterShift (currentIndex s.timer) >>= env.run fuel

/-- The states in which `Update` calls `TimerExecute`: before the shift and, the
    slot being empty then, after it. -/
inductive CallsExecute (uTime : BitVec 32) (s : System) : Prop where
  | beforeShift : Reachable NonNegative uTime s → s.pc = .idle → CallsExecute uTime s
  | afterShift (before : System) : Reachable NonNegative uTime before →
      (before.pc = .idle ∨ ∃ index, before.pc = .relock .beforeShift index) →
      (before.timer.lists (.near (currentIndex before.timer))).head = none →
      shiftStep { before with pc := .idle } = some s → CallsExecute uTime s

/-- What `DispatchList` does with a node. -/
def dispatchEvents : Addr × CallBack → List Event
  | (node, callBack) => [.onTimeOut callBack, .delete callBack, .free node callBack]

/-- A call of `TimerExecute` took `s` to `s'`: it has dispatched what was in the
    slot, node by node, and nothing else, and the slot is empty. -/
structure Executed (s s' : System) : Prop where
  returned : s'.pc = .idle
  uTime : s'.timer.uTime = s.timer.uTime
  empty : (s'.timer.lists (.near (currentIndex s'.timer))).head = none
  dispatched : ∃ nodes callBacks,
    Chain s.timer.nodes.lookup TimerNode.next (s.timer.lists (.near (currentIndex s.timer))).head nodes ∧
    nodes.Nodup ∧ nodes.map (callBackOf s.timer) = callBacks.map some ∧
    s'.trace = s.trace ++ (nodes.zip callBacks).flatMap dispatchEvents

section
variable {s s' : System} {w : Wheel} {S : Slots Addr} {D : List Addr}

/-- A timer of at least one tick goes to another slot than the current one. -/
theorem filed_elsewhere {e : Entry} (since : e.since = w.now) (positive : 1 ≤ e.time.toInt) :
    listFor e.expire w.uTime ≠ w.current := by
  have bound := e.time.isLt
  have later : e.time.toNat ≠ 0 := by
    intro zero
    rw [BitVec.toInt_eq_toNat_cond, zero] at positive
    simp at positive
  simp only [listFor_eq, Entry.expire, Entry.deadline, Wheel.uTime, Wheel.current, BitVec.toNat_ofNat, since]
  split
  · intro same
    have slots := ListRef.near.inj same
    omega
  · split <;> simp

theorem Refines.head_none (refines : Refines s w S D) {list : ListRef} (empty : w.slots list = []) :
    (s.timer.lists list).head = none := by
  have related := refines.slots list
  have chain := refines.linked.chain list
  rw [empty] at related
  rw [List.forall₂_nil_right_iff.mp related] at chain
  exact chain

/-- The node being dispatched holds the callback that was called last. -/
theorem Refines.last_done (refines : Refines s w S D) {node : Addr} (here : s.pc.current = [node]) {before : List Entry}
    {e : Entry} (done : w.done = before ++ [e]) : callBackOf s.timer node = some e.callBack := by
  have freed := refines.freed
  rw [refines.dispatched, done, here] at freed
  have last := congrArg List.getLast? freed
  simpa using last.symm

/-! ### Callbacks -/

/-- The callback's timers leave the current slot empty. -/
theorem addTimers_total (env : Rearming) (refines : Refines s w S D) (empty : w.slots w.current = [])
    {times : List (BitVec 32)} (positive : ∀ time ∈ times, 1 ≤ time.toInt) :
    ∃ s' w' S', env.addTimers times s = some s' ∧ s'.pc = s.pc ∧ s'.trace = s.trace ∧ Refines s' w' S' D ∧
      w'.slots w'.current = [] ∧ w'.now = w.now ∧ w'.running = w.running ∧ w'.done = w.done := by
  induction times generalizing s w S with
  | nil => exact ⟨s, w, S, rfl, rfl, rfl, refines, empty, rfl, rfl, rfl⟩
  | cons time rest ih =>
    let call : Adding := ⟨env.malloc s, env.object s, time⟩
    have allocated := allocate_refines refines (env.junk s) (env.fresh s time)
    obtain ⟨s1, S1, added, pc1, trace1, refines1⟩ := 
      addTimer_refines allocated (List.mem_append_right s.adding (List.mem_singleton_self call))
    have other := filed_elsewhere (w := w) (e := call.entry w.now) rfl (positive time List.mem_cons_self)
    have empty1 : w.slots.file Entry.expire w.uTime (call.entry w.now) w.current = [] := by
      rw [Slots.file, Slots.push, Function.update_of_ne (Ne.symm other), empty]
    obtain ⟨s', w', S', done, pc', trace', refines', empty', now', running', done'⟩ :=
      ih refines1 empty1 fun time' member => positive time' (List.mem_cons_of_mem _ member)
    refine ⟨s', w', S', ?_, pc'.trans pc1, trace'.trans trace1, refines', empty', now', running', done'⟩
    rw [Rearming.addTimers, added]
    exact done

/-- One node is dispatched, whatever its callback adds. -/
theorem dispatchNode_total (env : Rearming) {index : Nat} {node : Addr} {rest : List Addr}
    (refines : Refines s w S (node :: rest)) (empty : w.slots w.current = []) (pc : s.pc = .onTimeOut .afterShift index node) :
    ∃ e es s' w' S', w.running = e :: es ∧ (∀ fuel, env.run (fuel + 3) s = env.run fuel s') ∧
      s'.pc = .behind .afterShift index rest ∧ s'.trace = s.trace ++ dispatchEvents (node, e.callBack) ∧
      Refines s' w' S' rest ∧ w'.slots w'.current = [] ∧ w'.now = w.now ∧ w'.running = es := by
  obtain ⟨cell, e, es, _, found, callBack, ⟨⟩, running, refines1⟩ := onTimeOut_refines refines pc
  obtain ⟨s2, w2, S2, added, pc2, trace2, refines2, empty2, now2, running2, done2⟩ :=
    addTimers_total env refines1 empty (env.positive s cell.callBack)
  obtain ⟨cell2, found2, refines3⟩ := deleteCallBack_refines refines2 pc2
  obtain ⟨cell3, s4, found3, freed, pc4, trace4, refines4⟩ := freeNode_refines refines3 rfl
  have same2 : cell2.callBack = e.callBack := by
    have last := refines2.last_done (by rw [pc2]; rfl) done2
    simpa [callBackOf, found2] using last
  have same3 : cell3.callBack = e.callBack := by
    have last := refines3.last_done rfl done2
    simpa [callBackOf, found3] using last
  refine ⟨e, es, s4, w2, S2, running, ?_, pc4, ?_, refines4, empty2, now2, running2⟩
  · intro fuel
    have first : env.step s = some s2 := by
      simp only [Rearming.step, pc, found, Option.bind_eq_bind, Option.bind_some, timerStep]
      exact added
    have second : env.step s2 = some { s2 with
        pc := .freeNode .afterShift index node
        trace := s2.trace ++ [.delete cell2.callBack] } := by
      simp [Rearming.step, pc2, timerStep, found2]
    rw [Rearming.run, pc, if_neg (by simp), first, Option.bind_eq_bind, Option.bind_some]
    rw [Rearming.run, pc2, if_neg (by simp), second, Option.bind_eq_bind, Option.bind_some]
    rw [Rearming.run, if_neg (by simp), Rearming.step, freed, Option.bind_eq_bind, Option.bind_some]
  · rw [trace4, trace2, same2, same3, callBack]
    simp [dispatchEvents]

/-- `DispatchList` and the loop tests around it end after the nodes detached. -/
theorem dispatchList_total (env : Rearming) {index : Nat} (refines : Refines s w S D) (empty : w.slots w.current = [])
    (pc : s.pc = .behind .afterShift index D) :
    ∃ s', (∀ fuel, 3 * D.length + 1 ≤ fuel → env.run fuel s = some s') ∧ s'.pc = .idle ∧
      s'.timer.uTime = s.timer.uTime ∧ (s'.timer.lists w.current).head = none ∧
      s'.trace = s.trace ++ (D.zip (w.running.map Entry.callBack)).flatMap dispatchEvents := by
  induction D generalizing s w S with
  | nil =>
    have atSlot : index = currentIndex s.timer := by simpa [pc, Pc.behind, Pc.AtSlot] using refines.atSlot
    have head := refines.head_none empty
    have inside := current_indexed w
    rw [← currentIndex_eq refines.uTime, ← atSlot] at head inside
    refine ⟨{ s with pc := .idle }, ?_, rfl, rfl, refines.head_none empty, by simp⟩
    rintro (_ | fuel) enough
    · omega
    · have ended : env.step s = some { s with pc := .idle } := by
        simp [Rearming.step, pc, Pc.behind, timerStep, execute, executeLoop, inside, head]
      rw [Rearming.run, pc, if_neg (by simp [Pc.behind]), ended, Option.bind_eq_bind, Option.bind_some]
      cases fuel <;> rfl
  | cons node rest ih =>
    obtain ⟨e, es, s1, w1, S1, running, ran, pc1, trace1, refines1, empty1, now1, running1⟩ :=
      dispatchNode_total env refines empty pc
    obtain ⟨s', ends, idle, uTime, head, trace⟩ := ih refines1 empty1 pc1
    have clock : s1.timer.uTime = s.timer.uTime := by
      rw [refines1.uTime, refines.uTime, Wheel.uTime, Wheel.uTime, now1]
    refine ⟨s', ?_, idle, uTime.trans clock, by rw [Wheel.current, ← now1]; exact head, ?_⟩
    · intro fuel enough
      obtain ⟨more, rfl⟩ : ∃ more, fuel = more + 3 := ⟨fuel - 3, by simp at enough; omega⟩
      rw [ran]
      exact ends more (by simp at enough; omega)
    · rw [trace, trace1, running, running1]
      simp

/-! ### The call -/

theorem CallsExecute.refines {uTime : BitVec 32} (calls : CallsExecute uTime s) :
    s.pc = .idle ∧ ∃ w S, Refines s w S [] := by
  cases calls with
  | beforeShift reached idle =>
    obtain ⟨w, S, D, _, refines⟩ := reached.refines
    obtain ⟨_, rfl, _⟩ := executeLoop_total refines idle .beforeShift none
    exact ⟨idle, w, S, refines⟩
  | afterShift before reached outside head shifted =>
    obtain ⟨w, S, D, _, refines⟩ := reached.refines
    have resting : Refines { before with pc := .idle } w S D := by
      rcases outside with idle | ⟨index, pc⟩
      · rw [← idle]
        exact refines
      · exact refines.resting pc
    obtain ⟨_, rfl, _⟩ := executeLoop_total resting rfl .beforeShift none
    rw [currentIndex_eq refines.uTime] at head
    obtain ⟨s', shifted', idle', refines'⟩ := shiftStep_total resting rfl head
    cases Option.some.inj (shifted'.symm.trans shifted)
    exact ⟨idle', _, _, refines'⟩

end

/-- `TimerExecute` ends, whatever timers of at least one tick its callbacks add. -/
theorem timerExecute_total (uTime : BitVec 32) (env : Rearming) (s : System) (calls : CallsExecute uTime s) :
    ∃ fuel s', (∀ more, fuel ≤ more → env.timerExecute more s = some s') ∧ Executed s s' := by
  obtain ⟨idle, w, S, refines⟩ := calls.refines
  have slot := currentIndex_eq refines.uTime
  have chain := refines.linked.chain w.current
  have nodup := list_nodup refines.linked.support refines.linked.once w.current
  have callBacks := callBacks_related (refines.slots w.current)
  obtain ⟨_, _, ⟨empty, head, ended⟩ | ⟨s1, node, detached, pc, refines1⟩⟩ :=
    executeLoop_total refines idle .afterShift (some { s with pc := .idle })
  · have nothing : S w.current = [] := by
      rw [head] at chain
      exact chain_none chain
    refine ⟨0, { s with pc := .idle }, ?_, ⟨rfl, rfl, by rw [slot]; exact head, [], [], ?_, List.nodup_nil, rfl, by simp⟩⟩
    · intro more _
      rw [Rearming.timerExecute, execute, ended, Option.bind_eq_bind, Option.bind_some]
      cases more <;> rfl
    · rw [slot, head]
      rfl
  · have behind : s1.pc = .behind .afterShift (currentIndex s.timer) (S w.current) := by
      have start := refines1.detached
      rw [pc] at start
      obtain ⟨_, rest, split, _⟩ := chain_some start
      rw [pc, split]
      rfl
    obtain ⟨s', ends, idle', uTime', head', trace'⟩ := dispatchList_total env refines1 (by simp [Wheel.current, Slots.clear]) behind
    have clock : s'.timer.uTime = s.timer.uTime := by rw [uTime', refines1.uTime, refines.uTime]; rfl
    have untouched : s1.trace = s.trace := by
      rcases executeLoop_cases detached with ended | ⟨timer, _, rfl⟩
      · cases ended
        cases pc
      · rfl
    refine ⟨3 * (S w.current).length + 1, s', ?_, idle', clock, ?_, S w.current, (w.slots w.current).map Entry.callBack,
      by rw [slot]; exact chain, nodup, by rw [callBacks, List.map_map]; rfl, by rw [trace', untouched]⟩
    · intro more enough
      rw [Rearming.timerExecute, execute, detached, Option.bind_eq_bind, Option.bind_some]
      exact ends more enough
    · rw [currentIndex, clock, ← currentIndex, slot]
      exact head'

/-- One more than every number of a list. -/
def successor (xs : List Nat) : Nat := xs.max?.getD 0 + 1

theorem successor_new (xs : List Nat) : successor xs ∉ xs := by
  intro member
  have := List.le_max?_getD_of_mem (k := 0) member
  simp only [successor] at this
  omega

/-- Every callback adds a timer for the same slot of the next turn. -/
def everyTurn : Rearming where
  delays _ _ := [256]
  object s := successor (s.added.map Entry.callBack ++ s.adding.map Adding.callBack)
  malloc s := successor s.timer.nodes.keys
  junk _ := 0
  fresh s time := by
    have new := successor_new (s.added.map Entry.callBack ++ s.adding.map Adding.callBack)
    rw [List.mem_append, not_or] at new
    exact ⟨AList.lookup_eq_none.mpr (successor_new _), new.1, new.2⟩
  positive _ _ time member := by
    cases List.mem_singleton.mp member
    decide

theorem every_turn_ends : ∃ s, shiftStep ((oneTimer 0 1 0).get (by decide)) = some s ∧
    (everyTurn.timerExecute 4 s).map System.dispatched = some [0] ∧
    ∃ fuel s', (∀ more, fuel ≤ more → everyTurn.timerExecute more s = some s') ∧ Executed s s' := by
  let before := (oneTimer 0 1 0).get (by decide)
  have reached : Reachable NonNegative 0 before :=
    oneTimer_reachable (show NonNegative 0 1 by unfold NonNegative; decide) (Option.some_get _).symm
  have calls : CallsExecute 0 ((shiftStep before).get (by decide)) :=
    .afterShift before reached (.inl (by decide)) (by decide) (Option.some_get _).symm
  exact ⟨_, (Option.some_get _).symm, by decide, timerExecute_total 0 everyTurn _ calls⟩

end LiteServer.Timer
