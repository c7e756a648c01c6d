import LiteServer.Timer.Wheel

/-!
`WheelTimer` under threads. One thread runs `Update` over and over; any thread,
and any callback, may be inside `AddTimer`. What runs between taking and
releasing `m_Lock` is one step, and so is every statement of `DispatchList`,
which runs without the lock.
-/
namespace LiteServer.Timer

/-- The two calls of `TimerExecute` in `Update`. -/
inductive Phase where
  | beforeShift
  | afterShift
  deriving DecidableEq, Repr

/-- Where the timer thread is whenever it does not hold the lock: outside
    `Update`, at a statement of `DispatchList` for the node `list`, or about to
    take the lock again. `index` is the local of `TimerExecute`. -/
inductive Pc where
  | idle
  | onTimeOut (phase : Phase) (index : Nat) (list : Addr)
  | deleteCallBack (phase : Phase) (index : Nat) (list : Addr)
  | freeNode (phase : Phase) (index : Nat) (list : Addr)
  | relock (phase : Phase) (index : Nat)
  deriving DecidableEq, Repr

/-- What `DispatchList` has done, and the head of the current slot whenever
    `TimerShift` was entered. -/
inductive Event where
  | onTimeOut (callBack : CallBack)
  | delete (callBack : CallBack)
  | free (node : Addr) (callBack : CallBack)
  | shift (slot : Option Addr)
  deriving DecidableEq, Repr

/-- A call of `AddTimer` between its allocation and its critical section. -/
structure Adding where
  node : Addr
  callBack : CallBack
  time : BitVec 32
  deriving DecidableEq, Repr

/-- `added`, `now` and `trace` only record the run: the completed calls of
    `AddTimer`, the clock counted without wrapping, and the events so far. -/
structure System where
  timer : WheelTimer
  pc : Pc
  adding : List Adding
  added : List Entry
  now : Nat
  trace : List Event

def System.start (uTime : BitVec 32) : System := ⟨.new uTime, .idle, [], [], uTime.toNat, []⟩

/-- `m_uTime & TIME_NEAR_MASK`. -/
def currentIndex (t : WheelTimer) : Nat := (t.uTime &&& timeNearMask).toNat

/-! ### The timer thread -/

/-- The test of the loop in `TimerExecute`: a list in the slot is detached and
    the lock released, an empty slot ends the loop. -/
def executeLoop (s : System) (phase : Phase) (index : Nat) (exit : Option System) : Option System :=
  if (ListRef.near index).Indexed then
    match (s.timer.lists (.near index)).head with
    | none => exit
    | some _ => do
      let (list, timer) ← clearLink s.timer (.near index)
      let node ← list
      return { s with timer := timer, pc := .onTimeOut phase index node }
  else none

/-- The loop ends, or `DispatchList` is entered with the detached list. -/
theorem executeLoop_cases {s s' : System} {phase : Phase} {index : Nat} {exit : Option System}
    (taken : executeLoop s phase index exit = some s') :
    exit = some s' ∨ ∃ timer node, s' = { s with timer := timer, pc := .onTimeOut phase index node } := by
  unfold executeLoop at taken
  split at taken
  · split at taken
    · exact .inl taken
    · simp only [Option.bind_eq_bind, Option.bind_eq_some_iff] at taken
      obtain ⟨cleared, _, node, _, done⟩ := taken
      exact .inr ⟨cleared.2, node, (Option.some.inj done).symm⟩
  · cases taken

def shiftStep (s : System) : Option System := do
  let timer ← timerShift s.timer
  return { s with
    timer := timer
    now := s.now + 1
    trace := s.trace ++ [.shift (s.timer.lists (.near (currentIndex s.timer))).head] }

/-- `Update` from the loop test on, up to where the lock is next released. -/
def execute (s : System) (phase : Phase) (index : Nat) : Option System :=
  match phase with
  | .afterShift => executeLoop s .afterShift index (some { s with pc := .idle })
  | .beforeShift => executeLoop s .beforeShift index do
    let s ← shiftStep s
    executeLoop s .afterShift (currentIndex s.timer) (some { s with pc := .idle })

def timerStep (s : System) : Option System :=
  match s.pc with
  | .idle => execute s .beforeShift (currentIndex s.timer)
  | .onTimeOut phase index list => do
    let node ← s.timer.nodes.lookup list
    return { s with pc := .deleteCallBack phase index list, trace := s.trace ++ [.onTimeOut node.callBack] }
  | .deleteCallBack phase index list => do
    let node ← s.timer.nodes.lookup list
    return { s with pc := .freeNode phase index list, trace := s.trace ++ [.delete node.callBack] }
  | .freeNode phase index list => do
    let node ← s.timer.nodes.lookup list
    let s := { s with
      timer := { s.timer with nodes := s.timer.nodes.erase list }
      trace := s.trace ++ [Event.free list node.callBack] }
    match node.next with
    | some next => return { s with pc := .onTimeOut phase index next }
    | none => return { s with pc := .relock phase index }
  | .relock phase index => execute s phase index

/-! ### AddTimer -/

/-- `malloc` and the stores before the lock; `expire` holds whatever the memory
    held. -/
def allocate (s : System) (call : Adding) (junk : BitVec 32) : System :=
  { s with
    timer := { s.timer with nodes := s.timer.nodes.insert call.node ⟨junk, none, call.callBack⟩ }
    adding := s.adding ++ [call] }

/-- The critical section of `AddTimer`. -/
def addTimer (s : System) (call : Adding) : Option System := do
  let node ← s.timer.nodes.lookup call.node
  let expire := call.time + s.timer.uTime
  let timer := { s.timer with nodes := s.timer.nodes.insert call.node { node with expire := expire } }
  let timer ← addNode timer call.node
  return { s with
    timer := timer
    adding := s.adding.erase call
    added := s.added ++ [⟨call.callBack, call.time, s.now⟩] }

/-- A call of `AddTimer` may begin with a node that `malloc` can return and a
    callback object that was never added. -/
def Fresh (s : System) (call : Adding) : Prop :=
  s.timer.nodes.lookup call.node = none ∧ call.callBack ∉ s.added.map Entry.callBack ∧
    call.callBack ∉ s.adding.map Adding.callBack

/-- One step of the timer thread or of a thread or callback inside `AddTimer`;
    `allowed` restricts the clock values and delays of `AddTimer` calls. -/
inductive Step (allowed : BitVec 32 → BitVec 32 → Prop) : System → System → Prop where
  | timer {s s' : System} : timerStep s = some s' → Step allowed s s'
  | allocate {s : System} (call : Adding) (junk : BitVec 32) : Fresh s call → Step allowed s (allocate s call junk)
  | addTimer {s s' : System} (call : Adding) : call ∈ s.adding → allowed s.timer.uTime call.time →
      addTimer s call = some s' → Step allowed s s'

theorem Step.mono {allowed allowed' : BitVec 32 → BitVec 32 → Prop} (weaker : ∀ uTime time, allowed uTime time →
    allowed' uTime time) {s s' : System} (taken : Step allowed s s') : Step allowed' s s' := by
  cases taken with
  | timer done => exact .timer done
  | allocate call junk fresh => exact .allocate call junk fresh
  | addTimer call called fits done => exact .addTimer call called (weaker _ _ fits) done

/-- The states of a timer whose clock was `uTime` when it was constructed. -/
def Reachable (allowed : BitVec 32 → BitVec 32 → Prop) (uTime : BitVec 32) : System → Prop :=
  Transition.Reachable (fun s => s = System.start uTime) (Step allowed)

/-! ### Runs of one timer -/

def timerSteps : Nat → System → Option System
  | 0, s => some s
  | n + 1, s => timerStep s >>= timerSteps n

/-- A single `AddTimer`, and `n` steps of the timer thread after it. -/
def oneTimer (uTime time : BitVec 32) (n : Nat) : Option System :=
  addTimer (allocate (.start uTime) ⟨0, 0, time⟩ 0) ⟨0, 0, time⟩ >>= timerSteps n

section
variable {allowed : BitVec 32 → BitVec 32 → Prop} {uTime time : BitVec 32} {s s' : System} {n : Nat}

theorem timerSteps_reachable (reached : Reachable allowed uTime s) (run : timerSteps n s = some s') :
    Reachable allowed uTime s' := by
  induction n generalizing s with
  | zero =>
    cases Option.some.inj run
    exact reached
  | succ n ih =>
    obtain ⟨after, taken, rest⟩ := Option.bind_eq_some_iff.mp run
    exact ih (reached.next (.timer taken)) rest

theorem oneTimer_reachable (fits : allowed uTime time) (run : oneTimer uTime time n = some s) :
    Reachable allowed uTime s := by
  obtain ⟨added, taken, rest⟩ := Option.bind_eq_some_iff.mp run
  have allocated : Reachable allowed uTime (allocate (.start uTime) ⟨0, 0, time⟩ 0) :=
    Transition.Reachable.next (.start rfl) (.allocate _ 0 ⟨rfl, by simp [System.start], by simp [System.start]⟩)
  exact timerSteps_reachable (allocated.next (.addTimer ⟨0, 0, time⟩ (by simp [allocate, System.start]) fits taken)) rest

end

end LiteServer.Timer
