import LiteServer.Net.Outcomes

/-!
Calls of `PostAccept` and `PostReadFrom`, from their first system call until
they return. While a callback runs the user may take any number of steps.
-/
namespace LiteServer.Net

/-- A call is in its loop. -/
def Pc.drains : Pc → Bool
  | .accepting _ => true
  | .receiving _ _ => true
  | .acceptCallBack _ => true
  | .openCallBack _ _ _ _ => true
  | .dataCallBack _ _ => true
  | _ => false

/-- The callbacks that return before the next system call. -/
def Pc.callbacks : Pc → Nat
  | .acceptCallBack _ => 1
  | .openCallBack _ _ _ _ => 2
  | .dataCallBack _ _ => 1
  | _ => 0

theorem Pc.callbacks_le (pc : Pc) : pc.callbacks ≤ 2 := by
  cases pc <;> simp [callbacks]

namespace Action

def byUser : Action → Bool
  | .newConnector _ _ => true
  | .addTCPListener _ _ => true
  | .addUDPListener _ _ => true
  | .addTCPConnector _ _ _ => true
  | .kickSession _ => true
  | _ => false

/-- What the system call of a step returned with, `none` for -1. -/
def answer : Action → Option (Option (Accepted ⊕ Datagram))
  | .accept answer => some (answer.map .inl)
  | .recvfrom answer => some (answer.map .inr)
  | _ => none

theorem answer_byUser {action : Action} (byUser : action.byUser = true) : action.answer = none := by
  cases action <;> first | rfl | cases byUser

end Action

namespace NetService
variable {s s' : NetService} {action : Action} {steps : List (NetService × Action)}

/-- The steps of a call; when it returns the loop is idle. -/
def Calls : NetService → List (NetService × Action) → NetService → Prop :=
  Transition.Run fun s action s' => s.pc ≠ .idle ∧ s.step action = some s'

theorem Calls.start : s.Calls [] s := Transition.Run.nil

theorem Calls.act {start : NetService} (running : start.Calls steps s) (action : Action) (inside : s.pc ≠ .idle)
    (taken : s.step action = some s') : start.Calls (steps ++ [(s, action)]) s' :=
  running.snoc ⟨inside, taken⟩

theorem exists_earlier {P : NetService × Action → Prop} (more : List (NetService × Action))
    (found : ∃ step ∈ steps, P step) : ∃ step ∈ steps ++ more, P step := by
  obtain ⟨step, before, holds⟩ := found
  exact ⟨step, List.mem_append_left more before, holds⟩

/-- What a step in a call is: one of the user in a callback, a system call, or
    the return of a callback. -/
inductive CallTook (s : NetService) : Action → NetService → Prop where
  | user {action : Action} {s' : NetService} (user : s.pc.atUser = true) (byUser : action.byUser = true)
      (taken : s.step action = some s') : s.CallTook action s'
  | accept {listener answer s'} (pc : s.pc = .accepting listener) (result : s.acceptRound listener answer = some s') :
      s.CallTook (.accept answer) s'
  | recvfrom {listener data answer s'} (pc : s.pc = .receiving listener data)
      (result : s.receiveRound listener data answer = some s') : s.CallTook (.recvfrom answer) s'
  | accepted {changed listener} (pc : s.pc = .acceptCallBack listener) :
      s.CallTook (.resume changed) { s with pc := .accepting listener }
  | opened {changed listener data id nread} (pc : s.pc = .openCallBack listener data id nread) :
      s.CallTook (.resume changed) { s.emit (.onData id listener data nread) with pc := .dataCallBack listener data }
  | delivered {changed listener data} (pc : s.pc = .dataCallBack listener data) :
      s.CallTook (.resume changed) { s with pc := .receiving listener data }

theorem call_took (drains : s.pc.drains = true) (taken : s.step action = some s') : s.CallTook action s' := by
  have elsewhere : ∀ {pc : Pc}, s.pc = pc → pc.drains = false → s.CallTook action s' := by
    intro pc same outside
    rw [same, outside] at drains
    cases drains
  cases step_took taken with
  | newConnector user free => exact .user user rfl taken
  | addTCPListener user => exact .user user rfl taken
  | addUDPListener user => exact .user user rfl taken
  | addTCPConnector user result => exact .user user rfl taken
  | kickSession user issued result => exact .user user rfl taken
  | accept pc result => exact .accept pc result
  | recvfrom pc result => exact .recvfrom pc result
  | accepted pc => exact .accepted pc
  | opened pc => exact .opened pc
  | delivered pc => exact .delivered pc
  | connected pc result => exact elsewhere pc rfl
  | dropped pc result => exact elsewhere pc rfl
  | returned pc => exact elsewhere pc rfl
  | postAccept idle => exact elsewhere idle rfl
  | postConnect idle result => exact elsewhere idle rfl
  | postRead idle result => exact elsewhere idle rfl
  | postReadFrom idle => exact elsewhere idle rfl
  | epollWait idle polled => exact elsewhere idle rfl
  | ignored idle events => exact elsewhere idle rfl
  | accepting idle events context => exact elsewhere idle rfl
  | connecting idle events context out result => exact elsewhere idle rfl
  | reading idle events context result => exact elsewhere idle rfl
  | receiving idle events context => exact elsewhere idle rfl

/-- The user's steps do not move the loop. -/
theorem byUser_pc (byUser : action.byUser = true) (taken : s.step action = some s') : s'.pc = s.pc := by
  cases step_took taken with
  | newConnector user free => rfl
  | addTCPListener user => rcases s.epollAdd_cases _ _ _ with same | same <;> rw [same]
  | addUDPListener user => rcases s.epollAdd_cases _ _ _ with same | same <;> rw [same]
  | addTCPConnector user result => exact addTCPConnector_pc result
  | kickSession user issued result => exact kickSession_pc result
  | _ => cases byUser

/-! ### Draining -/

/-- What the system calls of a call returned with, in order. -/
def answers (steps : List (NetService × Action)) : List (Option (Accepted ⊕ Datagram)) :=
  steps.filterMap fun step => step.2.answer

theorem answers_snoc : answers (steps ++ [(s, action)]) = answers steps ++ action.answer.toList := by
  rw [answers, List.filterMap_append]
  cases answered : action.answer <;> simp [answers, answered]

/-- The loop goes on after an answer: a connection gets an ID and is registered,
    and a datagram is not empty, and its peer gets an ID if it has none. -/
def Takes (s : NetService) : Action → Prop
  | .accept (some a) => s.newSessionID.1 ≠ 0 ∧ a.added = true ∧ s.epoll a.socket = none
  | .recvfrom (some d) => d.bytes ≠ [] ∧ (s.getUDPSessionID d.address = 0 → s.newSessionID.1 ≠ 0)
  | _ => True

theorem acceptRound_next {listener : Socket} {a : Accepted} (result : s.acceptRound listener (some a) = some s') :
    (s.Takes (.accept (some a)) ∧ s'.pc = .acceptCallBack listener) ∨ (¬ s.Takes (.accept (some a)) ∧ s'.pc = .idle) := by
  by_cases unnumbered : s.newSessionID.1 = 0
  · have none : (s.emit (.opened a.socket)).newSessionID.1 = 0 := by
      rcases newSessionID_cases s with ⟨queue, made⟩ | ⟨id, rest, queue, made⟩
      · simp [newSessionID, emit, queue]
      · simpa [newSessionID, emit, queue] using unnumbered
    simp only [acceptRound, none, if_true] at result
    cases Option.some.inj result
    exact .inr ⟨fun takes => takes.1 unnumbered, rfl⟩
  · obtain ⟨id, rest, queue, made⟩ := (newSessionID_cases s).resolve_left fun none => unnumbered (by rw [none.2])
    have nonzero : id ≠ 0 := by simpa [made] using unnumbered
    by_cases room : a.added = true ∧ s.epoll a.socket = none
    · rw [acceptRound_opened nonzero queue room] at result
      cases Option.some.inj result
      exact .inl ⟨⟨unnumbered, room⟩, rfl⟩
    · simp [acceptRound, newSessionID, emit, queue, nonzero, epollAdd, room] at result
      exact .inr ⟨fun takes => room takes.2, by rw [← result]⟩

theorem receiveRound_next {listener : Socket} {data : List Byte} {d : Datagram}
    (result : s.receiveRound listener data (some d) = some s') :
    (s.Takes (.recvfrom (some d)) ∧ s'.pc.drains = true) ∨ (¬ s.Takes (.recvfrom (some d)) ∧ s'.pc = .idle) := by
  by_cases empty : d.bytes = []
  · simp [receiveRound, empty] at result
    exact .inr ⟨fun takes => takes.1 empty, by rw [← result]⟩
  · by_cases known : s.getUDPSessionID d.address = 0
    · by_cases unnumbered : s.newSessionID.1 = 0
      · simp [receiveRound, empty, known, unnumbered] at result
        exact .inr ⟨fun takes => takes.2 known unnumbered, by rw [← result]⟩
      · simp [receiveRound, empty, known, unnumbered, addSession, setObject] at result
        exact .inl ⟨⟨empty, fun _ => unnumbered⟩, by rw [← result]; rfl⟩
    · simp [receiveRound, empty, known] at result
      exact .inl ⟨⟨empty, fun unknown => absurd unknown known⟩, by rw [← result]; rfl⟩

theorem acceptRound_total (listener : Socket) (answer : Option Accepted) : (s.acceptRound listener answer).isSome := by
  cases answer with
  | none => rfl
  | some a =>
    simp only [acceptRound]
    split
    · rfl
    · split
      · rfl
      · simp [addSession, setObject]

theorem receiveRound_total (listener : Socket) (data : List Byte) (answer : Option Datagram) :
    (s.receiveRound listener data answer).isSome := by
  cases answer with
  | none => rfl
  | some d =>
    simp only [receiveRound]
    split
    · rfl
    · split
      · split
        · rfl
        · simp [addSession, setObject]
      · rfl

/-- A call never uses a deleted object. -/
theorem call_goes_on (drains : s.pc.drains = true) : (∀ answer, (s.step (.accept answer)).isSome) ∨
    (∀ answer, (s.step (.recvfrom answer)).isSome) ∨ ∀ changed, (s.step (.resume changed)).isSome := by
  cases pc : s.pc with
  | accepting listener =>
    refine .inl fun answer => ?_
    simpa [step, pc] using acceptRound_total listener answer
  | receiving listener data =>
    refine .inr (.inl fun answer => ?_)
    simpa [step, pc] using receiveRound_total listener data answer
  | acceptCallBack listener => exact .inr (.inr fun changed => by simp [step, resume, pc])
  | openCallBack listener data id nread => exact .inr (.inr fun changed => by simp [step, resume, pc])
  | dataCallBack listener data => exact .inr (.inr fun changed => by simp [step, resume, pc])
  | _ => simp [pc, Pc.drains] at drains

/-- A step of a call that goes on, and one that it returns with: then the system
    had no more, or the loop gave up. -/
theorem call_next (drains : s.pc.drains = true) (taken : s.step action = some s') :
    (s.Takes action ∧ action.answer ≠ some none ∧ s'.pc.drains = true) ∨
    (s'.pc = .idle ∧ (action.answer = some none ↔ s.Takes action)) := by
  cases call_took drains taken with
  | user user byUser taken =>
    refine .inl ⟨?_, by simp [Action.answer_byUser byUser], (byUser_pc byUser taken) ▸ drains⟩
    cases action <;> trivial
  | @accept listener answer _ pc result =>
    cases answer with
    | none =>
      cases Option.some.inj result
      exact .inr ⟨rfl, iff_of_true rfl trivial⟩
    | some a =>
      rcases acceptRound_next result with ⟨takes, next⟩ | ⟨refuses, idle⟩
      · exact .inl ⟨takes, by simp [Action.answer], by rw [next]; rfl⟩
      · exact .inr ⟨idle, iff_of_false (by simp [Action.answer]) refuses⟩
  | @recvfrom listener data answer _ pc result =>
    cases answer with
    | none =>
      cases Option.some.inj result
      exact .inr ⟨rfl, iff_of_true rfl trivial⟩
    | some d =>
      rcases receiveRound_next result with ⟨takes, next⟩ | ⟨refuses, idle⟩
      · exact .inl ⟨takes, by simp [Action.answer], next⟩
      · exact .inr ⟨idle, iff_of_false (by simp [Action.answer]) refuses⟩
  | accepted pc => exact .inl ⟨trivial, by simp [Action.answer], rfl⟩
  | opened pc => exact .inl ⟨trivial, by simp [Action.answer], rfl⟩
  | delivered pc => exact .inl ⟨trivial, by simp [Action.answer], rfl⟩

/-- While a call runs each answer let it go on, and when it has returned all of
    them did if and only if the last was -1. -/
theorem calls_next (drains : s.pc.drains = true) (running : s.Calls steps s') :
    (s'.pc.drains = true ∧ none ∉ answers steps ∧ ∀ step ∈ steps, step.1.Takes step.2) ∨
    (s'.pc = .idle ∧ (none ∈ answers steps ↔ ∀ step ∈ steps, step.1.Takes step.2)) := by
  induction running with
  | nil => exact .inl ⟨drains, by simp [answers], by simp⟩
  | @snoc steps t t' action running taken ih =>
    obtain ⟨inside, taken⟩ := taken
    rcases ih with ⟨drains, more, takes⟩ | ⟨idle, _⟩
    · rcases call_next drains taken with ⟨next, some, drains'⟩ | ⟨idle, last⟩
      · refine .inl ⟨drains', by simpa [answers_snoc, more] using some, ?_⟩
        exact List.forall_mem_append.mpr ⟨takes, List.forall_mem_singleton.mpr next⟩
      · refine .inr ⟨idle, ?_⟩
        calc none ∈ answers (steps ++ [(t, action)]) ↔ action.answer = some none := by simp [answers_snoc, more]
          _ ↔ t.Takes action := last
          _ ↔ ∀ step ∈ steps ++ [(t, action)], step.1.Takes step.2 := by
            rw [List.forall_mem_append, List.forall_mem_singleton, and_iff_right takes]
    · exact absurd idle inside

/-! ### Steps of a call -/

/-- The steps of a call that are its own: system calls and returns of callbacks. -/
def ownSteps (steps : List (NetService × Action)) : Nat := steps.countP fun step => !step.2.byUser

theorem calls_inside (drains : s.pc.drains = true) (running : s.Calls steps s') (inside : s'.pc ≠ .idle) :
    s'.pc.drains = true ∧ none ∉ answers steps := by
  rcases calls_next drains running with ⟨within, more, _⟩ | ⟨idle, _⟩
  · exact ⟨within, more⟩
  · exact absurd idle inside

theorem ownSteps_snoc :
    ownSteps (steps ++ [(s, action)]) = ownSteps steps + if action.byUser then 0 else 1 := by
  rw [ownSteps, ownSteps, List.countP_append, List.countP_singleton]
  cases action.byUser <;> rfl

theorem call_own (drains : s.pc.drains = true) (taken : s.step action = some s') :
    (if action.byUser then 0 else 1) + s'.pc.callbacks ≤ 3 * action.answer.toList.length + s.pc.callbacks := by
  have few := s'.pc.callbacks_le
  cases call_took drains taken with
  | user user byUser taken =>
    rw [if_pos byUser, byUser_pc byUser taken]
    omega
  | accept pc result =>
    simp only [Action.byUser, Action.answer, Option.toList_some, List.length_singleton, Bool.false_eq_true, if_false]
    omega
  | recvfrom pc result =>
    simp only [Action.byUser, Action.answer, Option.toList_some, List.length_singleton, Bool.false_eq_true, if_false]
    omega
  | accepted pc => simp [Action.byUser, pc, Pc.callbacks]
  | opened pc => simp [Action.byUser, pc, Pc.callbacks]
  | delivered pc => simp [Action.byUser, pc, Pc.callbacks]

/-- Between two system calls a call takes at most two steps. -/
theorem calls_own (drains : s.pc.drains = true) (running : s.Calls steps s') :
    ownSteps steps + s'.pc.callbacks ≤ 3 * (answers steps).length + s.pc.callbacks := by
  induction running with
  | nil => simp [ownSteps]
  | @snoc steps t t' action running taken ih =>
    obtain ⟨inside, taken⟩ := taken
    obtain ⟨within, _⟩ := calls_inside drains running inside
    have here := call_own within taken
    rw [ownSteps_snoc, answers_snoc, List.length_append]
    omega

/-! ### Draining calls -/

/-- A call returns after a -1 if and only if each answer before lets it go on;
    it has then taken all that was pending, if the system has it in order. -/
theorem call_drains_iff (s s' : NetService) (listener : Socket) (steps : List (NetService × Action))
    (started : s.pc = .accepting listener ∨ s.pc = .receiving listener emptyBuffer) (running : s.Calls steps s')
    (returned : s'.pc = .idle) :
    (none ∈ answers steps ↔ ∀ step ∈ steps, step.1.Takes step.2) ∧
    ∀ pending later : List (Accepted ⊕ Datagram), answers steps <+: (pending ++ later).map some ++ [none] →
      (∀ step ∈ steps, step.1.Takes step.2) → ∀ p ∈ pending, some p ∈ answers steps := by
  have drains : s.pc.drains = true := by rcases started with pc | pc <;> rw [pc] <;> rfl
  have drained : none ∈ answers steps ↔ ∀ step ∈ steps, step.1.Takes step.2 := by
    rcases calls_next drains running with ⟨inside, _⟩ | ⟨_, drained⟩
    · rw [returned] at inside
      cases inside
    · exact drained
  refine ⟨drained, fun pending later served takes p waits => ?_⟩
  rcases List.prefix_concat_iff.mp served with whole | early
  · rw [whole]
    simp [waits]
  · have none := early.subset (drained.mpr takes)
    simp at none

/-- A connection on descriptor 7 is taken, and no other is pending. -/
theorem one_connection_drained : ∃ (s : NetService) (steps : List (NetService × Action)) (s' : NetService),
    s.Calls steps s' ∧ s'.pc = .idle ∧ answers steps = [some (.inl ⟨7, ⟨0, 0⟩, true⟩), none] ∧
    ∀ step ∈ steps, step.1.Takes step.2 := by
  let s : NetService := { initSession with pc := .accepting 3 }
  have accepted := (Calls.start (s := s)).act (.accept (some ⟨7, ⟨0, 0⟩, true⟩)) nofun rfl
  have resumed := accepted.act (.resume true) nofun rfl
  have drained := resumed.act (.accept none) nofun rfl
  exact ⟨s, _, _, drained, rfl, rfl, (call_drains_iff s _ 3 _ (.inl rfl) drained rfl).1.mp (by simp [answers, Action.answer])⟩

/-- `epoll_ctl` refuses a connection, and an empty datagram comes: both calls
    return, whatever else is pending. -/
theorem calls_give_up :
    (¬ ∀ s, Reachable (fun _ _ => True) s → ∀ listener steps s', s.pc = .accepting listener → s.Calls steps s' →
      s'.pc = .idle → none ∈ answers steps) ∧
    ¬ ∀ s, Reachable (fun _ _ => True) s → ∀ listener steps s', s.pc = .receiving listener emptyBuffer →
      s.Calls steps s' → s'.pc = .idle → none ∈ answers steps := by
  constructor
  · intro always
    have added : Reachable (fun _ _ => True) _ := Reachable.init.act (.addTCPListener 3 true) trivial rfl
    have polled := added.act (.epollWait [⟨3, .accept 3, true, false⟩]) trivial rfl
    have started := polled.act (.dispatch [] .again) trivial rfl
    have none := always _ started 3 _ _ rfl (Calls.start.act (.accept (some ⟨7, ⟨0, 0⟩, false⟩)) nofun rfl) rfl
    simp [answers, Action.answer] at none
  · intro always
    have added : Reachable (fun _ _ => True) _ := Reachable.init.act (.addUDPListener 3 true) trivial rfl
    have polled := added.act (.epollWait [⟨3, .readFrom 3, true, false⟩]) trivial rfl
    have started := polled.act (.dispatch [] .again) trivial rfl
    have none := always _ started 3 _ _ rfl (Calls.start.act (.recvfrom (some ⟨[], ⟨0, 0⟩⟩)) nofun rfl) rfl
    simp [answers, Action.answer] at none

end NetService

end LiteServer.Net
