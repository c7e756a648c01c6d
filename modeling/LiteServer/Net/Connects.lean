import LiteServer.Net.IocpMoves

/-!
How the outcome of a connect is reported: every ID that `AddTCPConnector` gave
an attempt, and what the callbacks say of it.
-/
namespace LiteServer.Net

namespace Event

def connects (id : SessionID) : Event → Bool
  | .onConnected j _ => j == id
  | _ => false

def connectFails (id : SessionID) : Event → Bool
  | .onConnectFail j _ => j == id
  | _ => false

theorem unconnected {event : Event} {id : SessionID} (unopened : event.opensOn id = none) : event.connects id = false := by
  cases event with
  | onConnected j sock => simpa [opensOn, connects] using unopened
  | _ => rfl

end Event

/-- The IDs of the attempts that were made, and how the system says those that
    ended did: whether the connection was established. -/
structure Attempts where
  made : List SessionID
  outcomes : SessionID → Option Bool

namespace Attempts

def untried : Attempts := ⟨[], fun _ => none⟩
def make (a : Attempts) (id : SessionID) : Attempts := { a with made := a.made ++ [id] }
def finish (a : Attempts) (id : SessionID) (established : Bool) : Attempts :=
  { a with outcomes := Function.update a.outcomes id (some established) }

end Attempts

namespace NetService
variable {s s' : NetService} {linked : Nat → Prop}

/-- How often an ID was reported as connected, and as failed to connect. -/
def connects (s : NetService) (id : SessionID) : Nat := s.trace.countP (Event.connects id)
def connectFails (s : NetService) (id : SessionID) : Nat := s.trace.countP (Event.connectFails id)

theorem connects_snoc {event : Event} (trace : s'.trace = s.trace ++ [event]) (id : SessionID) :
    s'.connects id = s.connects id + if event.connects id then 1 else 0 := by
  rw [connects, trace, List.countP_append, List.countP_singleton]
  rfl

theorem Quietly.connects (quietly : s.Quietly s') (id : SessionID) : s'.connects id = s.connects id := by
  obtain ⟨more, trace, silent⟩ := quietly
  have none : more.countP (Event.connects id) = 0 := by
    rw [List.countP_eq_zero]
    intro event member
    simp [Event.unconnected (silent event member id)]
  rw [NetService.connects, trace, List.countP_append, none]
  rfl

/-- An ID that is reported as connected leaves the circulation. -/
theorem Move.connects (moved : Move linked s s') (regular : s.Regular) (id : SessionID) :
    s'.connects id = s.connects id ∨ (s.Circulating id ∧ ¬ s'.Circulating id) := by
  cases moved with
  | stay _ quietly => exact .inl (quietly.connects id)
  | construct _ _ _ _ _ _ _ quietly => exact .inl (quietly.connects id)
  | turn _ _ _ _ quietly => exact .inl (quietly.connects id)
  | attempt _ _ _ _ _ _ _ quietly => exact .inl (quietly.connects id)
  | abandon _ _ quietly => exact .inl (quietly.connects id)
  | join c session found trying same trace =>
    by_cases mine : session.sessionID = id
    · subst mine
      have own : s.attemptID c = session.sessionID := by simp [NetService.attemptID, found]
      refine .inr ⟨.inr (.inl ⟨c, trying, own⟩), ?_⟩
      exact fun circulating => regular.joined found trying (same.circulating circulating)
    · rw [connects_snoc trace]
      simp [Event.connects, mine]
  | enter _ _ _ _ _ _ _ trace =>
    obtain ⟨t, quietly, trace⟩ := trace
    rw [connects_snoc trace, quietly.connects id]
    exact .inl rfl
  | touch _ _ _ _ _ _ _ _ quietly => exact .inl (quietly.connects id)
  | detach _ _ _ _ _ quietly => exact .inl (quietly.connects id)
  | remove _ _ _ _ quietly => exact .inl (quietly.connects id)

end NetService

namespace Attempts
variable {s s' : NetService} {a : Attempts} {linked : Nat → Prop}

/-- An attempt is in progress until it ends, a connection that was established
    was reported once, and one that failed was reported once as that only. -/
structure Truthful (a : Attempts) (s : NetService) : Prop where
  pending : ∀ id ∈ a.made, a.outcomes id = none → (∃ c ∈ s.attempts, s.attemptID c = id) ∧ s.connects id = 0
  established : ∀ id ∈ a.made, a.outcomes id = some true → s.connects id = 1
  failed : ∀ id ∈ a.made, a.outcomes id = some false → s.connects id = 0 ∧ s.connectFails id = 1

/-- What holds as long as no attempt fails. -/
structure Reported (a : Attempts) (s : NetService) : Prop where
  regular : s.Regular
  fresh : ∀ id, s.Circulating id → s.connects id = 0
  done : ∀ id, a.outcomes id = some true → s.connects id = 1 ∧ ¬ s.Circulating id
  succeeded : ∀ id, a.outcomes id ≠ some false
  pending : ∀ id ∈ a.made, a.outcomes id = none → ∃ c ∈ s.attempts, s.attemptID c = id

theorem Reported.truthful (reported : a.Reported s) : a.Truthful s where
  pending id made unfinished := by
    obtain ⟨c, trying, own⟩ := reported.pending id made unfinished
    exact ⟨⟨c, trying, own⟩, reported.fresh id (.inr (.inl ⟨c, trying, own⟩))⟩
  established id _ finished := (reported.done id finished).1
  failed id _ finished := absurd finished (reported.succeeded id)

/-- What moves keep without a look at the attempts. -/
def Settled (a : Attempts) (s : NetService) : Prop :=
  s.Regular ∧ (∀ id, s.Circulating id → s.connects id = 0) ∧
  ∀ id, a.outcomes id = some true → s.connects id = 1 ∧ ¬ s.Circulating id

theorem Settled.move (settled : a.Settled s) (moved : s.Move linked s') : a.Settled s' := by
  obtain ⟨regular, fresh, done⟩ := settled
  refine ⟨regular.move moved, ?_, ?_⟩
  · intro id circulating
    have before := regular.circulating moved circulating
    rcases moved.connects regular id with same | ⟨_, gone⟩
    · exact same.trans (fresh id before)
    · exact absurd circulating gone
  · intro id finished
    obtain ⟨once, gone⟩ := done id finished
    refine ⟨?_, fun circulating => gone (regular.circulating moved circulating)⟩
    rcases moved.connects regular id with same | ⟨circulating, _⟩
    · exact same.trans once
    · exact absurd circulating gone

theorem Reported.moves (reported : a.Reported s) (moves : s.Moves linked s') : a.Settled s' :=
  moves.invariant (fun _ _ => Settled.move) ⟨reported.regular, reported.fresh, reported.done⟩

theorem Reported.next (reported : a.Reported s) (moves : s.Moves linked s') (trying : s.Trying s') : a.Reported s' := by
  obtain ⟨regular, fresh, done⟩ := reported.moves moves
  refine ⟨regular, fresh, done, reported.succeeded, ?_⟩
  intro id made unfinished
  obtain ⟨c, before, own⟩ := reported.pending id made unfinished
  exact ⟨c, trying.attempts ▸ before, (trying.ids c before).trans own⟩

theorem Reported.make (reported : a.Reported s) (moves : s.Moves linked s') {c : Nat}
    (attempts : s'.attempts = s.attempts ++ [c]) (ids : ∀ d ∈ s.attempts, s'.attemptID d = s.attemptID d) :
    (a.make (s'.attemptID c)).Reported s' := by
  obtain ⟨regular, fresh, done⟩ := reported.moves moves
  refine ⟨regular, fresh, done, reported.succeeded, ?_⟩
  intro id made unfinished
  rcases List.mem_append.mp made with before | now
  · obtain ⟨d, trying, own⟩ := reported.pending id before unfinished
    exact ⟨d, attempts ▸ List.mem_append_left _ trying, (ids d trying).trans own⟩
  · exact ⟨c, attempts ▸ List.mem_append_right _ (List.mem_singleton_self c), (List.mem_singleton.mp now).symm⟩

theorem Reported.finish (reported : a.Reported s) {c : Nat} {session : Session}
    (found : s.objects (.connector c) = some session) (trying : c ∈ s.attempts)
    (same : (s.joined c session).Same s') (trace : s'.trace = s.trace ++ [.onConnected session.sessionID session.socket]) :
    (a.finish (s.attemptID c) true).Reported s' := by
  have own : s.attemptID c = session.sessionID := by simp [NetService.attemptID, found]
  have moved : s.Move (fun _ => True) s' := .join c session found trying same trace
  obtain ⟨regular, fresh, done⟩ := reported.moves (.one moved)
  refine ⟨regular, fresh, ?_, ?_, ?_⟩
  · intro id finished
    rcases update_eq_some finished with ⟨rfl, _⟩ | before
    · refine ⟨?_, ?_⟩
      · rw [NetService.connects_snoc trace, reported.fresh _ (.inr (.inl ⟨c, trying, rfl⟩)), own]
        simp [Event.connects]
      · intro circulating
        exact reported.regular.joined found trying (same.circulating (own ▸ circulating))
    · exact done id before
  · intro id failed
    rcases update_eq_some failed with ⟨_, new⟩ | before
    · cases new
    · exact reported.succeeded id before
  · intro id made unfinished
    have differ : id ≠ s.attemptID c := by
      rintro rfl
      simp [Attempts.finish] at unfinished
    obtain ⟨d, before, mine⟩ := reported.pending id made ((Function.update_of_ne differ _ _).symm.trans unfinished)
    refine ⟨d, ?_, (same.attemptID d).trans mine⟩
    rw [same.attempts]
    refine (List.mem_erase_of_ne ?_).mpr before
    rintro rfl
    exact differ mine.symm

end Attempts

/-! ### Epoll -/

namespace NetService
variable {s s' : NetService} {a : Attempts} {action : Action} {established : Bool}

/-- The connector that the next event of the loop reports `EPOLLOUT` for. -/
def reported (s : NetService) : Option Nat :=
  match s.pc, s.events with
  | .idle, event :: _ =>
    match event.context with
    | .connect c => if event.epollOut then some c else none
    | _ => none
  | _, _ => none

/-- What a step records of the attempts. An attempt ends with its `EPOLLOUT`;
    whether with `EPOLLERR` and `EPOLLHUP` the loop does not ask. -/
def attempted (s : NetService) (a : Attempts) (established : Bool) : Action → Attempts
  | .addTCPConnector c added connecting =>
    match s.addTCPConnector c added connecting with
    | some (true, t) => a.make (t.attemptID c)
    | _ => a
  | .dispatch _ _ =>
    match s.reported with
    | some c => a.finish (s.attemptID c) established
    | none => a
  | _ => a

/-- Runs with the outcomes of their attempts. -/
def Attempting (allowed : NetService → Action → Bool → Prop) : NetService × Attempts → Prop :=
  Transition.Reachable (· = (initSession, .untried)) fun t t' =>
    ∃ action established, allowed t.1 action established ∧ t.1.step action = some t'.1 ∧
      t'.2 = t.1.attempted t.2 established action

theorem Attempting.init {allowed : NetService → Action → Bool → Prop} : Attempting allowed (initSession, .untried) :=
  Transition.Reachable.start rfl

theorem Attempting.act {allowed : NetService → Action → Bool → Prop} (reached : Attempting allowed (s, a))
    (action : Action) (established : Bool) (allows : allowed s action established)
    (taken : s.step action = some s') : Attempting allowed (s', s.attempted a established action) :=
  Transition.Reachable.next reached ⟨action, established, allows, taken, rfl⟩

/-- No attempt fails, the operations are run by the loop, and connectors are
    added and connected in turn. -/
def Succeeding (s : NetService) (action : Action) (established : Bool) : Prop :=
  s.Orderly (fun _ => False) action ∧ (∀ c, action ≠ .postConnect c) ∧
  ∀ chunks ending c, action = .dispatch chunks ending → s.reported = some c → established = true

theorem epollAdd_trying (sock : Socket) (context : Context) (added : Bool) :
    s.Trying ((s.epollAdd sock context added).getD s) := by
  rcases s.epollAdd_cases sock context added with same | same <;> rw [same] <;> exact trying_rest

theorem acceptRound_trying (regular : s.Regular) {listener : Socket} {answer : Option Accepted}
    (result : s.acceptRound listener answer = some s') : s.Trying s' := by
  cases answer with
  | none =>
    cases Option.some.inj result
    exact trying_rest
  | some a =>
    rcases acceptRound_cases regular.positive result with rfl | ⟨id, rest, front, rfl | rfl⟩
    · exact trying_rest
    · exact trying_rest
    · exact .of_heap rfl rfl

theorem receiveRound_trying (regular : s.Regular) {listener : Socket} {data : List Byte} {answer : Option Datagram}
    (result : s.receiveRound listener data answer = some s') : s.Trying s' := by
  cases answer with
  | none =>
    cases Option.some.inj result
    exact trying_rest
  | some d =>
    rcases receiveRound_cases regular.positive result with rfl | ⟨_, rfl⟩ | ⟨id, rest, front, _, _, rfl⟩
    · exact trying_rest
    · exact trying_rest
    · exact .of_heap rfl rfl

theorem postRead_trying {p : SessionPtr} {chunks : List (List Byte)} {ending : ReadEnd}
    (result : s.postRead p chunks ending = some s') : s.Trying s' := by
  obtain ⟨session, found, _⟩ := Option.bind_eq_some_iff.mp result
  rcases postRead_cases found result with ⟨_, _, rfl⟩ | ⟨_, _, rfl⟩ | ⟨_, rfl⟩ <;> exact trying_rest

theorem connected_trying (regular : s.Regular) {c : Nat} {changed : Bool} (result : s.connected c changed = some s') :
    s.Trying s' := by
  obtain ⟨session, found, _⟩ := Option.bind_eq_some_iff.mp result
  rcases connected_cases found (regular.connector found) result with ⟨_, _, rfl⟩ | rfl
  · refine .of_found rfl ?_ found ⟨_, Function.update_self .., rfl⟩
    exact fun d differ => Function.update_of_ne (by simpa using differ) _ _
  · exact trying_rest

/-- A step that neither adds a connector nor takes up the end of an attempt. -/
theorem step_trying (regular : s.Regular) (dropping : s.Dropping) (unadded : ∀ c added connecting,
    action ≠ .addTCPConnector c added connecting) (unconnected : ∀ c, action ≠ .postConnect c)
    (unreported : ∀ chunks ending, action = .dispatch chunks ending → s.reported = none)
    (taken : s.step action = some s') : s.Trying s' := by
  cases step_took taken with
  | @newConnector c sock user free =>
    refine ⟨rfl, fun d trying => attemptID_congr (Function.update_of_ne ?_ _ _)⟩
    rintro ⟨⟩
    obtain ⟨session, found⟩ := regular.trying trying
    cases free.symm.trans found
  | addTCPListener user => exact epollAdd_trying ..
  | addUDPListener user => exact epollAdd_trying ..
  | addTCPConnector user result => exact absurd rfl (unadded _ _ _)
  | kickSession user issued result => exact kickSession_trying regular result
  | postConnect idle result => exact absurd rfl (unconnected _)
  | postRead idle result => exact postRead_trying result
  | @connecting _ _ event rest c _ idle events context out result =>
    have none := unreported _ _ rfl
    simp [NetService.reported, idle, events, context, out] at none
  | @reading _ _ _ rest _ _ idle events context result =>
    have popped : s.Trying { s with events := rest } := trying_rest
    have read : ({ s with events := rest } : NetService).Trying s' := postRead_trying result
    exact ⟨read.attempts.trans popped.attempts, fun c trying => read.ids c trying⟩
  | accept pc result => exact acceptRound_trying regular result
  | recvfrom pc result => exact receiveRound_trying regular result
  | connected pc result => exact connected_trying regular result
  | dropped pc result =>
    obtain ⟨n, rfl⟩ := dropping _ pc
    obtain ⟨attempts, ids⟩ := drop_trying regular result
    exact ⟨attempts, ids⟩
  | _ => exact trying_rest

theorem reported_cases {c : Nat} (reported : s.reported = some c) : s.pc = .idle ∧
    ∃ event rest, s.events = event :: rest ∧ event.context = .connect c ∧ event.epollOut = true := by
  unfold NetService.reported at reported
  split at reported
  · rename_i event rest idle events
    split at reported
    · rename_i d context
      split at reported
      · cases reported
        exact ⟨idle, event, rest, events, context, ‹_›⟩
      · cases reported
    · cases reported
  · cases reported

theorem dispatch_reported (reported : a.Reported s) {chunks : List (List Byte)} {ending : ReadEnd} {c : Nat}
    (orderly : s.Orderly (fun _ => False) (.dispatch chunks ending)) (next : s.reported = some c)
    (taken : s.step (.dispatch chunks ending) = some s') : (a.finish (s.attemptID c) true).Reported s' := by
  obtain ⟨idle, event, rest, events, context, out⟩ := reported_cases next
  have dispatched : { s with events := rest }.postConnect c = some s' := by
    simpa [step, idle, events, NetService.dispatch, context, out] using taken
  obtain ⟨session, found, _⟩ := Option.bind_eq_some_iff.mp dispatched
  have trying := orderly event rest c events context out (by rw [show s.objects (.connector c) = some session from found]; rfl)
  rw [postConnect_eq found] at dispatched
  cases Option.some.inj dispatched
  exact reported.finish found trying ⟨leaves_rest, rfl⟩ rfl

theorem addTCPConnector_reported (reported : a.Reported s) {c : Nat} {added connecting ok : Bool}
    (orderly : s.Orderly (fun _ => False) (.addTCPConnector c added connecting))
    (result : s.addTCPConnector c added connecting = some (ok, s')) :
    (if ok then a.make (s'.attemptID c) else a).Reported s' := by
  have regular := reported.regular
  have moves := addTCPConnector_moves regular orderly result
  obtain ⟨session, found, _⟩ := Option.bind_eq_some_iff.mp result
  obtain ⟨resting, _, _⟩ := orderly (by rw [found]; rfl)
  have ids : ∀ session' : Session, ∀ d ∈ s.attempts, (s.setObject (.connector c) session').attemptID d = s.attemptID d := by
    intro session' d trying
    refine attemptID_congr (Function.update_of_ne ?_ _ _)
    rintro ⟨⟩
    exact resting trying
  rcases addTCPConnector_cases regular.positive found result with
    ⟨rfl, rfl⟩ | ⟨id, rest, front, ⟨rfl, rfl⟩ | ⟨rfl, _, rfl⟩ | ⟨rfl, _, rfl⟩⟩
  · exact reported.next moves ⟨rfl, ids _⟩
  · exact reported.next moves ⟨rfl, ids { session with alive := false, sessionID := id }⟩
  · exact reported.next moves ⟨rfl, ids { session with alive := false, sessionID := id }⟩
  · exact reported.make moves rfl (ids { session with alive := false, sessionID := id })

theorem step_reported (reported : a.Reported s) (dropping : s.Dropping) (succeeding : s.Succeeding action established)
    (taken : s.step action = some s') : (s.attempted a established action).Reported s' := by
  obtain ⟨orderly, unconnected, succeeds⟩ := succeeding
  have moves := step_moves reported.regular dropping orderly taken
  cases action with
  | addTCPConnector c added connecting =>
    cases step_took taken with
    | addTCPConnector user result =>
      have kept := addTCPConnector_reported reported orderly result
      simp only [attempted, result]
      split at kept <;> simp_all
  | postConnect c => exact absurd rfl (unconnected c)
  | dispatch chunks ending =>
    cases next : s.reported with
    | none =>
      simp only [attempted, next]
      exact reported.next moves (step_trying reported.regular dropping (by simp) (by simp) (fun _ _ _ => next) taken)
    | some c =>
      simp only [attempted, next, succeeds chunks ending c rfl next]
      exact dispatch_reported reported orderly next taken
  | _ => exact reported.next moves (step_trying reported.regular dropping (by simp) (by simp) (by simp) taken)

theorem initSession_reported : Attempts.untried.Reported initSession where
  regular := initSession_regular
  fresh := by simp [NetService.connects, initSession]
  done := by simp [Attempts.untried]
  succeeded := by simp [Attempts.untried]
  pending := by simp [Attempts.untried]

theorem reported_of_attempting {t : NetService × Attempts} (reached : Attempting Succeeding t) :
    t.2.Reported t.1 ∧ t.1.Dropping := by
  refine Transition.Reachable.invariant (P := fun t => t.2.Reported t.1 ∧ t.1.Dropping) ?_ ?_ reached
  · rintro _ rfl
    exact ⟨initSession_reported, initSession_dropping⟩
  · rintro ⟨s, a⟩ ⟨s', a'⟩ _ ⟨reported, dropping⟩ ⟨action, established, succeeding, taken, rfl⟩
    exact ⟨step_reported reported dropping succeeding taken, dropping.step reported.regular taken⟩

end NetService

end LiteServer.Net
