import LiteServer.Net.Moves

/-!
The steps of the epoll backend as moves, for connectors that are added and
connected in turn.
-/
namespace LiteServer.Net

namespace NetService
variable {s s' : NetService} {linked : Nat → Prop}

def Moves (linked : Nat → Prop) : NetService → NetService → Prop := Relation.ReflTransGen (Move linked)

theorem Moves.one (moved : Move linked s s') : Moves linked s s' := Relation.ReflTransGen.single moved

/-- What holds of a state is kept by moves if each keeps it. -/
theorem Moves.invariant {P : NetService → Prop} (kept : ∀ s s', P s → Move linked s s' → P s')
    (moves : Moves linked s s') (holds : P s) : P s' := by
  induction moves with
  | refl => exact holds
  | tail _ moved ih => exact kept _ _ ih moved

theorem Regular.moves (regular : s.Regular) (moves : Moves linked s s') : s'.Regular :=
  moves.invariant (fun _ _ regular moved => regular.move moved) regular

/-! ### Steps -/

/-- Connectors that there are, are added when nothing refers to them and
    connected in turn. -/
def Orderly (linked : Nat → Prop) (s : NetService) : Action → Prop
  | .newConnector c _ => ¬ linked c
  | .addTCPConnector c _ _ => (s.objects (.connector c)).isSome →
      c ∉ s.attempts ∧ (∀ id, s.sessions id ≠ some (.connector c)) ∧ ¬ linked c
  | .postConnect c => (s.objects (.connector c)).isSome → c ∈ s.attempts
  | .dispatch _ _ => ∀ event rest c, s.events = event :: rest → event.context = .connect c → event.epollOut = true →
      (s.objects (.connector c)).isSome → c ∈ s.attempts
  | _ => True

/-- Nothing was opened. -/
theorem quiet_rest {queSessionID : List SessionID} {mapUDPSessions : BitVec 64 → Option SessionID}
    {sessions : SessionID → Option SessionPtr} {objects : SessionPtr → Option Session} {allocated : Nat}
    {epoll : Socket → Option Context} {pc : Pc} {events : List PollEvent} {attempts : List Nat}
    {issued accesses : List SessionID} : s.Quietly ⟨queSessionID, mapUDPSessions, sessions, objects, allocated, epoll, pc,
      events, attempts, s.trace, issued, accesses⟩ :=
  ⟨[], (List.append_nil _).symm, by simp⟩

theorem Move.renewed {c : Nat} (session : Session) (resting : c ∉ s.attempts)
    (unstored : ∀ id, s.sessions id ≠ some (.connector c)) (unlinked : ¬ linked c)
    (connect : session.sockType = .connect) : Move linked s (s.setObject (.connector c) session) :=
  .construct c session resting unstored unlinked connect same_rest quiet_rest

theorem addTCPConnector_moves (regular : s.Regular) {c : Nat} {added connecting ok : Bool}
    (orderly : s.Orderly linked (.addTCPConnector c added connecting))
    (taken : s.addTCPConnector c added connecting = some (ok, s')) : Moves linked s s' := by
  obtain ⟨session, found, _⟩ := Option.bind_eq_some_iff.mp taken
  obtain ⟨resting, unstored, unlinked⟩ := orderly (by rw [found]; rfl)
  have connect := regular.connector found
  have construct := fun session' : Session => Move.renewed session' resting unstored unlinked
  rcases addTCPConnector_cases regular.positive found taken with
    ⟨_, rfl⟩ | ⟨id, rest, front, ⟨_, rfl⟩ | ⟨_, _, rfl⟩ | ⟨_, _, rfl⟩⟩
  · exact .one (construct { session with alive := false } connect)
  all_goals
    have numbered := construct { session with alive := false, sessionID := id } connect
  · exact .tail (.single numbered) (.turn id rest front same_rest quiet_rest)
  · exact .tail (.single numbered) (.turn id rest front same_rest quiet_rest)
  · exact .tail (.single numbered) (.attempt c rest _ (Function.update_self ..) front resting same_rest quiet_rest)

theorem acceptRound_move (regular : s.Regular) {listener : Socket} {answer : Option Accepted}
    (taken : s.acceptRound listener answer = some s') : Move linked s s' := by
  cases answer with
  | none =>
    cases Option.some.inj taken
    exact .stay same_rest quiet_rest
  | some a =>
    have refused : ∀ t : NetService, t.trace = s.trace ++ [.opened a.socket] ++ [.closed a.socket] → s.Quietly t := by
      intro t trace
      exact ⟨[.opened a.socket, .closed a.socket], by rw [trace, List.append_assoc]; rfl, by simp [Event.opensOn]⟩
    rcases acceptRound_cases regular.positive taken with rfl | ⟨id, rest, front, rfl | rfl⟩
    · exact .stay same_rest (refused _ rfl)
    · exact .turn id rest front same_rest (refused _ rfl)
    · refine .enter rest ⟨true, a.socket, .accepted, a.address, some a.socket, id⟩ front rfl (.inl rfl) (by simp) ?_
        ⟨s.emit (.opened a.socket), ?_, rfl⟩
      · exact ⟨leaves_rest, rfl⟩
      · exact ⟨[.opened a.socket], rfl, by simp [Event.opensOn]⟩

theorem receiveRound_move (regular : s.Regular) {listener : Socket} {data : List Byte} {answer : Option Datagram}
    (taken : s.receiveRound listener data answer = some s') : Move linked s s' := by
  cases answer with
  | none =>
    cases Option.some.inj taken
    exact .stay same_rest quiet_rest
  | some d =>
    rcases receiveRound_cases regular.positive taken with rfl | ⟨_, rfl⟩ | ⟨id, rest, front, unknown, _, rfl⟩
    · exact .stay same_rest quiet_rest
    · exact .stay same_rest ⟨_, rfl, by simp [Event.opensOn]⟩
    · have nonzero := head_ne_zero regular.positive front
      refine .enter rest ⟨true, listener, .udp, d.address, some listener, id⟩ front rfl (.inr rfl) ?_ ?_
        ⟨s, quiet_rest, rfl⟩
      · exact fun _ => (regular.unknown d.address).mp unknown
      · refine ⟨leaves_rest, ?_⟩
        simp [emit, opened, setUDPSessionID, entered, nonzero]

theorem postConnect_move {c : Nat} (orderly : s.Orderly linked (.postConnect c))
    (taken : s.postConnect c = some s') : Move linked s s' := by
  obtain ⟨session, found, _⟩ := Option.bind_eq_some_iff.mp taken
  rw [postConnect_eq found] at taken
  cases Option.some.inj taken
  exact .join c session found (orderly (by rw [found]; rfl)) ⟨leaves_rest, rfl⟩ rfl

theorem connected_move (regular : s.Regular) {c : Nat} {changed : Bool} (taken : s.connected c changed = some s') :
    Move linked s s' := by
  obtain ⟨session, found, _⟩ := Option.bind_eq_some_iff.mp taken
  rcases connected_cases found (regular.connector found) taken with ⟨_, _, rfl⟩ | rfl
  · exact .touch c session { session with alive := true } found rfl rfl rfl ⟨leaves_rest, rfl⟩ quiet_rest
  · refine .stay same_rest ⟨[.closed session.socket, .onConnectFail session.sessionID session.socket], ?_, ?_⟩
    · simp [destroySocket, emit]
    · simp [Event.opensOn]

theorem postRead_move {p : SessionPtr} {chunks : List (List Byte)} {ending : ReadEnd}
    (taken : s.postRead p chunks ending = some s') : Move linked s s' := by
  obtain ⟨session, found, _⟩ := Option.bind_eq_some_iff.mp taken
  rcases postRead_cases found taken with ⟨_, _, rfl⟩ | ⟨_, _, rfl⟩ | ⟨_, rfl⟩
  · exact .stay same_rest ⟨_, rfl, by simp [Event.opensOn]⟩
  · exact .stay same_rest ⟨_, rfl, by simp [Event.opensOn]⟩
  · exact .stay same_rest ⟨_, rfl, by simp [Event.opensOn]⟩

theorem kickSession_move (regular : s.Regular) {id : SessionID} (taken : s.kickSession id = some s') :
    Move linked s s' := by
  cases regular.kickSession taken with
  | unknown empty => exact .stay same_rest quiet_rest
  | @heap n session found stored =>
    refine .remove n session found ⟨leaves_rest, rfl⟩
      ⟨.kick session.sessionID :: session.closing.toList.map .closed, List.append_assoc .., ?_⟩
    simp [Event.opensOn]
  | @connector c session found stored =>
    refine .detach c session found stored same_rest
      ⟨.kick session.sessionID :: session.sock.toList.map .closed, rfl, ?_⟩
    simp [Event.opensOn]

/-- A session that was kicked in its own `OnConnectionDrop` is used after its
    deletion, and there is no next state. -/
theorem drop_move (regular : s.Regular) {n : Nat} (taken : s.delSession (.heap n) = some s') :
    Move linked s s' := by
  obtain ⟨session, found, _⟩ := Option.bind_eq_some_iff.mp taken
  obtain ⟨stored, kind⟩ := regular.heap found
  rw [delSession_eq found stored kind] at taken
  cases Option.some.inj taken
  exact .remove n session found ⟨leaves_rest, rfl⟩
    ⟨session.closing.toList.map .closed, rfl, by simp [Event.opensOn]⟩

theorem epollAdd_move (sock : Socket) (context : Context) (added : Bool) :
    Move linked s ((s.epollAdd sock context added).getD s) := by
  unfold epollAdd
  split <;> exact .stay same_rest quiet_rest

/-- A session that is being dropped is one from `new`. -/
def Dropping (s : NetService) : Prop := ∀ p, s.pc = .dropCallBack p → ∃ n, p = .heap n

/-- A step is made of moves. -/
theorem step_moves (regular : s.Regular) (dropping : s.Dropping) {action : Action}
    (orderly : s.Orderly linked action) (taken : s.step action = some s') : Moves linked s s' := by
  cases step_took taken with
  | @newConnector c sock user free =>
    refine .one (.construct c _ ?_ ?_ orderly rfl same_rest ⟨[.opened sock], rfl, by simp [Event.opensOn]⟩)
    · intro trying
      obtain ⟨session, found⟩ := regular.trying trying
      cases free.symm.trans found
    · intro id stored
      obtain ⟨session, found, _⟩ := regular.stored stored
      cases free.symm.trans found
  | addTCPListener user => exact .one (epollAdd_move _ _ _)
  | addUDPListener user => exact .one (epollAdd_move _ _ _)
  | addTCPConnector user result => exact addTCPConnector_moves regular orderly result
  | kickSession user issued result => exact .one (kickSession_move regular result)
  | postConnect idle result => exact .one (postConnect_move orderly result)
  | postRead idle result => exact .one (postRead_move result)
  | @connecting _ _ _ rest c _ idle events context out result =>
    have popped : Move linked s { s with events := rest } := .stay same_rest quiet_rest
    have joins : Move linked { s with events := rest } s' :=
      postConnect_move (orderly _ rest c events context out) result
    exact .head popped (.single joins)
  | @reading _ _ _ rest _ _ idle events context result =>
    have popped : Move linked s { s with events := rest } := .stay same_rest quiet_rest
    exact .head popped (.single (postRead_move result))
  | accept pc result => exact .one (acceptRound_move regular result)
  | recvfrom pc result => exact .one (receiveRound_move regular result)
  | connected pc result => exact .one (connected_move regular result)
  | opened pc => exact .one (.stay same_rest ⟨_, rfl, by simp [Event.opensOn]⟩)
  | dropped pc result =>
    obtain ⟨n, rfl⟩ := dropping _ pc
    exact .tail (.single (drop_move regular result)) (.stay same_rest quiet_rest)
  | _ => exact .one (.stay same_rest quiet_rest)

theorem Dropping.elsewhere (dropping : s.Dropping) (pc : s'.pc = s.pc ∨ ∀ p, s'.pc ≠ .dropCallBack p) : s'.Dropping := by
  intro p drops
  rcases pc with same | apart
  · exact dropping p (same ▸ drops)
  · exact absurd drops (apart p)

theorem postRead_dropping (regular : s.Regular) {p : SessionPtr} {chunks : List (List Byte)} {ending : ReadEnd}
    (taken : s.postRead p chunks ending = some s') : s'.Dropping := by
  obtain ⟨session, found, _⟩ := Option.bind_eq_some_iff.mp taken
  rcases postRead_cases found taken with ⟨_, _, rfl⟩ | ⟨_, heap, rfl⟩ | ⟨_, rfl⟩
  · simp [Dropping]
  · rintro q ⟨⟩
    cases p with
    | heap n => exact ⟨n, rfl⟩
    | connector c => exact absurd (regular.connector found) heap
  · simp [Dropping]

theorem Dropping.step (regular : s.Regular) (dropping : s.Dropping) {action : Action}
    (taken : s.step action = some s') : s'.Dropping := by
  cases step_took taken with
  | newConnector user free => exact dropping
  | addTCPListener user =>
    unfold epollAdd
    split <;> exact dropping
  | addUDPListener user =>
    unfold epollAdd
    split <;> exact dropping
  | addTCPConnector user result => exact dropping.elsewhere (.inl (addTCPConnector_pc result))
  | kickSession user issued result => exact dropping.elsewhere (.inl (kickSession_pc result))
  | postConnect idle result =>
    obtain ⟨session, found, _⟩ := Option.bind_eq_some_iff.mp result
    rw [postConnect_eq found] at result
    cases Option.some.inj result
    simp [Dropping]
  | postRead idle result => exact postRead_dropping regular result
  | epollWait idle polled => exact dropping
  | ignored idle events => exact dropping
  | @connecting _ _ _ rest c _ idle events context out result =>
    obtain ⟨session, found, _⟩ := Option.bind_eq_some_iff.mp result
    rw [postConnect_eq found] at result
    cases Option.some.inj result
    simp [Dropping]
  | @reading _ _ _ rest _ _ idle events context result =>
    have popped : ({ s with events := rest } : NetService).Regular := regular.same same_rest
    exact postRead_dropping popped result
  | @accept listener answer _ pc result =>
    cases answer with
    | none =>
      cases Option.some.inj result
      simp [Dropping]
    | some a =>
      rcases acceptRound_cases regular.positive result with rfl | ⟨id, rest, front, rfl | rfl⟩ <;> simp [Dropping]
  | @recvfrom listener data answer _ pc result =>
    cases answer with
    | none =>
      cases Option.some.inj result
      simp [Dropping]
    | some d =>
      rcases receiveRound_cases regular.positive result with rfl | ⟨_, rfl⟩ | ⟨id, rest, front, _, _, rfl⟩ <;>
        simp [Dropping]
  | connected pc result =>
    obtain ⟨session, found, _⟩ := Option.bind_eq_some_iff.mp result
    rcases connected_cases found (regular.connector found) result with ⟨_, _, rfl⟩ | rfl <;> simp [Dropping, confirmed]
  | _ => simp [Dropping]

/-! ### Attempts -/

/-- The attempts in progress and their IDs are the same. -/
structure Trying (s s' : NetService) : Prop where
  attempts : s'.attempts = s.attempts
  ids : ∀ c ∈ s.attempts, s'.attemptID c = s.attemptID c

theorem trying_rest {queSessionID : List SessionID} {mapUDPSessions : BitVec 64 → Option SessionID}
    {sessions : SessionID → Option SessionPtr} {allocated : Nat} {epoll : Socket → Option Context} {pc : Pc}
    {events : List PollEvent} {trace : List Event} {issued accesses : List SessionID} :
    s.Trying ⟨queSessionID, mapUDPSessions, sessions, s.objects, allocated, epoll, pc, events, s.attempts, trace, issued,
      accesses⟩ :=
  ⟨rfl, fun _ _ => rfl⟩

theorem Trying.of_found {c : Nat} {session : Session} (attempts : s'.attempts = s.attempts)
    (objects : ∀ d, d ≠ c → s'.objects (.connector d) = s.objects (.connector d))
    (found : s.objects (.connector c) = some session)
    (after : ∃ session', s'.objects (.connector c) = some session' ∧ session'.sessionID = session.sessionID) :
    s.Trying s' := by
  obtain ⟨session', found', own⟩ := after
  refine ⟨attempts, fun d _ => ?_⟩
  by_cases mine : d = c
  · subst mine
    simp [attemptID, found, found', own]
  · exact attemptID_congr (objects d mine)

theorem Trying.of_heap {n : Nat} {object : Option Session} (attempts : s'.attempts = s.attempts)
    (objects : s'.objects = Function.update s.objects (.heap n) object) : s.Trying s' := by
  refine ⟨attempts, fun c _ => attemptID_congr ?_⟩
  rw [objects]
  exact Function.update_of_ne (by simp) _ _

theorem kickSession_trying (regular : s.Regular) {id : SessionID} (result : s.kickSession id = some s') :
    s.Trying s' := by
  cases regular.kickSession result with
  | unknown empty => exact trying_rest
  | heap found stored => exact .of_heap rfl rfl
  | connector found stored =>
    refine .of_found rfl ?_ found ⟨_, Function.update_self .., rfl⟩
    exact fun d differ => Function.update_of_ne (by simpa using differ) _ _

theorem drop_trying (regular : s.Regular) {n : Nat} (result : s.delSession (.heap n) = some s') : s.Trying s' := by
  obtain ⟨session, found, _⟩ := Option.bind_eq_some_iff.mp result
  obtain ⟨stored, kind⟩ := regular.heap found
  rw [delSession_eq found stored kind] at result
  cases Option.some.inj result
  exact .of_heap rfl rfl

theorem initSession_regular : initSession.Regular where
  sound := initSession_sound
  own := by simp [initSession]
  nonzero := by simp [initSession]

theorem initSession_dropping : initSession.Dropping := by
  simp [Dropping, initSession]

end NetService

end LiteServer.Net
