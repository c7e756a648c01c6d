import LiteServer.Net.Epoll

/-!
What the operations can do: the states they lead to, with every field they
change, so that a property of runs is read off these instead of the code.
-/
namespace LiteServer.Net

theorem update_eq_some {α β : Type} [DecidableEq α] {f : α → Option β} {a b : α} {new : Option β} {x : β}
    (after : Function.update f a new b = some x) : (b = a ∧ new = some x) ∨ f b = some x := by
  by_cases same : b = a
  · subst same
    exact .inl ⟨rfl, (Function.update_self b new f).symm.trans after⟩
  · exact .inr ((Function.update_of_ne same new f).symm.trans after)

theorem update_none_eq_some {α β : Type} [DecidableEq α] {f : α → Option β} {a b : α} {x : β}
    (after : Function.update f a none b = some x) : f b = some x ∧ b ≠ a := by
  by_cases same : b = a
  · subst same
    cases (Function.update_self b none f).symm.trans after
  · exact ⟨(Function.update_of_ne same none f).symm.trans after, same⟩

/-- Closing a descriptor only takes registrations away. -/
theorem closed_epoll {closing : Option Socket} {epoll : Socket → Option Context} {sock : Socket} {context : Context}
    (after : (closing.elim epoll fun fd => Function.update epoll fd none) sock = some context) :
    epoll sock = some context ∧ closing ≠ some sock := by
  cases closing with
  | none => exact ⟨after, nofun⟩
  | some fd =>
    obtain ⟨before, differ⟩ := update_none_eq_some after
    exact ⟨before, fun same => differ (Option.some.inj same).symm⟩

/-- The descriptor that `DelSession` closes with a session from `new`. -/
def Session.closing (session : Session) : Option Socket := if session.sockType = .accepted then session.sock else none

namespace NetService
variable {s s' : NetService}

/-- The state after a session from `new` was taken out of the table. -/
def removed (s : NetService) (p : SessionPtr) (session : Session) : NetService := { s with
  queSessionID := s.queSessionID ++ [session.sessionID]
  mapUDPSessions := if session.sockType = .udp then Function.update s.mapUDPSessions (sessionKey session.address) none
    else s.mapUDPSessions
  sessions := Function.update s.sessions session.sessionID none
  objects := Function.update s.objects p none
  epoll := session.closing.elim s.epoll fun sock => Function.update s.epoll sock none
  trace := s.trace ++ session.closing.toList.map .closed
  accesses := s.accesses ++ [session.sessionID] }

/-- The state after a `KickSession` took the session of a connector out of the
    table; the ID is not freed. -/
def detached (s : NetService) (c : Nat) (session : Session) : NetService := { s with
  sessions := Function.update s.sessions session.sessionID none
  objects := Function.update s.objects (.connector c) (some { session with alive := false, sock := none })
  epoll := session.sock.elim s.epoll fun sock => Function.update s.epoll sock none
  trace := s.trace ++ .kick session.sessionID :: session.sock.toList.map .closed
  accesses := s.accesses ++ [session.sessionID, session.sessionID] }

/-- The state after a connection was found to be made. -/
def confirmed (s : NetService) (c : Nat) (session : Session) : NetService := { s with
  objects := Function.update s.objects (.connector c) (some { session with alive := true })
  epoll := Function.update s.epoll session.socket (some (.read (.connector c)))
  pc := .idle }

/-- The state after a new session took the ID at the head of the queue. -/
def opened (s : NetService) (id : SessionID) (rest : List SessionID) (session : Session) : NetService := { s with
  queSessionID := rest
  issued := s.issued ++ [id]
  sessions := Function.update s.sessions id (some (.heap s.allocated))
  objects := Function.update s.objects (.heap s.allocated) (some session)
  allocated := s.allocated + 1
  accesses := s.accesses ++ [id] }

/-- The state after the ID at the head of the queue was taken and given back. -/
def rotated (s : NetService) (id : SessionID) (rest : List SessionID) : NetService := { s with
  queSessionID := rest ++ [id]
  issued := s.issued ++ [id] }

/-- Sessions and IDs are left where they are. -/
structure Leaves (s s' : NetService) : Prop where
  queSessionID : s'.queSessionID = s.queSessionID
  sessions : s'.sessions = s.sessions
  objects : s'.objects = s.objects
  allocated : s'.allocated = s.allocated
  attempts : s'.attempts = s.attempts

/-- The other fields are free to change. -/
theorem leaves_rest {mapUDPSessions : BitVec 64 → Option SessionID} {epoll : Socket → Option Context} {pc : Pc}
    {events : List PollEvent} {trace : List Event} {issued accesses : List SessionID} :
    s.Leaves ⟨s.queSessionID, mapUDPSessions, s.sessions, s.objects, s.allocated, epoll, pc, events, s.attempts, trace,
      issued, accesses⟩ := by
  constructor <;> rfl

theorem epollAdd_cases (s : NetService) (sock : Socket) (context : Context) (added : Bool) :
    (s.epollAdd sock context added).getD s = s ∨
    (s.epollAdd sock context added).getD s = { s with epoll := Function.update s.epoll sock (some context) } := by
  unfold epollAdd
  split
  · exact .inr rfl
  · exact .inl rfl

theorem newSessionID_cases (s : NetService) : (s.queSessionID = [] ∧ s.newSessionID = (0, s)) ∨
    ∃ id rest, s.queSessionID = id :: rest ∧
      s.newSessionID = (id, { s with queSessionID := rest, issued := s.issued ++ [id] }) := by
  cases queue : s.queSessionID with
  | nil => exact .inl ⟨rfl, by simp [newSessionID, queue]⟩
  | cons id rest => exact .inr ⟨id, rest, rfl, by simp [newSessionID, queue]⟩

@[simp] theorem setObject_heap {c : Nat} {session : Session} (n : Nat) :
    (s.setObject (.connector c) session).objects (.heap n) = s.objects (.heap n) := by
  simp [setObject]

/-! ### Sessions -/

theorem delSession_eq {p : SessionPtr} {session : Session} (found : s.objects p = some session)
    (stored : s.sessions session.sessionID = some p) (heap : session.sockType = .accepted ∨ session.sockType = .udp) :
    s.delSession p = some (s.removed p session) := by
  rcases heap with accepted | udp
  · cases sock : session.sock <;>
      simp [delSession, found, stored, accepted, closeSock, setObject, sock, removed, Session.closing, access,
        setSession, freeSessionID, destroySocket, emit]
  · simp [delSession, found, stored, udp, setObject, removed, Session.closing, access, setSession, freeSessionID,
      setUDPSessionID]

theorem closeSock_cases {p : SessionPtr} {session : Session} (found : s.objects p = some session)
    (taken : s.closeSock p = some s') : s' = s ∨
    ∃ sock, session.sock = some sock ∧ s' = (s.destroySocket sock).setObject p { session with sock := none } := by
  cases held : session.sock with
  | none =>
    simp [closeSock, found, held] at taken
    exact .inl taken.symm
  | some sock =>
    simp [closeSock, found, held] at taken
    exact .inr ⟨sock, rfl, taken.symm⟩

/-- For any pointer, also one whose ID the table has another session under. -/
theorem delSession_cases {p : SessionPtr} {session : Session} (found : s.objects p = some session)
    (taken : s.delSession p = some s') :
    (s.sessions session.sessionID = none ∧ s' = s.access session.sessionID) ∨
    ∃ stored session₂, s.sessions session.sessionID = some stored ∧ s.objects stored = some session₂ ∧
      ((session₂.sockType = .connect ∧
        s' = ((s.access session.sessionID).setObject stored { session₂ with alive := false }).setSession
          session.sessionID none) ∨
      (session₂.sockType ≠ .connect ∧ s' = s.removed stored { session₂ with sessionID := session.sessionID })) := by
  cases inTable : s.sessions session.sessionID with
  | none =>
    simp [delSession, found, access, inTable] at taken
    exact .inl ⟨rfl, taken.symm⟩
  | some stored =>
    cases found₂ : s.objects stored with
    | none => simp [delSession, found, access, inTable, found₂] at taken
    | some session₂ =>
      refine .inr ⟨stored, session₂, rfl, found₂, ?_⟩
      by_cases connect : session₂.sockType = .connect
      · simp [delSession, found, access, inTable, found₂, connect] at taken
        exact .inl ⟨connect, taken.symm.trans (by simp [access, connect])⟩
      · refine .inr ⟨connect, ?_⟩
        by_cases accepted : session₂.sockType = .accepted
        · cases sock : session₂.sock <;>
            simp [delSession, found, inTable, found₂, accepted, closeSock, setObject, sock, access, setSession,
              freeSessionID, destroySocket, emit] at taken <;>
            exact taken.symm.trans (by simp [removed, Session.closing, accepted])
        · simp [delSession, found, inTable, found₂, connect, accepted, setObject, access, setSession,
            freeSessionID, setUDPSessionID] at taken
          apply taken.symm.trans
          by_cases udp : session₂.sockType = .udp <;> simp [removed, Session.closing, accepted, udp]
theorem kickSession_none {id : SessionID} (empty : s.sessions id = none) : s.kickSession id = some (s.access id) := by
  simp [kickSession, access, empty]

theorem kickSession_some {id : SessionID} {p : SessionPtr} {session : Session} (stored : s.sessions id = some p)
    (found : s.objects p = some session) :
    s.kickSession id = ((if session.sockType ≠ .udp then ((s.access id).emit (.kick id)).closeSock p
      else some ((s.access id).emit (.kick id))) >>= fun t => t.delSession p) := by
  by_cases udp : session.sockType = .udp <;> simp [kickSession, access, emit, stored, found, udp]

theorem kickSession_heap {p : SessionPtr} {session : Session} (found : s.objects p = some session)
    (stored : s.sessions session.sessionID = some p) (heap : session.sockType = .accepted ∨ session.sockType = .udp) :
    s.kickSession session.sessionID =
      some (((s.access session.sessionID).emit (.kick session.sessionID)).removed p session) := by
  let t := (s.access session.sessionID).emit (.kick session.sessionID)
  have direct := delSession_eq (s := t) found stored heap
  rcases heap with accepted | udp
  · have kicked : s.kickSession session.sessionID = t.closeSock p >>= fun t => t.delSession p := by
      simp [kickSession_some stored found, accepted, t]
    rw [kicked]
    cases sock : session.sock with
    | none =>
      have closed : t.closeSock p = some t := by simp [closeSock, show t.objects p = some session from found, sock]
      rw [closed]
      exact direct
    | some fd =>
      -- `DelSession` finds the descriptor closed already.
      let t' := (t.destroySocket fd).setObject p { session with sock := none }
      have closed : t.closeSock p = some t' := by simp [closeSock, show t.objects p = some session from found, sock, t']
      have after : t'.delSession p = _ := delSession_eq (Function.update_self ..) stored (.inl accepted)
      rw [closed]
      apply after.trans
      simp [t', t, removed, Session.closing, accepted, sock, setObject, destroySocket, emit, access]
  · have kicked : s.kickSession session.sessionID = t.delSession p := by
      simp [kickSession_some stored found, udp, t]
    rw [kicked]
    exact direct

theorem kickSession_connector {c : Nat} {session : Session} (found : s.objects (.connector c) = some session)
    (stored : s.sessions session.sessionID = some (.connector c)) (connect : session.sockType = .connect) :
    s.kickSession session.sessionID = some (s.detached c session) := by
  cases sock : session.sock with
  | none =>
    simp [kickSession, connect, closeSock, sock, delSession, access, emit, found, stored, setObject, setSession,
      detached]
  | some fd =>
    simp [kickSession, connect, closeSock, sock, delSession, access, emit, found, stored, setObject, setSession,
      detached, destroySocket]

/-! ### Operations -/

/-- An ID at the head of the queue is handed out as one that is not zero. -/
theorem head_ne_zero {id : SessionID} {rest : List SessionID} (positive : 0 ∉ s.queSessionID)
    (queue : s.queSessionID = id :: rest) : id ≠ 0 := by
  rintro rfl
  exact positive (by simp [queue])

theorem addTCPConnector_unnumbered {c : Nat} {session : Session} {added connecting : Bool}
    (found : s.objects (.connector c) = some session) (queue : s.queSessionID = []) :
    s.addTCPConnector c added connecting =
      some (false, s.setObject (.connector c) { session with alive := false }) := by
  simp [addTCPConnector, found, newSessionID, setObject, queue]

/-- `EPOLL_CTL_ADD` is refused. -/
theorem addTCPConnector_refused {c : Nat} {session : Session} {id : SessionID} {rest : List SessionID}
    {added connecting : Bool} (nonzero : id ≠ 0) (found : s.objects (.connector c) = some session)
    (queue : s.queSessionID = id :: rest) (refused : ¬ (added = true ∧ s.epoll session.socket = none)) :
    s.addTCPConnector c added connecting =
      some (false, (s.rotated id rest).setObject (.connector c) { session with alive := false, sessionID := id }) := by
  simp [addTCPConnector, found, newSessionID, setObject, queue, nonzero, epollAdd, refused, freeSessionID, rotated]

/-- `EPOLL_CTL_ADD` is taken, and `connect` fails at once or not. -/
theorem addTCPConnector_added {c : Nat} {session : Session} {id : SessionID} {rest : List SessionID}
    {added connecting : Bool} (nonzero : id ≠ 0) (found : s.objects (.connector c) = some session)
    (queue : s.queSessionID = id :: rest) (room : added = true ∧ s.epoll session.socket = none) :
    s.addTCPConnector c added connecting = some (connecting,
      if connecting then { s.setObject (.connector c) { session with alive := false, sessionID := id } with
        queSessionID := rest
        issued := s.issued ++ [id]
        epoll := Function.update s.epoll session.socket (some (.connect c))
        attempts := s.attempts ++ [c] }
      else { (s.rotated id rest).setObject (.connector c) { session with alive := false, sessionID := id } with
        epoll := Function.update s.epoll session.socket (some (.connect c)) }) := by
  cases connecting <;>
    simp [addTCPConnector, found, newSessionID, setObject, queue, nonzero, epollAdd, room, freeSessionID, rotated]

theorem addTCPConnector_cases {c : Nat} {session : Session} {added connecting ok : Bool} (positive : 0 ∉ s.queSessionID)
    (found : s.objects (.connector c) = some session) (taken : s.addTCPConnector c added connecting = some (ok, s')) :
    (ok = false ∧ s' = s.setObject (.connector c) { session with alive := false }) ∨
    ∃ id rest, s.queSessionID = id :: rest ∧
      ((ok = false ∧
        s' = (s.rotated id rest).setObject (.connector c) { session with alive := false, sessionID := id }) ∨
      (ok = false ∧ connecting = false ∧
        s' = { (s.rotated id rest).setObject (.connector c) { session with alive := false, sessionID := id } with
          epoll := Function.update s.epoll session.socket (some (.connect c)) }) ∨
      (ok = true ∧ s.epoll session.socket = none ∧
        s' = { s.setObject (.connector c) { session with alive := false, sessionID := id } with
          queSessionID := rest
          issued := s.issued ++ [id]
          epoll := Function.update s.epoll session.socket (some (.connect c))
          attempts := s.attempts ++ [c] })) := by
  cases queue : s.queSessionID with
  | nil =>
    rw [addTCPConnector_unnumbered found queue] at taken
    cases taken
    exact .inl ⟨rfl, rfl⟩
  | cons id rest =>
    refine .inr ⟨id, rest, rfl, ?_⟩
    have nonzero := head_ne_zero positive queue
    by_cases room : added = true ∧ s.epoll session.socket = none
    · rw [addTCPConnector_added nonzero found queue room] at taken
      cases connecting <;> cases taken
      · exact .inr (.inl ⟨rfl, rfl, rfl⟩)
      · exact .inr (.inr ⟨rfl, room.2, rfl⟩)
    · rw [addTCPConnector_refused nonzero found queue room] at taken
      cases taken
      exact .inl ⟨rfl, rfl⟩

theorem acceptRound_opened {listener : Socket} {a : Accepted} {id : SessionID} {rest : List SessionID} (nonzero : id ≠ 0)
    (queue : s.queSessionID = id :: rest) (room : a.added = true ∧ s.epoll a.socket = none) :
    s.acceptRound listener (some a) = some { ((s.emit (.opened a.socket)).opened id rest
        ⟨true, a.socket, .accepted, a.address, some a.socket, id⟩).emit (.onAddConnection id a.socket a.address) with
      epoll := Function.update s.epoll a.socket (some (.read (.heap s.allocated)))
      pc := .acceptCallBack listener } := by
  simp [acceptRound, newSessionID, queue, nonzero, epollAdd, room, setObject, addSession, access, setSession, emit,
    opened]

theorem acceptRound_cases {listener : Socket} {a : Accepted} (positive : 0 ∉ s.queSessionID)
    (taken : s.acceptRound listener (some a) = some s') :
    s' = { (s.emit (.opened a.socket)).destroySocket a.socket with pc := .idle } ∨
    ∃ id rest, s.queSessionID = id :: rest ∧
      (s' = { ((s.emit (.opened a.socket)).rotated id rest).destroySocket a.socket with pc := .idle } ∨
      s' = { ((s.emit (.opened a.socket)).opened id rest
          ⟨true, a.socket, .accepted, a.address, some a.socket, id⟩).emit (.onAddConnection id a.socket a.address) with
        epoll := Function.update s.epoll a.socket (some (.read (.heap s.allocated)))
        pc := .acceptCallBack listener }) := by
  rcases newSessionID_cases (s.emit (.opened a.socket)) with ⟨queue, made⟩ | ⟨id, rest, queue, made⟩
  · simp only [acceptRound] at taken
    rw [made] at taken
    exact .inl (Option.some.inj taken).symm
  · have positive := head_ne_zero positive queue
    refine .inr ⟨id, rest, queue, ?_⟩
    by_cases room : a.added = true ∧ s.epoll a.socket = none
    · rw [acceptRound_opened (s := s) positive queue room] at taken
      exact .inr (Option.some.inj taken).symm
    · left
      simp only [acceptRound] at taken
      rw [made] at taken
      simp [positive, epollAdd, room, freeSessionID, emit] at taken
      exact taken.symm.trans (by simp [rotated, emit])

theorem postConnect_eq {c : Nat} {session : Session} (found : s.objects (.connector c) = some session) :
    s.postConnect c = some { s.emit (.onConnected session.sessionID session.socket) with
      attempts := s.attempts.erase c
      accesses := s.accesses ++ [session.sessionID]
      sessions := Function.update s.sessions session.sessionID (some (.connector c))
      pc := .connectCallBack c } := by
  simp [postConnect, found, addSession, access, setSession, emit]

theorem connected_cases {c : Nat} {session : Session} {changed : Bool} (found : s.objects (.connector c) = some session)
    (connect : session.sockType = .connect) (taken : s.connected c changed = some s') :
    (changed = true ∧ (s.epoll session.socket).isSome ∧ s' = s.confirmed c session) ∨
    s' = { (s.destroySocket session.socket).emit (.onConnectFail session.sessionID session.socket) with
      pc := .lastCallBack } := by
  by_cases room : changed = true ∧ (s.epoll session.socket).isSome
  · simp [connected, found, epollMod, room, setObject] at taken
    exact .inl ⟨room.1, room.2, taken.symm⟩
  · simp [connected, found, epollMod, room, onSessionDrop, destroySocket, emit, connect] at taken
    exact .inr (taken.symm.trans (by simp [destroySocket, emit]))

theorem postRead_delivered {p : SessionPtr} {session : Session} {chunks : List (List Byte)} {ending : ReadEnd}
    (found : s.objects p = some session) (delivered : ending ≠ .error) : s.postRead p chunks ending =
      some { s.emit (.onData session.sessionID session.socket (readLoop chunks).1 (readLoop chunks).2.toInt) with
        pc := .lastCallBack } := by
  simp [postRead, found, delivered]

theorem postRead_cases {p : SessionPtr} {session : Session} {chunks : List (List Byte)} {ending : ReadEnd}
    (found : s.objects p = some session) (taken : s.postRead p chunks ending = some s') :
    (ending = .error ∧ session.sockType = .connect ∧
      s' = { (s.epollDel session.socket).emit (.onConnectFail session.sessionID session.socket) with
        pc := .lastCallBack }) ∨
    (ending = .error ∧ session.sockType ≠ .connect ∧
      s' = { (s.epollDel session.socket).emit (.onConnectionDrop session.sessionID session.socket) with
        pc := .dropCallBack p }) ∨
    (ending ≠ .error ∧
      s' = { s.emit (.onData session.sessionID session.socket (readLoop chunks).1 (readLoop chunks).2.toInt) with
        pc := .lastCallBack }) := by
  by_cases error : ending = .error
  · by_cases connect : session.sockType = .connect
    · simp [postRead, found, error, onSessionDrop, epollDel, connect] at taken
      exact .inl ⟨error, connect, taken.symm⟩
    · simp [postRead, found, error, onSessionDrop, epollDel, connect] at taken
      exact .inr (.inl ⟨error, connect, taken.symm⟩)
  · rw [postRead_delivered found error] at taken
    exact .inr (.inr ⟨error, (Option.some.inj taken).symm⟩)

theorem receiveRound_cases {listener : Socket} {data : List Byte} {d : Datagram} (positive : 0 ∉ s.queSessionID)
    (taken : s.receiveRound listener data (some d) = some s') :
    s' = { s with pc := .idle } ∨
    (s.getUDPSessionID d.address ≠ 0 ∧
      s' = { s.emit (.onData (s.getUDPSessionID d.address) listener (receive data d.bytes) d.bytes.length) with
        pc := .dataCallBack listener (receive data d.bytes) }) ∨
    ∃ id rest, s.queSessionID = id :: rest ∧ s.getUDPSessionID d.address = 0 ∧ d.bytes ≠ [] ∧
      s' = { ((s.setUDPSessionID d.address id).opened id rest
          ⟨true, listener, .udp, d.address, some listener, id⟩).emit (.onAddConnection id listener d.address) with
        pc := .openCallBack listener (receive data d.bytes) id d.bytes.length } := by
  by_cases empty : d.bytes = []
  · simp [receiveRound, empty] at taken
    exact .inl taken.symm
  · by_cases unknown : s.getUDPSessionID d.address = 0
    · simp only [receiveRound, List.length_eq_zero_iff, empty, if_false, unknown, if_true] at taken
      rcases newSessionID_cases s with ⟨queue, made⟩ | ⟨id, rest, queue, made⟩
      · rw [made] at taken
        exact .inl (Option.some.inj taken).symm
      · have positive := head_ne_zero positive queue
        rw [made] at taken
        simp [positive, setUDPSessionID, setObject, addSession, access, setSession, emit] at taken
        refine .inr (.inr ⟨id, rest, queue, unknown, empty, taken.symm.trans ?_⟩)
        simp [opened, setUDPSessionID, emit, positive]
    · simp [receiveRound, empty, unknown] at taken
      exact .inr (.inl ⟨unknown, taken.symm⟩)

/-! ### Calls of the user do not move the loop -/

theorem closeSock_pc {p : SessionPtr} (taken : s.closeSock p = some s') : s'.pc = s.pc := by
  obtain ⟨session, found, _⟩ := Option.bind_eq_some_iff.mp taken
  rcases closeSock_cases found taken with rfl | ⟨sock, _, rfl⟩ <;> rfl

theorem delSession_pc {p : SessionPtr} (taken : s.delSession p = some s') : s'.pc = s.pc := by
  obtain ⟨session, found, _⟩ := Option.bind_eq_some_iff.mp taken
  rcases delSession_cases found taken with ⟨_, rfl⟩ | ⟨stored, session₂, _, _, ⟨_, rfl⟩ | ⟨_, rfl⟩⟩ <;> rfl

theorem kickSession_pc {id : SessionID} (taken : s.kickSession id = some s') : s'.pc = s.pc := by
  cases stored : s.sessions id with
  | none =>
    rw [kickSession_none stored] at taken
    cases Option.some.inj taken
    rfl
  | some p =>
    cases found : s.objects p with
    | none => simp [kickSession, access, emit, stored, found] at taken
    | some session =>
      rw [kickSession_some stored found] at taken
      obtain ⟨t, closed, deleted⟩ := Option.bind_eq_some_iff.mp taken
      have unmoved : t.pc = s.pc := by
        split at closed
        · exact closeSock_pc (s := (s.access id).emit (.kick id)) closed
        · cases Option.some.inj closed
          rfl
      exact (delSession_pc deleted).trans unmoved

theorem addTCPConnector_pc {c : Nat} {added connecting ok : Bool}
    (taken : s.addTCPConnector c added connecting = some (ok, s')) : s'.pc = s.pc := by
  obtain ⟨session, found, _⟩ := Option.bind_eq_some_iff.mp taken
  cases queue : s.queSessionID with
  | nil =>
    rw [addTCPConnector_unnumbered found queue] at taken
    cases taken
    rfl
  | cons id rest =>
    by_cases zero : id = 0
    · simp [addTCPConnector, found, newSessionID, setObject, queue, zero] at taken
      exact taken.2 ▸ rfl
    · by_cases room : added = true ∧ s.epoll session.socket = none
      · rw [addTCPConnector_added zero found queue room] at taken
        cases connecting <;> cases taken <;> rfl
      · rw [addTCPConnector_refused zero found queue room] at taken
        cases taken
        rfl

/-! ### Steps -/

/-- Everything a step can do, with what it needs. -/
inductive Took (s : NetService) : Action → NetService → Prop where
  | newConnector {c sock} (user : s.pc.atUser = true) (free : s.objects (.connector c) = none) :
      s.Took (.newConnector c sock)
        ((s.emit (.opened sock)).setObject (.connector c) ⟨false, sock, .connect, ⟨0, 0⟩, some sock, 0⟩)
  | addTCPListener {listener added} (user : s.pc.atUser = true) :
      s.Took (.addTCPListener listener added) ((s.epollAdd listener (.accept listener) added).getD s)
  | addUDPListener {listener added} (user : s.pc.atUser = true) :
      s.Took (.addUDPListener listener added) ((s.epollAdd listener (.readFrom listener) added).getD s)
  | addTCPConnector {c added connecting ok s'} (user : s.pc.atUser = true)
      (result : s.addTCPConnector c added connecting = some (ok, s')) : s.Took (.addTCPConnector c added connecting) s'
  | kickSession {id s'} (user : s.pc.atUser = true) (issued : id ∈ s.issued) (result : s.kickSession id = some s') :
      s.Took (.kickSession id) s'
  | postAccept {listener} (idle : s.pc = .idle) : s.Took (.postAccept listener) { s with pc := .accepting listener }
  | postConnect {c s'} (idle : s.pc = .idle) (result : s.postConnect c = some s') : s.Took (.postConnect c) s'
  | postRead {p chunks ending s'} (idle : s.pc = .idle) (result : s.postRead p chunks ending = some s') :
      s.Took (.postRead p chunks ending) s'
  | postReadFrom {listener} (idle : s.pc = .idle) :
      s.Took (.postReadFrom listener) { s with pc := .receiving listener emptyBuffer }
  | epollWait {batch} (idle : s.pc = .idle) (polled : s.Polled batch) :
      s.Took (.epollWait batch) { s with events := batch }
  | ignored {chunks ending event rest} (idle : s.pc = .idle) (events : s.events = event :: rest) :
      s.Took (.dispatch chunks ending) { s with events := rest }
  | accepting {chunks ending event rest listener} (idle : s.pc = .idle) (events : s.events = event :: rest)
      (context : event.context = .accept listener) :
      s.Took (.dispatch chunks ending) { s with events := rest, pc := .accepting listener }
  | connecting {chunks ending event rest c s'} (idle : s.pc = .idle) (events : s.events = event :: rest)
      (context : event.context = .connect c) (out : event.epollOut = true)
      (result : { s with events := rest }.postConnect c = some s') : s.Took (.dispatch chunks ending) s'
  | reading {chunks ending event rest p s'} (idle : s.pc = .idle) (events : s.events = event :: rest)
      (context : event.context = .read p) (result : { s with events := rest }.postRead p chunks ending = some s') :
      s.Took (.dispatch chunks ending) s'
  | receiving {chunks ending event rest listener} (idle : s.pc = .idle) (events : s.events = event :: rest)
      (context : event.context = .readFrom listener) :
      s.Took (.dispatch chunks ending) { s with events := rest, pc := .receiving listener emptyBuffer }
  | accept {listener answer s'} (pc : s.pc = .accepting listener) (result : s.acceptRound listener answer = some s') :
      s.Took (.accept answer) s'
  | recvfrom {listener data answer s'} (pc : s.pc = .receiving listener data)
      (result : s.receiveRound listener data answer = some s') : s.Took (.recvfrom answer) s'
  | accepted {changed listener} (pc : s.pc = .acceptCallBack listener) :
      s.Took (.resume changed) { s with pc := .accepting listener }
  | connected {changed c s'} (pc : s.pc = .connectCallBack c) (result : s.connected c changed = some s') :
      s.Took (.resume changed) s'
  | opened {changed listener data id nread} (pc : s.pc = .openCallBack listener data id nread) : s.Took (.resume changed)
      { s.emit (.onData id listener data nread) with pc := .dataCallBack listener data }
  | delivered {changed listener data} (pc : s.pc = .dataCallBack listener data) :
      s.Took (.resume changed) { s with pc := .receiving listener data }
  | dropped {changed p s'} (pc : s.pc = .dropCallBack p) (result : s.delSession p = some s') :
      s.Took (.resume changed) { s' with pc := .idle }
  | returned {changed} (pc : s.pc = .lastCallBack) : s.Took (.resume changed) { s with pc := .idle }

theorem dispatch_took {event : PollEvent} {rest : List PollEvent} {chunks : List (List Byte)} {ending : ReadEnd}
    (idle : s.pc = .idle) (events : s.events = event :: rest)
    (taken : { s with events := rest }.dispatch event chunks ending = some s') : s.Took (.dispatch chunks ending) s' := by
  cases context : event.context with
  | accept listener =>
    simp only [dispatch, context] at taken
    split at taken <;> cases taken
    · exact .accepting idle events context
    · exact .ignored idle events
  | connect c =>
    simp only [dispatch, context] at taken
    split at taken
    · rename_i out
      exact .connecting idle events context out taken
    · cases taken
      exact .ignored idle events
  | read p =>
    simp only [dispatch, context] at taken
    obtain ⟨_, _, taken⟩ := Option.bind_eq_some_iff.mp taken
    split at taken
    · exact .reading idle events context taken
    · cases taken
      exact .ignored idle events
  | readFrom listener =>
    simp only [dispatch, context] at taken
    split at taken <;> cases taken
    · exact .receiving idle events context
    · exact .ignored idle events

theorem resume_took {changed : Bool} (taken : s.resume changed = some s') : s.Took (.resume changed) s' := by
  cases pc : s.pc with
  | acceptCallBack listener =>
    simp only [resume, pc, Option.some.injEq] at taken
    exact taken ▸ .accepted pc
  | connectCallBack c =>
    simp only [resume, pc] at taken
    exact .connected pc taken
  | openCallBack listener data id nread =>
    simp only [resume, pc, Option.some.injEq] at taken
    exact taken ▸ .opened pc
  | dataCallBack listener data =>
    simp only [resume, pc, Option.some.injEq] at taken
    exact taken ▸ .delivered pc
  | dropCallBack p =>
    simp only [resume, pc] at taken
    obtain ⟨t, deleted, taken⟩ := Option.bind_eq_some_iff.mp taken
    cases taken
    exact .dropped pc deleted
  | lastCallBack =>
    simp only [resume, pc, Option.some.injEq] at taken
    exact taken ▸ .returned pc
  | _ => simp [resume, pc] at taken

theorem step_took {action : Action} (taken : s.step action = some s') : s.Took action s' := by
  cases action with
  | newConnector c sock =>
    simp only [step] at taken
    split at taken <;> cases taken
    rename_i free
    rw [Bool.and_eq_true_iff, Option.isNone_iff_eq_none] at free
    exact .newConnector free.1 free.2
  | addTCPListener listener added =>
    simp only [step] at taken
    split at taken <;> cases taken
    exact .addTCPListener ‹_›
  | addUDPListener listener added =>
    simp only [step] at taken
    split at taken <;> cases taken
    exact .addUDPListener ‹_›
  | addTCPConnector c added connecting =>
    simp only [step] at taken
    split at taken
    · obtain ⟨⟨ok, t⟩, result, rfl⟩ := Option.map_eq_some_iff.mp taken
      exact .addTCPConnector ‹_› result
    · cases taken
  | kickSession id =>
    simp only [step] at taken
    split at taken
    · rename_i issued
      rw [Bool.and_eq_true_iff, List.contains_iff_mem] at issued
      exact .kickSession issued.1 issued.2 taken
    · cases taken
  | postAccept listener =>
    simp only [step] at taken
    split at taken <;> cases taken
    exact .postAccept ‹_›
  | postConnect c =>
    simp only [step] at taken
    split at taken
    · exact .postConnect ‹_› taken
    · cases taken
  | postRead p chunks ending =>
    simp only [step] at taken
    split at taken
    · exact .postRead ‹_› taken
    · cases taken
  | postReadFrom listener =>
    simp only [step] at taken
    split at taken <;> cases taken
    exact .postReadFrom ‹_›
  | epollWait batch =>
    simp only [step] at taken
    split at taken <;> cases taken
    rename_i polled
    exact .epollWait polled.1 polled.2.2
  | dispatch chunks ending =>
    simp only [step] at taken
    split at taken
    · exact dispatch_took ‹_› ‹_› taken
    · cases taken
  | accept answer =>
    simp only [step] at taken
    split at taken
    · exact .accept ‹_› taken
    · cases taken
  | recvfrom answer =>
    simp only [step] at taken
    split at taken
    · exact .recvfrom ‹_› taken
    · cases taken
  | resume changed => exact resume_took taken

end NetService

end LiteServer.Net
