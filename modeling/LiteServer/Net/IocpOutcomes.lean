import LiteServer.Net.IocpService
import LiteServer.Net.Outcomes

/-!
What the steps of the IOCP backend can do: the states they lead to, with every
field they change.
-/
namespace LiteServer.Net

/-- A socket was created or closed. -/
def Event.ofSocket (event : Event) : Prop := ∃ sock, event = .opened sock ∨ event = .closed sock

namespace IocpService
variable {s s' : IocpService}

/-- Only sockets for accepts were created, posted and closed. -/
structure Aside (s s' : IocpService) : Prop where
  net : ∃ more, s'.net = { s.net with trace := s.net.trace ++ more } ∧ ∀ event ∈ more, event.ofSocket
  receives : s'.receives = s.receives
  pc : s'.pc = s.pc

theorem Aside.refl : s.Aside s := ⟨⟨[], by simp, by simp⟩, rfl, rfl⟩

theorem Aside.trans {s'' : IocpService} (first : s.Aside s') (second : s'.Aside s'') : s.Aside s'' := by
  obtain ⟨more, net, sockets⟩ := first.net
  obtain ⟨more', net', sockets'⟩ := second.net
  refine ⟨⟨more ++ more', ?_, ?_⟩, second.receives.trans first.receives, second.pc.trans first.pc⟩
  · rw [net', net, List.append_assoc]
  · intro event member
    exact (List.mem_append.mp member).elim (sockets event) (sockets' event)

theorem postAccept_aside (s : IocpService) (listener : Socket) (created : Option Accepting) :
    s.Aside (s.postAccept listener created).2 := by
  cases created with
  | none => exact .refl
  | some a =>
    by_cases posted : a.posted = true
    · simp only [postAccept, posted, if_true]
      exact ⟨⟨[.opened a.socket], rfl, by simp [Event.ofSocket]⟩, rfl, rfl⟩
    · simp only [postAccept, posted]
      exact ⟨⟨[.opened a.socket, .closed a.socket], by simp [NetService.emit], by simp [Event.ofSocket]⟩, rfl, rfl⟩

theorem postAccepts_aside (listener : Socket) (rest : List (Option Accepting)) (s : IocpService) :
    s.Aside (rest.foldl (fun s created => (s.postAccept listener created).2) s) := by
  induction rest generalizing s with
  | nil => exact .refl
  | cons created rest ih => exact (s.postAccept_aside listener created).trans (ih _)

theorem addTCPListener_aside (s : IocpService) (listener : Socket) (first : Option Accepting)
    (rest : List (Option Accepting)) : s.Aside (s.addTCPListener listener first rest).2 := by
  by_cases ret : (s.postAccept listener first).1 = true
  · simp only [addTCPListener, ret, if_true]
    exact (s.postAccept_aside listener first).trans (postAccepts_aside listener rest _)
  · simp only [addTCPListener, ret]
    exact s.postAccept_aside listener first

theorem rearm_aside (s : IocpService) (listener : Socket) (next : Option Accepting) :
    s.Aside (s.rearm listener next) := by
  obtain ⟨net, receives, pc⟩ := s.postAccept_aside listener next
  by_cases ret : (s.postAccept listener next).1 = true
  · simp only [rearm, ret, if_true]
    exact ⟨net, receives, pc⟩
  · simp only [rearm, ret]
    exact ⟨net, receives, pc⟩

theorem postReadFrom_aside (s : IocpService) (listener : Socket) (posted : Bool) :
    s.Aside (s.postReadFrom listener posted).2 := by
  cases posted <;> exact ⟨⟨[], by simp [postReadFrom], by simp⟩, rfl, rfl⟩

/-! ### Steps -/

/-- The session of an accepted connection, and of a peer. -/
def acceptedOn (sock : Socket) (address : SockAddr) (id : SessionID) : Session :=
  ⟨true, sock, .accepted, address, some sock, id⟩
def peerOn (listener : Socket) (address : SockAddr) (id : SessionID) : Session :=
  ⟨true, listener, .udp, address, some listener, id⟩

/-- The buffer that a callback is given. -/
def handed (bytes : List Byte) : List Byte := receive (List.replicate receiveSize 0) bytes

/-- Everything a step can do, with what it needs. -/
inductive Took (s : IocpService) : IocpAction → IocpService → Prop where
  | newConnector {c sock} (free : s.net.objects (.connector c) = none) : s.Took (.newConnector c sock) { s with
      net := (s.net.emit (.opened sock)).setObject (.connector c) ⟨false, sock, .connect, ⟨0, 0⟩, some sock, 0⟩ }
  | addTCPListener {listener first rest t} (added : t = (s.addTCPListener listener first rest).2) :
      s.Took (.addTCPListener listener first rest) { t with
        started := Function.update s.started listener
          (s.started listener + (t.outstanding listener - s.outstanding listener)) }
  | addUDPListener {listener posted} :
      s.Took (.addUDPListener listener posted) (s.postReadFrom listener posted).2
  | unnumbered {c posted session} (found : s.net.objects (.connector c) = some session) :
      s.Took (.addTCPConnector c posted)
        { s with net := s.net.setObject (.connector c) { session with alive := false } }
  | unposted {c posted session id rest} (found : s.net.objects (.connector c) = some session)
      (front : s.net.queSessionID = id :: rest) : s.Took (.addTCPConnector c posted) { s with
        net := (s.net.rotated id rest).setObject (.connector c) { session with alive := false, sessionID := id } }
  | attempted {c session id rest} (found : s.net.objects (.connector c) = some session)
      (front : s.net.queSessionID = id :: rest) : s.Took (.addTCPConnector c true) { s with
        net := { s.net.setObject (.connector c) { session with alive := false, sessionID := id } with
          queSessionID := rest
          issued := s.net.issued ++ [id]
          attempts := s.net.attempts ++ [c] } }
  | kickSession {id net} (issued : id ∈ s.net.issued) (result : s.net.kickSession id = some net) :
      s.Took (.kickSession id) { s with net }
  | unaccepted {listener sock address associated next} (idle : s.pc = .idle) (armed : (listener, sock) ∈ s.accepts) :
      s.Took (.accepted listener sock address associated next)
        ({ s with accepts := s.accepts.erase (listener, sock), net := s.net.destroySocket sock }.rearm listener next)
  | unassociated {listener sock address associated next id rest} (idle : s.pc = .idle)
      (armed : (listener, sock) ∈ s.accepts) (front : s.net.queSessionID = id :: rest) :
      s.Took (.accepted listener sock address associated next)
        ({ s with
          accepts := s.accepts.erase (listener, sock)
          net := (s.net.rotated id rest).destroySocket sock }.rearm listener next)
  | accepted {listener sock address associated next id rest} (idle : s.pc = .idle)
      (armed : (listener, sock) ∈ s.accepts) (front : s.net.queSessionID = id :: rest) :
      s.Took (.accepted listener sock address associated next) { s with
        accepts := s.accepts.erase (listener, sock)
        net := (s.net.opened id rest (acceptedOn sock address id)).emit (.onAddConnection id sock address)
        pc := .acceptCallBack listener (.heap s.net.allocated) }
  | closed {p session} (idle : s.pc = .idle) (armed : p ∈ s.receives) (found : s.net.objects p = some session)
      (heap : session.sockType ≠ .connect) : s.Took (.received p []) { s with
        receives := s.receives.erase p
        net := { s.net.emit (.onConnectionDrop session.sessionID session.socket) with pc := .idle }
        pc := .dropCallBack p }
  | closedConnector {p session} (idle : s.pc = .idle) (armed : p ∈ s.receives) (found : s.net.objects p = some session)
      (connect : session.sockType = .connect) : s.Took (.received p []) { s with
        receives := s.receives.erase p
        net := { s.net.emit (.onConnectFail session.sessionID session.socket) with pc := .idle }
        pc := .failCallBack }
  | received {p session buf} (idle : s.pc = .idle) (armed : p ∈ s.receives) (found : s.net.objects p = some session)
      (bytes : buf ≠ []) : s.Took (.received p buf) { s with
        receives := s.receives.erase p
        net := s.net.emit (.onData session.sessionID session.socket (handed buf) buf.length)
        pc := .dataCallBack p }
  | unserved {listener datagram posted} (idle : s.pc = .idle) (armed : listener ∈ s.receivesFrom) :
      s.Took (.receivedFrom listener datagram posted)
        ({ s with receivesFrom := s.receivesFrom.erase listener }.postReadFrom listener posted).2
  | known {listener datagram posted} (idle : s.pc = .idle) (armed : listener ∈ s.receivesFrom)
      (bytes : datagram.bytes ≠ []) (known : s.net.getUDPSessionID datagram.address ≠ 0) :
      s.Took (.receivedFrom listener datagram posted) { s with
        receivesFrom := s.receivesFrom.erase listener
        net := s.net.emit (.onData (s.net.getUDPSessionID datagram.address) listener (handed datagram.bytes)
          datagram.bytes.length)
        pc := .datagramCallBack listener }
  | served {listener datagram posted id rest} (idle : s.pc = .idle) (armed : listener ∈ s.receivesFrom)
      (bytes : datagram.bytes ≠ []) (unknown : s.net.getUDPSessionID datagram.address = 0)
      (front : s.net.queSessionID = id :: rest) :
      s.Took (.receivedFrom listener datagram posted) { s with
        receivesFrom := s.receivesFrom.erase listener
        net := ((s.net.setUDPSessionID datagram.address id).opened id rest (peerOn listener datagram.address id)).emit
          (.onAddConnection id listener datagram.address)
        pc := .openCallBack listener (handed datagram.bytes) id datagram.bytes.length }
  | connected {c session} (idle : s.pc = .idle) (trying : c ∈ s.net.attempts)
      (found : s.net.objects (.connector c) = some session) : s.Took (.connected c) { s with
        net := { s.net.emit (.onConnected session.sessionID session.socket) with
          attempts := s.net.attempts.erase c
          accesses := s.net.accesses ++ [session.sessionID]
          sessions := Function.update s.net.sessions session.sessionID (some (.connector c)) }
        pc := .connectCallBack c }
  | failed {operation t} (idle : s.pc = .idle) (result : s.dequeue operation = some t) : s.Took (.failed operation) t
  | acceptReturned {posted next listener p session} (pc : s.pc = .acceptCallBack listener p)
      (found : s.net.objects p = some session) : s.Took (.resume posted next)
        ({ s with receives := if posted then s.receives ++ [p] else s.receives, pc := .idle }.rearm listener next)
  | connectReturned {next c session} (pc : s.pc = .connectCallBack c)
      (found : s.net.objects (.connector c) = some session) : s.Took (.resume true next) { s with
        receives := s.receives ++ [.connector c]
        net := s.net.setObject (.connector c) { session with alive := true }
        pc := .idle }
  | connectRefused {next c session} (pc : s.pc = .connectCallBack c)
      (found : s.net.objects (.connector c) = some session) (connect : session.sockType = .connect) :
      s.Took (.resume false next) { s with
        net := { (s.net.destroySocket session.socket).emit (.onConnectFail session.sessionID session.socket) with
          pc := .idle }
        pc := .connectFailCallBack c }
  | connectFailed {posted next c session} (pc : s.pc = .connectFailCallBack c)
      (found : s.net.objects (.connector c) = some session) : s.Took (.resume posted next) { s with
        net := s.net.setObject (.connector c) { session with alive := true }
        pc := .idle }
  | dataReturned {posted next p session} (pc : s.pc = .dataCallBack p) (found : s.net.objects p = some session) :
      s.Took (.resume posted next)
        { s with receives := if posted then s.receives ++ [p] else s.receives, pc := .idle }
  | dropped {posted next p net} (pc : s.pc = .dropCallBack p) (result : s.net.delSession p = some net) :
      s.Took (.resume posted next) { s with net, pc := .idle }
  | failReturned {posted next} (pc : s.pc = .failCallBack) : s.Took (.resume posted next) { s with pc := .idle }
  | openReturned {posted next listener data id size} (pc : s.pc = .openCallBack listener data id size) :
      s.Took (.resume posted next) { s with
        net := s.net.emit (.onData id listener data size)
        pc := .datagramCallBack listener }
  | datagramReturned {posted next listener} (pc : s.pc = .datagramCallBack listener) :
      s.Took (.resume posted next) { (s.postReadFrom listener posted).2 with pc := .idle }

theorem addTCPConnector_took {c : Nat} {posted ok : Bool} (positive : 0 ∉ s.net.queSessionID)
    (taken : s.addTCPConnector c posted = some (ok, s')) : s.Took (.addTCPConnector c posted) s' := by
  obtain ⟨session, found, taken⟩ := Option.bind_eq_some_iff.mp taken
  let t := s.net.setObject (.connector c) { session with alive := false }
  rcases NetService.newSessionID_cases t with ⟨queue, made⟩ | ⟨id, rest, front, made⟩
  · simp only [show s.net.setObject (.connector c) { session with alive := false } = t from rfl, made] at taken
    cases taken
    exact .unnumbered found
  · have nonzero := NetService.head_ne_zero positive front
    simp only [show s.net.setObject (.connector c) { session with alive := false } = t from rfl, made] at taken
    cases posted with
    | true =>
      simp [nonzero, NetService.setObject, t] at taken
      exact taken.2 ▸ .attempted found front
    | false =>
      simp [nonzero, NetService.setObject, NetService.freeSessionID, t] at taken
      exact taken.2 ▸ .unposted found front

theorem doAccpet_took {listener sock : Socket} {address : SockAddr} {associated : Bool} {next : Option Accepting}
    (positive : 0 ∉ s.net.queSessionID) (idle : s.pc = .idle) (armed : (listener, sock) ∈ s.accepts)
    (taken : { s with accepts := s.accepts.erase (listener, sock) }.doAccpet listener sock address associated next =
      some s') : s.Took (.accepted listener sock address associated next) s' := by
  rcases s.net.newSessionID_cases with ⟨queue, made⟩ | ⟨id, rest, front, made⟩
  · simp only [doAccpet, made] at taken
    cases taken
    exact .unaccepted idle armed
  · have nonzero := NetService.head_ne_zero positive front
    cases associated with
    | true =>
      simp [doAccpet, made, nonzero, NetService.setObject, NetService.addSession, NetService.access,
        NetService.setSession, NetService.emit] at taken
      exact taken ▸ .accepted idle armed front
    | false =>
      simp [doAccpet, made, nonzero] at taken
      exact taken ▸ .unassociated idle armed front

theorem onSessionDrop_cases {p : SessionPtr} {session : Session} {failed : IocpPc} (found : s.net.objects p = some session)
    (taken : s.onSessionDrop p failed = some s') :
    (session.sockType = .connect ∧ s' = { s with
      net := { s.net.emit (.onConnectFail session.sessionID session.socket) with pc := .idle }
      pc := failed }) ∨
    (session.sockType ≠ .connect ∧ s' = { s with
      net := { s.net.emit (.onConnectionDrop session.sessionID session.socket) with pc := .idle }
      pc := .dropCallBack p }) := by
  by_cases connect : session.sockType = .connect
  · simp [onSessionDrop, NetService.onSessionDrop, found, connect] at taken
    exact .inl ⟨connect, taken.symm⟩
  · simp [onSessionDrop, NetService.onSessionDrop, found, connect] at taken
    exact .inr ⟨connect, taken.symm⟩

theorem doRead_took {p : SessionPtr} {buf : List Byte} (idle : s.pc = .idle) (armed : p ∈ s.receives)
    (taken : { s with receives := s.receives.erase p }.doRead p buf = some s') : s.Took (.received p buf) s' := by
  obtain ⟨session, found, taken⟩ := Option.bind_eq_some_iff.mp taken
  by_cases empty : buf = []
  · subst empty
    simp only [List.length_nil, if_true] at taken
    rcases onSessionDrop_cases found taken with ⟨connect, rfl⟩ | ⟨heap, rfl⟩
    · exact .closedConnector idle armed found connect
    · exact .closed idle armed found heap
  · simp only [List.length_eq_zero_iff, empty, if_false] at taken
    cases taken
    exact .received idle armed found empty

theorem doReadFrom_took {listener : Socket} {datagram : Datagram} {posted : Bool} (positive : 0 ∉ s.net.queSessionID)
    (idle : s.pc = .idle) (armed : listener ∈ s.receivesFrom)
    (taken : { s with receivesFrom := s.receivesFrom.erase listener }.doReadFrom listener datagram posted = some s') :
    s.Took (.receivedFrom listener datagram posted) s' := by
  by_cases empty : datagram.bytes = []
  · simp only [doReadFrom, empty, List.length_nil, if_true] at taken
    cases taken
    exact .unserved idle armed
  · by_cases unknown : s.net.getUDPSessionID datagram.address = 0
    · simp only [doReadFrom, List.length_eq_zero_iff, empty, if_false, unknown, if_true] at taken
      rcases s.net.newSessionID_cases with ⟨queue, made⟩ | ⟨id, rest, front, made⟩
      · rw [made] at taken
        cases taken
        exact .unserved idle armed
      · have nonzero := NetService.head_ne_zero positive front
        rw [made] at taken
        simp [nonzero, NetService.setUDPSessionID, NetService.setObject, NetService.addSession, NetService.access,
          NetService.setSession, NetService.emit] at taken
        refine taken ▸ ?_
        convert Took.served idle armed empty unknown front using 1
        simp [NetService.opened, NetService.setUDPSessionID, NetService.emit, nonzero, handed, peerOn]
    · simp only [doReadFrom, List.length_eq_zero_iff, empty, if_false, unknown] at taken
      cases taken
      exact .known idle armed empty unknown

theorem postRead_cases {p : SessionPtr} {posted : Bool} (taken : s.postRead p posted = some s') :
    ∃ session, s.net.objects p = some session ∧
      s' = { s with receives := if posted then s.receives ++ [p] else s.receives } := by
  obtain ⟨io, read, same⟩ := Option.bind_eq_some_iff.mp taken
  obtain ⟨session, found, read⟩ := Option.bind_eq_some_iff.mp read
  cases same
  cases posted <;> cases read <;> exact ⟨session, found, rfl⟩

theorem connected_took {c : Nat} {posted : Bool} {next : Option Accepting} (pc : s.pc = .connectCallBack c)
    (connectors : ∀ session, s.net.objects (.connector c) = some session → session.sockType = .connect)
    (taken : s.connected c posted = some s') : s.Took (.resume posted next) s' := by
  obtain ⟨session, found, taken⟩ := Option.bind_eq_some_iff.mp taken
  obtain ⟨t, read, taken⟩ := Option.bind_eq_some_iff.mp taken
  obtain ⟨_, _, rfl⟩ := postRead_cases read
  cases posted with
  | true =>
    simp [setAlive, found] at taken
    exact taken ▸ .connectReturned pc found
  | false =>
    simp only [Bool.false_eq_true, if_false] at taken
    let closed : IocpService := { s with net := s.net.destroySocket session.socket }
    rcases onSessionDrop_cases (s := closed) found taken with ⟨connect, rfl⟩ | ⟨heap, _⟩
    · exact .connectRefused pc found connect
    · exact absurd (connectors session found) heap

theorem resume_took {posted : Bool} {next : Option Accepting}
    (connectors : ∀ c session, s.net.objects (.connector c) = some session → session.sockType = .connect)
    (taken : s.resume posted next = some s') : s.Took (.resume posted next) s' := by
  cases pc : s.pc with
  | idle => simp [resume, pc] at taken
  | acceptCallBack listener p =>
    simp only [resume, pc] at taken
    obtain ⟨t, read, taken⟩ := Option.bind_eq_some_iff.mp taken
    obtain ⟨session, found, rfl⟩ := postRead_cases read
    cases taken
    exact .acceptReturned pc found
  | connectCallBack c =>
    simp only [resume, pc] at taken
    exact connected_took pc (connectors c) taken
  | connectFailCallBack c =>
    simp only [resume, pc] at taken
    obtain ⟨session, found, taken⟩ := Option.bind_eq_some_iff.mp taken
    cases taken
    exact .connectFailed pc found
  | dataCallBack p =>
    simp only [resume, pc] at taken
    obtain ⟨t, read, taken⟩ := Option.bind_eq_some_iff.mp taken
    obtain ⟨session, found, rfl⟩ := postRead_cases read
    cases taken
    exact .dataReturned pc found
  | dropCallBack p =>
    simp only [resume, pc] at taken
    obtain ⟨net, result, taken⟩ := Option.bind_eq_some_iff.mp taken
    cases taken
    exact .dropped pc result
  | failCallBack =>
    simp only [resume, pc, Option.some.injEq] at taken
    exact taken ▸ .failReturned pc
  | openCallBack listener data id size =>
    simp only [resume, pc, Option.some.injEq] at taken
    exact taken ▸ .openReturned pc
  | datagramCallBack listener =>
    simp only [resume, pc, Option.some.injEq] at taken
    exact taken ▸ .datagramReturned pc

theorem doConnect_took {c : Nat} (idle : s.pc = .idle) (trying : c ∈ s.net.attempts)
    (taken : { s with net := { s.net with attempts := s.net.attempts.erase c } }.doConnect c = some s') :
    s.Took (.connected c) s' := by
  obtain ⟨session, found, taken⟩ := Option.bind_eq_some_iff.mp taken
  have found : s.net.objects (.connector c) = some session := found
  simp [NetService.addSession, found, NetService.access, NetService.setSession, NetService.emit] at taken
  exact taken ▸ .connected idle trying found

theorem step_took {action : IocpAction} (positive : 0 ∉ s.net.queSessionID)
    (connectors : ∀ c session, s.net.objects (.connector c) = some session → session.sockType = .connect)
    (taken : s.step action = some s') : s.Took action s' := by
  cases action with
  | newConnector c sock =>
    simp only [step] at taken
    split at taken <;> cases taken
    exact .newConnector (Option.isNone_iff_eq_none.mp ‹_›)
  | addTCPListener listener first rest =>
    simp only [step] at taken
    split at taken <;> cases taken
    exact .addTCPListener rfl
  | addUDPListener listener posted =>
    cases taken
    exact .addUDPListener
  | addTCPConnector c posted =>
    obtain ⟨⟨ok, t⟩, result, rfl⟩ := Option.map_eq_some_iff.mp taken
    exact addTCPConnector_took positive result
  | kickSession id =>
    simp only [step] at taken
    split at taken
    · obtain ⟨net, result, rfl⟩ := Option.map_eq_some_iff.mp taken
      exact .kickSession (List.contains_iff_mem.mp ‹_›) result
    · cases taken
  | accepted listener sock address associated next =>
    simp only [step, dequeue] at taken
    split at taken
    · split at taken
      · exact doAccpet_took positive ‹_› ‹_› taken
      · cases taken
    · cases taken
  | received p buf =>
    simp only [step, dequeue] at taken
    split at taken
    · split at taken
      · exact doRead_took ‹_› ‹_› taken
      · cases taken
    · cases taken
  | receivedFrom listener datagram posted =>
    simp only [step, dequeue] at taken
    split at taken
    · split at taken
      · exact doReadFrom_took positive ‹_› ‹_› taken
      · cases taken
    · cases taken
  | connected c =>
    simp only [step, dequeue] at taken
    split at taken
    · split at taken
      · exact doConnect_took ‹_› ‹_› taken
      · cases taken
    · cases taken
  | failed operation =>
    simp only [step] at taken
    split at taken
    · exact .failed ‹_› taken
    · cases taken
  | resume posted next => exact resume_took connectors taken

end IocpService

end LiteServer.Net
