import LiteServer.Net.Iocp
import LiteServer.Net.Outcomes

/-!
What the two backends do when a peer closes its connection. `DoRead` takes the
receive of no bytes for the end of the session; `PostRead` gives it to `OnData`.
-/
namespace LiteServer.Net

namespace NetService
variable {s s' : NetService} {p : SessionPtr} {session : Session} {chunks : List (List Byte)}

/-- An accepted session in the table. -/
structure Live (s : NetService) (p : SessionPtr) (session : Session) : Prop where
  found : s.objects p = some session
  stored : s.sessions session.sessionID = some p
  accepted : session.sockType = .accepted
  opened : session.sock = some session.socket

/-- What the end of a session has to do. -/
structure Ended (session : Session) (s s' : NetService) : Prop where
  events : ∃ events, s'.trace = s.trace ++ events ∧
    events.count (.onConnectionDrop session.sessionID session.socket) = 1 ∧
    (∀ data, .onData session.sessionID session.socket data 0 ∉ events) ∧ .closed session.socket ∈ events
  removed : s'.sessions session.sessionID = none
  freed : s'.queSessionID = s.queSessionID ++ [session.sessionID]

/-- The wake-up of a session that ends with the close of its peer. -/
def epollClose (s : NetService) (p : SessionPtr) (chunks : List (List Byte)) : Option NetService := do
  (← s.postRead p chunks .eof).resume false

/-- The same chunks and the close as completions of receives. -/
def iocpClose (s : NetService) (p : SessionPtr) (chunks : List (List Byte)) : Option NetService :=
  ((⟨s, []⟩ : Iocp).reads p (chunks ++ [[]])).map Iocp.net

/-- Both backends end the session, in the same state. -/
def EndsAlike (s : NetService) (p : SessionPtr) (session : Session) (chunks : List (List Byte)) : Prop :=
  ∃ epoll iocp, s.epollClose p chunks = some epoll ∧ s.iocpClose p chunks = some iocp ∧
    Ended session s epoll ∧ Ended session s iocp ∧
    epoll.objects = iocp.objects ∧ epoll.sessions = iocp.sessions ∧ epoll.queSessionID = iocp.queSessionID

/-- On epoll the session stays as it was, and `OnData` is all that happens. -/
theorem epollClose_eq (live : s.Live p session) : s.epollClose p chunks =
    some { s.emit (.onData session.sessionID session.socket (readLoop chunks).1 (readLoop chunks).2.toInt) with
      pc := .idle } := by
  simp [epollClose, postRead_delivered live.found, resume]

end NetService

namespace Iocp
variable {s : Iocp} {p : SessionPtr} {session : Session}

/-- Bytes of a live session change nothing but the trace. -/
theorem doRead_data (found : s.net.objects p = some session) {buf : List Byte} (nonempty : buf ≠ []) :
    s.doRead p buf true = some ⟨{ s.net.emit (.onData session.sessionID session.socket
      (receive (List.replicate receiveSize 0) buf) buf.length) with pc := .idle }, s.receives ++ [p]⟩ := by
  simp [doRead, found, nonempty, NetService.resume, postRead, NetService.emit]

theorem doRead_close (live : s.net.Live p session) : ∃ net, s.doRead p [] true = some ⟨net, s.receives⟩ ∧
    NetService.Ended session s.net net := by
  let t : NetService := { s.net.emit (.onConnectionDrop session.sessionID session.socket) with pc := .dropCallBack p }
  have dropped : s.net.onSessionDrop p = some t := by simp [NetService.onSessionDrop, live.found, live.accepted, t]
  have deleted : t.delSession p = some (t.removed p session) :=
    NetService.delSession_eq live.found live.stored (.inl live.accepted)
  have closing : session.closing = some session.socket := by rw [Session.closing, if_pos live.accepted, live.opened]
  refine ⟨{ t.removed p session with pc := .idle }, ?_, ?_, Function.update_self .., rfl⟩
  · simp [doRead, live.found, dropped, NetService.resume, show t.pc = .dropCallBack p from rfl, deleted]
  · refine ⟨[.onConnectionDrop session.sessionID session.socket, .closed session.socket], ?_, ?_, ?_, ?_⟩
    · simp [NetService.removed, closing, t, NetService.emit]
    · simp
    · simp
    · simp

/-- However many bytes came before it, a receive of none ends the session. -/
theorem reads_close (live : s.net.Live p session) {chunks : List (List Byte)} (nonempty : ∀ chunk ∈ chunks, chunk ≠ []) :
    ∃ s', s.reads p (chunks ++ [[]]) = some s' ∧ NetService.Ended session s.net s'.net := by
  induction chunks generalizing s with
  | nil =>
    obtain ⟨net, taken, ended⟩ := doRead_close live
    exact ⟨⟨net, s.receives⟩, by simp [reads, taken], ended⟩
  | cons chunk chunks ih =>
    obtain ⟨here, rest⟩ := List.forall_mem_cons.mp nonempty
    let onData := Event.onData session.sessionID session.socket (receive (List.replicate receiveSize 0) chunk) chunk.length
    let t : Iocp := ⟨{ s.net.emit onData with pc := .idle }, s.receives ++ [p]⟩
    have taken : s.doRead p chunk true = some t := doRead_data live.found here
    obtain ⟨s', ran, ended⟩ := ih (s := t) ⟨live.found, live.stored, live.accepted, live.opened⟩ rest
    refine ⟨s', by simpa [reads, taken] using ran, ?_, ended.removed, ended.freed⟩
    obtain ⟨events, trace, once, filled, closed⟩ := ended.events
    refine ⟨onData :: events, trace.trans (List.append_cons ..).symm, ?_, ?_, List.mem_cons_of_mem _ closed⟩
    · rw [List.count_cons_of_ne (by simp), once]
    · intro data member
      rcases List.mem_cons.mp member with same | later
      · obtain ⟨_, _, _, size⟩ := Event.onData.inj same
        exact here (List.length_eq_zero_iff.mp (Int.natCast_eq_zero.mp size.symm))
      · exact filled data later

end Iocp

namespace NetService
variable {p : SessionPtr} {session : Session} {chunks : List (List Byte)}

/-- For no history do the backends end the session alike: on epoll it stays. -/
theorem peer_close_never_ends_alike (s : NetService) (p : SessionPtr) (session : Session) (live : s.Live p session)
    (chunks : List (List Byte)) : ¬ s.EndsAlike p session chunks := by
  rintro ⟨epoll, iocp, closed, _, ended, _⟩
  rw [epollClose_eq live] at closed
  cases Option.some.inj closed
  have gone : s.sessions session.sessionID = none := ended.removed
  rw [live.stored] at gone
  cases gone

theorem accepted_live : ∃ s, Reachable (fun _ _ => True) s ∧ s.Live (.heap 0) acceptedSession := by
  obtain ⟨s, reached, found, stored⟩ := accepted_reachable
  exact ⟨s, reached, found, stored, rfl, rfl⟩

theorem accepted_never_ends_alike : ∃ s, Reachable (fun _ _ => True) s ∧ s.Live (.heap 0) acceptedSession ∧
    ¬ s.EndsAlike (.heap 0) acceptedSession [[1]] := by
  obtain ⟨s, reached, live⟩ := accepted_live
  exact ⟨s, reached, live, peer_close_never_ends_alike s _ _ live _⟩

theorem accepted_close_lingers : ¬ ∀ s p session chunks, Reachable (fun _ _ => True) s → s.Live p session →
    (∀ chunk ∈ chunks, chunk ≠ []) → s.EndsAlike p session chunks := by
  intro claim
  obtain ⟨s, reached, live⟩ := accepted_live
  obtain ⟨epoll, iocp, closed, _, ended, _⟩ := claim s _ _ [] reached live nofun
  rw [epollClose_eq live] at closed
  cases Option.some.inj closed
  exact absurd (live.stored.symm.trans ended.removed) nofun

end NetService

end LiteServer.Net
