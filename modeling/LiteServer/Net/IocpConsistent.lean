import LiteServer.Net.Consistent
import LiteServer.Net.IocpMoves

/-!
Session identity on the IOCP backend, and on both.
-/
namespace LiteServer.Net

namespace IocpService
variable {s s' : IocpService}

/-- Connectors are added only while no data can arrive for them, and a peer with
    a session sends to the listener of that session. -/
def Matched (s : IocpService) : IocpAction → Prop
  | .addTCPConnector c _ => (s.net.objects (.connector c)).isSome →
      c ∉ s.net.attempts ∧ (∀ id, s.net.sessions id ≠ some (.connector c)) ∧ ¬ s.Linked c
  | .receivedFrom listener datagram _ => ∀ p session, datagram.bytes ≠ [] →
      s.net.sessions (s.net.getUDPSessionID datagram.address) = some p → s.net.objects p = some session →
      session.socket = listener
  | _ => True

structure Consistent (s : IocpService) : Prop where
  placed : s.Placed
  kept : s.net.Kept
  identified : s.net.Identified s.Linked
  agreed : identity.Agreed s.net.trace
  opening : ∀ listener data id size, s.pc = .openCallBack listener data id size → s.net.latest id = some listener

theorem Matched.adding {action : IocpAction} (matched : s.Matched action) : s.Adding action := by
  cases action with
  | addTCPConnector c posted => exact matched
  | _ => trivial

/-- What a step has to show besides its moves. -/
theorem Consistent.next (consistent : s.Consistent) {action : IocpAction} (taken : s.step action = some s')
    (matched : s.Matched action) (agreed : identity.Agreed s'.net.trace)
    (opening : ∀ listener data id size, s'.pc = .openCallBack listener data id size →
      s'.net.latest id = some listener) : s'.Consistent := by
  obtain ⟨placed, kept, identified, _, _⟩ := consistent
  have moves := step_moves placed.regular placed.dropping (placed.orderly matched.adding taken) taken
  refine ⟨placed.step matched.adding taken, moves.invariant (fun _ _ => NetService.Kept.move) kept,
    (identified.moves moves).relink ?_, agreed, opening⟩
  intro c link
  rcases step_linked placed.regular placed.dropping taken link with before | rfl
  · exact .inl before
  · cases step_took' placed.regular taken with
    | @connected _ session idle trying found => exact .inr ⟨session.sessionID, Function.update_self ..⟩

/-- A call of the user. -/
theorem Consistent.user (consistent : s.Consistent) {action : IocpAction} (taken : s.step action = some s')
    (matched : s.Matched action) (mutely : s.net.Mutely s'.net) (pc : s'.pc = s.pc) : s'.Consistent := by
  refine consistent.next taken matched (mutely.agreed consistent.agreed) ?_
  intro listener data id size opening
  rw [mutely.latest]
  exact consistent.opening listener data id size (pc ▸ opening)

theorem Aside.mutely (aside : s.Aside s') : s.net.Mutely s'.net := by
  obtain ⟨more, net, sockets⟩ := aside.net
  refine ⟨more, by rw [net], ?_⟩
  intro event member id
  obtain ⟨sock, rfl | rfl⟩ := sockets event member <;> exact ⟨rfl, rfl⟩

/-- The thread is back in the loop. -/
theorem Consistent.loop (consistent : s.Consistent) {action : IocpAction} (taken : s.step action = some s')
    (matched : s.Matched action) (agreed : identity.Agreed s'.net.trace) (idle : s'.pc = .idle) : s'.Consistent :=
  consistent.next taken matched agreed (by simp [idle])

/-- Sockets are made for the next accept. -/
theorem Consistent.rearm (consistent : s.Consistent) {action : IocpAction} {t : IocpService} {listener : Socket}
    {next : Option Accepting} (taken : s.step action = some (t.rearm listener next)) (matched : s.Matched action)
    (agreed : identity.Agreed t.net.trace) (idle : t.pc = .idle) : (t.rearm listener next).Consistent := by
  have aside := t.rearm_aside listener next
  exact consistent.loop taken matched (aside.mutely.agreed agreed) (aside.pc.trans idle)

/-- What a session in the table, or one that a receive is outstanding for, is
    reported with. -/
theorem Consistent.read (consistent : s.Consistent) {p : SessionPtr} {session : Session}
    (found : s.net.objects p = some session)
    (refers : ∀ c, p = .connector c → s.Linked c ∨ ∃ id, s.net.sessions id = some (.connector c)) :
    s.net.latest session.sessionID = some session.socket := by
  cases p with
  | heap n => exact consistent.identified.heap n session found
  | connector c => exact (consistent.identified.connectors c session (refers c rfl) found).2

theorem Consistent.step (consistent : s.Consistent) {action : IocpAction} (matched : s.Matched action)
    (taken : s.step action = some s') : s'.Consistent := by
  have regular := consistent.placed.regular
  cases step_took' regular taken with
  | newConnector free =>
    exact consistent.user taken matched ⟨[.opened _], rfl, by simp [Event.opensOn, Event.reportsOn]⟩ rfl
  | @addTCPListener listener first rest t added =>
    subst added
    have aside := s.addTCPListener_aside listener first rest
    exact consistent.user taken matched aside.mutely aside.pc
  | @addUDPListener listener posted =>
    have aside := s.postReadFrom_aside listener posted
    exact consistent.user taken matched aside.mutely aside.pc
  | unnumbered found => exact consistent.user taken matched NetService.mute_rest rfl
  | unposted found front => exact consistent.user taken matched NetService.mute_rest rfl
  | attempted found front => exact consistent.user taken matched NetService.mute_rest rfl
  | kickSession issued result =>
    exact consistent.user taken matched (NetService.kickSession_mutely regular result) rfl
  | unaccepted idle =>
    exact consistent.rearm taken matched (NetService.Agreed.quiet consistent.agreed fun _ => rfl) idle
  | unassociated idle =>
    exact consistent.rearm taken matched (NetService.Agreed.quiet consistent.agreed fun _ => rfl) idle
  | accepted idle =>
    exact consistent.next taken matched (NetService.Agreed.quiet consistent.agreed fun _ => rfl) (by simp)
  | @closed p session idle armed found heap =>
    have latest := consistent.read found fun c connector => .inl (.inl (connector ▸ armed))
    exact consistent.next taken matched (NetService.Agreed.reported consistent.agreed (fun _ => rfl) latest) (by simp)
  | closedConnector idle armed found connect =>
    exact consistent.next taken matched (NetService.Agreed.quiet consistent.agreed fun _ => rfl) (by simp)
  | @received p session buf idle armed found bytes =>
    have latest := consistent.read found fun c connector => .inl (.inl (connector ▸ armed))
    exact consistent.next taken matched (NetService.Agreed.reported consistent.agreed (fun _ => rfl) latest) (by simp)
  | @unserved listener datagram posted idle armed =>
    have aside := postReadFrom_aside { s with receivesFrom := s.receivesFrom.erase listener } listener posted
    exact consistent.loop taken matched (aside.mutely.agreed consistent.agreed) (aside.pc.trans idle)
  | @known listener datagram posted idle armed bytes known =>
    obtain ⟨p, session, stored, found, _⟩ := (consistent.kept.get known datagram.address).mp rfl
    have own := matched p session bytes stored found
    obtain ⟨session', found', same⟩ := regular.stored stored
    cases found.symm.trans found'
    have latest : s.net.latest (s.net.getUDPSessionID datagram.address) = some listener := by
      rw [← same, ← own]
      exact consistent.read found fun c connector => .inr ⟨_, connector ▸ stored⟩
    exact consistent.next taken matched (NetService.Agreed.reported consistent.agreed (fun _ => rfl) latest) (by simp)
  | served idle armed bytes unknown front =>
    refine consistent.next taken matched (NetService.Agreed.quiet consistent.agreed fun _ => rfl) ?_
    rintro _ _ _ _ ⟨⟩
    exact Latest.latest_given (by simp [identity, Event.opensOn])
  | connected idle trying found =>
    exact consistent.next taken matched (NetService.Agreed.quiet consistent.agreed fun _ => rfl) (by simp)
  | failed idle result =>
    refine consistent.loop taken matched ?_ ((dequeue_pc result).trans idle)
    rw [(dequeue_receives result).2]
    exact consistent.agreed
  | acceptReturned pc found => exact consistent.rearm taken matched consistent.agreed rfl
  | connectReturned pc found => exact consistent.loop taken matched consistent.agreed rfl
  | @connectRefused next c session pc found connect =>
    have closed : identity.Agreed (s.net.trace ++ [.closed session.socket]) :=
      NetService.Agreed.quiet consistent.agreed fun _ => rfl
    exact consistent.next taken matched (NetService.Agreed.quiet closed fun _ => rfl) (by simp)
  | connectFailed pc found => exact consistent.loop taken matched consistent.agreed rfl
  | dataReturned pc found => exact consistent.loop taken matched consistent.agreed rfl
  | @dropped posted next p net pc result =>
    obtain ⟨n, session, rfl, found, rfl⟩ := consistent.placed.dropping.removed regular pc result
    refine consistent.loop taken matched (consistent.agreed.append ?_) rfl
    simp [identity, Event.reportsOn]
  | failReturned pc => exact consistent.loop taken matched consistent.agreed rfl
  | @openReturned posted next listener data id size pc =>
    have latest := consistent.opening listener data id size pc
    exact consistent.next taken matched (NetService.Agreed.reported consistent.agreed (fun _ => rfl) latest) (by simp)
  | @datagramReturned posted next listener pc =>
    have aside := s.postReadFrom_aside listener posted
    exact consistent.loop taken matched (aside.mutely.agreed consistent.agreed) rfl

theorem initSession_consistent : initSession.Consistent where
  placed := initSession_placed
  kept := NetService.initSession_kept
  identified := NetService.initSession_identified
  agreed := Latest.agreed_nil
  opening := by simp [initSession]

theorem consistent_of_reachable (reached : Reachable Matched s) : s.Consistent := by
  refine Transition.Reachable.invariant ?_ ?_ reached
  · rintro _ rfl
    exact initSession_consistent
  · rintro s s' _ consistent ⟨action, matched, taken⟩
    exact consistent.step matched taken

end IocpService

/-- On either backend, what is reported of a session names the descriptor its ID
    was last opened on. -/
theorem reported_on_own_socket (epoll : NetService) (iocp : IocpService)
    (reached : NetService.Reachable NetService.Matched epoll)
    (reached' : IocpService.Reachable IocpService.Matched iocp) :
    identity.Agreed epoll.trace ∧ identity.Agreed iocp.net.trace :=
  ⟨(NetService.consistent_of_reachable reached).agreed, (IocpService.consistent_of_reachable reached').agreed⟩

def neighbour : SockAddr := ⟨5000, 2⟩
def stranger : SockAddr := ⟨5000, 3⟩

/-- Two peers on a listener each; the second datagram of the first is told of its session too. -/
theorem two_listeners_reported : ∃ epoll iocp, NetService.Reachable NetService.Matched epoll ∧
    IocpService.Reachable IocpService.Matched iocp ∧
    epoll.trace = [.onAddConnection 1 5 neighbour, .onData 1 5 (receive emptyBuffer [7]) 1,
      .onAddConnection 2 6 stranger, .onData 2 6 (receive emptyBuffer [9]) 1,
      .onData 1 5 (receive emptyBuffer [8]) 1] ∧
    iocp.net.trace = [.onAddConnection 1 5 neighbour, .onData 1 5 (IocpService.handed [7]) 1,
      .onAddConnection 2 6 stranger, .onData 2 6 (IocpService.handed [9]) 1, .onData 1 5 (IocpService.handed [8]) 1] ∧
    identity.Agreed epoll.trace ∧ identity.Agreed iocp.net.trace := by
  have receiving : NetService.Reachable NetService.Matched _ := NetService.Reachable.init.act (.postReadFrom 5) trivial rfl
  have opened := receiving.act (.recvfrom (some ⟨[7], neighbour⟩)) (by rintro _ _ _ _ _ _ ⟨⟩ _ ⟨⟩) rfl
  have delivered := (opened.act (.resume true) trivial rfl).act (.resume true) trivial rfl
  have drained := delivered.act (.recvfrom none) (by rintro _ _ _ _ _ _ ⟨⟩) rfl
  have receiving' := drained.act (.postReadFrom 6) trivial rfl
  have opened' := receiving'.act (.recvfrom (some ⟨[9], stranger⟩)) (by rintro _ _ _ _ _ _ ⟨⟩ _ ⟨⟩) rfl
  have delivered' := (opened'.act (.resume true) trivial rfl).act (.resume true) trivial rfl
  have drained' := delivered'.act (.recvfrom none) (by rintro _ _ _ _ _ _ ⟨⟩) rfl
  have known := (drained'.act (.postReadFrom 5) trivial rfl).act (.recvfrom (some ⟨[8], neighbour⟩))
    (by rintro _ _ _ _ _ ⟨⟩ ⟨⟩ _ ⟨⟩ ⟨⟩; rfl) rfl
  have armed : IocpService.Reachable IocpService.Matched _ :=
    (IocpService.Reachable.init.act (.addUDPListener 5 true) trivial rfl).act (.addUDPListener 6 true) trivial rfl
  have arrived := armed.act (.receivedFrom 5 ⟨[7], neighbour⟩ true) (by rintro _ _ _ ⟨⟩) rfl
  have told := (arrived.act (.resume true none) trivial rfl).act (.resume true none) trivial rfl
  have arrived' := told.act (.receivedFrom 6 ⟨[9], stranger⟩ true) (by rintro _ _ _ ⟨⟩) rfl
  have told' := (arrived'.act (.resume true none) trivial rfl).act (.resume true none) trivial rfl
  have again := told'.act (.receivedFrom 5 ⟨[8], neighbour⟩ true) (by rintro _ _ _ ⟨⟩ ⟨⟩; rfl) rfl
  exact ⟨_, _, known, again, rfl, rfl, reported_on_own_socket _ _ known again⟩

/-- One peer sends to two listeners: the session opened on the first is reported
    on the second. -/
theorem second_listener_reported : ¬ ((∀ s, NetService.Reachable (fun _ _ => True) s → identity.Agreed s.trace) ∧
    ∀ s, IocpService.Reachable (fun _ _ => True) s → identity.Agreed s.net.trace) := by
  rintro ⟨claim, _⟩
  have receiving : NetService.Reachable (fun _ _ => True) _ :=
    NetService.Reachable.init.act (.postReadFrom 5) trivial rfl
  have opened := receiving.act (.recvfrom (some ⟨[7], neighbour⟩)) trivial rfl
  have delivered := (opened.act (.resume true) trivial rfl).act (.resume true) trivial rfl
  have drained := delivered.act (.recvfrom none) trivial rfl
  have receiving' := drained.act (.postReadFrom 6) trivial rfl
  have reported := receiving'.act (.recvfrom (some ⟨[7], neighbour⟩)) trivial rfl
  have latest : identity.latest 1 [.onAddConnection 1 5 neighbour, .onData 1 5 (receive emptyBuffer [7]) 1] = some 6 :=
    claim _ reported _ _ 1 6 (List.prefix_refl _) rfl
  simp [identity, Latest.Marks.latest, Event.opensOn] at latest

end LiteServer.Net
