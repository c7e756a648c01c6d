import LiteServer.Net.EpollMoves
import LiteServer.Net.IocpOutcomes

/-!
The steps of the IOCP backend as moves of the sessions both backends share.
-/
namespace LiteServer.Net

namespace IocpService
variable {s s' : IocpService} {linked : Nat → Prop} {action : IocpAction}

/-- Connectors are added when nothing refers to them. -/
def Orderly (linked : Nat → Prop) (s : IocpService) : IocpAction → Prop
  | .newConnector c _ => ¬ linked c
  | .addTCPConnector c _ => (s.net.objects (.connector c)).isSome →
      c ∉ s.net.attempts ∧ (∀ id, s.net.sessions id ≠ some (.connector c)) ∧ ¬ linked c
  | _ => True

/-- A session that was just accepted or is being dropped is one from `new`. -/
structure Dropping (s : IocpService) : Prop where
  accepted : ∀ listener p, s.pc = .acceptCallBack listener p → ∃ n, p = .heap n
  dropped : ∀ p, s.pc = .dropCallBack p → ∃ n, p = .heap n

theorem Aside.move (aside : s.Aside s') : s.net.Move linked s'.net := by
  obtain ⟨more, net, sockets⟩ := aside.net
  rw [net]
  refine .stay NetService.same_rest ⟨more, rfl, ?_⟩
  intro event member id
  obtain ⟨sock, rfl | rfl⟩ := sockets event member <;> rfl

theorem dequeue_move {operation : Operation} (result : s.dequeue operation = some s') : s.net.Move linked s'.net := by
  cases operation with
  | connect c =>
    simp only [dequeue] at result
    split at result <;> cases result
    exact .abandon c NetService.same_rest NetService.quiet_rest
  | _ =>
    simp only [dequeue] at result
    split at result <;> cases result
    exact .stay NetService.same_rest NetService.quiet_rest

theorem step_took' (regular : s.net.Regular) {action : IocpAction} (taken : s.step action = some s') :
    s.Took action s' :=
  step_took regular.positive (fun _ _ => regular.connector) taken

/-- A step is made of moves. -/
theorem step_moves (regular : s.net.Regular) (dropping : s.Dropping) {action : IocpAction}
    (orderly : s.Orderly linked action) (taken : s.step action = some s') : s.net.Moves linked s'.net := by
  cases step_took' regular taken with
  | @newConnector c sock free =>
    refine .one (.construct c _ ?_ ?_ orderly rfl NetService.same_rest ⟨[.opened sock], rfl, by simp [Event.opensOn]⟩)
    · intro trying
      obtain ⟨session, found⟩ := regular.trying trying
      cases free.symm.trans found
    · intro id stored
      obtain ⟨session, found, _⟩ := regular.stored stored
      cases free.symm.trans found
  | @addTCPListener listener first rest t added =>
    rw [added]
    exact .one (s.addTCPListener_aside listener first rest).move
  | addUDPListener => exact .one (postReadFrom_aside ..).move
  | @unnumbered c _ session found =>
    obtain ⟨resting, unstored, unlinked⟩ := orderly (by rw [found]; rfl)
    have connect := regular.connector found
    let quiet : Session := { session with alive := false }
    exact .one (.renewed quiet resting unstored unlinked connect)
  | @unposted c _ session id rest found front =>
    obtain ⟨resting, unstored, unlinked⟩ := orderly (by rw [found]; rfl)
    have connect := regular.connector found
    let quiet : Session := { session with alive := false, sessionID := id }
    have numbered := NetService.Move.renewed quiet resting unstored unlinked connect
    exact .tail (.single numbered) (.turn id rest front NetService.same_rest NetService.quiet_rest)
  | @attempted c session id rest found front =>
    obtain ⟨resting, unstored, unlinked⟩ := orderly (by rw [found]; rfl)
    have connect := regular.connector found
    let quiet : Session := { session with alive := false, sessionID := id }
    have numbered := NetService.Move.renewed quiet resting unstored unlinked connect
    exact .tail (.single numbered) (.attempt c rest _ (Function.update_self ..) front resting NetService.same_rest
      NetService.quiet_rest)
  | kickSession issued result => exact .one (NetService.kickSession_move regular result)
  | @unaccepted listener sock _ _ next idle armed =>
    let closed : IocpService := { s with
      accepts := s.accepts.erase (listener, sock)
      net := s.net.destroySocket sock }
    have destroyed : s.net.Move linked closed.net :=
      .stay NetService.same_rest ⟨[.closed sock], rfl, by simp [Event.opensOn]⟩
    exact .tail (.single destroyed) (closed.rearm_aside listener next).move
  | @unassociated listener sock _ _ next id rest idle armed front =>
    let closed : IocpService := { s with
      accepts := s.accepts.erase (listener, sock)
      net := (s.net.rotated id rest).destroySocket sock }
    have turned : s.net.Move linked closed.net :=
      .turn id rest front NetService.same_rest ⟨[.closed sock], rfl, by simp [Event.opensOn]⟩
    exact .tail (.single turned) (closed.rearm_aside listener next).move
  | @accepted listener sock address _ _ id rest idle armed front =>
    refine .one (.enter rest (acceptedOn sock address id) front rfl (.inl rfl) ?_ ⟨NetService.leaves_rest, rfl⟩
      ⟨s.net, NetService.quiet_rest, rfl⟩)
    rintro ⟨⟩
  | closed idle armed found heap => exact .one (.stay NetService.same_rest ⟨_, rfl, by simp [Event.opensOn]⟩)
  | closedConnector idle armed found connect =>
    exact .one (.stay NetService.same_rest ⟨_, rfl, by simp [Event.opensOn]⟩)
  | received idle armed found bytes => exact .one (.stay NetService.same_rest ⟨_, rfl, by simp [Event.opensOn]⟩)
  | @unserved listener _ posted idle armed =>
    have aside := postReadFrom_aside { s with receivesFrom := s.receivesFrom.erase listener } listener posted
    exact .one aside.move
  | known idle armed bytes known => exact .one (.stay NetService.same_rest ⟨_, rfl, by simp [Event.opensOn]⟩)
  | @served listener datagram _ id rest idle armed bytes unknown front =>
    have nonzero := NetService.head_ne_zero regular.positive front
    refine .one (.enter rest (peerOn listener datagram.address id) front rfl (.inr rfl) ?_ ⟨NetService.leaves_rest, ?_⟩
      ⟨s.net, NetService.quiet_rest, rfl⟩)
    · exact fun _ => (regular.unknown datagram.address).mp unknown
    · simp [NetService.emit, NetService.opened, NetService.setUDPSessionID, NetService.entered, peerOn, nonzero]
  | connected idle trying found => exact .one (.join _ _ found trying ⟨NetService.leaves_rest, rfl⟩ rfl)
  | failed idle result => exact .one (dequeue_move result)
  | @acceptReturned posted next listener p _ pc found =>
    let armed : IocpService := { s with receives := if posted then s.receives ++ [p] else s.receives, pc := .idle }
    exact .one (armed.rearm_aside listener next).move
  | @connectReturned _ c session pc found =>
    exact .one (.touch c session { session with alive := true } found rfl rfl rfl NetService.same_rest
      NetService.quiet_rest)
  | @connectRefused _ c session pc found connect =>
    refine .one (.stay NetService.same_rest
      ⟨[.closed session.socket, .onConnectFail session.sessionID session.socket], ?_, by simp [Event.opensOn]⟩)
    exact List.append_assoc ..
  | @connectFailed _ _ c session pc found =>
    exact .one (.touch c session { session with alive := true } found rfl rfl rfl NetService.same_rest
      NetService.quiet_rest)
  | dropped pc result =>
    obtain ⟨n, rfl⟩ := dropping.dropped _ pc
    exact .one (NetService.drop_move regular result)
  | openReturned pc => exact .one (.stay NetService.same_rest ⟨_, rfl, by simp [Event.opensOn]⟩)
  | datagramReturned pc => exact .one (postReadFrom_aside ..).move
  | dataReturned pc found => exact .refl
  | failReturned pc => exact .refl

theorem Dropping.stays (dropping : s.Dropping) (pc : s'.pc = s.pc) : s'.Dropping where
  accepted := by
    rw [pc]
    exact dropping.accepted
  dropped := by
    rw [pc]
    exact dropping.dropped

/-- The session that is deleted came from `new`. -/
theorem Dropping.removed (dropping : s.Dropping) (regular : s.net.Regular) {p : SessionPtr} {net : NetService}
    (pc : s.pc = .dropCallBack p) (result : s.net.delSession p = some net) :
    ∃ n session, p = .heap n ∧ s.net.objects (.heap n) = some session ∧ s.net.removed (.heap n) session = net := by
  obtain ⟨n, rfl⟩ := dropping.dropped p pc
  obtain ⟨session, found, _⟩ := Option.bind_eq_some_iff.mp result
  obtain ⟨stored, kind⟩ := regular.heap found
  rw [NetService.delSession_eq found stored kind] at result
  exact ⟨n, session, rfl, found, Option.some.inj result⟩

theorem dequeue_pc {operation : Operation} (result : s.dequeue operation = some s') : s'.pc = s.pc := by
  cases operation <;> simp only [dequeue] at result <;> split at result <;> cases result <;> rfl

theorem dropping_idle (pc : s.pc = .idle) : s.Dropping := by
  constructor <;> simp [pc]

theorem Dropping.step (regular : s.net.Regular) (dropping : s.Dropping) {action : IocpAction}
    (taken : s.step action = some s') : s'.Dropping := by
  cases step_took' regular taken with
  | @addTCPListener listener first rest t added =>
    rw [added]
    exact dropping.stays (s.addTCPListener_aside listener first rest).pc
  | addUDPListener => exact dropping.stays (postReadFrom_aside ..).pc
  | @unaccepted listener sock _ _ next idle armed => exact dropping_idle ((rearm_aside _ listener next).pc.trans idle)
  | @unassociated listener sock _ _ next id rest idle armed front =>
    exact dropping_idle ((rearm_aside _ listener next).pc.trans idle)
  | accepted idle armed front => exact ⟨fun _ _ pc => (IocpPc.acceptCallBack.inj pc).2 ▸ ⟨_, rfl⟩, by simp⟩
  | @closed p session idle armed found heap =>
    refine ⟨by simp, ?_⟩
    rintro q ⟨⟩
    cases p with
    | heap n => exact ⟨n, rfl⟩
    | connector c => exact absurd (regular.connector found) heap
  | unserved idle armed => exact dropping_idle ((postReadFrom_aside ..).pc.trans idle)
  | failed idle result => exact dropping_idle ((dequeue_pc result).trans idle)
  | @acceptReturned posted next listener p _ pc found => exact dropping_idle (rearm_aside _ listener next).pc
  | newConnector _ => exact dropping.stays rfl
  | unnumbered _ => exact dropping.stays rfl
  | unposted _ _ => exact dropping.stays rfl
  | attempted _ _ => exact dropping.stays rfl
  | kickSession _ _ => exact dropping.stays rfl
  | _ => constructor <;> simp

theorem initSession_dropping : initSession.Dropping := by
  constructor <;> simp [initSession]

/-- A connector that data can still arrive for: a receive is outstanding for it,
    or it is inside its `OnConnected` or `OnData`. -/
def Linked (s : IocpService) (c : Nat) : Prop :=
  .connector c ∈ s.receives ∨ s.pc = .connectCallBack c ∨ s.pc = .dataCallBack (.connector c)

/-! ### Attempts -/

theorem Aside.trying (aside : s.Aside s') : s.net.Trying s'.net := by
  obtain ⟨more, net, _⟩ := aside.net
  rw [net]
  exact NetService.trying_rest

/-- A step that neither adds a connector nor takes up the end of an attempt. -/
theorem step_trying (regular : s.net.Regular) (dropping : s.Dropping)
    (unadded : ∀ c posted, action ≠ .addTCPConnector c posted) (unconnected : ∀ c, action ≠ .connected c)
    (unfailed : ∀ c, action ≠ .failed (.connect c)) (taken : s.step action = some s') : s.net.Trying s'.net := by
  cases step_took' regular taken with
  | @newConnector c sock free =>
    refine ⟨rfl, fun d trying => NetService.attemptID_congr (Function.update_of_ne ?_ _ _)⟩
    rintro ⟨⟩
    obtain ⟨session, found⟩ := regular.trying trying
    cases free.symm.trans found
  | @addTCPListener listener first rest t added =>
    rw [added]
    exact (s.addTCPListener_aside listener first rest).trying
  | addUDPListener => exact (postReadFrom_aside ..).trying
  | unnumbered found => exact absurd rfl (unadded _ _)
  | unposted found front => exact absurd rfl (unadded _ _)
  | attempted found front => exact absurd rfl (unadded _ _)
  | kickSession issued result => exact NetService.kickSession_trying regular result
  | @unaccepted listener sock _ _ next idle armed =>
    let closed : IocpService := { s with
      accepts := s.accepts.erase (listener, sock)
      net := s.net.destroySocket sock }
    obtain ⟨attempts, ids⟩ := (closed.rearm_aside listener next).trying
    exact ⟨attempts, ids⟩
  | @unassociated listener sock _ _ next id rest idle armed front =>
    let closed : IocpService := { s with
      accepts := s.accepts.erase (listener, sock)
      net := (s.net.rotated id rest).destroySocket sock }
    obtain ⟨attempts, ids⟩ := (closed.rearm_aside listener next).trying
    exact ⟨attempts, ids⟩
  | accepted idle armed front => exact .of_heap rfl rfl
  | @unserved listener _ posted idle armed =>
    have aside := postReadFrom_aside { s with receivesFrom := s.receivesFrom.erase listener } listener posted
    exact aside.trying
  | served idle armed bytes unknown front => exact .of_heap rfl rfl
  | connected idle trying found => exact absurd rfl (unconnected _)
  | @failed operation _ idle result =>
    cases operation with
    | connect c => exact absurd rfl (unfailed c)
    | _ =>
      simp only [dequeue] at result
      split at result <;> cases result
      exact NetService.trying_rest
  | @acceptReturned posted next listener p _ pc found =>
    let armed : IocpService := { s with receives := if posted then s.receives ++ [p] else s.receives, pc := .idle }
    exact (armed.rearm_aside listener next).trying
  | @connectReturned _ c session pc found =>
    refine .of_found rfl ?_ found ⟨_, Function.update_self .., rfl⟩
    exact fun d differ => Function.update_of_ne (by simpa using differ) _ _
  | @connectFailed _ _ c session pc found =>
    refine .of_found rfl ?_ found ⟨_, Function.update_self .., rfl⟩
    exact fun d differ => Function.update_of_ne (by simpa using differ) _ _
  | dropped pc result =>
    obtain ⟨n, rfl⟩ := dropping.dropped _ pc
    exact NetService.drop_trying regular result
  | datagramReturned pc => exact (postReadFrom_aside ..).trying
  | _ => exact NetService.trying_rest

theorem dequeue_receives {operation : Operation} (result : s.dequeue operation = some s') :
    s'.receives ⊆ s.receives ∧ s'.net.trace = s.net.trace := by
  cases operation <;> simp only [dequeue] at result <;> split at result <;> cases result
  case read.isTrue => exact ⟨List.erase_subset, rfl⟩
  all_goals exact ⟨List.Subset.refl _, rfl⟩

/-- The receives after one was posted, or not, for a session that could be read. -/
theorem mem_receives {p q : SessionPtr} {posted : Bool}
    (after : q ∈ if posted then s.receives ++ [p] else s.receives) : q ∈ s.receives ∨ q = p := by
  split at after
  · simpa using after
  · exact .inl after

/-! ### Links -/

/-- The thread is where it was, or not inside a callback that links a connector. -/
theorem Linked.back {c : Nat} (link : s'.Linked c) (receives : s'.receives ⊆ s.receives)
    (pc : s'.pc = s.pc ∨ (∀ d, s'.pc ≠ .connectCallBack d) ∧ ∀ p, s'.pc ≠ .dataCallBack p) : s.Linked c := by
  rcases link with armed | inside | inside
  · exact .inl (receives armed)
  · rcases pc with same | ⟨apart, _⟩
    · exact .inr (.inl (same ▸ inside))
    · exact absurd inside (apart c)
  · rcases pc with same | ⟨_, apart⟩
    · exact .inr (.inr (same ▸ inside))
    · exact absurd inside (apart _)

theorem Aside.link {c : Nat} (aside : s.Aside s') (link : s'.Linked c) : s.Linked c :=
  link.back (aside.receives ▸ List.Subset.refl _) (.inl aside.pc)

/-- Only a connector that gets connected becomes linked. -/
theorem step_linked (regular : s.net.Regular) (dropping : s.Dropping) (taken : s.step action = some s') {c : Nat}
    (link : s'.Linked c) : s.Linked c ∨ action = .connected c := by
  cases step_took' regular taken with
  | @addTCPListener listener first rest t added =>
    subst added
    exact .inl ((s.addTCPListener_aside listener first rest).link link)
  | addUDPListener =>
    have before := (postReadFrom_aside ..).link link
    exact .inl before
  | @unaccepted listener sock _ _ next idle armed =>
    have before := (rearm_aside _ listener next).link link
    exact .inl before
  | @unassociated listener sock _ _ next id rest idle armed front =>
    have before := (rearm_aside _ listener next).link link
    exact .inl before
  | accepted idle armed front => exact .inl (link.back (List.Subset.refl _) (.inr (by simp)))
  | closed idle armed found heap => exact .inl (link.back List.erase_subset (.inr (by simp)))
  | closedConnector idle armed found connect => exact .inl (link.back List.erase_subset (.inr (by simp)))
  | @received p session buf idle armed found bytes =>
    rcases link with before | inside | inside
    · exact .inl (.inl (List.mem_of_mem_erase before))
    · cases inside
    · cases inside
      exact .inl (.inl armed)
  | unserved idle armed =>
    have before := (postReadFrom_aside ..).link link
    exact .inl before
  | known idle armed bytes known => exact .inl (link.back (List.Subset.refl _) (.inr (by simp)))
  | served idle armed bytes unknown front => exact .inl (link.back (List.Subset.refl _) (.inr (by simp)))
  | connected idle trying found =>
    rcases link with before | inside | inside
    · exact .inl (.inl before)
    · cases inside
      exact .inr rfl
    · cases inside
  | failed idle result => exact .inl (link.back (dequeue_receives result).1 (.inl (dequeue_pc result)))
  | @acceptReturned posted next listener p session pc found =>
    obtain ⟨n, rfl⟩ := dropping.accepted listener p pc
    have link' := (rearm_aside _ listener next).link link
    rcases link' with after | inside | inside
    · rcases mem_receives after with before | new
      · exact .inl (.inl before)
      · cases new
    · cases inside
    · cases inside
  | @connectReturned next d session pc found =>
    rcases link with after | inside | inside
    · rcases List.mem_append.mp after with before | new
      · exact .inl (.inl before)
      · cases List.mem_singleton.mp new
        exact .inl (.inr (.inl pc))
    · cases inside
    · cases inside
  | connectRefused pc found connect => exact .inl (link.back (List.Subset.refl _) (.inr (by simp)))
  | connectFailed pc found => exact .inl (link.back (List.Subset.refl _) (.inr (by simp)))
  | @dataReturned posted next p session pc found =>
    rcases link with after | inside | inside
    · rcases mem_receives after with before | new
      · exact .inl (.inl before)
      · cases new
        exact .inl (.inr (.inr pc))
    · cases inside
    · cases inside
  | dropped pc result => exact .inl (link.back (List.Subset.refl _) (.inr (by simp)))
  | failReturned pc => exact .inl (link.back (List.Subset.refl _) (.inr (by simp)))
  | openReturned pc => exact .inl (link.back (List.Subset.refl _) (.inr (by simp)))
  | @datagramReturned posted next listener pc =>
    have receives := (s.postReadFrom_aside listener posted).receives
    exact .inl (link.back (receives ▸ List.Subset.refl _) (.inr (by simp)))
  | _ => exact .inl link

/-- A connector whose attempt is in progress was added by it. -/
theorem step_attempts (regular : s.net.Regular) (dropping : s.Dropping) (taken : s.step action = some s') {c : Nat}
    (trying : c ∈ s'.net.attempts) : c ∈ s.net.attempts ∨ ∃ posted, action = .addTCPConnector c posted := by
  cases action with
  | addTCPConnector d posted =>
    cases step_took' regular taken with
    | unnumbered found => exact .inl trying
    | unposted found front => exact .inl trying
    | attempted found front =>
      rcases List.mem_append.mp trying with before | now
      · exact .inl before
      · cases List.mem_singleton.mp now
        exact .inr ⟨true, rfl⟩
  | connected d =>
    cases step_took' regular taken with
    | connected idle trying' found => exact .inl (List.mem_of_mem_erase trying)
  | failed operation =>
    cases operation with
    | connect d =>
      cases step_took' regular taken with
      | failed idle result =>
        simp only [dequeue] at result
        split at result <;> cases result
        exact .inl (List.mem_of_mem_erase trying)
    | _ => exact .inl ((step_trying regular dropping (by simp) (by simp) (by simp) taken).attempts ▸ trying)
  | _ => exact .inl ((step_trying regular dropping (by simp) (by simp) (by simp) taken).attempts ▸ trying)

/-- Connectors exist while data can arrive for them, and none does during an
    attempt. -/
structure Placed (s : IocpService) : Prop where
  regular : s.net.Regular
  dropping : s.Dropping
  made : ∀ c, s.Linked c → (s.net.objects (.connector c)).isSome
  resting : ∀ c ∈ s.net.attempts, ¬ s.Linked c

/-- Connectors are added only while nothing refers to them. -/
def Adding (s : IocpService) : IocpAction → Prop
  | .addTCPConnector c _ => (s.net.objects (.connector c)).isSome →
      c ∉ s.net.attempts ∧ (∀ id, s.net.sessions id ≠ some (.connector c)) ∧ ¬ s.Linked c
  | _ => True

theorem Placed.orderly (placed : s.Placed) (adding : s.Adding action) (taken : s.step action = some s') :
    s.Orderly s.Linked action := by
  cases action with
  | newConnector c sock =>
    cases step_took' placed.regular taken with
    | newConnector free =>
      intro link
      have made := placed.made c link
      rw [free] at made
      cases made
  | addTCPConnector c posted => exact adding
  | _ => trivial

theorem Placed.step (placed : s.Placed) (adding : s.Adding action) (taken : s.step action = some s') : s'.Placed := by
  obtain ⟨regular, dropping, made, resting⟩ := placed
  have moves := step_moves regular dropping (Placed.orderly ⟨regular, dropping, made, resting⟩ adding taken) taken
  refine ⟨regular.moves moves, dropping.step regular taken, ?_, ?_⟩
  · intro c link
    refine moves.invariant (fun _ _ made moved => NetService.Move.made moved made) ?_
    rcases step_linked regular dropping taken link with before | rfl
    · exact made c before
    · cases step_took' regular taken with
      | connected idle trying found =>
        rw [found]
        rfl
  · intro c trying link
    rcases step_linked regular dropping taken link with before | rfl
    · rcases step_attempts regular dropping taken trying with pending | ⟨posted, rfl⟩
      · exact resting c pending before
      · cases step_took' regular taken with
        | unnumbered found => exact (adding (by rw [found]; rfl)).2.2 before
        | unposted found front => exact (adding (by rw [found]; rfl)).2.2 before
        | attempted found front => exact (adding (by rw [found]; rfl)).2.2 before
    · cases step_took' regular taken with
      | connected idle trying' found => exact regular.sound.once.not_mem_erase trying

theorem initSession_placed : initSession.Placed where
  regular := NetService.initSession_regular
  dropping := initSession_dropping
  made := by simp [Linked, initSession]
  resting := by simp [initSession, NetService.initSession]

end IocpService

end LiteServer.Net
