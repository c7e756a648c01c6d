import LiteServer.Net.IocpMoves

/-!
Where every session ID is, on both backends: it has one holder or was lost by
one step. Kicking the session of a connector loses its ID, and so does a
`ConnectEx` that fails.
-/
namespace LiteServer.Net

namespace NetService
variable {s s' : NetService}

theorem Leaves.held (leaves : s.Leaves s') (id : SessionID) : s'.held id = s.held id := by
  obtain ⟨queue, sessions, objects, _, attempts⟩ := leaves
  have ids : s'.attemptID = s.attemptID := funext fun c => attemptID_congr (by rw [objects])
  rw [NetService.held, NetService.held, queue, sessions, attempts, ids]

/-- An attempt that is forgotten held an ID. -/
theorem abandoned_held {c : Nat} (trying : c ∈ s.attempts) (id : SessionID) :
    (s.abandoned c).held id + (if id = s.attemptID c then 1 else 0) = s.held id := by
  have moved := (List.perm_cons_erase trying).map s.attemptID
  exact (holders_perm moved id).symm

/-- The IDs that kicking a session loses. -/
def lostByKick (s : NetService) (id : SessionID) : List SessionID :=
  match s.sessions id with
  | some (.connector _) => [id]
  | _ => []

theorem count_lost {id j : SessionID} : [j].count id = if id = j then 1 else 0 := by
  by_cases same : id = j
  · simp [same]
  · simp [same, Ne.symm same]

/-- A kick frees the ID of a session from `new`, and loses that of a connector. -/
theorem kickSession_held (sound : ({ s with pc := .idle } : NetService).Sound) {id : SessionID}
    (own : ∀ c session, s.sessions id = some (.connector c) → s.objects (.connector c) = some session →
      session.sessionID = id) (taken : s.kickSession id = some s') (j : SessionID) :
    s'.held j + (s.lostByKick id).count j = s.held j := by
  cases stored : s.sessions id with
  | none =>
    rw [kickSession_none stored] at taken
    cases Option.some.inj taken
    simp only [lostByKick, stored, List.count_nil, Nat.add_zero]
    exact leaves_rest.held j
  | some p =>
    obtain ⟨session, found, heapOwn⟩ := sound.stored id p stored
    have found : s.objects p = some session := found
    cases p with
    | heap n =>
      obtain rfl := heapOwn n rfl
      rw [kickSession_heap found stored (sound.heap n session found).2] at taken
      cases Option.some.inj taken
      simp only [lostByKick, stored, List.count_nil, Nat.add_zero]
      let marked := (s.access session.sessionID).emit (.kick session.sessionID)
      have kept : Keeps { s with pc := .idle } { marked.removed (.heap n) session with pc := .idle } :=
        sound.remove found rfl rfl rfl rfl rfl (by simp)
      exact kept.2 j
    | connector c =>
      obtain rfl := own c session stored found
      rw [kickSession_connector found stored (sound.connectors c session found)] at taken
      cases Option.some.inj taken
      simp only [lostByKick, stored, count_lost]
      exact sound.detached_held found stored j

/-! ### The epoll backend -/

/-- The IDs that a step loses. -/
def lostBy (s : NetService) : Action → List SessionID
  | .kickSession id => s.lostByKick id
  | _ => []

theorem Sound.step_held (sound : s.Sound) {action : Action} (proper : s.Proper action) (taken : s.step action = some s')
    (j : SessionID) : s'.held j + (s.lostBy action).count j = s.held j := by
  have resting : ({ s with pc := .idle } : NetService).Sound := (sound.frame leaves_rest (by simp)).1
  cases action with
  | kickSession id =>
    cases step_took taken with
    | kickSession user issued result =>
      exact kickSession_held resting (fun c session stored found => (proper _ stored).2 c session rfl found) result j
  | _ =>
    rcases sound.step proper taken with kept | ⟨c, session, kick, _⟩
    · exact kept.2 j
    · cases kick

/-- The steps of a run and the IDs they lose. -/
def lost (steps : List (NetService × Action)) : List SessionID := steps.flatMap fun step => step.1.lostBy step.2

/-- Runs from `InitSession` in which connectors are added and connected in turn. -/
def Runs : List (NetService × Action) → NetService → Prop :=
  Transition.Run (fun s action s' => s.Proper action ∧ s.step action = some s') initSession

theorem Runs.act {steps : List (NetService × Action)} (run : Runs steps s) (action : Action) (proper : s.Proper action)
    (taken : s.step action = some s') : Runs (steps ++ [(s, action)]) s' :=
  run.snoc ⟨proper, taken⟩

theorem Runs.accounted {steps : List (NetService × Action)} (run : Runs steps s) :
    s.Sound ∧ ∀ id, s.held id + (lost steps).count id = if 1 ≤ id ∧ id ≤ maxSockEvent then 1 else 0 := by
  induction run with
  | nil => exact ⟨initSession_sound, initSession_held⟩
  | @snoc steps s s' action _ taken ih =>
    obtain ⟨proper, taken⟩ := taken
    obtain ⟨sound, accounted⟩ := ih
    refine ⟨?_, fun id => ?_⟩
    · rcases sound.step proper taken with kept | ⟨c, session, _, found, stored, rfl⟩
      · exact kept.1
      · exact sound.detached found stored
    · have moved := sound.step_held proper taken id
      have before := accounted id
      rw [lost] at before
      simp only [lost, List.flatMap_append, List.flatMap_singleton, List.count_append]
      omega

end NetService

/-! ### The IOCP backend -/

namespace IocpService
variable {s s' : IocpService} {action : IocpAction}

def lostBy (s : IocpService) : IocpAction → List SessionID
  | .kickSession id => s.net.lostByKick id
  | .failed (.connect c) => [s.net.attemptID c]
  | _ => []

open NetService in
/-- A connector whose attempt is not in progress is constructed or gets an ID. -/
theorem connector_kept (regular : s.net.Regular) {c : Nat} (resting : c ∉ s.net.attempts) {session : Session}
    (connect : session.sockType = .connect) : Keeps { s.net with pc := .idle }
      { s.net.setObject (.connector c) session with pc := .idle } :=
  regular.sound.setConnector resting rfl connect rfl rfl rfl rfl (by simp)

open NetService in
theorem touched_kept (regular : s.net.Regular) {c : Nat} {session : Session}
    (found : s.net.objects (.connector c) = some session) : Keeps { s.net with pc := .idle }
      { s.net.setObject (.connector c) { session with alive := true } with pc := .idle } :=
  regular.sound.setObject found rfl rfl rfl rfl rfl rfl rfl (by simp)

theorem Aside.held (aside : s.Aside s') (id : SessionID) : s'.net.held id = s.net.held id := by
  obtain ⟨more, net, _⟩ := aside.net
  rw [net]
  exact NetService.leaves_rest.held id

open NetService in
/-- `AddTCPConnector` numbers a connector that nothing refers to. -/
theorem Placed.numbered_kept (placed : s.Placed) {c : Nat} {posted : Bool}
    (adding : s.Adding (.addTCPConnector c posted)) {session : Session}
    (found : s.net.objects (.connector c) = some session) (id : SessionID) : Keeps { s.net with pc := .idle }
      { s.net.setObject (.connector c) { session with alive := false, sessionID := id } with pc := .idle } := by
  have resting := (adding (by rw [found]; rfl)).1
  have connect : session.sockType = .connect := placed.regular.connector found
  exact connector_kept placed.regular resting connect

open NetService in
theorem Placed.newConnector_held (placed : s.Placed) {c : Nat} (free : s.net.objects (.connector c) = none) (sock : Socket)
    (j : SessionID) : ((s.net.emit (.opened sock)).setObject (.connector c)
      ⟨false, sock, .connect, ⟨0, 0⟩, some sock, 0⟩).held j = s.net.held j := by
  have resting : c ∉ s.net.attempts := by
    intro trying
    obtain ⟨session, found⟩ := placed.regular.trying trying
    cases free.symm.trans found
  let fresh : Session := ⟨false, sock, .connect, ⟨0, 0⟩, some sock, 0⟩
  have connect : fresh.sockType = .connect := rfl
  exact (connector_kept placed.regular resting connect).2 j

open NetService in
/-- `ConnectEx` was not posted, and the ID is at the end of the queue again. -/
theorem Placed.unposted_held (placed : s.Placed) {c : Nat} {posted : Bool}
    (adding : s.Adding (.addTCPConnector c posted)) {session : Session}
    (found : s.net.objects (.connector c) = some session) {id : SessionID} {rest : List SessionID}
    (front : s.net.queSessionID = id :: rest) (j : SessionID) : ((s.net.rotated id rest).setObject (.connector c)
      { session with alive := false, sessionID := id }).held j = s.net.held j := by
  have kept := placed.numbered_kept adding found id
  have turned : Keeps { s.net.setObject (.connector c) { session with alive := false, sessionID := id } with pc := .idle }
      { (s.net.rotated id rest).setObject (.connector c) { session with alive := false, sessionID := id } with
        pc := .idle } :=
    kept.1.rotate front rfl rfl rfl rfl rfl (by simp)
  exact (kept.trans turned).2 j

open NetService in
/-- The attempt holds the ID. -/
theorem Placed.attempted_held (placed : s.Placed) {c : Nat} {posted : Bool}
    (adding : s.Adding (.addTCPConnector c posted)) {session : Session}
    (found : s.net.objects (.connector c) = some session) {id : SessionID} {rest : List SessionID}
    (front : s.net.queSessionID = id :: rest) (j : SessionID) :
    ({ s.net.setObject (.connector c) { session with alive := false, sessionID := id } with
      queSessionID := rest
      issued := s.net.issued ++ [id]
      attempts := s.net.attempts ++ [c] } : NetService).held j = s.net.held j := by
  have resting := (adding (by rw [found]; rfl)).1
  have kept := placed.numbered_kept adding found id
  have tried : Keeps { s.net.setObject (.connector c) { session with alive := false, sessionID := id } with pc := .idle }
      { s.net.setObject (.connector c) { session with alive := false, sessionID := id } with
        queSessionID := rest
        issued := s.net.issued ++ [id]
        attempts := s.net.attempts ++ [c]
        pc := .idle } :=
    kept.1.attempt front resting (Function.update_self ..) rfl rfl rfl rfl rfl rfl (by simp)
  exact (kept.trans tried).2 j

open NetService in
/-- The socket of an accepted connection was not associated, and the ID is at the
    end of the queue again. -/
theorem Placed.unassociated_held (placed : s.Placed) {id : SessionID} {rest : List SessionID}
    (front : s.net.queSessionID = id :: rest) (sock : Socket) (j : SessionID) :
    ((s.net.rotated id rest).destroySocket sock).held j = s.net.held j := by
  have turned : Keeps { s.net with pc := .idle } { (s.net.rotated id rest).destroySocket sock with pc := .idle } :=
    placed.regular.sound.rotate front rfl rfl rfl rfl rfl (by simp)
  exact turned.2 j

open NetService in
/-- A session from `new` takes the ID at the front. -/
theorem Placed.opened_held (placed : s.Placed) {id : SessionID} {rest : List SessionID}
    (front : s.net.queSessionID = id :: rest) (session : Session) (own : session.sessionID = id)
    (kind : session.sockType = .accepted ∨ session.sockType = .udp) (j : SessionID) :
    (s.net.opened id rest session).held j = s.net.held j := by
  have kept : Keeps { s.net with pc := .idle } { s.net.opened id rest session with pc := .idle } :=
    placed.regular.sound.open front own kind rfl rfl rfl rfl rfl (by simp)
  exact kept.2 j

open NetService in
theorem Placed.connected_held (placed : s.Placed) {c : Nat} {session : Session} (trying : c ∈ s.net.attempts)
    (found : s.net.objects (.connector c) = some session) (j : SessionID) :
    (s.net.joined c session).held j = s.net.held j := by
  have kept : Keeps { s.net with pc := .idle } { s.net.joined c session with pc := .idle } :=
    placed.regular.sound.connect trying found rfl rfl rfl rfl rfl (by simp)
  exact kept.2 j

open NetService in
/-- Of the operations that fail only an attempt held an ID. -/
theorem dequeue_held {operation : Operation} (result : s.dequeue operation = some s') (j : SessionID) :
    s'.net.held j + (s.lostBy (.failed operation)).count j = s.net.held j := by
  cases operation with
  | connect c =>
    simp only [dequeue] at result
    split at result
    · rename_i trying
      cases result
      simp only [lostBy, count_lost]
      exact abandoned_held trying j
    · cases result
  | _ =>
    simp only [dequeue] at result
    split at result <;> cases result
    exact leaves_rest.held j

open NetService in
/-- `DelSession` puts the ID at the end of the queue. -/
theorem Placed.delSession_held (placed : s.Placed) {p : SessionPtr} {net : NetService} (pc : s.pc = .dropCallBack p)
    (result : s.net.delSession p = some net) (j : SessionID) : net.held j = s.net.held j := by
  obtain ⟨n, session, rfl, found, rfl⟩ := placed.dropping.removed placed.regular pc result
  have kept : Keeps { s.net with pc := .idle } { s.net.removed (.heap n) session with pc := .idle } :=
    placed.regular.sound.remove found rfl rfl rfl rfl rfl (by simp)
  exact kept.2 j

theorem Placed.step_held (placed : s.Placed) (adding : s.Adding action) (taken : s.step action = some s')
    (j : SessionID) : s'.net.held j + (s.lostBy action).count j = s.net.held j := by
  have regular := placed.regular
  cases step_took' regular taken with
  | @newConnector c sock free => exact placed.newConnector_held free sock j
  | @addTCPListener listener first rest t added =>
    subst added
    exact (s.addTCPListener_aside listener first rest).held j
  | addUDPListener => exact (postReadFrom_aside ..).held j
  | @unnumbered c _ session found => exact (placed.numbered_kept adding found session.sessionID).2 j
  | unposted found front => exact placed.unposted_held adding found front j
  | attempted found front => exact placed.attempted_held adding found front j
  | kickSession issued result =>
    exact NetService.kickSession_held regular.sound (fun c session => regular.own _ c session) result j
  | @unaccepted listener sock _ _ next idle armed =>
    let closed : IocpService := { s with
      accepts := s.accepts.erase (listener, sock)
      net := s.net.destroySocket sock }
    exact (closed.rearm_aside listener next).held j
  | @unassociated listener sock _ _ next id rest idle armed front =>
    let closed : IocpService := { s with
      accepts := s.accepts.erase (listener, sock)
      net := (s.net.rotated id rest).destroySocket sock }
    exact ((closed.rearm_aside listener next).held j).trans (placed.unassociated_held front sock j)
  | @accepted listener sock address _ _ id rest idle armed front =>
    exact placed.opened_held front (acceptedOn sock address id) rfl (.inl rfl) j
  | @unserved listener _ posted idle armed =>
    exact (postReadFrom_aside { s with receivesFrom := s.receivesFrom.erase listener } listener posted).held j
  | @served listener datagram _ id rest idle armed bytes unknown front =>
    exact placed.opened_held front (peerOn listener datagram.address id) rfl (.inr rfl) j
  | connected idle trying found => exact placed.connected_held trying found j
  | failed idle result => exact dequeue_held result j
  | @acceptReturned posted next listener p _ pc found =>
    let armed : IocpService := { s with receives := if posted then s.receives ++ [p] else s.receives, pc := .idle }
    exact (armed.rearm_aside listener next).held j
  | connectReturned pc found => exact (touched_kept regular found).2 j
  | connectFailed pc found => exact (touched_kept regular found).2 j
  | dropped pc result => exact placed.delSession_held pc result j
  | @datagramReturned posted next listener pc => exact (s.postReadFrom_aside listener posted).held j
  | _ => exact NetService.leaves_rest.held j

def lost (steps : List (IocpService × IocpAction)) : List SessionID := steps.flatMap fun step => step.1.lostBy step.2

/-- Runs from `InitSession` in which connectors are added while nothing refers
    to them. -/
def Runs : List (IocpService × IocpAction) → IocpService → Prop :=
  Transition.Run (fun s action s' => s.Adding action ∧ s.step action = some s') initSession

theorem Runs.act {steps : List (IocpService × IocpAction)} (run : Runs steps s) (action : IocpAction)
    (adding : s.Adding action) (taken : s.step action = some s') : Runs (steps ++ [(s, action)]) s' :=
  run.snoc ⟨adding, taken⟩

theorem Runs.accounted {steps : List (IocpService × IocpAction)} (run : Runs steps s) :
    s.Placed ∧ ∀ id, s.net.held id + (lost steps).count id = if 1 ≤ id ∧ id ≤ maxSockEvent then 1 else 0 := by
  induction run with
  | nil => exact ⟨initSession_placed, NetService.initSession_held⟩
  | @snoc steps s s' action _ taken ih =>
    obtain ⟨adding, taken⟩ := taken
    obtain ⟨placed, accounted⟩ := ih
    refine ⟨placed.step adding taken, fun id => ?_⟩
    have moved := placed.step_held adding taken id
    have before := accounted id
    rw [lost] at before
    simp only [lost, List.flatMap_append, List.flatMap_singleton, List.count_append]
    omega

end IocpService

/-! ### Both backends -/

/-- On both backends every ID of `InitSession` is free, in the table or held by
    an attempt, and there once, or was lost by one step. -/
theorem ids_accounted (steps : List (NetService × Action)) (epoll : NetService) (iocpSteps : List (IocpService × IocpAction))
    (iocp : IocpService) (run : NetService.Runs steps epoll) (iocpRun : IocpService.Runs iocpSteps iocp) :
    (∀ id, epoll.held id + (NetService.lost steps).count id = if 1 ≤ id ∧ id ≤ maxSockEvent then 1 else 0) ∧
      ∀ id, iocp.net.held id + (IocpService.lost iocpSteps).count id = if 1 ≤ id ∧ id ≤ maxSockEvent then 1 else 0 :=
  ⟨run.accounted.2, iocpRun.accounted.2⟩

/-- A connector that connected and was kicked, and one whose `ConnectEx` failed. -/
theorem two_ids_lost : ∃ steps epoll iocpSteps iocp, NetService.Runs steps epoll ∧ NetService.lost steps = [1] ∧
    IocpService.Runs iocpSteps iocp ∧ IocpService.lost iocpSteps = [1] ∧
    (∀ id, epoll.held id + [1].count id = if 1 ≤ id ∧ id ≤ maxSockEvent then 1 else 0) ∧
    ∀ id, iocp.net.held id + [1].count id = if 1 ≤ id ∧ id ≤ maxSockEvent then 1 else 0 := by
  have made : NetService.Runs _ _ := NetService.Runs.act .nil (.newConnector 0 7) trivial rfl
  have added := made.act (.addTCPConnector 0 true true) nofun rfl
  have connected := added.act (.postConnect 0) (List.mem_singleton_self 0) rfl
  have returned := connected.act (.resume true) trivial rfl
  have kicked := returned.act (.kickSession 1)
    (by rintro p ⟨⟩; exact ⟨by rintro ⟨⟩, by rintro c session ⟨⟩ ⟨⟩; rfl⟩) rfl
  have made' : IocpService.Runs _ _ := IocpService.Runs.act .nil (.newConnector 0 7) trivial rfl
  have added' := made'.act (.addTCPConnector 0 true) (fun _ => ⟨nofun, nofun, by simp [IocpService.Linked, IocpService.initSession]⟩) rfl
  have failed := added'.act (.failed (.connect 0)) trivial rfl
  obtain ⟨first, second⟩ := ids_accounted _ _ _ _ kicked failed
  exact ⟨_, _, _, _, kicked, rfl, failed, rfl, first, second⟩

end LiteServer.Net
