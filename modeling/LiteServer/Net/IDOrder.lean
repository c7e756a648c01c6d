import LiteServer.Lib.Fifo
import LiteServer.Net.IocpOutcomes
import LiteServer.Net.SessionTable

/-!
The order in which session IDs are handed out, on both backends: an ID that was
given back comes after all that were free when it was, and every index into
`m_Sessions` is one that was handed out.
-/
namespace LiteServer.Net
open Fifo

namespace NetService
variable {s s' s'' : NetService}

/-- IDs were handed out from the front of the queue and given back behind it. -/
def Rotates (s s' : NetService) : Prop := Follows s.issued s.queSessionID s'.issued s'.queSessionID

theorem Rotates.trans (first : s.Rotates s') (second : s'.Rotates s'') : s.Rotates s'' := Follows.trans first second

/-- The rest of the state is free to change. -/
theorem rotates_same (issued : s'.issued = s.issued) (queue : s'.queSessionID = s.queSessionID) : s.Rotates s' := by
  rw [Rotates, issued, queue]
  exact .refl

theorem rotates_taken {id : SessionID} {rest : List SessionID} (front : s.queSessionID = id :: rest)
    (issued : s'.issued = s.issued ++ [id]) (queue : s'.queSessionID = rest) : s.Rotates s' := by
  rw [Rotates, issued, queue, front]
  exact .take

theorem rotates_returned {id : SessionID} {rest : List SessionID} (front : s.queSessionID = id :: rest)
    (issued : s'.issued = s.issued ++ [id]) (queue : s'.queSessionID = rest ++ [id]) : s.Rotates s' := by
  rw [Rotates, issued, queue, front]
  exact Follows.take.trans .put

/-! ### Operations -/

theorem closeSock_rotates {p : SessionPtr} (taken : s.closeSock p = some s') : s.Rotates s' := by
  obtain ⟨session, found, _⟩ := Option.bind_eq_some_iff.mp taken
  rcases closeSock_cases found taken with rfl | ⟨sock, _, rfl⟩ <;> exact rotates_same rfl rfl

theorem delSession_rotates {p : SessionPtr} (taken : s.delSession p = some s') : s.Rotates s' := by
  obtain ⟨session, found, _⟩ := Option.bind_eq_some_iff.mp taken
  rcases delSession_cases found taken with ⟨_, rfl⟩ | ⟨stored, session₂, _, _, ⟨_, rfl⟩ | ⟨_, rfl⟩⟩
  · exact rotates_same rfl rfl
  · exact rotates_same rfl rfl
  · exact Follows.put

theorem kickSession_rotates {id : SessionID} (taken : s.kickSession id = some s') : s.Rotates s' := by
  cases stored : s.sessions id with
  | none =>
    rw [kickSession_none stored] at taken
    cases Option.some.inj taken
    exact rotates_same rfl rfl
  | some p =>
    cases found : s.objects p with
    | none => simp [kickSession, access, emit, stored, found] at taken
    | some session =>
      rw [kickSession_some stored found] at taken
      obtain ⟨t, closed, deleted⟩ := Option.bind_eq_some_iff.mp taken
      have marked : s.Rotates t := by
        split at closed
        · have closing : ((s.access id).emit (.kick id)).Rotates t := closeSock_rotates closed
          exact closing
        · cases Option.some.inj closed
          exact rotates_same rfl rfl
      exact marked.trans (delSession_rotates deleted)

theorem addTCPConnector_rotates (positive : 0 ∉ s.queSessionID) {c : Nat} {added connecting ok : Bool}
    (taken : s.addTCPConnector c added connecting = some (ok, s')) : s.Rotates s' := by
  obtain ⟨session, found, _⟩ := Option.bind_eq_some_iff.mp taken
  rcases addTCPConnector_cases positive found taken with
    ⟨_, rfl⟩ | ⟨id, rest, front, ⟨_, rfl⟩ | ⟨_, _, rfl⟩ | ⟨_, _, rfl⟩⟩
  · exact rotates_same rfl rfl
  · exact rotates_returned front rfl rfl
  · exact rotates_returned front rfl rfl
  · exact rotates_taken front rfl rfl

theorem acceptRound_rotates (positive : 0 ∉ s.queSessionID) {listener : Socket} {answer : Option Accepted}
    (taken : s.acceptRound listener answer = some s') : s.Rotates s' := by
  cases answer with
  | none =>
    cases Option.some.inj taken
    exact rotates_same rfl rfl
  | some a =>
    rcases acceptRound_cases positive taken with rfl | ⟨id, rest, front, rfl | rfl⟩
    · exact rotates_same rfl rfl
    · exact rotates_returned front rfl rfl
    · exact rotates_taken front rfl rfl

theorem receiveRound_rotates (positive : 0 ∉ s.queSessionID) {listener : Socket} {data : List Byte}
    {answer : Option Datagram} (taken : s.receiveRound listener data answer = some s') : s.Rotates s' := by
  cases answer with
  | none =>
    cases Option.some.inj taken
    exact rotates_same rfl rfl
  | some d =>
    rcases receiveRound_cases positive taken with rfl | ⟨_, rfl⟩ | ⟨id, rest, front, _, _, rfl⟩
    · exact rotates_same rfl rfl
    · exact rotates_same rfl rfl
    · exact rotates_taken front rfl rfl

theorem postConnect_rotates {c : Nat} (taken : s.postConnect c = some s') : s.Rotates s' := by
  obtain ⟨session, found, _⟩ := Option.bind_eq_some_iff.mp taken
  rw [postConnect_eq found] at taken
  cases Option.some.inj taken
  exact rotates_same rfl rfl

theorem postRead_rotates {p : SessionPtr} {chunks : List (List Byte)} {ending : ReadEnd}
    (taken : s.postRead p chunks ending = some s') : s.Rotates s' := by
  obtain ⟨session, found, _⟩ := Option.bind_eq_some_iff.mp taken
  rcases postRead_cases found taken with ⟨_, _, rfl⟩ | ⟨_, _, rfl⟩ | ⟨_, rfl⟩ <;> exact rotates_same rfl rfl

theorem epollAdd_rotates (s : NetService) (sock : Socket) (context : Context) (added : Bool) :
    s.Rotates ((s.epollAdd sock context added).getD s) := by
  rcases epollAdd_cases s sock context added with same | same <;> rw [same] <;> exact rotates_same rfl rfl

theorem Numbered.step_rotates (numbered : s.Numbered) {action : Action} (taken : s.step action = some s') :
    s.Rotates s' := by
  have positive := numbered.queue_positive
  cases step_took taken with
  | addTCPListener user => exact epollAdd_rotates _ _ _ _
  | addUDPListener user => exact epollAdd_rotates _ _ _ _
  | addTCPConnector user result => exact addTCPConnector_rotates positive result
  | kickSession user issued result => exact kickSession_rotates result
  | postConnect idle result => exact postConnect_rotates result
  | postRead idle result => exact postRead_rotates result
  | @connecting _ _ _ rest _ _ idle events context out result =>
    have popped : ({ s with events := rest } : NetService).Rotates s' := postConnect_rotates result
    exact popped
  | @reading _ _ _ rest _ _ idle events context result =>
    have popped : ({ s with events := rest } : NetService).Rotates s' := postRead_rotates result
    exact popped
  | accept pc result => exact acceptRound_rotates positive result
  | recvfrom pc result => exact receiveRound_rotates positive result
  | @connected _ c _ pc result =>
    obtain ⟨session, found, _⟩ := Option.bind_eq_some_iff.mp result
    rcases connected_cases found ((numbered.objects _ session found).2 c rfl) result with ⟨_, _, rfl⟩ | rfl
    · exact rotates_same rfl rfl
    · exact rotates_same rfl rfl
  | dropped pc result =>
    have deleted := delSession_rotates result
    exact deleted
  | _ => exact rotates_same rfl rfl

/-- The states that a run leads to from a state of the service. -/
def Later (s s' : NetService) : Prop := Relation.ReflTransGen (fun s s' => ∃ action, s.step action = some s') s s'

theorem Reachable.later (reached : Reachable (fun _ _ => True) s) (later : s.Later s') :
    Reachable (fun _ _ => True) s' ∧ s.Rotates s' := by
  induction later with
  | refl => exact ⟨reached, .refl⟩
  | tail _ taken ih =>
    obtain ⟨before, rotates⟩ := ih
    obtain ⟨action, taken⟩ := taken
    exact ⟨before.act action trivial taken, rotates.trans ((numbered_of_reachable before).step_rotates taken)⟩

end NetService

/-! ### The IOCP backend -/

namespace IocpService
variable {s s' : IocpService}

/-- The completions and calls that make `NewSessionID` hand out an ID, if the
    queue has one left. -/
def TakesID (s : IocpService) : IocpAction → Prop
  | .addTCPConnector _ _ => True
  | .accepted _ _ _ _ _ => True
  | .receivedFrom _ datagram _ => datagram.bytes ≠ [] ∧ s.net.getUDPSessionID datagram.address = 0
  | _ => False

/-- What a step does to the IDs. -/
structure Numbers (s s' : IocpService) (action : IocpAction) : Prop where
  numbered : s'.net.Numbered
  rotates : s.net.Rotates s'.net
  issued : s'.net.issued = s.net.issued ∨ s.TakesID action ∧ s'.net.issued.length ≤ s.net.issued.length + 1

variable {action : IocpAction}

/-- Nothing that has to do with IDs changes. -/
theorem numbers_same (numbered : s.net.Numbered) (issued : s'.net.issued = s.net.issued)
    (queue : s'.net.queSessionID = s.net.queSessionID) (objects : s'.net.objects = s.net.objects)
    (sessions : s'.net.sessions = s.net.sessions) (accesses : s'.net.accesses = s.net.accesses) :
    s.Numbers s' action := by
  refine ⟨numbered.move (.same issued queue) ?_ ?_ ?_, NetService.rotates_same issued queue, .inl issued⟩
  · rw [objects]
    exact fun p session found => .inl ⟨session, found, rfl, rfl⟩
  · rw [sessions]
    exact fun j n => .inl
  · rw [accesses]
    exact fun j => .inl

/-- Sockets for accepts are created, posted and closed after the step. -/
theorem Numbers.aside {t : IocpService} (numbers : s.Numbers t action) (aside : t.Aside s') : s.Numbers s' action := by
  obtain ⟨numbered, rotates, issued⟩ := numbers
  obtain ⟨more, net, _⟩ := aside.net
  refine ⟨numbered.frame (by rw [net]; exact NetService.leaves_rest) (by rw [net]) (by rw [net]), ?_, ?_⟩
  · rw [net]
    exact rotates
  · rw [net]
    exact issued

theorem numbers_setObject (numbered : s.net.Numbered) {p : SessionPtr} {session session' : Session}
    (found : s.net.objects p = some session) (net : s'.net = s.net.setObject p session')
    (id : session'.sessionID = session.sessionID) (sockType : session'.sockType = session.sockType) :
    s.Numbers s' action := by
  refine ⟨by rw [net]; exact numbered.setObject found id sockType, ?_, .inl (by rw [net]; rfl)⟩
  rw [net]
  exact NetService.rotates_same rfl rfl

/-- An ID goes to the session of a connector. -/
theorem numbers_connector (numbered : s.net.Numbered) {c : Nat} {session : Session} {id : SessionID}
    {rest : List SessionID} (found : s.net.objects (.connector c) = some session) (front : s.net.queSessionID = id :: rest)
    (issued : s'.net.issued = s.net.issued ++ [id])
    (queue : s'.net.queSessionID = rest ∨ s'.net.queSessionID = rest ++ [id])
    (objects : s'.net.objects =
      Function.update s.net.objects (.connector c) (some { session with alive := false, sessionID := id }))
    (sessions : s'.net.sessions = s.net.sessions) (accesses : s'.net.accesses = s.net.accesses)
    (takes : s.TakesID action) : s.Numbers s' action := by
  have connect := (numbered.objects _ session found).2 c rfl
  refine ⟨numbered.move (.taken id rest front issued queue) ?_ ?_ ?_, ?_, .inr ⟨takes, by simp [issued]⟩⟩
  · intro p after found'
    rw [objects] at found'
    rcases update_eq_some found' with ⟨_, new⟩ | before
    · cases new
      exact .inr ⟨.inr (by rw [issued]; simp), fun _ _ => connect⟩
    · exact .inl ⟨after, before, rfl, rfl⟩
  · rw [sessions]
    exact fun j n => .inl
  · rw [accesses]
    exact fun j => .inl
  · rcases queue with queue | queue
    · exact NetService.rotates_taken front issued queue
    · exact NetService.rotates_returned front issued queue

theorem step_numbers (numbered : s.net.Numbered) (taken : s.step action = some s') : s.Numbers s' action := by
  cases step_took numbered.queue_positive (fun c session found => (numbered.objects _ session found).2 c rfl) taken with
  | newConnector free =>
    refine ⟨numbered.move (.same rfl rfl) ?_ (fun j n => .inl) fun j => .inl, NetService.rotates_same rfl rfl, .inl rfl⟩
    intro p session found
    rcases update_eq_some found with ⟨_, new⟩ | before
    · cases new
      exact .inr ⟨.inl rfl, fun _ _ => rfl⟩
    · exact .inl ⟨session, before, rfl, rfl⟩
  | @addTCPListener listener first rest t added =>
    subst added
    have same : s.Numbers s (.addTCPListener listener first rest) := numbers_same numbered rfl rfl rfl rfl rfl
    have added := same.aside (s.addTCPListener_aside listener first rest)
    exact ⟨added.numbered, added.rotates, added.issued⟩
  | addUDPListener =>
    exact (numbers_same numbered rfl rfl rfl rfl rfl : s.Numbers s _).aside (postReadFrom_aside ..)
  | unnumbered found => exact numbers_setObject numbered found rfl rfl rfl
  | unposted found front =>
    exact numbers_connector numbered found front rfl (.inr rfl) rfl rfl rfl trivial
  | attempted found front =>
    exact numbers_connector numbered found front rfl (.inl rfl) rfl rfl rfl trivial
  | kickSession issued result =>
    have kicked := numbered.kickSession (.inr issued) result
    exact ⟨kicked.1, NetService.kickSession_rotates result, .inl kicked.2⟩
  | @unaccepted listener sock _ _ next idle armed =>
    refine Numbers.aside ?_ (rearm_aside _ listener next)
    exact numbers_same numbered rfl rfl rfl rfl rfl
  | @unassociated listener sock _ _ next id rest idle armed front =>
    refine Numbers.aside ⟨?_, ?_, .inr ⟨trivial, ?_⟩⟩ (rearm_aside _ listener next)
    · have rotated : (s.net.rotated id rest).Numbered :=
        numbered.move (.taken id rest front rfl (.inr rfl)) (fun p session found => .inl ⟨session, found, rfl, rfl⟩)
          (fun j n => .inl) fun j => .inl
      exact rotated.frame NetService.leaves_rest rfl rfl
    · exact NetService.rotates_returned front rfl rfl
    · simp [NetService.destroySocket, NetService.emit, NetService.rotated]
  | accepted idle armed front =>
    exact ⟨numbered.opened front rfl rfl rfl rfl rfl rfl, NetService.rotates_taken front rfl rfl,
      .inr ⟨trivial, by simp [NetService.emit, NetService.opened]⟩⟩
  | @unserved listener _ posted idle armed =>
    refine Numbers.aside ?_ (postReadFrom_aside _ listener posted)
    exact numbers_same numbered rfl rfl rfl rfl rfl
  | served idle armed bytes unknown front =>
    exact ⟨numbered.opened front rfl rfl rfl rfl rfl rfl, NetService.rotates_taken front rfl rfl,
      .inr ⟨⟨bytes, unknown⟩, by simp [NetService.emit, NetService.setUDPSessionID, NetService.opened]⟩⟩
  | @connected c session idle trying found =>
    refine ⟨numbered.move (.same rfl rfl) (fun p session found => .inl ⟨session, found, rfl, rfl⟩) ?_ ?_,
      NetService.rotates_same rfl rfl, .inl rfl⟩
    · intro j n stored
      rcases update_eq_some stored with ⟨_, connector⟩ | before
      · cases connector
      · exact .inl before
    · intro j member
      rcases List.mem_append.mp member with before | now
      · exact .inl before
      · exact .inr (List.mem_singleton.mp now ▸ (numbered.objects _ session found).1)
  | @failed operation _ idle result =>
    cases operation <;> simp only [dequeue] at result <;> split at result <;> cases result <;>
      exact numbers_same numbered rfl rfl rfl rfl rfl
  | @acceptReturned posted next listener p _ pc found =>
    refine Numbers.aside ?_ (rearm_aside _ listener next)
    exact numbers_same numbered rfl rfl rfl rfl rfl
  | connectReturned pc found => exact numbers_setObject numbered found rfl rfl rfl
  | connectFailed pc found => exact numbers_setObject numbered found rfl rfl rfl
  | dropped pc result =>
    have deleted := numbered.delSession result
    exact ⟨deleted.1, NetService.delSession_rotates result, .inl deleted.2⟩
  | @datagramReturned posted next listener pc =>
    have same : s.Numbers s (.resume posted next) := numbers_same numbered rfl rfl rfl rfl rfl
    have rearmed := same.aside (s.postReadFrom_aside listener posted)
    exact ⟨rearmed.numbered, rearmed.rotates, rearmed.issued⟩
  | _ => exact numbers_same numbered rfl rfl rfl rfl rfl

theorem numbered_of_reachable {allowed : IocpService → IocpAction → Prop} (reached : Reachable allowed s) :
    s.net.Numbered := by
  refine Transition.Reachable.invariant (P := fun s : IocpService => s.net.Numbered) ?_ ?_ reached
  · rintro _ rfl
    exact NetService.initSession_numbered
  · rintro s s' _ numbered ⟨action, _, taken⟩
    exact (step_numbers numbered taken).numbered

def Later (s s' : IocpService) : Prop := Relation.ReflTransGen (fun s s' => ∃ action, s.step action = some s') s s'

theorem Reachable.later (reached : Reachable (fun _ _ => True) s) (later : s.Later s') :
    Reachable (fun _ _ => True) s' ∧ s.net.Rotates s'.net := by
  induction later with
  | refl => exact ⟨reached, .refl⟩
  | tail _ taken ih =>
    obtain ⟨before, rotates⟩ := ih
    obtain ⟨action, taken⟩ := taken
    exact ⟨before.act action trivial taken, rotates.trans (step_numbers (numbered_of_reachable before) taken).rotates⟩

end IocpService

/-! ### Both backends -/

/-- From one state of a service to a later one: the IDs handed out since are
    those that were free, in the order of the queue, and then those given back
    since; an ID that was not free comes after all that were. -/
structure HandsOutInOrder (s s' : NetService) : Prop where
  order : ∃ new freed, s'.issued = s.issued ++ new ∧ s.queSessionID ++ freed = new ++ s'.queSessionID
  last : ∀ new id, s'.issued = s.issued ++ new → id ∈ new → id ∉ s.queSessionID →
    s.queSessionID <+: new.takeWhile (· ≠ id)

theorem NetService.Rotates.handsOutInOrder {s s' : NetService} (rotates : s.Rotates s') : HandsOutInOrder s s' := by
  refine ⟨rotates, ?_⟩
  intro new id issued again out
  have follows : Follows s.issued s.queSessionID (s.issued ++ new) s'.queSessionID := by
    rw [← issued]
    exact rotates
  exact follows.ahead out again

/-- No ID is handed out again before every ID that was free has been, on either
    backend and whatever is called and arrives. -/
theorem ids_reused_last (epoll epoll' : NetService) (iocp iocp' : IocpService)
    (reached : NetService.Reachable (fun _ _ => True) epoll) (later : epoll.Later epoll')
    (iocpReached : IocpService.Reachable (fun _ _ => True) iocp) (iocpLater : iocp.Later iocp') :
    HandsOutInOrder epoll epoll' ∧ HandsOutInOrder iocp.net iocp'.net :=
  ⟨(reached.later later).2.handsOutInOrder, (iocpReached.later iocpLater).2.handsOutInOrder⟩

/-- A session is kicked and its ID given back; the next one has another ID. -/
theorem first_ids_handed_out : ∃ epoll iocp, NetService.initSession.Later epoll ∧ epoll.issued = [1, 2] ∧
    1 ∈ epoll.queSessionID ∧ IocpService.initSession.Later iocp ∧ iocp.net.issued = [1, 2] ∧ 1 ∈ iocp.net.queSessionID ∧
    HandsOutInOrder NetService.initSession epoll ∧ HandsOutInOrder IocpService.initSession.net iocp.net := by
  have accepting : NetService.initSession.Later _ := .single ⟨.postAccept 3, rfl⟩
  have accepted := accepting.tail ⟨.accept (some ⟨7, ⟨0, 0⟩, true⟩), rfl⟩
  have kicked := accepted.tail ⟨.kickSession 1, rfl⟩
  have accepted' := (kicked.tail ⟨.resume true, rfl⟩).tail ⟨.accept (some ⟨8, ⟨0, 0⟩, true⟩), rfl⟩
  have armed : IocpService.initSession.Later _ := .single ⟨.addUDPListener 5 true, rfl⟩
  have opened := armed.tail ⟨.receivedFrom 5 ⟨[7], ⟨0, 0⟩⟩ true, rfl⟩
  have kicked' := opened.tail ⟨.kickSession 1, rfl⟩
  have returned := (kicked'.tail ⟨.resume true none, rfl⟩).tail ⟨.resume true none, rfl⟩
  have opened' := returned.tail ⟨.receivedFrom 5 ⟨[8], ⟨0, 1⟩⟩ true, rfl⟩
  obtain ⟨first, second⟩ := ids_reused_last _ _ _ _ .init accepted' .init opened'
  exact ⟨_, _, accepted', rfl, List.mem_append_right _ (List.mem_singleton_self 1), opened', rfl,
    List.mem_append_right _ (List.mem_singleton_self 1), first, second⟩

/-- The steps that do not make `NewSessionID` hand out its last ID. -/
def IocpService.FewIDs (s : IocpService) (action : IocpAction) : Prop :=
  s.TakesID action → s.net.issued.length + 1 < maxSockEvent

/-- In every run of the IOCP backend that never hands out as many IDs as the
    table has cells, every index used on the table is inside it. -/
theorem iocp_indices_in_bounds (s : IocpService) (reached : IocpService.Reachable IocpService.FewIDs s) :
    ∀ id ∈ s.net.accesses, id < maxSockEvent := by
  have few : s.net.issued.length < maxSockEvent := by
    refine Transition.Reachable.invariant (P := fun s : IocpService => s.net.issued.length < maxSockEvent) ?_ ?_ reached
    · rintro _ rfl
      decide
    · rintro s s' before few ⟨action, allows, taken⟩
      rcases (IocpService.step_numbers (IocpService.numbered_of_reachable before) taken).issued with same | ⟨takes, more⟩
      · rw [same]
        exact few
      · exact lt_of_le_of_lt more (allows takes)
  have numbered := IocpService.numbered_of_reachable reached
  intro id member
  rcases numbered.accesses id member with rfl | handedOut
  · decide
  · rw [numbered.issued_eq few.le, List.mem_range'_1] at handedOut
    exact lt_of_lt_of_le handedOut.2 (by rw [Nat.add_comm]; exact few)

theorem one_peer_indexed : ∃ s, IocpService.Reachable IocpService.FewIDs s ∧ s.net.accesses = [1] ∧
    ∀ id ∈ s.net.accesses, id < maxSockEvent := by
  have armed : IocpService.Reachable IocpService.FewIDs _ :=
    IocpService.Reachable.init.act (.addUDPListener 5 true) nofun rfl
  have opened := armed.act (.receivedFrom 5 ⟨[7], ⟨0, 0⟩⟩ true) (fun _ => by decide) rfl
  exact ⟨_, opened, rfl, iocp_indices_in_bounds _ opened⟩

end LiteServer.Net
