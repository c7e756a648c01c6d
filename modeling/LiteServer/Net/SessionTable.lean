import LiteServer.Net.Outcomes

/-!
The indices used on `m_Sessions`. IDs leave the queue in the order `InitSession`
put them in, each before any that was given back, so the last of them, which is
the size of the table, is the last one handed out for the first time.
-/
namespace LiteServer.Net

namespace NetService
variable {s s' : NetService}

/-- Zero, the ID of a session that has none, or an ID that was handed out. -/
def Known (s : NetService) (id : SessionID) : Prop := id = 0 ∨ id ∈ s.issued

structure Numbered (s : NetService) : Prop where
  fifo : ∃ freed, s.issued ++ s.queSessionID = List.range' 1 maxSockEvent ++ freed
  positive : 0 ∉ s.issued ++ s.queSessionID
  objects : ∀ p session, s.objects p = some session →
    s.Known session.sessionID ∧ ∀ c, p = .connector c → session.sockType = .connect
  heap : ∀ id n, s.sessions id = some (.heap n) → id ∈ s.issued
  accesses : ∀ id ∈ s.accesses, s.Known id

/-- How a step may change the queue: it does not, it gives an ID back, or it
    takes one, which it may give back at once. -/
inductive Queued (s s' : NetService) : Prop where
  | same (issued : s'.issued = s.issued) (queue : s'.queSessionID = s.queSessionID)
  | freed (id : SessionID) (known : id ∈ s.issued) (issued : s'.issued = s.issued)
      (queue : s'.queSessionID = s.queSessionID ++ [id])
  | taken (id : SessionID) (rest : List SessionID) (front : s.queSessionID = id :: rest)
      (issued : s'.issued = s.issued ++ [id]) (queue : s'.queSessionID = rest ∨ s'.queSessionID = rest ++ [id])

theorem Queued.issued_subset (queued : Queued s s') : s.issued ⊆ s'.issued := by
  cases queued with
  | same issued _ => exact issued ▸ List.Subset.refl _
  | freed _ _ issued _ => exact issued ▸ List.Subset.refl _
  | taken id _ _ issued _ => exact issued ▸ List.subset_append_left ..

theorem Queued.known (queued : Queued s s') {id : SessionID} (known : s.Known id) : s'.Known id :=
  known.imp_right fun member => queued.issued_subset member

theorem Queued.fifo (queued : Queued s s') (numbered : s.Numbered) :
    (∃ freed, s'.issued ++ s'.queSessionID = List.range' 1 maxSockEvent ++ freed) ∧
      0 ∉ s'.issued ++ s'.queSessionID := by
  obtain ⟨freed, fifo⟩ := numbered.fifo
  have positive := numbered.positive
  cases queued with
  | same issued queue =>
    rw [issued, queue]
    exact ⟨⟨freed, fifo⟩, positive⟩
  | freed id known issued queue =>
    rw [issued, queue, ← List.append_assoc, fifo]
    refine ⟨⟨freed ++ [id], List.append_assoc ..⟩, ?_⟩
    intro zero
    rw [← fifo, List.mem_append, List.mem_singleton] at zero
    rcases zero with before | rfl
    · exact positive before
    · exact positive (List.mem_append_left _ known)
  | taken id rest front issued queue =>
    rw [front] at fifo positive
    have moved : s.issued ++ [id] ++ rest = s.issued ++ id :: rest := List.append_cons .. |>.symm
    rcases queue with queue | queue
    · rw [issued, queue, moved]
      exact ⟨⟨freed, fifo⟩, positive⟩
    · rw [issued, queue, ← List.append_assoc, moved, fifo]
      refine ⟨⟨freed ++ [id], List.append_assoc ..⟩, ?_⟩
      intro zero
      rw [← fifo, List.mem_append, List.mem_singleton] at zero
      rcases zero with before | rfl
      · exact positive before
      · exact positive (by simp)

/-- What a step has to show of the state it leads to. -/
theorem Numbered.move (numbered : s.Numbered) (queued : Queued s s')
    (objects : ∀ p session, s'.objects p = some session →
      (∃ before, s.objects p = some before ∧ session.sessionID = before.sessionID ∧ session.sockType = before.sockType) ∨
      (s'.Known session.sessionID ∧ ∀ c, p = .connector c → session.sockType = .connect))
    (sessions : ∀ id n, s'.sessions id = some (.heap n) → s.sessions id = some (.heap n) ∨ id ∈ s'.issued)
    (accesses : ∀ id ∈ s'.accesses, id ∈ s.accesses ∨ s'.Known id) : s'.Numbered where
  fifo := (queued.fifo numbered).1
  positive := (queued.fifo numbered).2
  objects p session after := by
    rcases objects p session after with ⟨before, found, id, sockType⟩ | new
    · obtain ⟨known, connect⟩ := numbered.objects p before found
      rw [id, sockType]
      exact ⟨queued.known known, connect⟩
    · exact new
  heap id n after := by
    rcases sessions id n after with before | new
    · exact queued.issued_subset (numbered.heap id n before)
    · exact new
  accesses id member := by
    rcases accesses id member with before | new
    · exact queued.known (numbered.accesses id before)
    · exact new

/-! ### Operations -/

theorem Numbered.frame (numbered : s.Numbered) (leaves : s.Leaves s') (issued : s'.issued = s.issued)
    (accesses : s'.accesses = s.accesses) : s'.Numbered := by
  refine numbered.move (.same issued leaves.queSessionID) ?_ ?_ ?_
  · rw [leaves.objects]; exact fun p session found => .inl ⟨session, found, rfl, rfl⟩
  · rw [leaves.sessions]; exact fun id n stored => .inl stored
  · rw [accesses]; exact fun id member => .inl member

theorem Numbered.access (numbered : s.Numbered) {id : SessionID} (known : s.Known id) : (s.access id).Numbered := by
  refine numbered.move (.same rfl rfl) (fun p session found => .inl ⟨session, found, rfl, rfl⟩)
    (fun id n stored => .inl stored) ?_
  intro j member
  rcases List.mem_append.mp member with before | now
  · exact .inl before
  · exact .inr (List.mem_singleton.mp now ▸ known)

theorem Numbered.setObject (numbered : s.Numbered) {p : SessionPtr} {session session' : Session}
    (found : s.objects p = some session) (id : session'.sessionID = session.sessionID)
    (sockType : session'.sockType = session.sockType) : (s.setObject p session').Numbered := by
  refine numbered.move (.same rfl rfl) ?_ (fun id n stored => .inl stored) fun j => .inl
  intro q after found'
  rcases update_eq_some found' with ⟨rfl, new⟩ | before
  · cases new
    exact .inl ⟨session, found, id, sockType⟩
  · exact .inl ⟨after, before, rfl, rfl⟩

theorem Numbered.closeSock (numbered : s.Numbered) {p : SessionPtr} {session : Session}
    (found : s.objects p = some session) (taken : s.closeSock p = some s') :
    s'.Numbered ∧ s'.issued = s.issued := by
  rcases closeSock_cases found taken with rfl | ⟨sock, _, rfl⟩
  · exact ⟨numbered, rfl⟩
  · have closed : (s.destroySocket sock).Numbered := numbered.frame leaves_rest rfl rfl
    exact ⟨closed.setObject found rfl rfl, rfl⟩

theorem Numbered.delSession (numbered : s.Numbered) {p : SessionPtr} (taken : s.delSession p = some s') :
    s'.Numbered ∧ s'.issued = s.issued := by
  obtain ⟨session, found, _⟩ := Option.bind_eq_some_iff.mp taken
  have accessed : (s.access session.sessionID).Numbered := numbered.access (numbered.objects p session found).1
  rcases delSession_cases found taken with ⟨_, rfl⟩ | ⟨stored, session₂, inTable, found₂, ⟨_, rfl⟩ | ⟨own, rfl⟩⟩
  · exact ⟨accessed, rfl⟩
  · have dead : ((s.access session.sessionID).setObject stored { session₂ with alive := false }).Numbered :=
      accessed.setObject found₂ rfl rfl
    refine ⟨dead.move (.same rfl rfl) (fun q after found' => .inl ⟨after, found', rfl, rfl⟩) ?_ fun j => .inl, rfl⟩
    intro id n stored'
    rcases update_eq_some stored' with ⟨_, none⟩ | before
    · cases none
    · exact .inl before
  · -- The table has objects from `new` only under IDs that were handed out.
    have known : session.sessionID ∈ s.issued := by
      cases stored with
      | heap n => exact numbered.heap _ n inTable
      | connector c => exact absurd ((numbered.objects _ session₂ found₂).2 c rfl) own
    refine ⟨accessed.move (.freed session.sessionID known rfl rfl) ?_ ?_ fun j => .inl, rfl⟩
    · intro q after found'
      rcases update_eq_some found' with ⟨_, none⟩ | before
      · cases none
      · exact .inl ⟨after, before, rfl, rfl⟩
    · intro id n stored'
      rcases update_eq_some stored' with ⟨_, none⟩ | before
      · cases none
      · exact .inl before

theorem Numbered.kickSession (numbered : s.Numbered) {id : SessionID} (known : s.Known id)
    (taken : s.kickSession id = some s') : s'.Numbered ∧ s'.issued = s.issued := by
  cases inTable : s.sessions id with
  | none =>
    rw [kickSession_none inTable] at taken
    cases Option.some.inj taken
    exact ⟨numbered.access known, rfl⟩
  | some p =>
    have marked : ((s.access id).emit (.kick id)).Numbered := (numbered.access known).frame leaves_rest rfl rfl
    obtain ⟨session, found⟩ : ∃ session, s.objects p = some session := by
      cases found : s.objects p with
      | none => simp [NetService.kickSession, NetService.access, emit, inTable, found] at taken
      | some session => exact ⟨session, rfl⟩
    rw [kickSession_some inTable found] at taken
    obtain ⟨t, closed, taken⟩ := Option.bind_eq_some_iff.mp taken
    split at closed
    · obtain ⟨numbered', issued⟩ := marked.closeSock found closed
      exact ⟨(numbered'.delSession taken).1, (numbered'.delSession taken).2.trans issued⟩
    · cases Option.some.inj closed
      exact marked.delSession taken

theorem Numbered.queue_positive (numbered : s.Numbered) : 0 ∉ s.queSessionID :=
  fun member => numbered.positive (List.mem_append_right _ member)

/-- A session takes the ID at the front and enters the table. -/
theorem Numbered.opened (numbered : s.Numbered) {id : SessionID} {rest : List SessionID}
    (front : s.queSessionID = id :: rest) {session : Session} (own : session.sessionID = id)
    (queue : s'.queSessionID = rest) (issued : s'.issued = s.issued ++ [id])
    (objects : s'.objects = Function.update s.objects (.heap s.allocated) (some session))
    (sessions : s'.sessions = Function.update s.sessions id (some (.heap s.allocated)))
    (accesses : s'.accesses = s.accesses ++ [id]) : s'.Numbered := by
  have known : id ∈ s'.issued := issued ▸ List.mem_append_right _ (List.mem_singleton_self id)
  refine numbered.move (.taken id rest front issued (.inl queue)) ?_ ?_ ?_
  · intro p after found
    rw [objects] at found
    rcases update_eq_some found with ⟨rfl, new⟩ | before
    · cases new
      exact .inr ⟨.inr (own ▸ known), nofun⟩
    · exact .inl ⟨after, before, rfl, rfl⟩
  · intro j n stored
    rw [sessions] at stored
    rcases update_eq_some stored with ⟨rfl, _⟩ | before
    · exact .inr known
    · exact .inl before
  · intro j member
    rw [accesses, List.mem_append, List.mem_singleton] at member
    rcases member with before | rfl
    · exact .inl before
    · exact .inr (.inr known)

/-- The calls of `NewSessionID` that a step makes, if the queue has an ID left. -/
def TakesID (s : NetService) : Action → Prop
  | .addTCPConnector _ _ _ => True
  | .accept answer => answer.isSome
  | .recvfrom answer => ∃ datagram, answer = some datagram ∧ datagram.bytes ≠ [] ∧ s.getUDPSessionID datagram.address = 0
  | _ => False

theorem Numbered.addTCPConnector (numbered : s.Numbered) {c : Nat} {added connecting ok : Bool}
    (taken : s.addTCPConnector c added connecting = some (ok, s')) :
    s'.Numbered ∧ s'.issued.length ≤ s.issued.length + 1 := by
  obtain ⟨session, found, _⟩ := Option.bind_eq_some_iff.mp taken
  have connect := (numbered.objects _ session found).2 c rfl
  rcases addTCPConnector_cases numbered.queue_positive found taken with
    ⟨_, rfl⟩ | ⟨id, rest, front, ⟨_, rfl⟩ | ⟨_, _, rfl⟩ | ⟨_, _, rfl⟩⟩
  · exact ⟨numbered.setObject found rfl rfl, Nat.le_succ _⟩
  all_goals
    refine ⟨numbered.move (.taken id rest front rfl (by simp [NetService.setObject, rotated])) ?_
      (fun j n => .inl) fun j => .inl, by simp [NetService.setObject, rotated]⟩
    intro p after found'
    rcases update_eq_some found' with ⟨_, new⟩ | before
    · cases new
      exact .inr ⟨.inr (by simp [NetService.setObject, rotated]), fun _ _ => connect⟩
    · exact .inl ⟨after, before, rfl, rfl⟩

theorem Numbered.acceptRound (numbered : s.Numbered) {listener : Socket} {answer : Option Accepted}
    (taken : s.acceptRound listener answer = some s') :
    s'.Numbered ∧ (s'.issued = s.issued ∨ answer.isSome ∧ s'.issued.length ≤ s.issued.length + 1) := by
  cases answer with
  | none =>
    cases Option.some.inj taken
    exact ⟨numbered.frame leaves_rest rfl rfl, .inl rfl⟩
  | some a =>
    rcases acceptRound_cases numbered.queue_positive taken with rfl | ⟨id, rest, front, rfl | rfl⟩
    · exact ⟨numbered.frame leaves_rest rfl rfl, .inl rfl⟩
    · have rotated : ((s.emit (.opened a.socket)).rotated id rest).Numbered :=
        numbered.move (.taken id rest front rfl (.inr rfl)) (fun p session found => .inl ⟨session, found, rfl, rfl⟩)
          (fun j n => .inl) fun j => .inl
      exact ⟨rotated.frame leaves_rest rfl rfl, .inr ⟨rfl, by simp [destroySocket, emit, NetService.rotated]⟩⟩
    · exact ⟨numbered.opened front rfl rfl rfl rfl rfl rfl, .inr ⟨rfl, by simp [emit, NetService.opened]⟩⟩

theorem Numbered.receiveRound (numbered : s.Numbered) {listener : Socket} {data : List Byte} {answer : Option Datagram}
    (taken : s.receiveRound listener data answer = some s') :
    s'.Numbered ∧ (s'.issued = s.issued ∨ s.TakesID (.recvfrom answer) ∧ s'.issued.length ≤ s.issued.length + 1) := by
  cases answer with
  | none =>
    cases Option.some.inj taken
    exact ⟨numbered.frame leaves_rest rfl rfl, .inl rfl⟩
  | some d =>
    rcases receiveRound_cases numbered.queue_positive taken with rfl | ⟨_, rfl⟩ | ⟨id, rest, front, unknown, bytes, rfl⟩
    · exact ⟨numbered.frame leaves_rest rfl rfl, .inl rfl⟩
    · exact ⟨numbered.frame leaves_rest rfl rfl, .inl rfl⟩
    · exact ⟨numbered.opened front rfl rfl rfl rfl rfl rfl,
        .inr ⟨⟨d, rfl, bytes, unknown⟩, by simp [emit, setUDPSessionID, NetService.opened]⟩⟩

theorem Numbered.postConnect (numbered : s.Numbered) {c : Nat} (taken : s.postConnect c = some s') :
    s'.Numbered ∧ s'.issued = s.issued := by
  obtain ⟨session, found, _⟩ := Option.bind_eq_some_iff.mp taken
  rw [postConnect_eq found] at taken
  cases Option.some.inj taken
  refine ⟨numbered.move (.same rfl rfl) (fun p session found => .inl ⟨session, found, rfl, rfl⟩) ?_ ?_, rfl⟩
  · intro j n stored
    rcases update_eq_some stored with ⟨_, connector⟩ | before
    · cases connector
    · exact .inl before
  · intro j member
    rcases List.mem_append.mp member with before | now
    · exact .inl before
    · exact .inr (List.mem_singleton.mp now ▸ (numbered.objects _ session found).1)

theorem Numbered.postRead (numbered : s.Numbered) {p : SessionPtr} {chunks : List (List Byte)} {ending : ReadEnd}
    (taken : s.postRead p chunks ending = some s') : s'.Numbered ∧ s'.issued = s.issued := by
  obtain ⟨session, found, _⟩ := Option.bind_eq_some_iff.mp taken
  rcases postRead_cases found taken with ⟨_, _, rfl⟩ | ⟨_, _, rfl⟩ | ⟨_, rfl⟩ <;>
    exact ⟨numbered.frame leaves_rest rfl rfl, rfl⟩

theorem Numbered.connected (numbered : s.Numbered) {c : Nat} {changed : Bool}
    (taken : s.connected c changed = some s') : s'.Numbered ∧ s'.issued = s.issued := by
  obtain ⟨session, found, _⟩ := Option.bind_eq_some_iff.mp taken
  rcases connected_cases found ((numbered.objects _ session found).2 c rfl) taken with ⟨_, _, rfl⟩ | rfl
  · have alive : (s.setObject (.connector c) { session with alive := true }).Numbered :=
      numbered.setObject found rfl rfl
    exact ⟨alive.frame leaves_rest rfl rfl, rfl⟩
  · exact ⟨numbered.frame leaves_rest rfl rfl, rfl⟩

theorem Numbered.epollAdd (numbered : s.Numbered) (sock : Socket) (context : Context) (added : Bool) :
    ((s.epollAdd sock context added).getD s).Numbered ∧ ((s.epollAdd sock context added).getD s).issued = s.issued := by
  unfold NetService.epollAdd
  split
  · exact ⟨numbered.frame leaves_rest rfl rfl, rfl⟩
  · exact ⟨numbered, rfl⟩

theorem Numbered.step (numbered : s.Numbered) {action : Action} (taken : s.step action = some s') :
    s'.Numbered ∧ (s'.issued = s.issued ∨ s.TakesID action ∧ s'.issued.length ≤ s.issued.length + 1) := by
  cases step_took taken with
  | newConnector user free =>
    refine ⟨numbered.move (.same rfl rfl) ?_ (fun j n => .inl) fun j => .inl, .inl rfl⟩
    intro p session found
    rcases update_eq_some found with ⟨_, new⟩ | before
    · cases new
      exact .inr ⟨.inl rfl, fun _ _ => rfl⟩
    · exact .inl ⟨session, before, rfl, rfl⟩
  | addTCPListener user => exact (numbered.epollAdd _ _ _).imp_right .inl
  | addUDPListener user => exact (numbered.epollAdd _ _ _).imp_right .inl
  | addTCPConnector user result => exact (numbered.addTCPConnector result).imp_right fun count => .inr ⟨trivial, count⟩
  | kickSession user issued result => exact (numbered.kickSession (.inr issued) result).imp_right .inl
  | postAccept idle => exact ⟨numbered.frame leaves_rest rfl rfl, .inl rfl⟩
  | postConnect idle result => exact (numbered.postConnect result).imp_right .inl
  | postRead idle result => exact (numbered.postRead result).imp_right .inl
  | postReadFrom idle => exact ⟨numbered.frame leaves_rest rfl rfl, .inl rfl⟩
  | epollWait idle polled => exact ⟨numbered.frame leaves_rest rfl rfl, .inl rfl⟩
  | ignored idle events => exact ⟨numbered.frame leaves_rest rfl rfl, .inl rfl⟩
  | accepting idle events context => exact ⟨numbered.frame leaves_rest rfl rfl, .inl rfl⟩
  | @connecting _ _ _ rest _ _ idle events context out result =>
    have popped : ({ s with events := rest } : NetService).Numbered := numbered.frame leaves_rest rfl rfl
    exact (popped.postConnect result).imp_right .inl
  | @reading _ _ _ rest _ _ idle events context result =>
    have popped : ({ s with events := rest } : NetService).Numbered := numbered.frame leaves_rest rfl rfl
    exact (popped.postRead result).imp_right .inl
  | receiving idle events context => exact ⟨numbered.frame leaves_rest rfl rfl, .inl rfl⟩
  | accept pc result => exact numbered.acceptRound result
  | recvfrom pc result => exact numbered.receiveRound result
  | accepted pc => exact ⟨numbered.frame leaves_rest rfl rfl, .inl rfl⟩
  | connected pc result => exact (numbered.connected result).imp_right .inl
  | opened pc => exact ⟨numbered.frame leaves_rest rfl rfl, .inl rfl⟩
  | delivered pc => exact ⟨numbered.frame leaves_rest rfl rfl, .inl rfl⟩
  | dropped pc result =>
    obtain ⟨numbered', issued⟩ := numbered.delSession result
    exact ⟨numbered'.frame leaves_rest rfl rfl, .inl issued⟩
  | returned pc => exact ⟨numbered.frame leaves_rest rfl rfl, .inl rfl⟩

theorem initSession_numbered : initSession.Numbered where
  fifo := ⟨[], (List.append_nil _).symm⟩
  positive := by simp [initSession, List.mem_range'_1]
  objects := by simp [initSession]
  heap := by simp [initSession]
  accesses := by simp [initSession]

theorem numbered_of_reachable {allowed : NetService → Action → Prop} (reached : Reachable allowed s) : s.Numbered := by
  refine Transition.Reachable.invariant ?_ ?_ reached
  · rintro _ rfl
    exact initSession_numbered
  · rintro s s' _ numbered ⟨action, _, taken⟩
    exact (numbered.step taken).1

/-! ### Bounds -/

/-- The first IDs are handed out in the order of `InitSession`. -/
theorem Numbered.issued_eq (numbered : s.Numbered) (few : s.issued.length ≤ maxSockEvent) :
    s.issued = List.range' 1 s.issued.length := by
  obtain ⟨freed, fifo⟩ := numbered.fifo
  have first := congrArg (List.take s.issued.length) fifo
  rw [List.take_left, List.take_append_of_le_length (by simpa using few), List.take_range'_of_length_ge few] at first
  exact first

/-- The steps that do not make `NewSessionID` hand out its last ID. -/
def FewIDs (s : NetService) (action : Action) : Prop := s.TakesID action → s.issued.length + 1 < maxSockEvent

/-- In every run that never hands out as many IDs as the table has cells, every
    index used on the table is inside it. -/
theorem session_indices_in_bounds (s : NetService) (reached : Reachable FewIDs s) :
    ∀ id ∈ s.accesses, id < maxSockEvent := by
  have few : s.issued.length < maxSockEvent := by
    refine Transition.Reachable.invariant (P := fun s : NetService => s.issued.length < maxSockEvent) ?_ ?_ reached
    · rintro _ rfl
      decide
    · rintro s s' before few ⟨action, allows, taken⟩
      rcases ((numbered_of_reachable before).step taken).2 with same | ⟨takes, more⟩
      · rw [same]
        exact few
      · exact lt_of_le_of_lt more (allows takes)
  have numbered := numbered_of_reachable reached
  intro id member
  rcases numbered.accesses id member with rfl | handedOut
  · decide
  · rw [numbered.issued_eq few.le, List.mem_range'_1] at handedOut
    exact lt_of_lt_of_le handedOut.2 (by rw [Nat.add_comm]; exact few)

theorem one_connection_indexed : ∃ s, Reachable FewIDs s ∧ s.accesses = [1] ∧ ∀ id ∈ s.accesses, id < maxSockEvent := by
  have listening := (Reachable.init : Reachable FewIDs _).act (.postAccept 3) nofun rfl
  have accepted := listening.act (.accept (some ⟨7, ⟨0, 0⟩, true⟩)) (fun _ => by decide) rfl
  exact ⟨_, accepted, rfl, session_indices_in_bounds _ accepted⟩

/-- The last ID is handed out as soon as the count allows it. -/
theorem last_id_issued_iff {allowed : NetService → Action → Prop} (reached : Reachable allowed s) :
    maxSockEvent ∈ s.issued ↔ maxSockEvent ≤ s.issued.length := by
  have numbered := numbered_of_reachable reached
  constructor
  · intro member
    by_contra few
    rw [numbered.issued_eq (Nat.le_of_not_le few), List.mem_range'_1, Nat.add_comm] at member
    exact few (Nat.le_of_lt_succ member.2)
  · intro many
    obtain ⟨freed, fifo⟩ := numbered.fifo
    have first := congrArg (List.take maxSockEvent) fifo
    rw [List.take_append_of_le_length many, List.take_left' List.length_range'] at first
    refine List.mem_of_mem_take (i := maxSockEvent) ?_
    rw [first, List.mem_range'_1]
    decide

def connection (id : SessionID) : Session := ⟨true, 7, .accepted, ⟨0, 0⟩, some 7, id⟩

/-- The state in the `OnAddConnection` of a connection. -/
def greeting (s : NetService) (id : SessionID) (rest : List SessionID) : NetService :=
  { ((s.emit (.opened 7)).opened id rest (connection id)).emit (.onAddConnection id 7 ⟨0, 0⟩) with
    epoll := Function.update s.epoll 7 (some (.read (.heap s.allocated)))
    pc := .acceptCallBack 3 }

theorem greeting_kicked (s : NetService) (id : SessionID) (rest : List SessionID) :
    (s.greeting id rest).step (.kickSession id) =
      some ((((s.greeting id rest).access id).emit (.kick id)).removed (.heap s.allocated) (connection id)) := by
  have issued : (s.greeting id rest).issued.contains id = true := by simp [greeting, emit, NetService.opened]
  have user : (s.greeting id rest).pc.atUser = true := rfl
  have found : (s.greeting id rest).objects (.heap s.allocated) = some (connection id) := Function.update_self ..
  simp only [step, issued, user, Bool.and_true, if_true]
  exact kickSession_heap found (Function.update_self ..) (.inl rfl)

/-- A connection is accepted and kicked at once. -/
theorem Reachable.served (reached : Reachable (fun _ _ => True) s) (pc : s.pc = .accepting 3) (free : s.epoll 7 = none)
    {id : SessionID} {rest : List SessionID} (front : s.queSessionID = id :: rest) :
    ∃ s', Reachable (fun _ _ => True) s' ∧ s'.pc = .accepting 3 ∧ s'.epoll 7 = none ∧
      s'.queSessionID = rest ++ [id] := by
  have nonzero := head_ne_zero (numbered_of_reachable reached).queue_positive front
  have opened : s.step (.accept (some ⟨7, ⟨0, 0⟩, true⟩)) = some (s.greeting id rest) := by
    simp only [step, pc]
    exact acceptRound_opened nonzero front ⟨rfl, free⟩
  have kicked := (reached.act _ trivial opened).act _ trivial (s.greeting_kicked id rest)
  refine ⟨_, kicked.act (.resume true) trivial rfl, rfl, ?_, rfl⟩
  simp [removed, Session.closing, connection]

/-- After 19999 connections the last ID is at the front of the queue. -/
theorem Reachable.served_all (n : Nat) (few : n < maxSockEvent) : ∃ s, Reachable (fun _ _ => True) s ∧
    s.pc = .accepting 3 ∧ s.epoll 7 = none ∧
    ∃ rest, s.queSessionID = List.range' (n + 1) (maxSockEvent - n) ++ rest := by
  induction n with
  | zero => exact ⟨_, Reachable.init.act (.postAccept 3) trivial rfl, rfl, rfl, [], (List.append_nil _).symm⟩
  | succ n ih =>
    obtain ⟨s, reached, pc, free, rest, queue⟩ := ih (Nat.lt_of_succ_lt few)
    have more : maxSockEvent - n = maxSockEvent - (n + 1) + 1 := by omega
    rw [more, List.range'_succ, List.cons_append] at queue
    obtain ⟨s', reached', pc', free', queue'⟩ := reached.served pc free queue
    exact ⟨s', reached', pc', free', rest ++ [n + 1], by rw [queue', List.append_assoc]⟩

theorem last_connection_out_of_bounds :
    ¬ ∀ s, Reachable (fun _ _ => True) s → ∀ id ∈ s.accesses, id < maxSockEvent := by
  intro claim
  obtain ⟨s, reached, pc, free, rest, queue⟩ := Reachable.served_all 19999 (by decide)
  have front : s.queSessionID = 20000 :: rest := queue
  have opened := @acceptRound_opened s 3 ⟨7, ⟨0, 0⟩, true⟩ _ _ (by decide) front ⟨rfl, free⟩
  have accepted := reached.act (.accept (some ⟨7, ⟨0, 0⟩, true⟩)) trivial (by simp only [step, pc]; exact opened)
  exact absurd (claim _ accepted 20000 (List.mem_append_right _ (List.mem_singleton_self _))) (by decide)

end NetService

end LiteServer.Net
