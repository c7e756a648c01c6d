import LiteServer.Net.Identity
import LiteServer.Net.UdpMap

/-!
Session identity on the epoll backend: `OnData` and `OnConnectionDrop` name the
descriptor that their ID was last opened on, as long as each datagram of a peer
with a session arrives on the listener of that session.
-/
namespace LiteServer.Net

namespace NetService
variable {s s' : NetService} {linked : Nat → Prop}

/-- A connector that data can still arrive for: its descriptor is registered to
    be read, a read event is pending, or it is inside its `OnConnected`. -/
def Linked (s : NetService) (c : Nat) : Prop :=
  (∃ sock, s.epoll sock = some (.read (.connector c))) ∨
  (∃ event ∈ s.events, event.context = .read (.connector c)) ∨ s.pc = .connectCallBack c

/-- Connectors are added and connected in turn and only while no data can arrive
    for them, and a peer with a session sends to the listener of that session. -/
def Matched (s : NetService) : Action → Prop
  | .addTCPConnector c _ _ => (s.objects (.connector c)).isSome →
      c ∉ s.attempts ∧ (∀ id, s.sessions id ≠ some (.connector c)) ∧ ¬ s.Linked c
  | .postConnect c => (s.objects (.connector c)).isSome → c ∈ s.attempts
  | .dispatch _ _ => ∀ event rest c, s.events = event :: rest → event.context = .connect c → event.epollOut = true →
      (s.objects (.connector c)).isSome → c ∈ s.attempts
  | .postRead p _ _ => ∀ c, p = .connector c → s.Linked c ∨ ∃ id, s.sessions id = some (.connector c)
  | .recvfrom answer => ∀ listener data d p session, s.pc = .receiving listener data → answer = some d → d.bytes ≠ [] →
      s.sessions (s.getUDPSessionID d.address) = some p → s.objects p = some session → session.socket = listener
  | _ => True

structure Consistent (s : NetService) : Prop where
  kept : s.Kept
  dropping : s.Dropping
  identified : s.Identified s.Linked
  made : ∀ c, s.Linked c → (s.objects (.connector c)).isSome
  agreed : identity.Agreed s.trace
  opening : ∀ listener data id nread, s.pc = .openCallBack listener data id nread → s.latest id = some listener

theorem Consistent.orderly (consistent : s.Consistent) {action : Action} (matched : s.Matched action)
    (taken : s.step action = some s') : s.Orderly s.Linked action := by
  cases action with
  | newConnector c sock =>
    cases step_took taken with
    | newConnector user free =>
      intro link
      have made := consistent.made c link
      rw [free] at made
      cases made
  | addTCPConnector c added connecting => exact matched
  | postConnect c => exact matched
  | dispatch chunks ending => exact matched
  | _ => trivial

/-- What a step has to show besides its moves. -/
theorem Consistent.next (consistent : s.Consistent) {action : Action} (taken : s.step action = some s')
    (matched : s.Matched action)
    (links : ∀ c, s'.Linked c → s.Linked c ∨ ∃ id, s'.sessions id = some (.connector c))
    (agreed : identity.Agreed s'.trace)
    (opening : ∀ listener data id nread, s'.pc = .openCallBack listener data id nread → s'.latest id = some listener) :
    s'.Consistent := by
  have moves := step_moves consistent.kept.regular consistent.dropping (consistent.orderly matched taken) taken
  have kept : s'.Kept := moves.invariant (fun _ _ => Kept.move) consistent.kept
  refine ⟨kept, consistent.dropping.step consistent.kept.regular taken, (consistent.identified.moves moves).relink links,
    ?_, agreed, opening⟩
  intro c link
  rcases links c link with before | ⟨id, stored⟩
  · exact moves.invariant (fun _ _ made moved => Move.made moved made) (consistent.made c before)
  · obtain ⟨session, found, _⟩ := kept.regular.stored stored
    rw [found]
    rfl

/-- Neither opens an ID nor reports on one. -/
def Mutely (s s' : NetService) : Prop :=
  ∃ more, s'.trace = s.trace ++ more ∧ ∀ event ∈ more, ∀ id, event.opensOn id = none ∧ event.reportsOn id = none

theorem Mutely.agreed (mutely : s.Mutely s') (agreed : identity.Agreed s.trace) : identity.Agreed s'.trace := by
  obtain ⟨more, trace, mute⟩ := mutely
  rw [trace]
  exact agreed.append fun event member id => (mute event member id).2

theorem Mutely.latest (mutely : s.Mutely s') (id : SessionID) : s'.latest id = s.latest id := by
  obtain ⟨more, trace, mute⟩ := mutely
  exact Quietly.latest ⟨more, trace, fun event member id => (mute event member id).1⟩ id

theorem mute_rest {queSessionID : List SessionID} {mapUDPSessions : BitVec 64 → Option SessionID}
    {sessions : SessionID → Option SessionPtr} {objects : SessionPtr → Option Session} {allocated : Nat}
    {epoll : Socket → Option Context} {pc : Pc} {events : List PollEvent} {attempts : List Nat}
    {issued accesses : List SessionID} : s.Mutely ⟨queSessionID, mapUDPSessions, sessions, objects, allocated, epoll, pc,
      events, attempts, s.trace, issued, accesses⟩ :=
  ⟨[], (List.append_nil _).symm, by simp⟩

/-- Registrations to read are only taken away, and the thread does not move. -/
theorem Consistent.user (consistent : s.Consistent) {action : Action} (taken : s.step action = some s')
    (matched : s.Matched action) (mutely : s.Mutely s')
    (registered : ∀ sock p, s'.epoll sock = some (.read p) → s.epoll sock = some (.read p))
    (events : s'.events = s.events) (pc : s'.pc = s.pc) : s'.Consistent := by
  refine consistent.next taken matched ?_ (mutely.agreed consistent.agreed) ?_
  · rintro c (⟨sock, reads⟩ | pending | inside)
    · exact .inl (.inl ⟨sock, registered sock _ reads⟩)
    · exact .inl (.inr (.inl (events ▸ pending)))
    · exact .inl (.inr (.inr (pc ▸ inside)))
  · intro listener data id nread opening
    rw [mutely.latest]
    exact consistent.opening listener data id nread (pc ▸ opening)

/-- The thread moves on to where it neither opens nor connects anything. -/
theorem Consistent.goto (consistent : s.Consistent) {action : Action} (taken : s.step action = some s')
    (matched : s.Matched action) (agreed : identity.Agreed s'.trace)
    (registered : ∀ sock p, s'.epoll sock = some (.read p) → s.epoll sock = some (.read p))
    (events : s'.events ⊆ s.events) (connecting : ∀ c, s'.pc ≠ .connectCallBack c)
    (opening : ∀ listener data id nread, s'.pc ≠ .openCallBack listener data id nread) : s'.Consistent := by
  refine consistent.next taken matched ?_ agreed fun listener data id nread opens => absurd opens (opening _ _ _ _)
  rintro c (⟨sock, reads⟩ | ⟨event, pending, reads⟩ | inside)
  · exact .inl (.inl ⟨sock, registered sock _ reads⟩)
  · exact .inl (.inr (.inl ⟨event, events pending, reads⟩))
  · exact absurd inside (connecting c)

theorem kickSession_mutely (regular : s.Regular) {id : SessionID} (result : s.kickSession id = some s') :
    s.Mutely s' := by
  cases regular.kickSession result with
  | unknown empty => exact mute_rest
  | @heap n session found stored =>
    refine ⟨.kick session.sessionID :: session.closing.toList.map .closed, List.append_assoc .., ?_⟩
    simp [Event.opensOn, Event.reportsOn]
  | @connector c session found stored =>
    refine ⟨.kick session.sessionID :: session.sock.toList.map .closed, rfl, ?_⟩
    simp [Event.opensOn, Event.reportsOn]

/-! ### Steps -/

theorem Consistent.kickSession (consistent : s.Consistent) {id : SessionID}
    (taken : s.step (.kickSession id) = some s') (result : s.kickSession id = some s') : s'.Consistent := by
  have regular := consistent.kept.regular
  have mutely := kickSession_mutely regular result
  cases regular.kickSession result with
  | unknown empty => exact consistent.user taken trivial mutely (fun _ _ reads => reads) rfl rfl
  | heap found stored =>
    exact consistent.user taken trivial mutely (fun _ _ after => (closed_epoll after).1) rfl rfl
  | connector found stored =>
    exact consistent.user taken trivial mutely (fun _ _ after => (closed_epoll after).1) rfl rfl

theorem Consistent.addListener (consistent : s.Consistent) {action : Action} (taken : s.step action = some s')
    (matched : s.Matched action) {listener : Socket} {context : Context} (unread : ∀ p, context ≠ .read p)
    (after : s' = s ∨ s' = { s with epoll := Function.update s.epoll listener (some context) }) : s'.Consistent := by
  rcases after with rfl | rfl
  · exact consistent
  · refine consistent.user taken matched mute_rest ?_ rfl rfl
    intro sock p reads
    rcases update_eq_some reads with ⟨_, new⟩ | before
    · exact absurd (Option.some.inj new) (unread p)
    · exact before

theorem Consistent.addTCPConnector (consistent : s.Consistent) {c : Nat} {added connecting ok : Bool}
    (matched : s.Matched (.addTCPConnector c added connecting))
    (taken : s.step (.addTCPConnector c added connecting) = some s')
    (result : s.addTCPConnector c added connecting = some (ok, s')) : s'.Consistent := by
  obtain ⟨session, found, _⟩ := Option.bind_eq_some_iff.mp result
  -- The registration that is made is one to connect.
  have registered : ∀ sock p, Function.update s.epoll session.socket (some (.connect c)) sock = some (.read p) →
      s.epoll sock = some (.read p) := by
    intro sock p reads
    rcases update_eq_some reads with ⟨_, connect⟩ | before
    · cases connect
    · exact before
  rcases addTCPConnector_cases consistent.kept.regular.positive found result with
    ⟨_, rfl⟩ | ⟨id, rest, front, ⟨_, rfl⟩ | ⟨_, _, rfl⟩ | ⟨_, _, rfl⟩⟩
  · exact consistent.user taken matched mute_rest (fun _ _ reads => reads) rfl rfl
  · exact consistent.user taken matched mute_rest (fun _ _ reads => reads) rfl rfl
  · exact consistent.user taken matched mute_rest registered rfl rfl
  · exact consistent.user taken matched mute_rest registered rfl rfl

/-- An event that reports on no ID. -/
theorem Agreed.quiet {trace : List Event} (agreed : identity.Agreed trace) {event : Event}
    (unreported : ∀ id, event.reportsOn id = none) : identity.Agreed (trace ++ [event]) := by
  refine agreed.append ?_
  intro e member id
  rw [List.mem_singleton.mp member]
  exact unreported id

/-- An event that reports on an ID, on the descriptor that it was last opened on. -/
theorem Agreed.reported {trace : List Event} (agreed : identity.Agreed trace) {event : Event} {id : SessionID}
    {sock : Socket} (reports : ∀ j, event.reportsOn j = if id = j then some sock else none)
    (latest : identity.latest id trace = some sock) : identity.Agreed (trace ++ [event]) := by
  refine agreed.snoc ?_
  intro j value used
  obtain ⟨rfl, rfl⟩ : id = j ∧ sock = value := by simpa [identity, reports] using used
  exact latest

theorem Consistent.postConnect (consistent : s.Consistent) {action : Action} (taken : s.step action = some s')
    (matched : s.Matched action) {rest : List PollEvent} (events : rest ⊆ s.events) {c : Nat}
    (result : { s with events := rest }.postConnect c = some s') : s'.Consistent := by
  obtain ⟨session, found, _⟩ := Option.bind_eq_some_iff.mp result
  rw [postConnect_eq found] at result
  cases Option.some.inj result
  refine consistent.next taken matched ?_ (Agreed.quiet consistent.agreed fun _ => rfl) (by simp)
  rintro d (reads | ⟨event, pending, reads⟩ | inside)
  · exact .inl (.inl reads)
  · exact .inl (.inr (.inl ⟨event, events pending, reads⟩))
  · cases inside
    exact .inr ⟨session.sessionID, Function.update_self ..⟩

/-- The session of a pointer that may be read has the descriptor its ID was
    last opened on. -/
theorem Consistent.read (consistent : s.Consistent) {p : SessionPtr} {session : Session}
    (found : s.objects p = some session)
    (readable : ∀ c, p = .connector c → s.Linked c ∨ ∃ id, s.sessions id = some (.connector c)) :
    s.latest session.sessionID = some session.socket := by
  cases p with
  | heap n => exact consistent.identified.heap n session found
  | connector c => exact (consistent.identified.connectors c session (readable c rfl) found).2

theorem Consistent.postRead (consistent : s.Consistent) {action : Action} (taken : s.step action = some s')
    (matched : s.Matched action) {rest : List PollEvent} (events : rest ⊆ s.events) {p : SessionPtr}
    {chunks : List (List Byte)} {ending : ReadEnd}
    (readable : ∀ c, p = .connector c → s.Linked c ∨ ∃ id, s.sessions id = some (.connector c))
    (result : { s with events := rest }.postRead p chunks ending = some s') : s'.Consistent := by
  obtain ⟨session, found, _⟩ := Option.bind_eq_some_iff.mp result
  have latest := consistent.read found readable
  have closed : ∀ sock q, Function.update s.epoll session.socket none sock = some (.read q) →
      s.epoll sock = some (.read q) := fun _ _ reads => (update_none_eq_some reads).1
  rcases postRead_cases found result with ⟨_, _, rfl⟩ | ⟨_, _, rfl⟩ | ⟨_, rfl⟩
  · exact consistent.goto taken matched (Agreed.quiet consistent.agreed fun _ => rfl) closed events (by simp) (by simp)
  · exact consistent.goto taken matched (Agreed.reported consistent.agreed (fun _ => rfl) latest) closed events (by simp)
      (by simp)
  · exact consistent.goto taken matched (Agreed.reported consistent.agreed (fun _ => rfl) latest) (fun _ _ reads => reads)
      events (by simp) (by simp)

theorem Consistent.acceptRound (consistent : s.Consistent) {answer : Option Accepted}
    (taken : s.step (.accept answer) = some s') {listener : Socket} (result : s.acceptRound listener answer = some s') :
    s'.Consistent := by
  cases answer with
  | none =>
    cases Option.some.inj result
    exact consistent.goto taken trivial consistent.agreed (fun _ _ reads => reads) (List.Subset.refl _) (by simp) (by simp)
  | some a =>
    have opened : identity.Agreed (s.trace ++ [.opened a.socket]) := Agreed.quiet consistent.agreed fun _ => rfl
    rcases acceptRound_cases consistent.kept.regular.positive result with rfl | ⟨id, rest, front, rfl | rfl⟩
    · exact consistent.goto taken trivial (Agreed.quiet opened fun _ => rfl)
        (fun _ _ reads => (update_none_eq_some reads).1) (List.Subset.refl _) (by simp) (by simp)
    · exact consistent.goto taken trivial (Agreed.quiet opened fun _ => rfl)
        (fun _ _ reads => (update_none_eq_some reads).1) (List.Subset.refl _) (by simp) (by simp)
    · refine consistent.next taken trivial ?_ (Agreed.quiet opened fun _ => rfl) (by simp)
      rintro c (⟨sock, reads⟩ | pending | inside)
      · rcases update_eq_some reads with ⟨_, new⟩ | before
        · cases new
        · exact .inl (.inl ⟨sock, before⟩)
      · exact .inl (.inr (.inl pending))
      · cases inside

theorem Consistent.receiveRound (consistent : s.Consistent) {answer : Option Datagram}
    (taken : s.step (.recvfrom answer) = some s') (matched : s.Matched (.recvfrom answer)) {listener : Socket}
    {data : List Byte} (pc : s.pc = .receiving listener data)
    (result : s.receiveRound listener data answer = some s') : s'.Consistent := by
  cases answer with
  | none =>
    cases Option.some.inj result
    exact consistent.goto taken matched consistent.agreed (fun _ _ reads => reads) (List.Subset.refl _) (by simp) (by simp)
  | some d =>
    by_cases empty : d.bytes = []
    · simp only [NetService.receiveRound, empty, List.length_nil, if_true] at result
      cases Option.some.inj result
      exact consistent.goto taken matched consistent.agreed (fun _ _ reads => reads) (List.Subset.refl _) (by simp)
        (by simp)
    rcases receiveRound_cases consistent.kept.regular.positive result with
      rfl | ⟨known, rfl⟩ | ⟨id, rest, front, _, _, rfl⟩
    · exact consistent.goto taken matched consistent.agreed (fun _ _ reads => reads) (List.Subset.refl _) (by simp)
        (by simp)
    · obtain ⟨p, session, stored, found, _⟩ := (consistent.kept.get known d.address).mp rfl
      have own := matched listener data d p session pc rfl empty stored found
      obtain ⟨session', found', same⟩ := consistent.kept.regular.stored stored
      cases found.symm.trans found'
      have latest : s.latest (s.getUDPSessionID d.address) = some listener := by
        rw [← same, ← own]
        exact consistent.read found fun c connector => .inr ⟨_, connector ▸ stored⟩
      exact consistent.goto taken matched (Agreed.reported consistent.agreed (fun _ => rfl) latest)
        (fun _ _ reads => reads) (List.Subset.refl _) (by simp) (by simp)
    · refine consistent.next taken matched ?_ (Agreed.quiet consistent.agreed fun _ => rfl) ?_
      · rintro c (reads | pending | inside)
        · exact .inl (.inl reads)
        · exact .inl (.inr (.inl pending))
        · cases inside
      · rintro _ _ _ _ ⟨⟩
        exact Latest.latest_given (by simp [identity, Event.opensOn])

theorem Consistent.connected (consistent : s.Consistent) {changed : Bool} (taken : s.step (.resume changed) = some s')
    (matched : s.Matched (.resume changed)) {c : Nat} (pc : s.pc = .connectCallBack c)
    (result : s.connected c changed = some s') : s'.Consistent := by
  obtain ⟨session, found, _⟩ := Option.bind_eq_some_iff.mp result
  rcases connected_cases found (consistent.kept.regular.connector found) result with ⟨_, _, rfl⟩ | rfl
  · refine consistent.next taken matched ?_ consistent.agreed (by simp [confirmed])
    rintro d (⟨sock, reads⟩ | pending | inside)
    · rcases update_eq_some reads with ⟨_, new⟩ | before
      · cases new
        exact .inl (.inr (.inr pc))
      · exact .inl (.inl ⟨sock, before⟩)
    · exact .inl (.inr (.inl pending))
    · cases inside
  · have closed : identity.Agreed (s.trace ++ [.closed session.socket]) := Agreed.quiet consistent.agreed fun _ => rfl
    exact consistent.goto taken matched (Agreed.quiet closed fun _ => rfl) (fun _ _ reads => (update_none_eq_some reads).1)
      (List.Subset.refl _) (by simp) (by simp)

theorem Consistent.step (consistent : s.Consistent) {action : Action} (matched : s.Matched action)
    (taken : s.step action = some s') : s'.Consistent := by
  have regular := consistent.kept.regular
  cases step_took taken with
  | newConnector user free =>
    exact consistent.user taken matched ⟨[.opened _], rfl, by simp [Event.opensOn, Event.reportsOn]⟩
      (fun _ _ reads => reads) rfl rfl
  | addTCPListener user => exact consistent.addListener taken matched (by simp) (epollAdd_cases ..)
  | addUDPListener user => exact consistent.addListener taken matched (by simp) (epollAdd_cases ..)
  | addTCPConnector user result => exact consistent.addTCPConnector matched taken result
  | kickSession user issued result => exact consistent.kickSession taken result
  | postConnect idle result => exact consistent.postConnect taken matched (List.Subset.refl _) result
  | postRead idle result => exact consistent.postRead taken matched (List.Subset.refl _) matched result
  | @epollWait batch idle polled =>
    refine consistent.next taken matched ?_ consistent.agreed ?_
    · rintro c (reads | ⟨event, pending, reads⟩ | inside)
      · exact .inl (.inl reads)
      · exact .inl (.inl ⟨event.socket, reads ▸ polled.2 event pending⟩)
      · exact .inl (.inr (.inr inside))
    · exact fun listener data id nread opening => consistent.opening listener data id nread opening
  | @connecting _ _ event rest _ _ idle events context out result =>
    exact consistent.postConnect taken matched (events ▸ List.subset_cons_self ..) result
  | @reading _ _ event rest p _ idle events context result =>
    refine consistent.postRead taken matched (events ▸ List.subset_cons_self ..) ?_ result
    rintro c rfl
    exact .inl (.inr (.inl ⟨event, events ▸ List.mem_cons_self, context⟩))
  | accept pc result => exact consistent.acceptRound taken result
  | recvfrom pc result => exact consistent.receiveRound taken matched pc result
  | connected pc result => exact consistent.connected taken matched pc result
  | @opened changed listener data id nread pc =>
    have latest := consistent.opening listener data id nread pc
    exact consistent.goto taken matched (Agreed.reported consistent.agreed (fun _ => rfl) latest) (fun _ _ reads => reads)
      (List.Subset.refl _) (by simp) (by simp)
  | dropped pc result =>
    obtain ⟨n, rfl⟩ := consistent.dropping _ pc
    obtain ⟨session, found, _⟩ := Option.bind_eq_some_iff.mp result
    obtain ⟨stored, kind⟩ := regular.heap found
    rw [delSession_eq found stored kind] at result
    cases Option.some.inj result
    refine consistent.goto taken matched (consistent.agreed.append ?_) (fun _ _ reads => (closed_epoll reads).1)
      (List.Subset.refl _) (by simp) (by simp)
    simp [identity, Event.reportsOn]
  | ignored idle events =>
    exact consistent.goto taken matched consistent.agreed (fun _ _ reads => reads) (events ▸ List.subset_cons_self ..)
      (by simp [idle]) (by simp [idle])
  | accepting idle events context =>
    exact consistent.goto taken matched consistent.agreed (fun _ _ reads => reads) (events ▸ List.subset_cons_self ..)
      (by simp) (by simp)
  | receiving idle events context =>
    exact consistent.goto taken matched consistent.agreed (fun _ _ reads => reads) (events ▸ List.subset_cons_self ..)
      (by simp) (by simp)
  | _ =>
    exact consistent.goto taken matched consistent.agreed (fun _ _ reads => reads) (List.Subset.refl _) (by simp)
      (by simp)

theorem initSession_consistent : initSession.Consistent where
  kept := initSession_kept
  dropping := initSession_dropping
  identified := initSession_identified
  made := by simp [Linked, initSession]
  agreed := Latest.agreed_nil
  opening := by simp [initSession]

theorem consistent_of_reachable (reached : Reachable Matched s) : s.Consistent := by
  refine Transition.Reachable.invariant ?_ ?_ reached
  · rintro _ rfl
    exact initSession_consistent
  · rintro s s' _ consistent ⟨action, matched, taken⟩
    exact consistent.step matched taken

end NetService

end LiteServer.Net
