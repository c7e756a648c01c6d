import LiteServer.Net.IocpMoves

/-!
What stays posted on the IOCP backend: a receive for every open TCP session, and
the accepts that a listener started with.
-/
namespace LiteServer.Net

/-- What an event says of the session of an ID: that it is open from now on, or
    no longer. -/
def Event.opensSession (id : SessionID) : Event → Option Bool
  | .onAddConnection j _ _ => if j = id then some true else none
  | .onConnected j _ => if j = id then some true else none
  | .onConnectionDrop j _ => if j = id then some false else none
  | .onConnectFail j _ => if j = id then some false else none
  | .kick j => if j = id then some false else none
  | _ => none

def openness : Latest.Marks SessionID Bool Event := ⟨Event.opensSession, fun _ _ => none⟩

namespace NetService
variable {s s' : NetService} {linked : Nat → Prop} {id : SessionID}

/-- An ID was announced, and neither reported dropped nor kicked since. -/
def Open (s : NetService) (id : SessionID) : Prop := openness.latest id s.trace = some true

instance (s : NetService) (id : SessionID) : Decidable (s.Open id) := by
  unfold Open
  infer_instance

/-- Nothing was said of any session. -/
def Unmarked (s s' : NetService) : Prop :=
  ∃ more, s'.trace = s.trace ++ more ∧ ∀ event ∈ more, ∀ id, event.opensSession id = none

theorem Unmarked.iff (unmarked : s.Unmarked s') (id : SessionID) : s'.Open id ↔ s.Open id := by
  obtain ⟨more, trace, silent⟩ := unmarked
  have latest : openness.latest id (s.trace ++ more) = openness.latest id s.trace :=
    Latest.latest_append fun event member => silent event member id
  rw [Open, Open, trace, latest]

theorem open_snoc {event : Event} (trace : s'.trace = s.trace ++ [event]) (opens : s'.Open id) :
    event.opensSession id = some true ∨ (event.opensSession id = none ∧ s.Open id) := by
  rw [Open, trace, Latest.latest_snoc, show openness.gives id event = event.opensSession id from rfl] at opens
  cases marked : event.opensSession id with
  | none =>
    rw [marked, Option.none_or] at opens
    exact .inr ⟨rfl, opens⟩
  | some b =>
    rw [marked, Option.some_or] at opens
    exact .inl opens

/-- The session of an ID is said to have ended. -/
theorem open_ended {j : SessionID} {event : Event} (trace : s'.trace = s.trace ++ [event])
    (ends : ∀ i, event.opensSession i = if j = i then some false else none) (opens : s'.Open id) : id ≠ j ∧ s.Open id := by
  rcases open_snoc trace opens with now | ⟨unmarked, before⟩
  · rw [ends] at now
    split at now <;> cases now
  · rw [ends] at unmarked
    split at unmarked
    · cases unmarked
    · exact ⟨Ne.symm ‹_›, before⟩

/-- The session of an ID is announced. -/
theorem open_begun {j : SessionID} {event : Event} (trace : s'.trace = s.trace ++ [event])
    (begins : ∀ i, event.opensSession i = if j = i then some true else none) (opens : s'.Open id) : id = j ∨ s.Open id := by
  rcases open_snoc trace opens with now | ⟨_, before⟩
  · rw [begins] at now
    split at now
    · exact .inl (Eq.symm ‹_›)
    · cases now
  · exact .inr before

theorem kickSession_open (regular : s.Regular) {j : SessionID} (result : s.kickSession j = some s') (opens : s'.Open id) :
    s.Open id ∧ ((s.sessions j).isSome → id ≠ j) := by
  have closings : ∀ closing : Option Socket, s'.trace = (s.emit (.kick j)).trace ++ closing.toList.map .closed →
      s.Open id ∧ id ≠ j := by
    intro closing trace
    have unmarked : (s.emit (.kick j)).Unmarked s' := ⟨_, trace, by simp [Event.opensSession]⟩
    exact (open_ended (s := s) rfl (fun _ => rfl) ((unmarked.iff id).mp opens)).symm
  cases regular.kickSession result with
  | unknown empty => exact ⟨opens, fun known => by simp [empty] at known⟩
  | @heap n session found stored => exact (closings session.closing rfl).imp_right fun differ _ => differ
  | @connector c session found stored =>
    exact (closings session.sock (List.append_assoc s.trace [.kick session.sessionID] _).symm).imp_right
      fun differ _ => differ

theorem Move.allocated (moved : Move linked s s') : s.allocated ≤ s'.allocated := by
  cases moved with
  | enter _ _ _ _ _ _ same _ => exact same.allocated ▸ Nat.le_succ _
  | stay same _ => exact same.allocated ▸ Nat.le_refl _
  | construct _ _ _ _ _ _ same _ => exact same.allocated ▸ Nat.le_refl _
  | turn _ _ _ same _ => exact same.allocated ▸ Nat.le_refl _
  | attempt _ _ _ _ _ _ same _ => exact same.allocated ▸ Nat.le_refl _
  | abandon _ same _ => exact same.allocated ▸ Nat.le_refl _
  | join _ _ _ _ same _ => exact same.allocated ▸ Nat.le_refl _
  | touch _ _ _ _ _ _ _ same _ => exact same.allocated ▸ Nat.le_refl _
  | detach _ _ _ _ same _ => exact same.allocated ▸ Nat.le_refl _
  | remove _ _ _ same _ => exact same.allocated ▸ Nat.le_refl _

end NetService

/-! ### Receives -/

/-- The session that a receive is posted for when the callback returns. -/
def IocpPc.holds : IocpPc → Option SessionPtr
  | .acceptCallBack _ p => some p
  | .connectCallBack c => some (.connector c)
  | .dataCallBack p => some p
  | _ => none

namespace IocpService
variable {s s' : IocpService} {action : IocpAction} {id : SessionID}

/-- Receives of a session that are outstanding or about to be posted. -/
def reads (s : IocpService) (p : SessionPtr) : Nat := s.receives.count p + if s.pc.holds = some p then 1 else 0

/-- The session of an ID is in the table and, if it is a TCP session, receives. -/
def Receiving (s : IocpService) (id : SessionID) : Prop :=
  ∃ p session, s.net.sessions id = some p ∧ s.net.objects p = some session ∧ (session.sockType ≠ .udp → s.reads p = 1)

/-- Completions of what open sessions and listeners need are successful, and so
    are the receives posted for open sessions; connectors are added only while
    nothing refers to them. -/
def Completing (s : IocpService) : IocpAction → Prop
  | .addTCPConnector c _ => (s.net.objects (.connector c)).isSome →
      c ∉ s.net.attempts ∧ (∀ id, s.net.sessions id ≠ some (.connector c)) ∧ ¬ s.Linked c
  | .failed (.accept _ _) => False
  | .failed (.read p) => ∀ id, s.net.sessions id = some p → ¬ s.net.Open id
  | .resume posted _ => ∀ id p, (s.pc = .dataCallBack p ∨ ∃ listener, s.pc = .acceptCallBack listener p) →
      s.net.sessions id = some p → s.net.Open id → posted = true
  | _ => True

theorem Completing.adding (completing : s.Completing action) : s.Adding action := by
  cases action with
  | addTCPConnector c posted => exact completing
  | _ => trivial

structure Working (s : IocpService) : Prop where
  placed : s.Placed
  reading : ∀ id, s.net.Open id → s.Receiving id
  young : ∀ n, .heap n ∈ s.receives → n < s.net.allocated
  ended : ∀ p session, s.pc = .dropCallBack p → s.net.objects p = some session → ¬ s.net.Open session.sessionID

theorem Receiving.keep (receiving : s.Receiving id) (sessions : s'.net.sessions id = s.net.sessions id)
    (keeps : ∀ p session, s.net.sessions id = some p → s.net.objects p = some session →
      (∃ session', s'.net.objects p = some session' ∧ session'.sockType = session.sockType) ∧ s'.reads p = s.reads p) :
    s'.Receiving id := by
  obtain ⟨p, session, stored, found, armed⟩ := receiving
  obtain ⟨⟨session', found', same⟩, reads⟩ := keeps p session stored found
  refine ⟨p, session', sessions.trans stored, found', ?_⟩
  rw [same, reads]
  exact armed

theorem Aside.reads (aside : s.Aside s') (p : SessionPtr) : s'.reads p = s.reads p := by
  rw [IocpService.reads, aside.receives, aside.pc]
  rfl

theorem Aside.unmarked (aside : s.Aside s') : s.net.Unmarked s'.net := by
  obtain ⟨more, net, sockets⟩ := aside.net
  refine ⟨more, by rw [net], ?_⟩
  intro event member id
  obtain ⟨sock, rfl | rfl⟩ := sockets event member <;> rfl

theorem Aside.receiving (aside : s.Aside s') (receiving : s.Receiving id) : s'.Receiving id := by
  obtain ⟨more, net, _⟩ := aside.net
  refine receiving.keep (by rw [net]) ?_
  intro p session stored found
  exact ⟨⟨session, by rw [net]; exact found, rfl⟩, aside.reads p⟩

theorem reads_erase {p q : SessionPtr} (idle : s.pc.holds = none) (receives : s'.receives = s.receives.erase p)
    (pc : s'.pc.holds = none) (differ : q ≠ p) : s'.reads q = s.reads q := by
  simp [reads, receives, pc, idle, List.count_erase_of_ne differ]

theorem reads_received {p : SessionPtr} (idle : s.pc.holds = none) (armed : p ∈ s.receives)
    (receives : s'.receives = s.receives.erase p) (pc : s'.pc.holds = some p) (q : SessionPtr) :
    s'.reads q = s.reads q := by
  by_cases same : q = p
  · subst same
    have counted : 0 < s.receives.count q := List.count_pos_iff.mpr armed
    have erased : (s.receives.erase q).count q + 1 = s.receives.count q := by
      rw [List.count_erase_self]
      omega
    simpa [reads, receives, pc, idle] using erased
  · simp [reads, receives, pc, idle, List.count_erase_of_ne same, Ne.symm same]

theorem reads_posted {p q : SessionPtr} (posted : Bool) (held : s.pc.holds = some p)
    (receives : s'.receives = if posted then s.receives ++ [p] else s.receives) (pc : s'.pc.holds = none)
    (posts : q = p → posted = true) : s'.reads q = s.reads q := by
  by_cases same : q = p
  · subst same
    simp [reads, receives, pc, held, posts rfl]
  · cases posted <;> simp [reads, receives, pc, held, Ne.symm same]

/-- What a step has to show besides its moves. -/
theorem Working.next (working : s.Working) (completing : s.Completing action) (taken : s.step action = some s')
    (reading : ∀ id, s'.net.Open id → s'.Receiving id)
    (receives : ∀ n, .heap n ∈ s'.receives → .heap n ∈ s.receives ∨ (s.net.objects (.heap n)).isSome)
    (ended : ∀ p session, s'.pc = .dropCallBack p → s'.net.objects p = some session →
      ¬ s'.net.Open session.sessionID) : s'.Working := by
  obtain ⟨placed, _, young, _⟩ := working
  have orderly := placed.orderly completing.adding taken
  have moves := step_moves placed.regular placed.dropping orderly taken
  refine ⟨placed.step completing.adding taken, reading, ?_, ended⟩
  intro n armed
  have grown : s.net.allocated ≤ s'.net.allocated := by
    refine moves.invariant (P := fun t => s.net.allocated ≤ t.allocated) ?_ (Nat.le_refl _)
    exact fun _ _ le moved => Nat.le_trans le moved.allocated
  refine Nat.lt_of_lt_of_le ?_ grown
  rcases receives n armed with before | exists'
  · exact young n before
  · by_contra old
    rw [placed.regular.sound.fresh n (Nat.le_of_not_lt old)] at exists'
    cases exists'

/-- A call of the user. -/
theorem Working.user (working : s.Working) (completing : s.Completing action) (taken : s.step action = some s')
    (opens : ∀ id, s'.net.Open id → s.net.Open id) (receives : s'.receives = s.receives) (pc : s'.pc = s.pc)
    (heap : ∀ n session, s'.net.objects (.heap n) = some session → s.net.objects (.heap n) = some session)
    (reading : ∀ id, s'.net.Open id → s'.Receiving id) : s'.Working := by
  refine working.next completing taken reading ?_ ?_
  · intro n armed
    exact .inl (receives ▸ armed)
  · intro p session drops found opened
    rw [pc] at drops
    obtain ⟨n, rfl⟩ := working.placed.dropping.dropped p drops
    exact working.ended _ session drops (heap n session found) (opens _ opened)

/-- A call that only posts and opens descriptors. -/
theorem Working.posting (working : s.Working) (completing : s.Completing action) (taken : s.step action = some s')
    (aside : s.Aside s') : s'.Working := by
  obtain ⟨more, net, _⟩ := aside.net
  refine working.user completing taken (fun id => (aside.unmarked.iff id).mp) aside.receives aside.pc ?_ ?_
  · intro n session found
    rwa [net] at found
  · exact fun id opened => aside.receiving (working.reading id ((aside.unmarked.iff id).mp opened))

/-- The thread moves on without posting a receive. -/
theorem Working.goto (working : s.Working) (completing : s.Completing action) (taken : s.step action = some s')
    (receives : s'.receives ⊆ s.receives) (undropped : ∀ p, s'.pc ≠ .dropCallBack p)
    (reading : ∀ id, s'.net.Open id → s'.Receiving id) : s'.Working :=
  working.next completing taken reading (fun _ armed => .inl (receives armed)) fun p _ drops => absurd drops (undropped p)

theorem Working.aside (working : s.Working) (completing : s.Completing action) (taken : s.step action = some s')
    {t : IocpService} (aside : t.Aside s') (receives : t.receives ⊆ s.receives) (undropped : ∀ p, t.pc ≠ .dropCallBack p)
    (reading : ∀ id, t.net.Open id → t.Receiving id) : s'.Working := by
  refine working.goto completing taken (aside.receives ▸ receives) (fun p drops => undropped p (aside.pc ▸ drops)) ?_
  exact fun id opens => aside.receiving (reading id ((aside.unmarked.iff id).mp opens))

/-- A session that is not read is not that of an open ID. -/
theorem Receiving.others (receiving : s.Receiving id) (sessions : s'.net.sessions id = s.net.sessions id)
    {q : SessionPtr} (apart : s.net.sessions id ≠ some q) (objects : ∀ p, p ≠ q → s'.net.objects p = s.net.objects p)
    (reads : ∀ p, p ≠ q → s'.reads p = s.reads p) : s'.Receiving id := by
  refine receiving.keep sessions fun p session stored found => ?_
  have differ : p ≠ q := by
    rintro rfl
    exact apart stored
  exact ⟨⟨session, (objects p differ).trans found, rfl⟩, reads p differ⟩

/-- An ID that is still open when the session of another was opened or ended. -/
theorem Working.apart (working : s.Working) {q : SessionPtr} {session : Session} (found : s.net.objects q = some session)
    (differ : id ≠ session.sessionID) : s.net.sessions id ≠ some q := by
  intro stored
  obtain ⟨session', found', own⟩ := working.placed.regular.stored stored
  cases found.symm.trans found'
  exact differ own.symm

theorem Working.kickSession (working : s.Working) {j : SessionID} {net : NetService}
    (taken : s.step (.kickSession j) = some { s with net }) (result : s.net.kickSession j = some net) :
    ({ s with net } : IocpService).Working := by
  have regular := working.placed.regular
  have opens : ∀ id, net.Open id → s.net.Open id ∧ ((s.net.sessions j).isSome → id ≠ j) :=
    fun id opened => NetService.kickSession_open regular result opened
  have completing : s.Completing (.kickSession j) := trivial
  refine working.user completing taken (fun id opened => (opens id opened).1) rfl rfl ?_ ?_
  · intro n session found
    cases regular.kickSession result with
    | unknown empty => exact found
    | heap found₁ stored => exact (update_none_eq_some found).1
    | connector found₁ stored => rwa [NetService.detached_heap] at found
  · intro id opened
    obtain ⟨before, differ⟩ := opens id opened
    have receiving := working.reading id before
    cases regular.kickSession result with
    | unknown empty => exact receiving
    | heap found stored =>
      have differ := differ (by rw [stored]; rfl)
      exact receiving.others (Function.update_of_ne differ _ _) (working.apart found differ)
        (fun _ other => Function.update_of_ne other _ _) fun _ _ => rfl
    | connector found stored =>
      have differ := differ (by rw [stored]; rfl)
      exact receiving.others (Function.update_of_ne differ _ _) (working.apart found differ)
        (fun _ other => Function.update_of_ne other _ _) fun _ _ => rfl

theorem Working.addTCPConnector (working : s.Working) {c : Nat} {posted : Bool}
    (completing : s.Completing (.addTCPConnector c posted)) (taken : s.step (.addTCPConnector c posted) = some s') :
    s'.Working := by
  have regular := working.placed.regular
  -- The table has no session of the connector.
  have renewed : ∀ session' : Session, (s.net.objects (.connector c)).isSome →
      s'.net.sessions = s.net.sessions → s'.net.trace = s.net.trace → s'.receives = s.receives → s'.pc = s.pc →
      s'.net.objects = Function.update s.net.objects (.connector c) (some session') → s'.Working := by
    intro session' exists' sessions trace receives pc objects
    obtain ⟨_, unstored, _⟩ := completing exists'
    have opens : ∀ id, s'.net.Open id → s.net.Open id := by
      intro id opened
      rwa [NetService.Open, trace] at opened
    refine working.user completing taken opens receives pc ?_ ?_
    · intro n session found
      rw [objects] at found
      exact (Function.update_of_ne (by simp) _ _).symm.trans found
    · intro id opened
      refine (working.reading id (opens id opened)).others (by rw [sessions]) (unstored id) ?_ ?_
      · intro p other
        rw [objects]
        exact Function.update_of_ne other _ _
      · intro p _
        rw [reads, receives, pc]
        rfl
  cases step_took' regular taken with
  | unnumbered found => exact renewed _ (by rw [found]; rfl) rfl rfl rfl rfl rfl
  | unposted found front => exact renewed _ (by rw [found]; rfl) rfl rfl rfl rfl rfl
  | attempted found front => exact renewed _ (by rw [found]; rfl) rfl rfl rfl rfl rfl

/-- The session of an ID that the step opened, or of one that was open. -/
theorem Working.enter (working : s.Working) {n : Nat} (session : Session) (fresh : n = s.net.allocated)
    (sessions : s'.net.sessions = Function.update s.net.sessions session.sessionID (some (.heap n)))
    (objects : s'.net.objects = Function.update s.net.objects (.heap n) (some session))
    (reads : ∀ p, p ≠ .heap n → s'.reads p = s.reads p) (armed : session.sockType ≠ .udp → s'.reads (.heap n) = 1)
    (opened : id = session.sessionID ∨ s.net.Open id) : s'.Receiving id := by
  subst fresh
  by_cases same : id = session.sessionID
  · subst same
    exact ⟨.heap s.net.allocated, session, by rw [sessions, Function.update_self], by rw [objects, Function.update_self],
      armed⟩
  · have before := opened.resolve_left same
    refine (working.reading id before).others ?_ ?_ ?_ reads
    · rw [sessions]
      exact Function.update_of_ne same _ _
    · intro stored
      obtain ⟨session', found, _⟩ := working.placed.regular.stored stored
      cases working.placed.regular.fresh.symm.trans found
    · intro p other
      rw [objects]
      exact Function.update_of_ne other _ _

theorem Working.accepted (working : s.Working) {listener sock : Socket} {address : SockAddr} {associated : Bool}
    {next : Option Accepting} (taken : s.step (.accepted listener sock address associated next) = some s') :
    s'.Working := by
  have completing : s.Completing (.accepted listener sock address associated next) := trivial
  cases step_took' working.placed.regular taken with
  | unaccepted idle armed =>
    refine working.aside completing taken (rearm_aside _ listener next) (List.Subset.refl _) (by simp [idle]) ?_
    intro id opened
    have unmarked : s.net.Unmarked (s.net.destroySocket sock) := ⟨[.closed sock], rfl, by simp [Event.opensSession]⟩
    exact working.reading id ((unmarked.iff id).mp opened)
  | @unassociated _ _ _ _ _ id rest idle armed front =>
    refine working.aside completing taken (rearm_aside _ listener next) (List.Subset.refl _) (by simp [idle]) ?_
    intro j opened
    have unmarked : s.net.Unmarked ((s.net.rotated id rest).destroySocket sock) :=
      ⟨[.closed sock], rfl, by simp [Event.opensSession]⟩
    exact working.reading j ((unmarked.iff j).mp opened)
  | @accepted _ _ _ _ _ id rest idle armed front =>
    refine working.goto completing taken (List.Subset.refl _) (by simp) ?_
    intro j opened
    have begun : j = id ∨ s.net.Open j := NetService.open_begun (s := s.net) rfl (fun _ => rfl) opened
    refine working.enter (acceptedOn sock address id) rfl rfl rfl ?_ ?_ begun
    · intro p other
      simp [reads, IocpPc.holds, idle, Ne.symm other]
    · intro _
      have none : s.receives.count (.heap s.net.allocated) = 0 := by
        rw [List.count_eq_zero]
        exact fun armed => absurd (working.young _ armed) (Nat.lt_irrefl _)
      simp [reads, IocpPc.holds, none]

theorem Working.receivedFrom (working : s.Working) {listener : Socket} {datagram : Datagram} {posted : Bool}
    (taken : s.step (.receivedFrom listener datagram posted) = some s') : s'.Working := by
  have completing : s.Completing (.receivedFrom listener datagram posted) := trivial
  cases step_took' working.placed.regular taken with
  | unserved idle armed =>
    exact working.aside completing taken (postReadFrom_aside _ listener posted) (List.Subset.refl _) (by simp [idle])
      working.reading
  | known idle armed bytes known =>
    refine working.goto completing taken (List.Subset.refl _) (by simp) ?_
    intro id opened
    have unmarked : s.net.Unmarked (s.net.emit (.onData (s.net.getUDPSessionID datagram.address) listener
      (handed datagram.bytes) datagram.bytes.length)) := ⟨[_], rfl, by simp [Event.opensSession]⟩
    refine (working.reading id ((unmarked.iff id).mp opened)).keep rfl fun p session _ found => ⟨⟨session, found, rfl⟩, ?_⟩
    simp [reads, IocpPc.holds, idle]
  | @served _ _ _ id rest idle armed bytes unknown front =>
    refine working.goto completing taken (List.Subset.refl _) (by simp) ?_
    intro j opened
    have begun : j = id ∨ s.net.Open j := NetService.open_begun (s := s.net) rfl (fun _ => rfl) opened
    refine working.enter (peerOn listener datagram.address id) rfl rfl rfl ?_ (fun tcp => absurd rfl tcp) begun
    intro p _
    simp [reads, IocpPc.holds, idle]

theorem Working.received (working : s.Working) {p : SessionPtr} {buf : List Byte}
    (taken : s.step (.received p buf) = some s') : s'.Working := by
  have completing : s.Completing (.received p buf) := trivial
  have receives : ∀ t : IocpService, t.receives = s.receives.erase p →
      ∀ n, .heap n ∈ t.receives → .heap n ∈ s.receives ∨ (s.net.objects (.heap n)).isSome := by
    intro t erased n armed
    rw [erased] at armed
    exact .inl (List.mem_of_mem_erase armed)
  cases step_took' working.placed.regular taken with
  | @closed _ session idle armed found heap =>
    have ended : ∀ id, NetService.Open { s.net.emit (.onConnectionDrop session.sessionID session.socket) with pc := .idle }
        id → id ≠ session.sessionID ∧ s.net.Open id :=
      fun id opened => NetService.open_ended (s := s.net) rfl (fun _ => rfl) opened
    refine working.next completing taken ?_ (receives _ rfl) ?_
    · intro id opened
      obtain ⟨differ, before⟩ := ended id opened
      refine (working.reading id before).others rfl (working.apart found differ) (fun _ _ => rfl) ?_
      exact fun q other => reads_erase (by rw [idle]; rfl) rfl rfl other
    · rintro q session' ⟨⟩ found' opened
      cases found.symm.trans found'
      exact (ended _ opened).1 rfl
  | @closedConnector _ session idle armed found connect =>
    refine working.next completing taken ?_ (receives _ rfl) (by simp)
    intro id opened
    obtain ⟨differ, before⟩ := NetService.open_ended (s := s.net) rfl (fun _ => rfl) opened
    refine (working.reading id before).others rfl (working.apart found differ) (fun _ _ => rfl) ?_
    exact fun q other => reads_erase (by rw [idle]; rfl) rfl rfl other
  | @received _ session _ idle armed found bytes =>
    refine working.next completing taken ?_ (receives _ rfl) (by simp)
    intro id opened
    have unmarked : s.net.Unmarked (s.net.emit (.onData session.sessionID session.socket (handed buf) buf.length)) :=
      ⟨[_], rfl, by simp [Event.opensSession]⟩
    refine (working.reading id ((unmarked.iff id).mp opened)).keep rfl fun q session _ found => ⟨⟨session, found, rfl⟩, ?_⟩
    exact reads_received (by rw [idle]; rfl) armed rfl rfl q

theorem Working.connected (working : s.Working) {c : Nat} (taken : s.step (.connected c) = some s') : s'.Working := by
  have completing : s.Completing (.connected c) := trivial
  cases step_took' working.placed.regular taken with
  | @connected _ session idle trying found =>
    refine working.goto completing taken (List.Subset.refl _) (by simp) ?_
    intro id opened
    by_cases same : id = session.sessionID
    · subst same
      refine ⟨.connector c, session, Function.update_self .., found, fun _ => ?_⟩
      have none : s.receives.count (.connector c) = 0 := by
        rw [List.count_eq_zero]
        exact fun armed => working.placed.resting c trying (.inl armed)
      simp [reads, IocpPc.holds, none]
    · have before := (NetService.open_begun (s := s.net) rfl (fun _ => rfl) opened).resolve_left same
      refine (working.reading id before).others (Function.update_of_ne same _ _) (working.apart found same)
        (fun _ _ => rfl) ?_
      intro q other
      simp [reads, IocpPc.holds, idle, Ne.symm other]

theorem Working.failed (working : s.Working) {operation : Operation} (completing : s.Completing (.failed operation))
    (taken : s.step (.failed operation) = some s') : s'.Working := by
  cases step_took' working.placed.regular taken with
  | failed idle result =>
    have undropped : ∀ p, s'.pc ≠ .dropCallBack p := by simp [dequeue_pc result, idle]
    refine working.goto completing taken (dequeue_receives result).1 undropped ?_
    intro id opened
    cases operation with
    | accept listener sock => exact False.elim completing
    | read p =>
      simp only [dequeue] at result
      split at result <;> cases result
      refine (working.reading id opened).others rfl (fun stored => completing id stored opened) (fun _ _ => rfl) ?_
      exact fun q other => reads_erase (by rw [idle]; rfl) rfl (by rw [idle]; rfl) other
    | readFrom listener =>
      simp only [dequeue] at result
      split at result <;> cases result
      exact working.reading id opened
    | connect c =>
      simp only [dequeue] at result
      split at result <;> cases result
      exact working.reading id opened

/-- A receive was posted, or the session is not open. -/
theorem Working.posted (working : s.Working) {p : SessionPtr} {posted : Bool} {next : Option Accepting}
    (completing : s.Completing (.resume posted next)) (held : s.pc.holds = some p)
    (data : s.pc = .dataCallBack p ∨ ∃ listener, s.pc = .acceptCallBack listener p) (opened : s.net.Open id) :
    ({ s with receives := if posted then s.receives ++ [p] else s.receives, pc := .idle } : IocpService).Receiving id := by
  refine (working.reading id opened).keep rfl fun q session stored found => ⟨⟨session, found, rfl⟩, ?_⟩
  refine reads_posted posted held rfl rfl ?_
  rintro rfl
  exact completing id q data stored opened

/-- Only a session that exists is posted a receive for. -/
theorem posted_receives {p : SessionPtr} (posted : Bool) {session : Session} (found : s.net.objects p = some session) {n : Nat}
    (armed : .heap n ∈ if posted then s.receives ++ [p] else s.receives) :
    .heap n ∈ s.receives ∨ (s.net.objects (.heap n)).isSome := by
  rcases mem_receives armed with before | rfl
  · exact .inl before
  · exact .inr (by rw [found]; rfl)

theorem Working.setAlive (working : s.Working) {c : Nat} {session : Session}
    (found : s.net.objects (.connector c) = some session) (opened : s.net.Open id)
    (sessions : s'.net.sessions = s.net.sessions)
    (objects : s'.net.objects = Function.update s.net.objects (.connector c) (some { session with alive := true }))
    (reads : ∀ p, s'.reads p = s.reads p) : s'.Receiving id := by
  refine (working.reading id opened).keep (by rw [sessions]) fun p session₁ _ found₁ => ⟨?_, reads p⟩
  by_cases same : p = .connector c
  · subst same
    cases found.symm.trans found₁
    exact ⟨{ session with alive := true }, by rw [objects, Function.update_self], rfl⟩
  · exact ⟨session₁, by rw [objects, Function.update_of_ne same]; exact found₁, rfl⟩

theorem Working.resume (working : s.Working) {posted : Bool} {next : Option Accepting}
    (completing : s.Completing (.resume posted next)) (taken : s.step (.resume posted next) = some s') : s'.Working := by
  have regular := working.placed.regular
  cases step_took' regular taken with
  | @acceptReturned _ _ listener p session pc found =>
    let armed : IocpService := { s with receives := if posted then s.receives ++ [p] else s.receives, pc := .idle }
    have reading : ∀ id, armed.net.Open id → armed.Receiving id :=
      fun id => working.posted completing (by rw [pc]; rfl) (.inr ⟨listener, pc⟩)
    have aside : armed.Aside (armed.rearm listener next) := armed.rearm_aside listener next
    have idle : (armed.rearm listener next).pc = .idle := aside.pc
    refine working.next completing taken ?_ ?_ (by simp [armed, idle])
    · exact fun id opened => aside.receiving (reading id ((aside.unmarked.iff id).mp opened))
    · intro n armed
      rw [aside.receives] at armed
      exact posted_receives posted found armed
  | @connectReturned _ c session pc found =>
    refine working.next completing taken ?_ ?_ (by simp)
    · intro id opened
      refine working.setAlive found opened rfl rfl fun p => ?_
      exact reads_posted true (by rw [pc]; rfl) rfl rfl fun _ => rfl
    · intro n armed
      exact posted_receives true found armed
  | @connectRefused _ c session pc found connect =>
    refine working.goto completing taken (List.Subset.refl _) (by simp) ?_
    intro id opened
    let closed := s.net.destroySocket session.socket
    have unmarked : s.net.Unmarked closed := ⟨[.closed session.socket], rfl, by simp [Event.opensSession]⟩
    obtain ⟨differ, before⟩ := NetService.open_ended (s := closed) rfl (fun _ => rfl) opened
    refine (working.reading id ((unmarked.iff id).mp before)).others rfl (working.apart found differ) (fun _ _ => rfl) ?_
    intro q other
    simp [reads, IocpPc.holds, pc, Ne.symm other]
  | @connectFailed _ _ c session pc found =>
    refine working.goto completing taken (List.Subset.refl _) (by simp) ?_
    intro id opened
    refine working.setAlive found opened rfl rfl fun p => ?_
    simp [reads, IocpPc.holds, pc]
  | @dataReturned _ _ p session pc found =>
    refine working.next completing taken ?_ (fun n armed => posted_receives posted found armed) (by simp)
    exact fun id => working.posted completing (by rw [pc]; rfl) (.inl pc)
  | @dropped _ _ p net pc result =>
    obtain ⟨n, rfl⟩ := working.placed.dropping.dropped p pc
    obtain ⟨session, found, _⟩ := Option.bind_eq_some_iff.mp result
    obtain ⟨stored, kind⟩ := regular.heap found
    rw [NetService.delSession_eq found stored kind] at result
    cases Option.some.inj result
    refine working.goto completing taken (List.Subset.refl _) (by simp) ?_
    intro id opened
    have unmarked : s.net.Unmarked (s.net.removed (.heap n) session) := ⟨_, rfl, by simp [Event.opensSession]⟩
    have before := (unmarked.iff id).mp opened
    have differ : id ≠ session.sessionID := by
      rintro rfl
      exact working.ended _ session pc found before
    refine (working.reading id before).others (Function.update_of_ne differ _ _) (working.apart found differ)
      (fun _ other => Function.update_of_ne other _ _) ?_
    intro q _
    simp [reads, IocpPc.holds, pc]
  | failReturned pc =>
    refine working.goto completing taken (List.Subset.refl _) (by simp) ?_
    intro id opened
    refine (working.reading id opened).keep rfl fun q session _ found => ⟨⟨session, found, rfl⟩, ?_⟩
    simp [reads, IocpPc.holds, pc]
  | @openReturned _ _ listener data j size pc =>
    refine working.goto completing taken (List.Subset.refl _) (by simp) ?_
    intro id opened
    have unmarked : s.net.Unmarked (s.net.emit (.onData j listener data size)) := ⟨[_], rfl, by simp [Event.opensSession]⟩
    refine (working.reading id ((unmarked.iff id).mp opened)).keep rfl fun q session _ found => ⟨⟨session, found, rfl⟩, ?_⟩
    simp [reads, IocpPc.holds, pc]
  | @datagramReturned _ _ listener pc =>
    have aside := s.postReadFrom_aside listener posted
    refine working.goto completing taken (aside.receives ▸ List.Subset.refl _) (by simp) ?_
    intro id opened
    refine (aside.receiving (working.reading id ((aside.unmarked.iff id).mp opened))).keep rfl
      fun q session _ found => ⟨⟨session, found, rfl⟩, ?_⟩
    simp [reads, IocpPc.holds, aside.pc, pc]

theorem Working.step (working : s.Working) (completing : s.Completing action) (taken : s.step action = some s') :
    s'.Working := by
  have regular := working.placed.regular
  cases action with
  | newConnector c sock =>
    cases step_took' regular taken with
    | newConnector free =>
      have unmarked : s.net.Unmarked ((s.net.emit (.opened sock)).setObject (.connector c)
        ⟨false, sock, .connect, ⟨0, 0⟩, some sock, 0⟩) := ⟨[.opened sock], rfl, by simp [Event.opensSession]⟩
      refine working.user completing taken (fun id => (unmarked.iff id).mp) rfl rfl ?_ ?_
      · intro n session found
        rwa [NetService.setObject_heap] at found
      · intro id opened
        refine (working.reading id ((unmarked.iff id).mp opened)).others rfl ?_
          (fun _ other => Function.update_of_ne other _ _) fun _ _ => rfl
        intro stored
        obtain ⟨session, found, _⟩ := regular.stored stored
        cases free.symm.trans found
  | addTCPListener listener first rest =>
    cases step_took' regular taken with
    | addTCPListener added =>
      subst added
      have aside := s.addTCPListener_aside listener first rest
      exact working.posting completing taken ⟨aside.net, aside.receives, aside.pc⟩
  | addUDPListener listener posted =>
    cases step_took' regular taken with
    | addUDPListener =>
      have aside := s.postReadFrom_aside listener posted
      exact working.posting completing taken aside
  | addTCPConnector c posted => exact working.addTCPConnector completing taken
  | kickSession j =>
    cases step_took' regular taken with
    | kickSession issued result => exact working.kickSession taken result
  | accepted listener sock address associated next => exact working.accepted taken
  | received p buf => exact working.received taken
  | receivedFrom listener datagram posted => exact working.receivedFrom taken
  | connected c => exact working.connected taken
  | failed operation => exact working.failed completing taken
  | resume posted next => exact working.resume completing taken

theorem initSession_working : initSession.Working where
  placed := initSession_placed
  reading := by
    intro id opened
    cases opened
  young := by simp [initSession]
  ended := by simp [initSession]

end IocpService

end LiteServer.Net
