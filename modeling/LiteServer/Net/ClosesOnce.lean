import LiteServer.Net.Descriptors
import LiteServer.Lib.Transition

/-!
Descriptors are closed once on the epoll backend: each has one owner, which
closes it when it ceases to own it.
-/
namespace LiteServer.Net

namespace NetService
variable {s s' t : NetService} {cut cut' : List Nat} {action : Action} {sock x : Socket} {p q : SessionPtr} {c n : Nat}

structure Owned (s : NetService) (cut : List Nat) : Prop where
  shaped : s.Shaped
  once : descriptors.Agreed s.trace
  live : ∀ p sock, s.Owns cut p sock → s.Unclosed sock
  apart : ∀ p q sock, s.Owns cut p sock → s.Owns cut q sock → p = q

theorem Owned.silent (owned : s.Owned cut) (shaped : s'.Shaped) (silent : s.Silent s')
    (owns : ∀ p x, s'.Owns cut p x → s.Owns cut p x) : s'.Owned cut where
  shaped := shaped
  once := silent.once owned.once
  live p x own := (silent.live x).mpr (owned.live p x (owns p x own))
  apart p q x own other := owned.apart p q x (owns p x own) (owns q x other)

/-- The sessions are left as they are. -/
theorem Owned.still (owned : s.Owned cut) (silent : s.Silent s') (positive : 0 ∉ s'.queSessionID)
    (sessions : s'.sessions = s.sessions) (objects : s'.objects = s.objects) (allocated : s'.allocated = s.allocated) :
    s'.Owned cut :=
  owned.silent (owned.shaped.same positive sessions objects allocated) silent fun p _ own => own.back (by rw [objects])

/-- An owner closes its descriptor, and owns none any more. -/
theorem Owned.closing (owned : s.Owned cut) (shaped : s'.Shaped) (owner : s.Owns cut q sock)
    (trace : s'.trace = s.trace ++ [.closed sock]) (owns : ∀ p x, s'.Owns cut' p x → s.Owns cut p x ∧ p ≠ q) :
    s'.Owned cut' where
  shaped := shaped
  once := once_closed trace (owned.live q sock owner) owned.once
  live p x own := by
    obtain ⟨own, differ⟩ := owns p x own
    refine (live_closed trace x).mpr ⟨?_, owned.live p x own⟩
    rintro rfl
    exact differ (owned.apart p q x own owner)
  apart p q x own other := owned.apart p q x (owns p x own).1 (owns q x other).1

/-- A new owner holds a descriptor that the system handed out. -/
theorem Owned.opening (owned : s.Owned cut) (shaped : s'.Shaped) (unused : ¬ s.Unclosed sock)
    (trace : s'.trace = s.trace ++ [.opened sock])
    (owns : ∀ p x, s'.Owns cut p x → s.Owns cut p x ∨ (p = q ∧ x = sock)) : s'.Owned cut where
  shaped := shaped
  once := once_opened trace owned.once
  live p x own := by
    refine (live_opened trace x).mpr ?_
    rcases owns p x own with before | ⟨_, same⟩
    · exact .inr (owned.live p x before)
    · exact .inl same
  apart p r x own other := by
    rcases owns p x own with before | ⟨rfl, rfl⟩ <;> rcases owns r x other with before' | ⟨rfl, same⟩
    · exact owned.apart p r x before before'
    · subst same
      exact absurd (owned.live p x before) unused
    · exact absurd (owned.live r x before') unused
    · rfl

/-- A descriptor that the system handed out is closed at once. -/
theorem Owned.refused (owned : s.Owned cut) (unused : ¬ s.Unclosed sock) (positive : 0 ∉ s'.queSessionID)
    (trace : s'.trace = s.trace ++ [.opened sock] ++ [.closed sock]) (sessions : s'.sessions = s.sessions)
    (objects : s'.objects = s.objects) (allocated : s'.allocated = s.allocated) : s'.Owned cut := by
  let handed := s.emit (.opened sock)
  have open_iff : ∀ x, handed.Unclosed x ↔ x = sock ∨ s.Unclosed x := live_opened rfl
  have trace : s'.trace = handed.trace ++ [.closed sock] := trace
  have owns : ∀ p x, s'.Owns cut p x → s.Owns cut p x := fun p x own => own.back (by rw [objects])
  refine ⟨owned.shaped.same positive sessions objects allocated, ?_, ?_, ?_⟩
  · exact once_closed trace ((open_iff sock).mpr (.inl rfl)) (once_opened rfl owned.once)
  · intro p x own
    have live := owned.live p x (owns p x own)
    refine (live_closed trace x).mpr ⟨?_, (open_iff x).mpr (.inr live)⟩
    rintro rfl
    exact unused live
  · exact fun p q x own other => owned.apart p q x (owns p x own) (owns q x other)

/-! ### Sessions -/

/-- A session from `new` is removed, and its descriptor closed if it was
    accepted. -/
theorem Owned.removed (owned : s.Owned cut) {session : Session} {id : SessionID}
    (found : s.objects (.heap n) = some session) (nonzero : id ≠ 0) :
    (s.removed (.heap n) { session with sessionID := id }).Owned cut := by
  have shaped : (s.removed (.heap n) { session with sessionID := id }).Shaped := owned.shaped.removed nonzero
  have owns : ∀ p x, (s.removed (.heap n) { session with sessionID := id }).Owns cut p x → s.Owns cut p x ∧ p ≠ .heap n :=
    fun p x own => own.deleted rfl
  rcases owned.shaped.heap n session found with udp | ⟨accepted, held⟩
  · have silent : s.Silent (s.removed (.heap n) { session with sessionID := id }) :=
      ⟨[], by simp [NetService.removed, Session.closing, udp], by simp⟩
    exact owned.silent shaped silent fun p x own => (owns p x own).1
  · refine owned.closing shaped ⟨session, found, held, by simp [accepted], by simp⟩ ?_ owns
    simp [NetService.removed, Session.closing, accepted, held]

theorem Owned.closeSock (owned : s.Owned cut) (whole : c ∉ cut) (result : s.closeSock (.connector c) = some s') :
    s'.Owned cut := by
  obtain ⟨session, found, _⟩ := Option.bind_eq_some_iff.mp result
  obtain ⟨connect, _⟩ := owned.shaped.connector c session found
  rcases closeSock_cases found result with rfl | ⟨sock, held, rfl⟩
  · exact owned
  · have shaped : ((s.destroySocket sock).setObject (.connector c) { session with sock := none }).Shaped :=
      owned.shaped.renewed { session with sock := none } owned.shaped.positive rfl (fun _ _ stored => stored) rfl connect (by simp)
    have owner : s.Owns cut (.connector c) sock := by
      refine ⟨session, found, held, by simp [connect], ?_⟩
      rintro _ member ⟨⟩
      exact whole member
    refine owned.closing shaped owner rfl fun p x own => ?_
    rcases own.written { session with sock := none } rfl with ⟨before, differ⟩ | ⟨_, ⟨⟩, _⟩
    exact ⟨before.back rfl, differ⟩

/-- `DelSession` on any session, also one whose ID the table has another under. -/
theorem Owned.delSession (owned : s.Owned cut) (result : s.delSession p = some s') : s'.Owned cut := by
  have shaped := owned.shaped
  obtain ⟨id, rfl | ⟨c, session, _, found, rfl⟩ | ⟨n, session, inTable, found, rfl, rfl⟩⟩ := shaped.delSession_cases result
  · exact owned.still silent_rest shaped.positive rfl rfl rfl
  · refine owned.silent ?_ silent_rest fun p x own =>
      own.renewed { session with alive := false } found rfl rfl rfl
    obtain ⟨connect, copies⟩ := shaped.connector c session found
    refine shaped.renewed { session with alive := false } shaped.positive rfl ?_ rfl connect copies
    exact fun id n stored => (update_none_eq_some stored).1
  · exact owned.removed found (shaped.filed _ n inTable).1

theorem Owned.kickSession (owned : s.Owned cut) {id : SessionID} (careful : ∀ c ∈ cut, s.sessions id ≠ some (.connector c))
    (result : s.kickSession id = some s') : s'.Owned cut := by
  have positive := owned.shaped.positive
  have kicked : ((s.access id).emit (.kick id)).Owned cut :=
    owned.still (silent_event rfl fun _ => rfl) positive rfl rfl rfl
  rcases owned.shaped.kickSession_cases result with rfl | ⟨n, session, stored, found, rfl, rfl⟩ | ⟨c, t, stored, closed, result⟩
  · exact owned.still silent_rest positive rfl rfl rfl
  · exact kicked.removed found (owned.shaped.filed _ n stored).1
  · have whole : c ∉ cut := fun member => careful c member stored
    exact (kicked.closeSock whole closed).delSession result

/-! ### Operations -/

theorem Owned.addTCPConnector (owned : s.Owned cut) {added connecting ok : Bool}
    (result : s.addTCPConnector c added connecting = some (ok, s')) : s'.Owned cut := by
  obtain ⟨session, found, _⟩ := Option.bind_eq_some_iff.mp result
  have shaped := owned.shaped
  obtain ⟨connect, copies⟩ := shaped.connector c session found
  have renewed : ∀ session' : Session, session'.sock = session.sock → session'.sockType = session.sockType →
      session'.socket = session.socket → 0 ∉ s'.queSessionID → s.Silent s' → s'.allocated = s.allocated →
      s'.sessions = s.sessions → s'.objects = Function.update s.objects (.connector c) (some session') → s'.Owned cut := by
    intro session' sock sockType socket positive silent allocated sessions objects
    refine owned.silent ?_ silent fun p x own => own.renewed session' found sock sockType objects
    refine shaped.renewed session' positive allocated (fun _ _ stored => sessions ▸ stored) objects (sockType ▸ connect) ?_
    rw [sock, socket]
    exact copies
  rcases addTCPConnector_cases shaped.positive found result with
    ⟨_, rfl⟩ | ⟨id, rest, front, ⟨_, rfl⟩ | ⟨_, _, rfl⟩ | ⟨_, _, rfl⟩⟩
  · exact renewed { session with alive := false } rfl rfl rfl shaped.positive silent_rest rfl rfl rfl
  · exact renewed { session with alive := false, sessionID := id } rfl rfl rfl
      (shaped.turned front) silent_rest rfl rfl rfl
  · exact renewed { session with alive := false, sessionID := id } rfl rfl rfl
      (shaped.turned front) silent_rest rfl rfl rfl
  · exact renewed { session with alive := false, sessionID := id } rfl rfl rfl
      (shaped.taken front) silent_rest rfl rfl rfl

theorem Owned.postConnect (owned : s.Owned cut) (result : s.postConnect c = some s') : s'.Owned cut := by
  obtain ⟨session, found, _⟩ := Option.bind_eq_some_iff.mp result
  rw [postConnect_eq found] at result
  cases Option.some.inj result
  refine owned.silent ?_ (silent_event rfl fun _ => rfl) fun p x own => own.back rfl
  refine owned.shaped.kept owned.shaped.positive rfl ?_ (fun _ _ found => found) owned.shaped.connector
  intro id n stored
  rcases update_eq_some stored with ⟨_, ⟨⟩⟩ | before
  exact before

theorem Owned.connected (owned : s.Owned cut) {changed : Bool} (pc : s.pc = .connectCallBack c)
    (careful : ∀ c session, s.cutting changed = some c → s.objects (.connector c) = some session →
      c ∉ cut ∧ session.sock.isSome) (result : s.connected c changed = some s') :
    s'.Owned ((s.cutting changed).toList ++ cut) := by
  obtain ⟨session, found, _⟩ := Option.bind_eq_some_iff.mp result
  have shaped := owned.shaped
  obtain ⟨connect, copies⟩ := shaped.connector c session found
  rcases connected_cutting pc found connect result with ⟨unharmed, rfl⟩ | ⟨harmed, rfl⟩
  · rw [unharmed]
    refine owned.silent ?_ silent_rest fun p x own => own.renewed { session with alive := true } found rfl rfl rfl
    exact shaped.renewed { session with alive := true } shaped.positive rfl (fun _ _ stored => stored) rfl connect copies
  · obtain ⟨whole, valid⟩ := careful c session harmed found
    obtain ⟨sock, held⟩ := Option.isSome_iff_exists.mp valid
    obtain rfl := copies sock held
    rw [harmed]
    have owner : s.Owns cut (.connector c) session.socket := by
      refine ⟨session, found, held, by simp [connect], ?_⟩
      rintro _ member ⟨⟩
      exact whole member
    have closed : (s.destroySocket session.socket).Owned ((some c).toList ++ cut) := by
      refine owned.closing (shaped.same shaped.positive rfl rfl rfl) owner rfl fun p x own => ?_
      obtain ⟨session', found', held', kind, uncut⟩ := own
      exact ⟨⟨session', found', held', kind, fun d member => uncut d (List.mem_append_right _ member)⟩, uncut c (by simp)⟩
    exact closed.still (silent_event rfl fun _ => rfl) shaped.positive rfl rfl rfl

theorem Owned.acceptRound (owned : s.Owned cut) {listener : Socket} {answer : Option Accepted}
    (careful : ∀ a, answer = some a → ¬ s.Unclosed a.socket)
    (result : s.acceptRound listener answer = some s') : s'.Owned cut := by
  have shaped := owned.shaped
  cases answer with
  | none =>
    cases Option.some.inj result
    exact owned.still silent_rest shaped.positive rfl rfl rfl
  | some a =>
    have unused : ¬ s.Unclosed a.socket := careful a rfl
    rcases acceptRound_cases shaped.positive result with rfl | ⟨id, rest, front, rfl | rfl⟩
    · exact owned.refused unused shaped.positive rfl rfl rfl rfl
    · exact owned.refused unused (shaped.turned front) rfl rfl rfl rfl
    · let session : Session := ⟨true, a.socket, .accepted, a.address, some a.socket, id⟩
      let t := (s.emit (.opened a.socket)).opened id rest session
      have entered : t.Owned cut := by
        refine owned.opening (q := .heap s.allocated) ?_ unused rfl fun p x own => ?_
        · exact shaped.entered session front rfl (.inr ⟨rfl, rfl⟩) rfl rfl rfl
        · rcases own.written session rfl with ⟨before, _⟩ | ⟨same, held, _⟩
          · exact .inl (before.back rfl)
          · exact .inr ⟨same, (Option.some.inj held).symm⟩
      exact entered.still (silent_event rfl fun _ => rfl) entered.shaped.positive rfl rfl rfl

theorem Owned.receiveRound (owned : s.Owned cut) {listener : Socket} {data : List Byte} {answer : Option Datagram}
    (result : s.receiveRound listener data answer = some s') : s'.Owned cut := by
  have shaped := owned.shaped
  cases answer with
  | none =>
    cases Option.some.inj result
    exact owned.still silent_rest shaped.positive rfl rfl rfl
  | some d =>
    rcases receiveRound_cases shaped.positive result with rfl | ⟨_, rfl⟩ | ⟨id, rest, front, _, _, rfl⟩
    · exact owned.still silent_rest shaped.positive rfl rfl rfl
    · exact owned.still (silent_event rfl fun _ => rfl) shaped.positive rfl rfl rfl
    · let session : Session := ⟨true, listener, .udp, d.address, some listener, id⟩
      refine owned.silent ?_ (silent_event rfl fun _ => rfl) fun p x own => ?_
      · exact shaped.entered session front rfl (.inl rfl) rfl rfl rfl
      · rcases own.written session rfl with ⟨before, _⟩ | ⟨_, _, other, _⟩
        · exact before.back rfl
        · exact absurd rfl other

/-! ### Runs -/

/-- The system hands out no descriptor that is open. -/
def Unused (s : NetService) : Action → Prop
  | .newConnector _ sock => ¬ s.Unclosed sock
  | .accept answer => ∀ a, answer = some a → ¬ s.Unclosed a.socket
  | _ => True

/-- `KickSession` finds no connector whose descriptor `PostConnect` closed, and
    where `PostConnect` closes one, the `Sock` is valid and it did not before. -/
def Careful (s : NetService) (cut : List Nat) (action : Action) : Prop :=
  s.Unused action ∧
  match action with
  | .kickSession id => ∀ c ∈ cut, s.sessions id ≠ some (.connector c)
  | .resume changed => ∀ c session, s.cutting changed = some c → s.objects (.connector c) = some session →
      c ∉ cut ∧ session.sock.isSome
  | _ => True

/-- Runs with the connectors whose descriptor `PostConnect` closed. -/
def Cutting (allowed : NetService → List Nat → Action → Prop) : NetService × List Nat → Prop :=
  Transition.Reachable (· = (initSession, [])) fun t t' =>
    ∃ action, allowed t.1 t.2 action ∧ t.1.step action = some t'.1 ∧ t'.2 = t.1.cuts t.2 action

theorem Cutting.init {allowed : NetService → List Nat → Action → Prop} : Cutting allowed (initSession, []) :=
  Transition.Reachable.start rfl

theorem Cutting.act {allowed : NetService → List Nat → Action → Prop} (reached : Cutting allowed (s, cut))
    (action : Action) (allows : allowed s cut action) (taken : s.step action = some s') :
    Cutting allowed (s', s.cuts cut action) :=
  Transition.Reachable.next reached ⟨action, allows, taken, rfl⟩

theorem Owned.step (owned : s.Owned cut) (careful : s.Careful cut action) (taken : s.step action = some s') :
    s'.Owned (s.cuts cut action) := by
  have positive := owned.shaped.positive
  cases step_took taken with
  | @newConnector c sock user free =>
    have unused : ¬ s.Unclosed sock := careful.1
    let session : Session := ⟨false, sock, .connect, ⟨0, 0⟩, some sock, 0⟩
    refine owned.opening (q := .connector c) ?_ unused rfl fun p x own => ?_
    · exact owned.shaped.renewed session positive rfl (fun _ _ stored => stored) rfl rfl
        fun _ held => (Option.some.inj held).symm
    · rcases own.written session rfl with ⟨before, _⟩ | ⟨same, held, _⟩
      · exact .inl (before.back rfl)
      · exact .inr ⟨same, (Option.some.inj held).symm⟩
  | @addTCPListener listener added =>
    rcases s.epollAdd_cases listener (.accept listener) added with same | same <;> rw [same] <;>
      exact owned.still silent_rest positive rfl rfl rfl
  | @addUDPListener listener added =>
    rcases s.epollAdd_cases listener (.readFrom listener) added with same | same <;> rw [same] <;>
      exact owned.still silent_rest positive rfl rfl rfl
  | addTCPConnector user result => exact owned.addTCPConnector result
  | kickSession user issued result => exact owned.kickSession careful.2 result
  | postConnect idle result => exact owned.postConnect result
  | @connecting _ _ _ rest _ _ idle events context out result =>
    have popped : ({ s with events := rest } : NetService).Owned cut := owned.still silent_rest positive rfl rfl rfl
    exact popped.postConnect result
  | postRead idle result =>
    obtain ⟨session, found, _⟩ := Option.bind_eq_some_iff.mp result
    rcases postRead_cases found result with ⟨_, _, rfl⟩ | ⟨_, _, rfl⟩ | ⟨_, rfl⟩ <;>
      exact owned.still (silent_event rfl fun _ => rfl) positive rfl rfl rfl
  | reading idle events context result =>
    obtain ⟨session, found, _⟩ := Option.bind_eq_some_iff.mp result
    rcases postRead_cases found result with ⟨_, _, rfl⟩ | ⟨_, _, rfl⟩ | ⟨_, rfl⟩ <;>
      exact owned.still (silent_event rfl fun _ => rfl) positive rfl rfl rfl
  | accept pc result => exact owned.acceptRound careful.1 result
  | recvfrom pc result => exact owned.receiveRound result
  | connected pc result => exact owned.connected pc careful.2 result
  | accepted pc =>
    rw [cuts_resume (by simp [pc])]
    exact owned.still silent_rest positive rfl rfl rfl
  | opened pc =>
    rw [cuts_resume (by simp [pc])]
    exact owned.still (silent_event rfl fun _ => rfl) positive rfl rfl rfl
  | delivered pc =>
    rw [cuts_resume (by simp [pc])]
    exact owned.still silent_rest positive rfl rfl rfl
  | dropped pc result =>
    rw [cuts_resume (by simp [pc])]
    have deleted := owned.delSession result
    exact deleted.still silent_rest deleted.shaped.positive rfl rfl rfl
  | returned pc =>
    rw [cuts_resume (by simp [pc])]
    exact owned.still silent_rest positive rfl rfl rfl
  | _ => exact owned.still silent_rest positive rfl rfl rfl

theorem initSession_owned : initSession.Owned [] where
  shaped := initSession_shaped
  once := Latest.agreed_nil
  live := by simp [Owns, initSession]
  apart := by simp [Owns, initSession]

theorem owned_of_cutting {t : NetService × List Nat} (reached : Cutting Careful t) : t.1.Owned t.2 := by
  refine Transition.Reachable.invariant (P := fun t => t.1.Owned t.2) ?_ ?_ reached
  · rintro _ rfl
    exact initSession_owned
  · rintro ⟨s, cut⟩ ⟨s', cut'⟩ _ owned ⟨action, careful, taken, rfl⟩
    exact owned.step careful taken

/-! ### Removals -/

/-- Sessions were left as they are, or one was written. -/
def Written (s s' : NetService) : Prop :=
  s'.objects = s.objects ∨ ∃ p session, s'.objects = Function.update s.objects p (some session)

theorem Written.kept (written : s.Written s') (gone : s'.objects p = none) : s.objects p = none := by
  rcases written with same | ⟨q, session, objects⟩
  · exact same ▸ gone
  · rw [objects] at gone
    by_cases same : p = q
    · subst same
      cases (Function.update_self p (some session) s.objects).symm.trans gone
    · rwa [Function.update_of_ne same] at gone

/-- Only `KickSession` and `OnSessionDrop` delete sessions. -/
theorem step_written (shaped : s.Shaped) (taken : s.step action = some s') : s.Written s' ∨
    (∃ id, s.kickSession id = some s') ∨ ∃ p t, s.delSession p = some t ∧ s' = { t with pc := .idle } := by
  cases step_took taken with
  | newConnector => exact .inl (.inr ⟨_, _, rfl⟩)
  | @addTCPListener listener added =>
    rcases s.epollAdd_cases listener (.accept listener) added with same | same <;> rw [same] <;>
      exact .inl (.inl rfl)
  | @addUDPListener listener added =>
    rcases s.epollAdd_cases listener (.readFrom listener) added with same | same <;> rw [same] <;>
      exact .inl (.inl rfl)
  | addTCPConnector user result =>
    obtain ⟨session, found, _⟩ := Option.bind_eq_some_iff.mp result
    rcases addTCPConnector_cases shaped.positive found result with
      ⟨_, rfl⟩ | ⟨id, rest, front, ⟨_, rfl⟩ | ⟨_, _, rfl⟩ | ⟨_, _, rfl⟩⟩ <;>
      exact .inl (.inr ⟨_, _, rfl⟩)
  | @kickSession id _ user issued result => exact .inr (.inl ⟨id, result⟩)
  | postConnect idle result =>
    obtain ⟨session, found, _⟩ := Option.bind_eq_some_iff.mp result
    rw [postConnect_eq found] at result
    cases Option.some.inj result
    exact .inl (.inl rfl)
  | connecting idle events context out result =>
    obtain ⟨session, found, _⟩ := Option.bind_eq_some_iff.mp result
    rw [postConnect_eq found] at result
    cases Option.some.inj result
    exact .inl (.inl rfl)
  | postRead idle result =>
    obtain ⟨session, found, _⟩ := Option.bind_eq_some_iff.mp result
    rcases postRead_cases found result with ⟨_, _, rfl⟩ | ⟨_, _, rfl⟩ | ⟨_, rfl⟩ <;> exact .inl (.inl rfl)
  | reading idle events context result =>
    obtain ⟨session, found, _⟩ := Option.bind_eq_some_iff.mp result
    rcases postRead_cases found result with ⟨_, _, rfl⟩ | ⟨_, _, rfl⟩ | ⟨_, rfl⟩ <;> exact .inl (.inl rfl)
  | @accept listener answer _ pc result =>
    cases answer with
    | none =>
      cases Option.some.inj result
      exact .inl (.inl rfl)
    | some a =>
      rcases acceptRound_cases shaped.positive result with rfl | ⟨id, rest, front, rfl | rfl⟩
      · exact .inl (.inl rfl)
      · exact .inl (.inl rfl)
      · exact .inl (.inr ⟨_, _, rfl⟩)
  | @recvfrom listener data answer _ pc result =>
    cases answer with
    | none =>
      cases Option.some.inj result
      exact .inl (.inl rfl)
    | some d =>
      rcases receiveRound_cases shaped.positive result with rfl | ⟨_, rfl⟩ | ⟨id, rest, front, _, _, rfl⟩
      · exact .inl (.inl rfl)
      · exact .inl (.inl rfl)
      · exact .inl (.inr ⟨_, _, rfl⟩)
  | connected pc result =>
    obtain ⟨session, found, _⟩ := Option.bind_eq_some_iff.mp result
    rcases connected_cases found (shaped.connector _ session found).1 result with ⟨_, _, rfl⟩ | rfl
    · exact .inl (.inr ⟨_, _, rfl⟩)
    · exact .inl (.inl rfl)
  | @dropped _ p t pc result => exact .inr (.inr ⟨p, t, result, rfl⟩)
  | _ => exact .inl (.inl rfl)

theorem removed_gone {session session' : Session} (found : s.objects (.heap n) = some session)
    (found' : s.objects p = some session') (gone : Function.update s.objects p none (.heap n) = none) :
    session' = session := by
  by_cases same : .heap n = p
  · subst same
    exact Option.some.inj (found'.symm.trans found)
  · rw [Function.update_of_ne same] at gone
    cases found.symm.trans gone

/-- `DelSession` closes what the session held that it deletes. -/
theorem delSession_gone {session : Session} (result : s.delSession p = some s')
    (found : s.objects (.heap n) = some session) (gone : s'.objects (.heap n) = none) :
    s'.trace = s.trace ++ session.closing.toList.map .closed := by
  obtain ⟨session₁, found₁, _⟩ := Option.bind_eq_some_iff.mp result
  rcases delSession_cases found₁ result with
    ⟨_, rfl⟩ | ⟨stored, session₂, inTable, found₂, ⟨connect, rfl⟩ | ⟨other, rfl⟩⟩
  · cases found.symm.trans gone
  · have written : s.Written (((s.access session₁.sessionID).setObject stored { session₂ with alive := false }).setSession
        session₁.sessionID none) := .inr ⟨_, _, rfl⟩
    cases found.symm.trans (written.kept gone)
  · obtain rfl := removed_gone found found₂ gone
    rfl

theorem closeSock_trace (result : s.closeSock p = some s') :
    ∃ session closing, s.objects p = some session ∧ s'.trace = s.trace ++ Option.toList (closing.map .closed) ∧
      (∀ sock, closing = some sock → session.sock = some sock) ∧ ∀ q, q ≠ p → s'.objects q = s.objects q := by
  obtain ⟨session, found, _⟩ := Option.bind_eq_some_iff.mp result
  rcases closeSock_cases found result with rfl | ⟨sock, held, rfl⟩
  · exact ⟨session, none, found, by simp, by simp, fun _ _ => rfl⟩
  · refine ⟨session, some sock, found, rfl, by simpa using held, ?_⟩
    exact fun q differ => Function.update_of_ne differ _ _

/-- The session of a pointer was removed: an accepted one's descriptor was
    closed, and with that of a peer none but what a connector holds. -/
def Removes (s s' : NetService) (n : Nat) (session : Session) : Prop :=
  s.objects (.heap n) = some session → s'.objects (.heap n) = none → ∃ more, s'.trace = s.trace ++ more ∧
    (session.sockType = .accepted → .closed session.socket ∈ more) ∧
    (session.sockType = .udp → ∀ sock, .closed sock ∈ more →
      ∃ c session', s.objects (.connector c) = some session' ∧ session'.sock = some sock)

/-- What is closed before `DelSession` is what a connector holds. -/
theorem Shaped.removes (shaped : s.Shaped) {session : Session} (before : List Event)
    (trace : s'.trace = s.trace ++ before ++ session.closing.toList.map .closed)
    (connectors : ∀ sock, .closed sock ∈ before →
      ∃ c session', s.objects (.connector c) = some session' ∧ session'.sock = some sock) :
    s.Removes s' n session := by
  intro found _
  refine ⟨_, trace.trans (List.append_assoc ..), ?_, ?_⟩
  · intro accepted
    have held : session.sock = some session.socket := by
      rcases shaped.heap n session found with udp | ⟨_, held⟩
      · cases accepted.symm.trans udp
      · exact held
    simp [Session.closing, accepted, held]
  · intro udp sock member
    exact connectors sock (by simpa [Session.closing, udp] using member)

theorem Shaped.step_removes (shaped : s.Shaped) (taken : s.step action = some s') (n : Nat) (session : Session) :
    s.Removes s' n session := by
  intro found gone
  rcases step_written shaped taken with written | ⟨id, result⟩ | ⟨p, t, result, rfl⟩
  · cases found.symm.trans (written.kept gone)
  · rcases shaped.kickSession_cases result with rfl | ⟨m, session₁, _, found₁, rfl, rfl⟩ | ⟨c, t, _, closed, result⟩
    · cases found.symm.trans gone
    · obtain rfl := removed_gone found found₁ gone
      exact shaped.removes [.kick session₁.sessionID] rfl (by simp) found gone
    · obtain ⟨session₂, closing, found₂, trace, held, others⟩ := closeSock_trace closed
      have found' : t.objects (.heap n) = some session := (others _ (by simp)).trans found
      refine shaped.removes (.kick id :: Option.toList (closing.map .closed)) ?_ ?_ found gone
      · rw [delSession_gone result found' gone, trace]
        simp [emit, access]
      · intro sock member
        refine ⟨c, session₂, found₂, held sock ?_⟩
        simpa using member
  · exact shaped.removes [] ((delSession_gone result found gone).trans (by simp)) (by simp) found gone

/-- No descriptor is closed twice before it is handed out again, accepted
    sessions close theirs when they are removed, and those of peers close none. -/
structure ClosesOnce (s : NetService) : Prop where
  once : descriptors.Agreed s.trace
  removes : ∀ action s' n session, s.step action = some s' → s.Removes s' n session

theorem descriptors_closed_once (s : NetService) (cut : List Nat) (reached : Cutting Careful (s, cut)) : s.ClosesOnce where
  once := (owned_of_cutting reached).once
  removes _ _ n session taken := (owned_of_cutting reached).shaped.step_removes taken n session

theorem kicked_connection_closed : ∃ s cut, Cutting Careful (s, cut) ∧
    s.trace = [.opened 7, .onAddConnection 1 7 ⟨0, 0⟩, .kick 1, .closed 7] ∧ s.ClosesOnce := by
  have listening : Cutting Careful _ := Cutting.init.act (.postAccept 3) ⟨trivial, trivial⟩ rfl
  have accepted := listening.act (.accept (some ⟨7, ⟨0, 0⟩, true⟩)) ⟨by rintro _ ⟨⟩ ⟨⟩, trivial⟩ rfl
  have kicked := accepted.act (.kickSession 1) ⟨trivial, by simp [cuts]⟩ rfl
  exact ⟨_, _, kicked, rfl, descriptors_closed_once _ _ kicked⟩

/-- A connection cannot be registered to be read, so `PostConnect` closes its
    descriptor; a later `KickSession` closes it again. -/
theorem cut_connector_closed_twice : ¬ ∀ s, Reachable Unused s → s.ClosesOnce := by
  intro always
  have made : Reachable Unused _ := Reachable.init.act (.newConnector 0 9) (by rintro ⟨⟩) rfl
  have added := made.act (.addTCPConnector 0 true true) trivial rfl
  have polled := added.act (.epollWait [⟨9, .connect 0, false, true⟩]) trivial rfl
  have connected := polled.act (.dispatch [] .again) trivial rfl
  have cut := connected.act (.resume false) trivial rfl
  have idle := cut.act (.resume true) trivial rfl
  have kicked := idle.act (.kickSession 1) trivial rfl
  have twice := (always _ kicked).once [.opened 9, .onConnected 1 9, .closed 9, .onConnectFail 1 9, .kick 1] (.closed 9)
    9 true (List.prefix_refl _) rfl
  cases twice

end NetService

end LiteServer.Net
