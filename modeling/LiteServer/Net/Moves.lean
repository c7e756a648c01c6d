import LiteServer.Lib.Latest
import LiteServer.Net.SessionIDs

/-!
What the service does to its sessions, whichever backend it runs on: every
operation is made of a few moves of IDs and sessions, and the trace says which
IDs they open. The positions, registrations and the like are not part of a move.
-/
namespace LiteServer.Net

namespace Event

/-- The descriptor that a callback opens an ID on, or reports it on later. -/
def opensOn (id : SessionID) : Event → Option Socket
  | .onAddConnection j sock _ => if j = id then some sock else none
  | .onConnected j sock => if j = id then some sock else none
  | _ => none
def reportsOn (id : SessionID) : Event → Option Socket
  | .onData j sock _ _ => if j = id then some sock else none
  | .onConnectionDrop j sock => if j = id then some sock else none
  | _ => none

end Event

def identity : Latest.Marks SessionID Socket Event := ⟨Event.opensOn, Event.reportsOn⟩

namespace NetService
variable {s s' : NetService} {linked : Nat → Prop}

/-- Sessions, IDs and the map are the same. -/
structure Same (s s' : NetService) : Prop extends s.Leaves s' where
  mapUDPSessions : s'.mapUDPSessions = s.mapUDPSessions

theorem same_rest {epoll : Socket → Option Context} {pc : Pc} {events : List PollEvent} {trace : List Event}
    {issued accesses : List SessionID} : s.Same ⟨s.queSessionID, s.mapUDPSessions, s.sessions, s.objects, s.allocated,
      epoll, pc, events, s.attempts, trace, issued, accesses⟩ := by
  constructor
  · exact leaves_rest
  · rfl

/-- Only events that open no ID were added to the trace. -/
def Quietly (s s' : NetService) : Prop :=
  ∃ more, s'.trace = s.trace ++ more ∧ ∀ event ∈ more, ∀ id, event.opensOn id = none

/-- The ID at the head of the queue goes to its end. -/
def turned (s : NetService) (id : SessionID) (rest : List SessionID) : NetService :=
  { s with queSessionID := rest ++ [id] }

/-- The ID at the head of the queue passes to an attempt. -/
def tried (s : NetService) (c : Nat) (rest : List SessionID) : NetService :=
  { s with queSessionID := rest, attempts := s.attempts ++ [c] }

/-- An attempt is forgotten. -/
def abandoned (s : NetService) (c : Nat) : NetService := { s with attempts := s.attempts.erase c }

/-- The session of an attempt enters the table. -/
def joined (s : NetService) (c : Nat) (session : Session) : NetService := { s with
  attempts := s.attempts.erase c
  sessions := Function.update s.sessions session.sessionID (some (.connector c)) }

/-- A new session enters the table, and the map if it is that of a peer. -/
def entered (s : NetService) (rest : List SessionID) (session : Session) : NetService := { s with
  queSessionID := rest
  sessions := Function.update s.sessions session.sessionID (some (.heap s.allocated))
  objects := Function.update s.objects (.heap s.allocated) (some session)
  allocated := s.allocated + 1
  mapUDPSessions := if session.sockType = .udp then
    Function.update s.mapUDPSessions (sessionKey session.address) (some session.sessionID) else s.mapUDPSessions }

@[simp] theorem entered_connector {rest : List SessionID} {session : Session} (c : Nat) :
    (s.entered rest session).objects (.connector c) = s.objects (.connector c) := by
  simp [entered]

@[simp] theorem entered_fresh {rest : List SessionID} {session : Session} :
    (s.entered rest session).objects (.heap s.allocated) = some session :=
  Function.update_self ..

@[simp] theorem detached_heap {c : Nat} {session : Session} (n : Nat) :
    (s.detached c session).objects (.heap n) = s.objects (.heap n) := by
  simp [detached]

@[simp] theorem removed_connector {n : Nat} {session : Session} (c : Nat) :
    (s.removed (.heap n) session).objects (.connector c) = s.objects (.connector c) := by
  simp [removed]

/-- A move; `linked` are the connectors that something still refers to besides
    the table and the attempts. -/
inductive Move (linked : Nat → Prop) (s s' : NetService) : Prop where
  | stay (same : s.Same s') (quietly : s.Quietly s')
  | construct (c : Nat) (session : Session) (resting : c ∉ s.attempts)
      (unstored : ∀ id, s.sessions id ≠ some (.connector c)) (unlinked : ¬ linked c)
      (connect : session.sockType = .connect) (same : (s.setObject (.connector c) session).Same s')
      (quietly : s.Quietly s')
  | turn (id : SessionID) (rest : List SessionID) (front : s.queSessionID = id :: rest)
      (same : (s.turned id rest).Same s') (quietly : s.Quietly s')
  | attempt (c : Nat) (rest : List SessionID) (session : Session) (found : s.objects (.connector c) = some session)
      (front : s.queSessionID = session.sessionID :: rest) (resting : c ∉ s.attempts)
      (same : (s.tried c rest).Same s') (quietly : s.Quietly s')
  | abandon (c : Nat) (same : (s.abandoned c).Same s') (quietly : s.Quietly s')
  | join (c : Nat) (session : Session) (found : s.objects (.connector c) = some session) (trying : c ∈ s.attempts)
      (same : (s.joined c session).Same s')
      (trace : s'.trace = s.trace ++ [.onConnected session.sessionID session.socket])
  | enter (rest : List SessionID) (session : Session) (front : s.queSessionID = session.sessionID :: rest)
      (live : session.alive = true) (sockType : session.sockType = .accepted ∨ session.sockType = .udp)
      (unknown : session.sockType = .udp → s.mapUDPSessions (sessionKey session.address) = none)
      (same : (s.entered rest session).Same s')
      (trace : ∃ t : NetService, s.Quietly t ∧
        s'.trace = t.trace ++ [.onAddConnection session.sessionID session.socket session.address])
  | touch (c : Nat) (session session' : Session) (found : s.objects (.connector c) = some session)
      (own : session'.sessionID = session.sessionID) (sockType : session'.sockType = session.sockType)
      (socket : session'.socket = session.socket) (same : (s.setObject (.connector c) session').Same s')
      (quietly : s.Quietly s')
  | detach (c : Nat) (session : Session) (found : s.objects (.connector c) = some session)
      (stored : s.sessions session.sessionID = some (.connector c)) (same : (s.detached c session).Same s')
      (quietly : s.Quietly s')
  | remove (n : Nat) (session : Session) (found : s.objects (.heap n) = some session)
      (same : (s.removed (.heap n) session).Same s') (quietly : s.Quietly s')

/-- What every move keeps, wherever the thread is. -/
structure Regular (s : NetService) : Prop where
  sound : ({ s with pc := .idle } : NetService).Sound
  own : ∀ id c session, s.sessions id = some (.connector c) → s.objects (.connector c) = some session →
    session.sessionID = id
  nonzero : ∀ key, s.mapUDPSessions key ≠ some 0

theorem Regular.positive (regular : s.Regular) : 0 ∉ s.queSessionID := regular.sound.positive

theorem Regular.heap (regular : s.Regular) {n : Nat} {session : Session} (found : s.objects (.heap n) = some session) :
    s.sessions session.sessionID = some (.heap n) ∧ (session.sockType = .accepted ∨ session.sockType = .udp) :=
  regular.sound.heap n session found

theorem Regular.connector (regular : s.Regular) {c : Nat} {session : Session}
    (found : s.objects (.connector c) = some session) : session.sockType = .connect :=
  regular.sound.connectors c session found

theorem Regular.stored (regular : s.Regular) {id : SessionID} {p : SessionPtr} (stored : s.sessions id = some p) :
    ∃ session, s.objects p = some session ∧ session.sessionID = id := by
  obtain ⟨session, found, own⟩ := regular.sound.stored id p stored
  cases p with
  | heap n => exact ⟨session, found, own n rfl⟩
  | connector c => exact ⟨session, found, regular.own id c session stored found⟩

/-- What `KickSession` does, by what is in the table under the ID. -/
inductive Kicked (s : NetService) : SessionID → NetService → Prop where
  | unknown {id} (empty : s.sessions id = none) : s.Kicked id (s.access id)
  | heap {n session} (found : s.objects (.heap n) = some session)
      (stored : s.sessions session.sessionID = some (.heap n)) : s.Kicked session.sessionID
        (((s.access session.sessionID).emit (.kick session.sessionID)).removed (.heap n) session)
  | connector {c session} (found : s.objects (.connector c) = some session)
      (stored : s.sessions session.sessionID = some (.connector c)) : s.Kicked session.sessionID (s.detached c session)

theorem Regular.kickSession (regular : s.Regular) {id : SessionID} (result : s.kickSession id = some s') :
    s.Kicked id s' := by
  cases stored : s.sessions id with
  | none =>
    rw [kickSession_none stored] at result
    cases Option.some.inj result
    exact .unknown stored
  | some p =>
    obtain ⟨session, found, rfl⟩ := regular.stored stored
    cases p with
    | heap n =>
      rw [kickSession_heap found stored (regular.heap found).2] at result
      cases Option.some.inj result
      exact .heap found stored
    | connector c =>
      rw [kickSession_connector found stored (regular.connector found)] at result
      cases Option.some.inj result
      exact .connector found stored

theorem Regular.fresh (regular : s.Regular) : s.objects (.heap s.allocated) = none :=
  regular.sound.fresh _ (Nat.le_refl _)

theorem Regular.trying (regular : s.Regular) {c : Nat} (trying : c ∈ s.attempts) :
    ∃ session, s.objects (.connector c) = some session :=
  Option.isSome_iff_exists.mp (regular.sound.attempts c trying)

theorem Regular.same (regular : s.Regular) (same : s.Same s') : s'.Regular where
  sound := by
    have rest : ({ s with pc := .idle } : NetService).Leaves { s' with pc := .idle } :=
      ⟨same.queSessionID, same.sessions, same.objects, same.allocated, same.attempts⟩
    exact (regular.sound.frame rest (by simp)).1
  own := by
    rw [same.sessions, same.objects]
    exact regular.own
  nonzero := by
    rw [same.mapUDPSessions]
    exact regular.nonzero

theorem Regular.own_update (regular : s.Regular) {d : Nat} {session session' : Session}
    (found : s.objects (.connector d) = some session) (own : session'.sessionID = session.sessionID) {id : SessionID}
    {c : Nat} {session₁ : Session} (stored : s.sessions id = some (.connector c))
    (after : Function.update s.objects (.connector d) (some session') (.connector c) = some session₁) :
    session₁.sessionID = id := by
  rcases update_eq_some after with ⟨same, new⟩ | before
  · cases same
    cases new
    rw [own]
    exact regular.own id d session stored found
  · exact regular.own id c session₁ stored before

theorem Regular.abandoned (regular : s.Regular) (c : Nat) : (s.abandoned c).Regular where
  sound := by
    obtain ⟨held, heap, stored, connectors, fresh, attempts, once, _⟩ := regular.sound
    refine ⟨?_, heap, stored, connectors, fresh, ?_, once.erase c, by simp⟩
    · intro id
      have fewer : ((s.attempts.erase c).map s.attemptID).count id ≤ (s.attempts.map s.attemptID).count id :=
        (List.erase_sublist.map s.attemptID).count_le id
      have bound : holders s.queSessionID s.sessions (s.attempts.map s.attemptID) id ≤ _ := held id
      refine le_trans ?_ bound
      exact Nat.add_le_add_left fewer _
    · exact fun d trying => attempts d (List.mem_of_mem_erase trying)
  own := regular.own
  nonzero := regular.nonzero

theorem Regular.entered (regular : s.Regular) {rest : List SessionID} {session : Session}
    (front : s.queSessionID = session.sessionID :: rest)
    (sockType : session.sockType = .accepted ∨ session.sockType = .udp) : (s.entered rest session).Regular := by
  have kept : Keeps { s with pc := .idle } { s.entered rest session with pc := .idle } :=
    regular.sound.open front rfl sockType rfl rfl rfl rfl rfl (by simp)
  refine ⟨kept.1, ?_, ?_⟩
  · intro id c session₁ stored found
    rcases update_eq_some stored with ⟨_, connector⟩ | before
    · cases connector
    · rw [entered_connector] at found
      exact regular.own id c session₁ before found
  · intro key zero
    simp only [NetService.entered] at zero
    split at zero
    · rcases update_eq_some zero with ⟨_, own⟩ | before
      · exact head_ne_zero regular.positive front (Option.some.inj own)
      · exact regular.nonzero key before
    · exact regular.nonzero key zero

theorem Regular.removed (regular : s.Regular) {n : Nat} {session : Session}
    (found : s.objects (.heap n) = some session) : (s.removed (.heap n) session).Regular := by
  have kept : Keeps { s with pc := .idle } { s.removed (.heap n) session with pc := .idle } :=
    regular.sound.remove found rfl rfl rfl rfl rfl (by simp)
  refine ⟨kept.1, ?_, ?_⟩
  · intro id c session₁ stored₁ found₁
    rw [removed_connector] at found₁
    exact regular.own id c session₁ (update_none_eq_some stored₁).1 found₁
  · intro key zero
    simp only [NetService.removed] at zero
    split at zero
    · exact regular.nonzero key (update_none_eq_some zero).1
    · exact regular.nonzero key zero

theorem Regular.move (regular : s.Regular) (moved : Move linked s s') : s'.Regular := by
  have sound := regular.sound
  cases moved with
  | stay same _ => exact regular.same same
  | construct c session resting unstored _ connect same _ =>
    have kept : Keeps { s with pc := .idle } { s.setObject (.connector c) session with pc := .idle } :=
      sound.setConnector resting rfl connect rfl rfl rfl rfl (by simp)
    refine Regular.same ⟨kept.1, ?_, regular.nonzero⟩ same
    intro id d session₁ stored found
    have differ : SessionPtr.connector d ≠ .connector c := fun same => unstored id (same ▸ stored)
    exact regular.own id d session₁ stored ((Function.update_of_ne differ _ _).symm.trans found)
  | turn id rest front same _ =>
    have kept : Keeps { s with pc := .idle } { s.turned id rest with pc := .idle } :=
      sound.rotate front rfl rfl rfl rfl rfl (by simp)
    exact Regular.same ⟨kept.1, regular.own, regular.nonzero⟩ same
  | attempt c rest session found front resting same _ =>
    have kept : Keeps { s with pc := .idle } { s.tried c rest with pc := .idle } :=
      sound.attempt front resting found rfl rfl rfl rfl rfl rfl (by simp)
    exact Regular.same ⟨kept.1, regular.own, regular.nonzero⟩ same
  | abandon c same _ => exact (regular.abandoned c).same same
  | join c session found trying same _ =>
    have kept : Keeps { s with pc := .idle } { s.joined c session with pc := .idle } :=
      sound.connect trying found rfl rfl rfl rfl rfl (by simp)
    refine Regular.same ⟨kept.1, ?_, regular.nonzero⟩ same
    intro id d session₁ stored found₁
    rcases update_eq_some stored with ⟨rfl, new⟩ | before
    · cases new
      cases Option.some.inj (found.symm.trans found₁)
      rfl
    · exact regular.own id d session₁ before found₁
  | enter rest session front _ sockType _ same _ => exact (regular.entered front sockType).same same
  | touch c session session' found own sockType _ same _ =>
    have kept : Keeps { s with pc := .idle } { s.setObject (.connector c) session' with pc := .idle } :=
      sound.setObject found rfl own sockType rfl rfl rfl rfl (by simp)
    refine Regular.same ⟨kept.1, ?_, regular.nonzero⟩ same
    exact fun id d session₁ stored after => regular.own_update found own stored after
  | detach c session found stored same _ =>
    have sound' : ({ s.detached c session with pc := .idle } : NetService).Sound := sound.detached found stored
    refine Regular.same ⟨sound', ?_, regular.nonzero⟩ same
    intro id d session₁ stored₁ after
    let shut : Session := { session with alive := false, sock := none }
    have same : shut.sessionID = session.sessionID := rfl
    exact regular.own_update found same (update_none_eq_some stored₁).1 after
  | remove n session found same _ => exact (regular.removed found).same same

/-- `GetUDPSessionID` gives zero for no session. -/
theorem Regular.unknown (regular : s.Regular) (address : SockAddr) :
    s.getUDPSessionID address = 0 ↔ s.mapUDPSessions (sessionKey address) = none := by
  have nonzero := regular.nonzero (sessionKey address)
  cases mapped : s.mapUDPSessions (sessionKey address) with
  | none => simp [getUDPSessionID, mapped]
  | some id =>
    have other : id ≠ 0 := by
      rintro rfl
      exact nonzero mapped
    simp [getUDPSessionID, mapped, other]

/-- Connectors are never deleted. -/
theorem Move.made (moved : Move linked s s') {c : Nat} (made : (s.objects (.connector c)).isSome) :
    (s'.objects (.connector c)).isSome := by
  have set : ∀ d (session : Session), (Function.update s.objects (.connector d) (some session) (.connector c)).isSome := by
    intro d session
    by_cases same : SessionPtr.connector c = .connector d
    · rw [same, Function.update_self]
      rfl
    · rwa [Function.update_of_ne same]
  cases moved with
  | stay same _ => exact same.objects ▸ made
  | construct d session _ _ _ _ same _ => exact same.objects ▸ set d session
  | turn _ _ _ same _ => exact same.objects ▸ made
  | attempt _ _ _ _ _ _ same _ => exact same.objects ▸ made
  | abandon _ same _ => exact same.objects ▸ made
  | join _ _ _ _ same _ => exact same.objects ▸ made
  | enter _ _ _ _ _ _ same _ => rwa [same.objects, entered_connector]
  | touch d _ session _ _ _ _ same _ => exact same.objects ▸ set d session
  | detach d session _ _ same _ => exact same.objects ▸ set d { session with alive := false, sock := none }
  | remove _ _ _ same _ => rwa [same.objects, removed_connector]

/-! ### IDs in circulation -/

/-- An ID that is free, or held by an attempt or by a session from `new`; that
    of a connector that was connected is never one of these again. -/
def Circulating (s : NetService) (id : SessionID) : Prop :=
  id ∈ s.queSessionID ∨ (∃ c ∈ s.attempts, s.attemptID c = id) ∨ ∃ n, s.sessions id = some (.heap n)

theorem Same.attemptID (same : s.Same s') (c : Nat) : s'.attemptID c = s.attemptID c :=
  attemptID_congr (by rw [same.objects])

theorem Same.circulating (same : s.Same s') {id : SessionID} (circulating : s'.Circulating id) : s.Circulating id := by
  rcases circulating with free | ⟨c, trying, own⟩ | ⟨n, stored⟩
  · exact .inl (same.queSessionID ▸ free)
  · exact .inr (.inl ⟨c, same.attempts ▸ trying, (same.attemptID c).symm.trans own⟩)
  · exact .inr (.inr ⟨n, by rw [← same.sessions, stored]⟩)

theorem Regular.circulating (regular : s.Regular) (moved : Move linked s s') {id : SessionID}
    (circulating : s'.Circulating id) : s.Circulating id := by
  cases moved with
  | stay same _ => exact same.circulating circulating
  | construct c session resting _ _ _ same _ =>
    rcases same.circulating circulating with free | ⟨d, trying, own⟩ | stored
    · exact .inl free
    · have differ : SessionPtr.connector d ≠ .connector c := by
        rintro ⟨⟩
        exact resting trying
      exact .inr (.inl ⟨d, trying, (attemptID_congr (Function.update_of_ne differ _ _)).symm.trans own⟩)
    · exact .inr (.inr stored)
  | turn j rest front same _ =>
    rcases same.circulating circulating with free | others
    · rw [turned, List.mem_append, List.mem_singleton] at free
      rw [Circulating, front, List.mem_cons]
      exact .inl free.symm
    · exact .inr others
  | attempt c rest session found front _ same _ =>
    rcases same.circulating circulating with free | ⟨d, trying, own⟩ | stored
    · exact .inl (front ▸ List.mem_cons_of_mem _ free)
    · rcases List.mem_append.mp trying with before | now
      · exact .inr (.inl ⟨d, before, own⟩)
      · rw [List.mem_singleton.mp now] at own
        have mine : s.attemptID c = session.sessionID := by simp [NetService.attemptID, found]
        rw [← own, show (s.tried c rest).attemptID c = s.attemptID c from rfl, mine]
        exact .inl (front ▸ List.mem_cons_self)
    · exact .inr (.inr stored)
  | abandon c same _ =>
    rcases same.circulating circulating with free | ⟨d, trying, own⟩ | stored
    · exact .inl free
    · exact .inr (.inl ⟨d, List.mem_of_mem_erase trying, own⟩)
    · exact .inr (.inr stored)
  | join c session _ _ same _ =>
    rcases same.circulating circulating with free | ⟨d, trying, own⟩ | ⟨n, stored⟩
    · exact .inl free
    · exact .inr (.inl ⟨d, List.mem_of_mem_erase trying, own⟩)
    · rcases update_eq_some stored with ⟨_, connector⟩ | before
      · cases connector
      · exact .inr (.inr ⟨n, before⟩)
  | enter rest session front _ _ _ same _ =>
    rcases same.circulating circulating with free | ⟨d, trying, own⟩ | ⟨n, stored⟩
    · exact .inl (front ▸ List.mem_cons_of_mem _ free)
    · exact .inr (.inl ⟨d, trying, (attemptID_congr (entered_connector d)).symm.trans own⟩)
    · rcases update_eq_some stored with ⟨rfl, _⟩ | before
      · exact .inl (front ▸ List.mem_cons_self)
      · exact .inr (.inr ⟨n, before⟩)
  | touch c session session' found own _ _ same _ =>
    rcases same.circulating circulating with free | ⟨d, trying, own'⟩ | stored
    · exact .inl free
    · refine .inr (.inl ⟨d, trying, ?_⟩)
      by_cases mine : d = c
      · subst mine
        simpa [NetService.attemptID, setObject, found, own] using own'
      · simpa [NetService.attemptID, setObject, mine] using own'
    · exact .inr (.inr stored)
  | detach c session found _ same _ =>
    rcases same.circulating circulating with free | ⟨d, trying, own⟩ | ⟨n, stored⟩
    · exact .inl free
    · refine .inr (.inl ⟨d, trying, ?_⟩)
      by_cases mine : d = c
      · subst mine
        simpa [NetService.attemptID, detached, found] using own
      · simpa [NetService.attemptID, detached, mine] using own
    · exact .inr (.inr ⟨n, (update_none_eq_some stored).1⟩)
  | remove n session found same _ =>
    rcases same.circulating circulating with free | ⟨d, trying, own⟩ | ⟨m, stored⟩
    · rcases List.mem_append.mp free with before | freed
      · exact .inl before
      · rw [List.mem_singleton.mp freed]
        exact .inr (.inr ⟨n, (regular.heap found).1⟩)
    · exact .inr (.inl ⟨d, trying, (attemptID_congr (removed_connector d)).symm.trans own⟩)
    · exact .inr (.inr ⟨m, (update_none_eq_some stored).1⟩)

/-- An ID has one holder, so one in the table is neither free nor an attempt's. -/
theorem Sound.stored_alone (sound : s.Sound) {id : SessionID} {p : SessionPtr} (stored : s.sessions id = some p) :
    id ∉ s.queSessionID ∧ ∀ c ∈ s.attempts, s.attemptID c ≠ id := by
  have bound := sound.held id
  simp only [NetService.held, holders, stored, Option.isSome_some, if_true] at bound
  constructor
  · intro free
    have counted : 0 < s.queSessionID.count id := List.count_pos_iff.mpr free
    split at bound <;> omega
  · rintro c trying rfl
    have counted : 0 < (s.attempts.map s.attemptID).count (s.attemptID c) :=
      List.count_pos_iff.mpr (List.mem_map.mpr ⟨c, trying, rfl⟩)
    split at bound <;> omega

/-- The ID of a connector that enters the table leaves the circulation. -/
theorem Regular.joined (regular : s.Regular) {c : Nat} {session : Session}
    (found : s.objects (.connector c) = some session) (trying : c ∈ s.attempts) :
    ¬ (s.joined c session).Circulating session.sessionID := by
  have kept : Keeps { s with pc := .idle } { s.joined c session with pc := .idle } :=
    regular.sound.connect trying found rfl rfl rfl rfl rfl (by simp)
  have stored : (s.joined c session).sessions session.sessionID = some (.connector c) := Function.update_self ..
  obtain ⟨free, alone⟩ := kept.1.stored_alone stored
  rintro (queued | ⟨d, trying', own⟩ | ⟨n, heap⟩)
  · exact free queued
  · exact alone d trying' own
  · cases stored.symm.trans heap

/-! ### Latest openings -/

/-- The descriptor that an ID was last opened on. -/
def latest (s : NetService) (id : SessionID) : Option Socket := identity.latest id s.trace

theorem Quietly.latest (quietly : s.Quietly s') (id : SessionID) : s'.latest id = s.latest id := by
  obtain ⟨more, trace, silent⟩ := quietly
  rw [NetService.latest, trace]
  exact Latest.latest_append fun event member => silent event member id

/-- Only IDs that were free or an attempt's are opened. -/
theorem Move.latest (moved : Move linked s s') {id : SessionID} (free : id ∉ s.queSessionID)
    (alone : ∀ c ∈ s.attempts, s.attemptID c ≠ id) : s'.latest id = s.latest id := by
  cases moved with
  | stay _ quietly => exact quietly.latest id
  | construct _ _ _ _ _ _ _ quietly => exact quietly.latest id
  | turn _ _ _ _ quietly => exact quietly.latest id
  | attempt _ _ _ _ _ _ _ quietly => exact quietly.latest id
  | abandon _ _ quietly => exact quietly.latest id
  | join c session found trying _ trace =>
    have differ : session.sessionID ≠ id := by
      have mine : s.attemptID c = session.sessionID := by simp [NetService.attemptID, found]
      exact mine ▸ alone c trying
    rw [NetService.latest, trace, Latest.latest_snoc]
    simp [identity, Event.opensOn, differ, NetService.latest]
  | enter rest session front _ _ _ _ trace =>
    obtain ⟨t, quietly, trace⟩ := trace
    have differ : session.sessionID ≠ id := by
      rintro rfl
      exact free (front ▸ List.mem_cons_self)
    rw [NetService.latest, trace, Latest.latest_snoc, ← quietly.latest id]
    simp [identity, Event.opensOn, differ, NetService.latest]
  | touch _ _ _ _ _ _ _ _ quietly => exact quietly.latest id
  | detach _ _ _ _ _ quietly => exact quietly.latest id
  | remove _ _ _ _ quietly => exact quietly.latest id

end NetService

end LiteServer.Net
