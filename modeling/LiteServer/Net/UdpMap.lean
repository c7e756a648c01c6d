import LiteServer.Net.EpollMoves

/-!
The UDP map and the session table. The map has an ID under a key exactly while
the table has a live session of that peer under the ID, also in runs in which a
callback kicks the session that is being dropped.
-/
namespace LiteServer.Net

/-! ### Keys -/

theorem sessionKey_addr (a : SockAddr) {i : Nat} (inside : i < 32) : (sessionKey a).getLsbD i = a.addr.getLsbD i := by
  simp only [sessionKey, BitVec.getLsbD_or, BitVec.getLsbD_shiftLeft, BitVec.getLsbD_setWidth]
  simp [inside, show i < 64 by omega]

theorem sessionKey_port (a : SockAddr) {i : Nat} (inside : i < 16) :
    (sessionKey a).getLsbD (32 + i) = a.port.getLsbD i := by
  simp only [sessionKey, BitVec.getLsbD_or, BitVec.getLsbD_shiftLeft, BitVec.getLsbD_setWidth]
  simp [show 32 + i < 64 by omega, show i < 64 by omega]

theorem sessionKey_injective : Function.Injective sessionKey := by
  intro a b same
  have addr : a.addr = b.addr := by
    apply BitVec.eq_of_getLsbD_eq
    intro i inside
    rw [← sessionKey_addr a inside, same, sessionKey_addr b inside]
  have port : a.port = b.port := by
    apply BitVec.eq_of_getLsbD_eq
    intro i inside
    rw [← sessionKey_port a inside, same, sessionKey_port b inside]
  exact (SockAddr.mk.injEq ..).mpr ⟨port, addr⟩

namespace NetService
variable {s s' : NetService} {linked : Nat → Prop}

/-- A peer has a live session under an ID. -/
def Peer (s : NetService) (id : SessionID) (address : SockAddr) : Prop :=
  ∃ p session, s.sessions id = some p ∧ s.objects p = some session ∧ session.alive = true ∧ session.sockType = .udp ∧
    session.address = address

def InStep (s : NetService) : Prop :=
  ∀ key id, s.mapUDPSessions key = some id ↔ ∃ address, sessionKey address = key ∧ s.Peer id address

theorem InStep.at (inStep : s.InStep) (id : SessionID) (address : SockAddr) :
    s.mapUDPSessions (sessionKey address) = some id ↔ s.Peer id address := by
  rw [inStep]
  constructor
  · rintro ⟨other, same, peer⟩
    exact sessionKey_injective same ▸ peer
  · intro peer
    exact ⟨address, rfl, peer⟩

/-- It is enough to look at the keys of addresses. -/
theorem InStep.of_at (known : ∀ key id, s.mapUDPSessions key = some id → ∃ address, sessionKey address = key)
    (at_address : ∀ id address, s.mapUDPSessions (sessionKey address) = some id ↔ s.Peer id address) : s.InStep := by
  intro key id
  constructor
  · intro mapped
    obtain ⟨address, rfl⟩ := known key id mapped
    exact ⟨address, rfl, (at_address id address).mp mapped⟩
  · rintro ⟨address, rfl, peer⟩
    exact (at_address id address).mpr peer

theorem InStep.known (inStep : s.InStep) (key : BitVec 64) (id : SessionID) (mapped : s.mapUDPSessions key = some id) :
    ∃ address, sessionKey address = key := by
  obtain ⟨address, same, _⟩ := (inStep key id).mp mapped
  exact ⟨address, same⟩

/-- What the map says of peers is kept by every move. -/
structure Kept (s : NetService) : Prop where
  regular : s.Regular
  alive : ∀ n session, s.objects (.heap n) = some session → session.alive = true
  mapped : s.InStep

/-! ### Moves -/

theorem Regular.peer (regular : s.Regular) {id : SessionID} {address : SockAddr} :
    s.Peer id address ↔ ∃ n session, s.sessions id = some (.heap n) ∧ s.objects (.heap n) = some session ∧
      session.alive = true ∧ session.sockType = .udp ∧ session.address = address := by
  constructor
  · rintro ⟨p, session, stored, found, live, udp, at_address⟩
    cases p with
    | heap n => exact ⟨n, session, stored, found, live, udp, at_address⟩
    | connector c =>
      have connect := regular.connector found
      rw [udp] at connect
      cases connect
  · rintro ⟨n, session, peer⟩
    exact ⟨.heap n, session, peer⟩

/-- The sessions from `new` and their places in the table stay. -/
structure Unmoved (s s' : NetService) : Prop where
  sessions : ∀ id n, s'.sessions id = some (.heap n) ↔ s.sessions id = some (.heap n)
  objects : ∀ n, s'.objects (.heap n) = s.objects (.heap n)
  map : s'.mapUDPSessions = s.mapUDPSessions

theorem Same.unmoved (same : s.Same s') : s.Unmoved s' where
  sessions id n := by rw [same.sessions]
  objects n := by rw [same.objects]
  map := same.mapUDPSessions

theorem Unmoved.trans {s'' : NetService} (first : s.Unmoved s') (second : s'.Unmoved s'') : s.Unmoved s'' where
  sessions id n := (second.sessions id n).trans (first.sessions id n)
  objects n := (second.objects n).trans (first.objects n)
  map := second.map.trans first.map

theorem unmoved_connector (c : Nat) (session : Session) : s.Unmoved (s.setObject (.connector c) session) where
  sessions _ _ := Iff.rfl
  objects := setObject_heap
  map := rfl

theorem Regular.unmoved_joined (regular : s.Regular) {c : Nat} {session : Session}
    (found : s.objects (.connector c) = some session) (trying : c ∈ s.attempts) : s.Unmoved (s.joined c session) where
  sessions id n := by
    have mine : ({ s with pc := .idle } : NetService).attemptID c = session.sessionID := by simp [attemptID, found]
    have free : s.sessions session.sessionID = none := mine ▸ regular.sound.attempt_free trying
    simp only [NetService.joined]
    by_cases same : id = session.sessionID
    · simp [same, free]
    · rw [Function.update_of_ne same]
  objects _ := rfl
  map := rfl

theorem unmoved_detached {c : Nat} {session : Session} (stored : s.sessions session.sessionID = some (.connector c)) :
    s.Unmoved (s.detached c session) where
  sessions id n := by
    simp only [detached]
    by_cases same : id = session.sessionID
    · simp [same, stored]
    · rw [Function.update_of_ne same]
  objects := detached_heap
  map := rfl

theorem Kept.unmoved (kept : s.Kept) (regular : s'.Regular) (unmoved : s.Unmoved s') : s'.Kept where
  regular := regular
  alive n session found := kept.alive n session ((unmoved.objects n).symm.trans found)
  mapped := by
    intro key id
    rw [unmoved.map, kept.mapped key id]
    simp only [regular.peer, kept.regular.peer, unmoved.sessions, unmoved.objects]

/-- A new session is that of a peer if it is a UDP session. -/
theorem Regular.peer_entered (regular : s.Regular) {rest : List SessionID} {session : Session}
    (front : s.queSessionID = session.sessionID :: rest) (live : session.alive = true) (id : SessionID)
    (address : SockAddr) : (s.entered rest session).Peer id address ↔
      (id = session.sessionID ∧ session.sockType = .udp ∧ session.address = address) ∨ s.Peer id address := by
  have free : s.sessions session.sessionID = none := (regular.sound.free front).1
  constructor
  · rintro ⟨p, session₁, stored, found, facts⟩
    rcases update_eq_some stored with ⟨rfl, new⟩ | stored'
    · cases new
      cases entered_fresh.symm.trans found
      exact .inl ⟨rfl, facts.2⟩
    · rcases update_eq_some found with ⟨rfl, _⟩ | found'
      · obtain ⟨old, exists_, _⟩ := regular.stored stored'
        cases regular.fresh.symm.trans exists_
      · exact .inr ⟨p, session₁, stored', found', facts⟩
  · rintro (⟨rfl, udp, rfl⟩ | ⟨p, session₁, stored, found, facts⟩)
    · exact ⟨_, session, Function.update_self .., Function.update_self .., live, udp, rfl⟩
    · have apart : id ≠ session.sessionID := by
        rintro rfl
        cases free.symm.trans stored
      have differ : p ≠ .heap s.allocated := by
        rintro rfl
        cases regular.fresh.symm.trans found
      exact ⟨p, session₁, (Function.update_of_ne apart _ _).trans stored,
        (Function.update_of_ne differ _ _).trans found, facts⟩

theorem Kept.entered (kept : s.Kept) {rest : List SessionID} {session : Session}
    (front : s.queSessionID = session.sessionID :: rest) (live : session.alive = true)
    (sockType : session.sockType = .accepted ∨ session.sockType = .udp)
    (unknown : session.sockType = .udp → s.mapUDPSessions (sessionKey session.address) = none) :
    (s.entered rest session).Kept where
  regular := kept.regular.entered front sockType
  alive n session₁ found := by
    rcases update_eq_some found with ⟨_, new⟩ | before
    · cases new
      exact live
    · exact kept.alive n session₁ before
  mapped := by
    have peers := kept.regular.peer_entered front live
    by_cases udp : session.sockType = .udp
    · have none_yet : ∀ id, ¬ s.Peer id session.address := by
        intro id
        rw [← kept.mapped.at, unknown udp]
        nofun
      refine .of_at ?_ ?_
      · intro key id mapped
        simp only [NetService.entered, udp, if_true] at mapped
        rcases update_eq_some mapped with ⟨same, _⟩ | before
        · exact ⟨session.address, same.symm⟩
        · exact kept.mapped.known key id before
      · intro id address
        rw [peers id address]
        simp only [NetService.entered, udp, if_true]
        by_cases same : address = session.address
        · subst same
          simp [none_yet id, eq_comm]
        · rw [Function.update_of_ne fun clash => same (sessionKey_injective clash), kept.mapped.at]
          simp [Ne.symm same]
    · intro key id
      have map : (s.entered rest session).mapUDPSessions = s.mapUDPSessions := if_neg udp
      rw [map, kept.mapped key id]
      simp only [peers, udp, false_and, and_false, false_or]

/-- The sessions of the other peers stay when one is deleted. -/
theorem Regular.peer_removed (regular : s.Regular) {n : Nat} {session : Session}
    (found : s.objects (.heap n) = some session) (id : SessionID) (address : SockAddr) :
    (s.removed (.heap n) session).Peer id address ↔ id ≠ session.sessionID ∧ s.Peer id address := by
  constructor
  · rintro ⟨p, session₁, stored₁, found₁, facts⟩
    obtain ⟨stored₁, apart⟩ := update_none_eq_some stored₁
    exact ⟨apart, p, session₁, stored₁, (update_none_eq_some found₁).1, facts⟩
  · rintro ⟨apart, p, session₁, stored₁, found₁, facts⟩
    have differ : p ≠ .heap n := by
      rintro rfl
      obtain ⟨other, found₂, own⟩ := regular.stored stored₁
      cases found.symm.trans found₂
      exact apart own.symm
    exact ⟨p, session₁, (Function.update_of_ne apart _ _).trans stored₁,
      (Function.update_of_ne differ _ _).trans found₁, facts⟩

theorem Kept.removed (kept : s.Kept) {n : Nat} {session : Session} (found : s.objects (.heap n) = some session) :
    (s.removed (.heap n) session).Kept where
  regular := kept.regular.removed found
  alive m session₁ found₁ := kept.alive m session₁ (update_none_eq_some found₁).1
  mapped := by
    have peers := kept.regular.peer_removed found
    have stored := (kept.regular.heap found).1
    -- A peer under the ID of the session is the session's own.
    have only : ∀ address, s.Peer session.sessionID address → session.sockType = .udp ∧ session.address = address := by
      rintro address ⟨p, other, stored', found', _, facts⟩
      cases stored.symm.trans stored'
      cases found.symm.trans found'
      exact facts
    by_cases udp : session.sockType = .udp
    · have mapped : s.mapUDPSessions (sessionKey session.address) = some session.sessionID :=
        (kept.mapped.at _ _).mpr ⟨_, session, stored, found, kept.alive n session found, udp, rfl⟩
      refine .of_at ?_ ?_
      · intro key id after
        simp only [NetService.removed, udp, if_true] at after
        exact kept.mapped.known key id (update_none_eq_some after).1
      · intro id address
        rw [peers id address, ← kept.mapped.at]
        simp only [NetService.removed, udp, if_true]
        by_cases same : address = session.address
        · subst same
          simp [mapped, eq_comm]
        · rw [Function.update_of_ne fun clash => same (sessionKey_injective clash)]
          constructor
          · intro before
            refine ⟨?_, before⟩
            rintro rfl
            exact same (only address ((kept.mapped.at _ _).mp before)).2.symm
          · exact fun after => after.2
    · intro key id
      have map : (s.removed (.heap n) session).mapUDPSessions = s.mapUDPSessions := if_neg udp
      rw [map, kept.mapped key id]
      refine exists_congr fun address => and_congr_right fun _ => ?_
      rw [peers id address]
      constructor
      · intro before
        refine ⟨?_, before⟩
        rintro rfl
        exact udp (only address before).1
      · exact fun after => after.2

theorem Kept.same (kept : s.Kept) (same : s.Same s') : s'.Kept := kept.unmoved (kept.regular.same same) same.unmoved

theorem Kept.move (kept : s.Kept) (moved : Move linked s s') : s'.Kept := by
  have regular := kept.regular.move moved
  cases moved with
  | stay same _ => exact kept.same same
  | construct c session _ _ _ _ same _ => exact kept.unmoved regular ((unmoved_connector c session).trans same.unmoved)
  | turn id rest front same _ =>
    have turned : s.Unmoved (s.turned id rest) := ⟨fun _ _ => Iff.rfl, fun _ => rfl, rfl⟩
    exact kept.unmoved regular (turned.trans same.unmoved)
  | attempt c rest session found front _ same _ =>
    have tried : s.Unmoved (s.tried c rest) := ⟨fun _ _ => Iff.rfl, fun _ => rfl, rfl⟩
    exact kept.unmoved regular (tried.trans same.unmoved)
  | abandon c same _ =>
    have abandoned : s.Unmoved (s.abandoned c) := ⟨fun _ _ => Iff.rfl, fun _ => rfl, rfl⟩
    exact kept.unmoved regular (abandoned.trans same.unmoved)
  | join c session found trying same _ =>
    exact kept.unmoved regular ((kept.regular.unmoved_joined found trying).trans same.unmoved)
  | enter rest session front live sockType unknown same _ =>
    exact (kept.entered front live sockType unknown).same same
  | touch c session session' _ _ _ _ same _ =>
    exact kept.unmoved regular ((unmoved_connector c session').trans same.unmoved)
  | detach c session _ stored same _ => exact kept.unmoved regular ((unmoved_detached stored).trans same.unmoved)
  | remove n session found same _ => exact (kept.removed found).same same

theorem Kept.get (kept : s.Kept) {id : SessionID} (nonzero : id ≠ 0) (address : SockAddr) :
    s.getUDPSessionID address = id ↔ s.Peer id address := by
  rw [← kept.mapped.at]
  cases mapped : s.mapUDPSessions (sessionKey address) with
  | none => simp [getUDPSessionID, mapped, Ne.symm nonzero]
  | some other => simp [getUDPSessionID, mapped]

theorem initSession_kept : initSession.Kept where
  regular := initSession_regular
  alive := by simp [initSession]
  mapped key id := by simp [initSession, Peer]

end NetService

end LiteServer.Net
