import LiteServer.Net.UdpMap

/-!
Datagrams and their peers in runs without connectors: what `GetUDPSessionID`
says, and when a peer gets a session.
-/
namespace LiteServer.Net

namespace NetService
variable {s s' : NetService}

/-- No connector is ever made, so that every session is one of `PostAccept` or
    `PostReadFrom`. -/
def Unconnected (_ : NetService) : Action → Prop
  | .newConnector _ _ => False
  | _ => True

/-- The invariant of runs without connectors. -/
structure Serving (s : NetService) : Prop where
  kept : s.Kept
  dropping : s.Dropping
  unconnected : ∀ c, s.objects (.connector c) = none

/-- No move makes a connector if every connector counts as linked. -/
theorem unconnected_move (unconnected : ∀ c, s.objects (.connector c) = none) (moved : Move (fun _ => True) s s') (c : Nat) :
    s'.objects (.connector c) = none := by
  cases moved with
  | stay same _ => exact same.objects ▸ unconnected c
  | construct _ _ _ _ unlinked _ _ _ => exact absurd trivial unlinked
  | turn _ _ _ same _ => exact same.objects ▸ unconnected c
  | attempt _ _ _ _ _ _ same _ => exact same.objects ▸ unconnected c
  | abandon _ same _ => exact same.objects ▸ unconnected c
  | join _ _ _ _ same _ => exact same.objects ▸ unconnected c
  | enter _ _ _ _ _ _ same _ => rw [same.objects, entered_connector, unconnected c]
  | touch d _ _ found _ _ _ _ _ => cases (unconnected d).symm.trans found
  | detach d _ found _ _ _ => cases (unconnected d).symm.trans found
  | remove _ _ _ same _ => rw [same.objects, removed_connector, unconnected c]

theorem Serving.orderly (serving : s.Serving) {action : Action} (allows : s.Unconnected action) :
    s.Orderly (fun _ => True) action := by
  cases action <;> simp_all [Orderly, Unconnected, serving.unconnected]

theorem serving_of_unconnected (reached : Reachable Unconnected s) : s.Serving := by
  refine Transition.Reachable.invariant ?_ ?_ reached
  · rintro _ rfl
    exact ⟨initSession_kept, initSession_dropping, fun _ => rfl⟩
  · rintro s s' _ serving ⟨action, allows, taken⟩
    have moves := step_moves serving.kept.regular serving.dropping (serving.orderly allows) taken
    refine ⟨moves.invariant (fun _ _ => Kept.move) serving.kept, serving.dropping.step serving.kept.regular taken, ?_⟩
    exact moves.invariant (fun _ _ => unconnected_move) serving.unconnected

/-- A datagram opens a session for its peer that is not yet in use. -/
def Opens (s : NetService) (listener : Socket) (datagram : Datagram) : Prop :=
  ∃ s' id, s.step (.recvfrom (some datagram)) = some s' ∧ id ≠ 0 ∧ s'.getUDPSessionID datagram.address = id ∧
    s'.Peer id datagram.address ∧ s.sessions id = none ∧
    s'.trace = s.trace ++ [.onAddConnection id listener datagram.address]

/-- What the map says about peers; after a kick, the next datagram of a peer
    opens a new session if `NewSessionID` has an ID left. Without one
    `PostReadFrom` returns, and nothing else changes. -/
structure KnowsPeers (s : NetService) : Prop where
  inStep : s.InStep
  known : ∀ address, s.getUDPSessionID address ≠ 0 ↔ ∃ id, s.Peer id address
  apart : ∀ a b, s.getUDPSessionID a ≠ 0 → s.getUDPSessionID a = s.getUDPSessionID b → a = b
  stored : ∀ id p, s.sessions id = some p → ∃ session, s.objects p = some session ∧ session.sessionID = id ∧
    s.sessions session.sessionID = some p
  kicked : ∀ id address s', s.Peer id address → s.step (.kickSession id) = some s' → s'.getUDPSessionID address = 0
  seen : ∀ listener data datagram, s.pc = .receiving listener data → s.getUDPSessionID datagram.address = 0 →
    datagram.bytes ≠ [] → s.queSessionID ≠ [] → s.Opens listener datagram
  unserved : ∀ listener data datagram, s.pc = .receiving listener data → s.getUDPSessionID datagram.address = 0 →
    datagram.bytes ≠ [] → s.queSessionID = [] → s.step (.recvfrom (some datagram)) = some { s with pc := .idle }

theorem Kept.known (kept : s.Kept) (address : SockAddr) :
    s.getUDPSessionID address ≠ 0 ↔ ∃ id, s.Peer id address := by
  rw [ne_eq, kept.regular.unknown, ← ne_eq, Option.ne_none_iff_exists']
  simp only [kept.mapped.at]

theorem Kept.apart (kept : s.Kept) {a b : SockAddr} (known : s.getUDPSessionID a ≠ 0)
    (same : s.getUDPSessionID a = s.getUDPSessionID b) : a = b := by
  obtain ⟨p, session, stored, found, _, _, rfl⟩ := (kept.get known a).mp rfl
  obtain ⟨q, session', stored', found', _, _, rfl⟩ := (kept.get known b).mp same.symm
  cases stored.symm.trans stored'
  cases found.symm.trans found'
  rfl

theorem Kept.kicked (kept : s.Kept) {id : SessionID} {address : SockAddr} (peer : s.Peer id address)
    (taken : s.step (.kickSession id) = some s') : s'.getUDPSessionID address = 0 := by
  cases step_took taken with
  | kickSession user issued result =>
    obtain ⟨n, session, stored, found, _, udp, rfl⟩ := kept.regular.peer.mp peer
    obtain ⟨own, kind⟩ := kept.regular.heap found
    obtain ⟨session', found', rfl⟩ := kept.regular.stored stored
    cases found.symm.trans found'
    rw [kickSession_heap found stored kind] at result
    cases Option.some.inj result
    simp [getUDPSessionID, NetService.removed, udp]

theorem receiveRound_opened {listener : Socket} {data : List Byte} {d : Datagram} {id : SessionID}
    {rest : List SessionID} (nonzero : id ≠ 0) (queue : s.queSessionID = id :: rest)
    (unknown : s.getUDPSessionID d.address = 0) (bytes : d.bytes ≠ []) :
    s.receiveRound listener data (some d) = some
      { ((s.setUDPSessionID d.address id).opened id rest
          ⟨true, listener, .udp, d.address, some listener, id⟩).emit (.onAddConnection id listener d.address) with
        pc := .openCallBack listener (receive data d.bytes) id d.bytes.length } := by
  simp [receiveRound, bytes, unknown, newSessionID, queue, nonzero, setUDPSessionID, setObject, addSession, access,
    setSession, emit, opened]

theorem Kept.seen (kept : s.Kept) {listener : Socket} {data : List Byte} {d : Datagram}
    (pc : s.pc = .receiving listener data) (unknown : s.getUDPSessionID d.address = 0) (bytes : d.bytes ≠ [])
    (left : s.queSessionID ≠ []) : s.Opens listener d := by
  obtain ⟨id, rest, queue⟩ := List.exists_cons_of_ne_nil left
  have nonzero := head_ne_zero kept.regular.positive queue
  have received := @receiveRound_opened s listener data d _ _ nonzero queue unknown bytes
  have round : s.step (.recvfrom (some d)) = s.receiveRound listener data (some d) := by
    simp only [NetService.step, pc]
  have moved : Move (fun _ => True) s _ := receiveRound_move kept.regular received
  have kept' := kept.move moved
  have mapped : (s.setUDPSessionID d.address id).getUDPSessionID d.address = id := by
    simp [getUDPSessionID, setUDPSessionID, nonzero]
  have free : s.sessions id = none := (kept.regular.sound.free queue).1
  exact ⟨_, id, round.trans received, nonzero, mapped, (kept'.get nonzero d.address).mp mapped, free, rfl⟩

theorem step_unserved {listener : Socket} {data : List Byte} {d : Datagram} (pc : s.pc = .receiving listener data)
    (unknown : s.getUDPSessionID d.address = 0) (bytes : d.bytes ≠ []) (used : s.queSessionID = []) :
    s.step (.recvfrom (some d)) = some { s with pc := .idle } := by
  have round : s.step (.recvfrom (some d)) = s.receiveRound listener data (some d) := by
    simp only [NetService.step, pc]
  have noID : s.newSessionID = (0, s) := by rw [newSessionID, used]
  rw [round]
  simp [receiveRound, bytes, unknown, noID]

theorem Kept.knowsPeers (kept : s.Kept) : s.KnowsPeers where
  inStep := kept.mapped
  known := kept.known
  apart _ _ := kept.apart
  stored id p stored := by
    obtain ⟨session, found, rfl⟩ := kept.regular.stored stored
    exact ⟨session, found, rfl, stored⟩
  kicked _ _ _ := kept.kicked
  seen _ _ _ := kept.seen
  unserved _ _ _ := step_unserved

/-- In every run of accepts, datagrams, reads, drops and kicks the map and the
    table agree, also while callbacks run. -/
theorem udp_map_in_step (s : NetService) (reached : Reachable Unconnected s) : s.KnowsPeers :=
  (serving_of_unconnected reached).kept.knowsPeers

def peer : SockAddr := ⟨4000, 1⟩

theorem one_peer_known : ∃ s, Reachable Unconnected s ∧ s.getUDPSessionID peer = 1 ∧ s.KnowsPeers := by
  have listening := (Reachable.init : Reachable Unconnected _).act (.postReadFrom 5) trivial rfl
  have received := listening.act (.recvfrom (some ⟨[1], peer⟩)) trivial rfl
  exact ⟨_, received, rfl, udp_map_in_step _ received⟩

/-! ### Without an ID left -/

/-- Connections on descriptors from some number on take all the IDs there are. -/
theorem Reachable.drained (queue : List SessionID) (fd : Socket) (reached : Reachable Unconnected s)
    (pc : s.pc = .accepting 3) (ids : s.queSessionID = queue) (unused : ∀ sock, fd ≤ sock → s.epoll sock = none) :
    ∃ s', Reachable Unconnected s' ∧ s'.pc = .accepting 3 ∧ s'.queSessionID = [] ∧
      s'.mapUDPSessions = s.mapUDPSessions ∧ s.trace ⊆ s'.trace := by
  induction queue generalizing s fd with
  | nil => exact ⟨s, reached, pc, ids, rfl, List.Subset.refl _⟩
  | cons id rest ih =>
    have nonzero := head_ne_zero (serving_of_unconnected reached).kept.regular.positive ids
    have opened := @acceptRound_opened s 3 ⟨fd, ⟨0, 0⟩, true⟩ _ _ nonzero ids ⟨rfl, unused fd (Nat.le_refl _)⟩
    have round : s.step (.accept (some ⟨fd, ⟨0, 0⟩, true⟩)) = s.acceptRound 3 (some ⟨fd, ⟨0, 0⟩, true⟩) := by
      simp only [step, pc]
    have accepted := reached.act (.accept (some ⟨fd, ⟨0, 0⟩, true⟩)) trivial (round.trans opened)
    have returned := accepted.act (.resume true) trivial rfl
    obtain ⟨s', reached', pc', ids', map, trace⟩ := ih (fd + 1) returned rfl rfl (by
      intro sock above
      exact (Function.update_of_ne (Nat.ne_of_gt above) _ _).trans (unused sock (Nat.le_of_succ_le above)))
    refine ⟨s', reached', pc', ids', map, ?_⟩
    intro event member
    exact trace (List.mem_append_left _ (List.mem_append_left _ member))

/-- A peer was served and kicked, and no descriptor is registered. -/
theorem kicked_peer_reachable : ∃ s, Reachable Unconnected s ∧ s.pc = .accepting 3 ∧ s.epoll = (fun _ => none) ∧
    s.mapUDPSessions (sessionKey peer) = none ∧ .onAddConnection 1 5 peer ∈ s.trace ∧ .kick 1 ∈ s.trace := by
  have listening := (Reachable.init : Reachable Unconnected _).act (.postReadFrom 5) trivial rfl
  have received := listening.act (.recvfrom (some ⟨[1], peer⟩)) trivial rfl
  have kicked := received.act (.kickSession 1) trivial rfl
  have delivered := (kicked.act (.resume true) trivial rfl).act (.resume true) trivial rfl
  have accepting := (delivered.act (.recvfrom none) trivial rfl).act (.postAccept 3) trivial rfl
  exact ⟨_, accepting, rfl, rfl, rfl, .head _, .tail _ (.head _)⟩

/-- A peer that was kicked and is seen again may find no ID left. -/
theorem kicked_peer_refused : ¬ ∀ s, Reachable Unconnected s → ∀ id listener data datagram,
    .onAddConnection id listener datagram.address ∈ s.trace → .kick id ∈ s.trace →
    s.pc = .receiving listener data → s.getUDPSessionID datagram.address = 0 → datagram.bytes ≠ [] →
    s.Opens listener datagram := by
  intro claim
  obtain ⟨s, reached, pc, registered, unmapped, served, kicked⟩ := kicked_peer_reachable
  obtain ⟨t, drained, pc', ids, map, trace⟩ := reached.drained s.queSessionID 0 pc rfl (by simp [registered])
  have finished : t.step (.accept none) = some { t with pc := .idle } := by simp only [step, pc', acceptRound]
  have again := (drained.act (.accept none) trivial finished).act (.postReadFrom 5) trivial rfl
  have unknown : t.getUDPSessionID peer = 0 := by simp [getUDPSessionID, map, unmapped]
  obtain ⟨s', id, taken, nonzero, known, _⟩ :=
    claim _ again 1 5 _ ⟨[1], peer⟩ (trace served) (trace kicked) rfl unknown (by simp)
  cases step_took taken with
  | recvfrom _ result =>
    rcases receiveRound_cases (by simp [ids]) result with rfl | ⟨mapped, _⟩ | ⟨_, rest, front, _⟩
    · exact nonzero (known.symm.trans unknown)
    · exact mapped unknown
    · cases ids.symm.trans front

end NetService

end LiteServer.Net
