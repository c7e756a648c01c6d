import LiteServer.Net.CallSessions
import LiteServer.Net.UdpMap
import Mathlib.Data.List.Dedup
import Mathlib.Data.List.Perm.Subperm

/-!
What a call of `PostReadFrom` does with the datagrams it gets: each is
delivered once, in order, under the ID of its peer, and a new peer is announced
before.
-/
namespace LiteServer.Net

/-- What `OnData` is called with: the ID, the descriptor, the bytes received
    and how many they are. -/
def Event.received : Event → Option (SessionID × Socket × List Byte × Int)
  | .onData id sock data size => some (id, sock, data.take size.toNat, size)
  | _ => none

/-- The connection of a peer is announced. -/
def Event.addsPeer (address : SockAddr) : Event → Bool
  | .onAddConnection _ _ peer => peer == address
  | _ => false

/-- A connection is announced or data delivered under an ID. -/
def Event.names (id : SessionID) : Event → Bool
  | .onAddConnection j _ _ => j == id
  | .onData j _ _ _ => j == id
  | _ => false

def Action.addsConnector : Action → Bool
  | .addTCPConnector _ _ _ => true
  | _ => false

/-- The session that is made for a peer. -/
def peerSession (listener : Socket) (address : SockAddr) (id : SessionID) : Session :=
  ⟨true, listener, .udp, address, some listener, id⟩

/-- `PostReadFrom` is in its loop. -/
def Pc.reads : Pc → Bool
  | .receiving _ _ => true
  | .openCallBack _ _ _ _ => true
  | .dataCallBack _ _ => true
  | _ => false

theorem Pc.drains_of_reads {pc : Pc} (reads : pc.reads = true) : pc.drains = true := by
  cases pc <;> trivial

/-- A datagram as the answer of `recvfrom`. -/
def Datagram.answer (d : Datagram) : Option (Accepted ⊕ Datagram) := some (.inr d)

namespace NetService
variable {start s s' : NetService} {action : Action} {steps : List (NetService × Action)} {listener : Socket}
  {done handled : List Datagram} {made : List Session} {told : List Event} {id : SessionID} {rest : List SessionID}
  {d : Datagram} {a b : SockAddr}

/-- The map and the table agree, and zero is no session. -/
structure Agrees (s : NetService) : Prop where
  inStep : s.InStep
  zero : s.sessions 0 = none

/-- The peers that have no session, each once. -/
def newPeers (s : NetService) (datagrams : List Datagram) : List SockAddr :=
  ((datagrams.map Datagram.address).filter fun address => s.getUDPSessionID address == 0).dedup

theorem newPeers_length_le (datagrams : List Datagram) : (s.newPeers datagrams).length ≤ datagrams.length := by
  rw [newPeers]
  refine (List.dedup_sublist _).length_le.trans ((List.length_filter_le _ _).trans ?_)
  rw [List.length_map]

theorem mem_newPeers {datagrams : List Datagram} :
    a ∈ s.newPeers datagrams ↔ a ∈ datagrams.map Datagram.address ∧ s.getUDPSessionID a = 0 := by
  rw [newPeers, List.mem_dedup, List.mem_filter, beq_iff_eq]

/-- Each datagram was delivered once and in order, those of a peer under its ID
    and of no other, and each new peer was announced once, before its data. -/
structure Delivers (s s' : NetService) (listener : Socket) (datagrams : List Datagram) (ids : SockAddr → SessionID) :
    Prop where
  data : (s.during s').filterMap Event.received =
    datagrams.map fun d => (ids d.address, listener, d.bytes, (d.bytes.length : Int))
  known : ∀ address id, s.mapUDPSessions (sessionKey address) = some id → ids address = id
  apart : ∀ d ∈ datagrams, ∀ e ∈ datagrams, ids d.address = ids e.address → d.address = e.address
  added : ∀ address, (s.during s').filter (Event.addsPeer address) =
    if address ∈ s.newPeers datagrams then [.onAddConnection (ids address) listener address] else []
  first : ∀ address ∈ s.newPeers datagrams, ((s.during s').filter (Event.names (ids address))).head? =
    some (.onAddConnection (ids address) listener address)

/-! ### Peers -/

/-- A call so far: the datagrams it got and those it delivered, the sessions
    that it made for new peers, and what it told. -/
structure Receives (start : NetService) (listener : Socket) (done handled : List Datagram) (made : List Session)
    (told : List Event) (s : NetService) : Prop where
  grown : start.Made made told s
  known : ∀ address id, start.mapUDPSessions (sessionKey address) = some id →
    s.mapUDPSessions (sessionKey address) = some id
  origin : ∀ address id, s.mapUDPSessions (sessionKey address) = some id →
    start.mapUDPSessions (sessionKey address) = some id ∨ peerSession listener address id ∈ made
  opened : ∀ session ∈ made, session = peerSession listener session.address session.sessionID ∧
    start.mapUDPSessions (sessionKey session.address) = none ∧
    s.mapUDPSessions (sessionKey session.address) = some session.sessionID ∧
    session.address ∈ done.map Datagram.address
  served : ∀ d ∈ done, ∃ id, s.mapUDPSessions (sessionKey d.address) = some id
  behind : ∀ d ∈ handled, d ∈ done
  added : told.filter Event.announces = made.map Session.announced
  data : told.filterMap Event.received =
    handled.map fun d => (s.getUDPSessionID d.address, listener, d.bytes, (d.bytes.length : Int))
  first : ∀ session ∈ made, (told.filter (Event.names session.sessionID)).head? = some session.announced

theorem getUDPSessionID_of (mapped : s.mapUDPSessions (sessionKey a) = some id) : s.getUDPSessionID a = id := by
  rw [getUDPSessionID, mapped]
  rfl

theorem Agrees.used (agrees : s.Agrees) (ready : s.Ready) (mapped : s.mapUDPSessions (sessionKey a) = some id) :
    id ∉ s.queSessionID ∧ id ≠ 0 := by
  obtain ⟨p, session, stored, _⟩ := (agrees.inStep.at id a).mp mapped
  constructor
  · intro member
    cases stored.symm.trans (ready.free id member)
  · rintro rfl
    cases stored.symm.trans agrees.zero

theorem Agrees.unknown (agrees : s.Agrees) (ready : s.Ready) :
    s.getUDPSessionID a = 0 ↔ s.mapUDPSessions (sessionKey a) = none := by
  constructor
  · intro zero
    cases mapped : s.mapUDPSessions (sessionKey a) with
    | none => rfl
    | some id => exact absurd ((getUDPSessionID_of mapped).symm.trans zero) (agrees.used ready mapped).2
  · intro unmapped
    rw [getUDPSessionID, unmapped]
    rfl

theorem Agrees.apart (agrees : s.Agrees) (first : s.mapUDPSessions (sessionKey a) = some id)
    (second : s.mapUDPSessions (sessionKey b) = some id) : a = b := by
  obtain ⟨p, session, stored, found, _, _, rfl⟩ := (agrees.inStep.at id a).mp first
  obtain ⟨q, session', stored', found', _, _, rfl⟩ := (agrees.inStep.at id b).mp second
  cases stored.symm.trans stored'
  cases found.symm.trans found'
  rfl

theorem Receives.nonzero (receives : start.Receives listener done handled made told s) (ready : start.Ready)
    (agrees : start.Agrees) (mapped : s.mapUDPSessions (sessionKey a) = some id) : id ≠ 0 := by
  rcases receives.origin a id mapped with before | now
  · exact (agrees.used ready before).2
  · rintro rfl
    exact ready.positive (receives.grown.taken now)

theorem Receives.unknown (receives : start.Receives listener done handled made told s) (ready : start.Ready)
    (agrees : start.Agrees) (zero : s.getUDPSessionID a = 0) : s.mapUDPSessions (sessionKey a) = none := by
  cases mapped : s.mapUDPSessions (sessionKey a) with
  | none => rfl
  | some id => exact absurd ((getUDPSessionID_of mapped).symm.trans zero) (receives.nonzero ready agrees mapped)

/-- A peer without a session had none before. -/
theorem Receives.unmapped (receives : start.Receives listener done handled made told s)
    (unmapped : s.mapUDPSessions (sessionKey a) = none) : start.mapUDPSessions (sessionKey a) = none := by
  cases before : start.mapUDPSessions (sessionKey a) with
  | none => rfl
  | some id => cases unmapped.symm.trans (receives.known a id before)

/-- No peer has a free ID. -/
theorem Receives.unused (receives : start.Receives listener done handled made told s) (ready : start.Ready)
    (agrees : start.Agrees) (free : id ∈ s.queSessionID) : s.mapUDPSessions (sessionKey a) ≠ some id := by
  intro mapped
  rcases receives.origin a id mapped with before | now
  · exact (agrees.used ready before).1 (receives.grown.free free)
  · exact (receives.grown.distinct ready).2.2 id free (List.mem_map_of_mem now)

theorem Receives.apart (receives : start.Receives listener done handled made told s) (ready : start.Ready)
    (agrees : start.Agrees) (first : s.mapUDPSessions (sessionKey a) = some id)
    (second : s.mapUDPSessions (sessionKey b) = some id) : a = b := by
  rcases receives.origin a id first with before | now <;> rcases receives.origin b id second with before' | now'
  · exact agrees.apart before before'
  · exact absurd (receives.grown.taken now') (agrees.used ready before).1
  · exact absurd (receives.grown.taken now) (agrees.used ready before').1
  · have same := List.inj_on_of_nodup_map (receives.grown.distinct ready).2.1 now now' rfl
    exact congrArg Session.address same

/-! ### Steps -/

theorem Ready.receives (ready : s.Ready) : s.Receives listener [] [] [] [] s where
  grown := ready.none_made
  known _ _ mapped := mapped
  origin _ _ mapped := .inl mapped
  opened := by simp
  served := by simp
  behind := by simp
  added := rfl
  data := rfl
  first := by simp

/-- The map stays, and nothing is told. -/
theorem Receives.same (receives : start.Receives listener done handled made told s) (grown : start.Made made told s')
    (map : s'.mapUDPSessions = s.mapUDPSessions) : start.Receives listener done handled made told s' where
  grown := grown
  known := by rw [map]; exact receives.known
  origin := by rw [map]; exact receives.origin
  opened := by rw [map]; exact receives.opened
  served := by rw [map]; exact receives.served
  behind := receives.behind
  added := receives.added
  data := by
    have ids : s'.getUDPSessionID = s.getUDPSessionID := by
      funext address
      rw [getUDPSessionID, getUDPSessionID, map]
    rw [ids]
    exact receives.data
  first := receives.first

/-- A datagram of a peer with a session came in. -/
theorem Receives.got (receives : start.Receives listener done handled made told s)
    (mapped : s.mapUDPSessions (sessionKey d.address) = some id) :
    start.Receives listener (done ++ [d]) handled made told s where
  grown := receives.grown
  known := receives.known
  origin := receives.origin
  opened session member := by
    obtain ⟨same, unmapped, mapped, address⟩ := receives.opened session member
    refine ⟨same, unmapped, mapped, ?_⟩
    rw [List.map_append]
    exact List.mem_append_left _ address
  served := List.forall_mem_append.mpr ⟨receives.served, List.forall_mem_singleton.mpr ⟨id, mapped⟩⟩
  behind e member := List.mem_append_left _ (receives.behind e member)
  added := receives.added
  data := receives.data
  first := receives.first

/-- Nothing was told under a free ID. -/
theorem Receives.unnamed (receives : start.Receives listener done handled made told s) (ready : start.Ready)
    (agrees : start.Agrees) (free : id ∈ s.queSessionID) : told.filter (Event.names id) = [] := by
  rw [List.filter_eq_nil_iff]
  intro event member names
  cases event with
  | onAddConnection j sock address =>
    obtain rfl : j = id := eq_of_beq names
    have announced : Event.onAddConnection j sock address ∈ told.filter Event.announces :=
      List.mem_filter.mpr ⟨member, rfl⟩
    rw [receives.added] at announced
    obtain ⟨session, inside, same⟩ := List.mem_map.mp announced
    cases same
    exact (receives.grown.distinct ready).2.2 _ free (List.mem_map_of_mem inside)
  | onData j sock data size =>
    obtain rfl : j = id := eq_of_beq names
    have received : (j, sock, data.take size.toNat, size) ∈ told.filterMap Event.received :=
      List.mem_filterMap.mpr ⟨_, member, rfl⟩
    rw [receives.data] at received
    obtain ⟨e, inside, same⟩ := List.mem_map.mp received
    obtain ⟨k, mapped⟩ := receives.served e (receives.behind e inside)
    have own : k = j := (getUDPSessionID_of mapped).symm.trans (congrArg Prod.fst same)
    exact receives.unused ready agrees free (own ▸ mapped)
  | _ => cases names

theorem head_append {α : Type} {xs : List α} {x : α} (ys : List α) (head : xs.head? = some x) :
    (xs ++ ys).head? = some x := by
  rw [List.head?_append, head]
  rfl

/-- A datagram of a new peer came in, which gets a session. -/
theorem Receives.opens (receives : start.Receives listener done handled made told s) (ready : start.Ready)
    (agrees : start.Agrees) (unmapped : s.mapUDPSessions (sessionKey d.address) = none)
    (front : s.queSessionID = id :: rest) (queue : s'.queSessionID = rest)
    (sessions : s'.sessions = Function.update s.sessions id (some (.heap s.allocated)))
    (objects : s'.objects =
      Function.update s.objects (.heap s.allocated) (some (peerSession listener d.address id)))
    (allocated : s'.allocated = s.allocated + 1) (attempts : s'.attempts = s.attempts)
    (map : s'.mapUDPSessions = Function.update s.mapUDPSessions (sessionKey d.address) (some id))
    (trace : s'.trace = s.trace ++ [.onAddConnection id listener d.address]) :
    start.Receives listener (done ++ [d]) handled (made ++ [peerSession listener d.address id])
      (told ++ [.onAddConnection id listener d.address]) s' := by
  have free : id ∈ s.queSessionID := by simp [front]
  have mine : s'.mapUDPSessions (sessionKey d.address) = some id := by rw [map, Function.update_self]
  have others : ∀ a, a ≠ d.address → s'.mapUDPSessions (sessionKey a) = s.mapUDPSessions (sessionKey a) := by
    intro a differ
    rw [map, Function.update_of_ne fun same => differ (sessionKey_injective same)]
  have still : ∀ a j, s.mapUDPSessions (sessionKey a) = some j → s'.mapUDPSessions (sessionKey a) = some j := by
    intro a j mapped
    rw [others a, mapped]
    rintro rfl
    cases unmapped.symm.trans mapped
  refine ⟨receives.grown.opens ready _ front queue sessions objects allocated attempts trace, ?_, ?_, ?_, ?_, ?_, ?_, ?_, ?_⟩
  · exact fun a j mapped => still a j (receives.known a j mapped)
  · intro a j mapped
    by_cases same : a = d.address
    · subst same
      cases mine.symm.trans mapped
      exact .inr (List.mem_append_right _ (List.mem_singleton_self _))
    · rw [others a same] at mapped
      exact (receives.origin a j mapped).imp_right (List.mem_append_left _)
  · rw [List.map_append]
    refine List.forall_mem_append.mpr ⟨fun session member => ?_, List.forall_mem_singleton.mpr ?_⟩
    · obtain ⟨same, unknown, mapped, address⟩ := receives.opened session member
      exact ⟨same, unknown, still _ _ mapped, List.mem_append_left _ address⟩
    · exact ⟨rfl, receives.unmapped unmapped, mine, List.mem_append_right _ (List.mem_singleton_self _)⟩
  · refine List.forall_mem_append.mpr ⟨fun e member => ?_, List.forall_mem_singleton.mpr ⟨id, mine⟩⟩
    obtain ⟨j, mapped⟩ := receives.served e member
    exact ⟨j, still _ j mapped⟩
  · exact fun e member => List.mem_append_left _ (receives.behind e member)
  · rw [List.filter_append, receives.added, List.map_append]
    rfl
  · rw [List.filterMap_append, receives.data]
    have none : [Event.onAddConnection id listener d.address].filterMap Event.received = [] := rfl
    rw [none, List.append_nil]
    refine List.map_congr_left fun e member => ?_
    obtain ⟨j, mapped⟩ := receives.served e (receives.behind e member)
    rw [getUDPSessionID_of mapped, getUDPSessionID_of (still _ j mapped)]
  · refine List.forall_mem_append.mpr ⟨fun session member => ?_, List.forall_mem_singleton.mpr ?_⟩
    · rw [List.filter_append]
      exact head_append _ (receives.first session member)
    · have silent : told.filter (Event.names (peerSession listener d.address id).sessionID) = [] :=
        receives.unnamed ready agrees free
      rw [List.filter_append, silent]
      simp [Event.names, peerSession, Session.announced]

/-- A datagram is delivered. -/
theorem Receives.tells (receives : start.Receives listener done handled made told s) (member : d ∈ done)
    {data : List Byte} (bytes : data.take d.bytes.length = d.bytes) (leaves : s.Leaves s')
    (map : s'.mapUDPSessions = s.mapUDPSessions)
    (trace : s'.trace = s.trace ++ [.onData (s.getUDPSessionID d.address) listener data d.bytes.length]) :
    start.Receives listener done (handled ++ [d]) made
      (told ++ [.onData (s.getUDPSessionID d.address) listener data d.bytes.length]) s' := by
  have ids : s'.getUDPSessionID = s.getUDPSessionID := by
    funext address
    rw [getUDPSessionID, getUDPSessionID, map]
  refine ⟨?_, ?_, ?_, ?_, ?_, ?_, ?_, ?_, ?_⟩
  · exact receives.grown.stays (leaves.queSessionID ▸ .refl _) leaves.sessions leaves.objects leaves.allocated
      leaves.attempts trace
  · rw [map]
    exact receives.known
  · rw [map]
    exact receives.origin
  · rw [map]
    exact receives.opened
  · rw [map]
    exact receives.served
  · exact List.forall_mem_append.mpr ⟨receives.behind, List.forall_mem_singleton.mpr member⟩
  · rw [List.filter_append, receives.added]
    exact List.append_nil _
  · rw [List.filterMap_append, receives.data, ids, List.map_append]
    simp [Event.received, bytes]
  · intro session inside
    rw [List.filter_append]
    exact head_append _ (receives.first session inside)

/-! ### Calls -/

theorem prefix_of_map {α β : Type} {f : α → β} (injective : Function.Injective f) {b : β} (other : ∀ x, f x ≠ b)
    {xs ys : List α} (begins : xs.map f <+: ys.map f ++ [b]) : xs <+: ys := by
  rcases List.prefix_concat_iff.mp begins with whole | early
  · have member : b ∈ xs.map f := by simp [whole]
    obtain ⟨x, _, same⟩ := List.mem_map.mp member
    exact absurd same (other x)
  · obtain ⟨zs, begins, same⟩ := List.prefix_map_iff.mp early
    exact List.map_injective_iff.mpr injective same ▸ begins

theorem answer_injective : Function.Injective Datagram.answer := by
  rintro d e ⟨⟩
  rfl

theorem Receives.distinct (receives : start.Receives listener done handled made told s) (ready : start.Ready) :
    (made.map Session.address).Nodup := by
  have once := (receives.grown.distinct ready).2.1
  refine (once.of_map _).map_on fun x inX y inY same => ?_
  obtain ⟨_, _, mapped, _⟩ := receives.opened x inX
  obtain ⟨_, _, mapped', _⟩ := receives.opened y inY
  rw [same] at mapped
  exact List.inj_on_of_nodup_map once inX inY (Option.some.inj (mapped.symm.trans mapped'))

theorem Receives.new (receives : start.Receives listener done handled made told s) (ready : start.Ready)
    (agrees : start.Agrees) {datagrams : List Datagram} (subset : done ⊆ datagrams) :
    made.map Session.address ⊆ start.newPeers datagrams := by
  intro address member
  obtain ⟨session, inside, rfl⟩ := List.mem_map.mp member
  obtain ⟨_, unmapped, _, from_done⟩ := receives.opened session inside
  exact mem_newPeers.mpr ⟨List.map_subset _ subset from_done, (agrees.unknown ready).mpr unmapped⟩

/-- There is an ID for a new peer. -/
theorem Receives.room (receives : start.Receives listener done handled made told s) (ready : start.Ready)
    (agrees : start.Agrees) {datagrams : List Datagram} (subset : done ⊆ datagrams) (member : d ∈ datagrams)
    (unmapped : s.mapUDPSessions (sessionKey d.address) = none) {spent : Nat}
    (attempts : s.attempts.length ≤ start.attempts.length + spent)
    (enough : (start.newPeers datagrams).length + spent ≤ start.queSessionID.length) : s.queSessionID ≠ [] := by
  have unmade : d.address ∉ made.map Session.address := by
    intro inside
    obtain ⟨session, inside, same⟩ := List.mem_map.mp inside
    obtain ⟨_, _, mapped, _⟩ := receives.opened session inside
    rw [same] at mapped
    cases unmapped.symm.trans mapped
  have new : d.address ∈ start.newPeers datagrams :=
    mem_newPeers.mpr ⟨List.mem_map_of_mem member, (agrees.unknown ready).mpr (receives.unmapped unmapped)⟩
  have peers : (d.address :: made.map Session.address).length ≤ (start.newPeers datagrams).length := by
    refine (List.subperm_of_subset (List.nodup_cons.mpr ⟨unmade, receives.distinct ready⟩) ?_).length_le
    exact List.cons_subset.mpr ⟨new, receives.new ready agrees subset⟩
  obtain ⟨started, shared, grows⟩ := receives.grown.ids
  have lengths := shared.length_eq
  intro empty
  simp only [List.length_append, List.length_map, List.length_cons, empty, List.length_nil] at lengths peers
  omega

/-- Where the loop is: it delivered all it got, or is about to deliver the last
    datagram, whose peer is new. -/
def Placed (listener : Socket) (done handled : List Datagram) (s : NetService) : Prop :=
  (handled = done ∧ ((∃ data, s.pc = .receiving listener data) ∨ ∃ data, s.pc = .dataCallBack listener data)) ∨
  ∃ d data, done = handled ++ [d] ∧ data.take d.bytes.length = d.bytes ∧
    s.pc = .openCallBack listener data (s.getUDPSessionID d.address) d.bytes.length

/-- A call that has not returned. -/
structure Receiving (start : NetService) (listener : Socket) (steps : List (NetService × Action))
    (done handled : List Datagram) (made : List Session) (told : List Event) (s : NetService) : Prop where
  receives : start.Receives listener done handled made told s
  placed : Placed listener done handled s
  answered : answers steps = done.map Datagram.answer
  attempts : s.attempts.length ≤ start.attempts.length + steps.countP fun step => step.2.addsConnector

/-- What must hold of a call: its callbacks kick no session, the system has the
    datagrams in order, none of them empty, and there are IDs for new peers. -/
structure Supplied (start : NetService) (datagrams : List Datagram) (steps : List (NetService × Action)) : Prop where
  unkicked : ∀ step ∈ steps, ∀ id, step.2 ≠ .kickSession id
  filled : ∀ d ∈ datagrams, d.bytes ≠ [] ∧ d.bytes.length ≤ bufferSize
  served : answers steps <+: datagrams.map Datagram.answer ++ [none]
  enough : (start.newPeers datagrams).length + steps.countP (fun step => step.2.addsConnector) ≤ start.queSessionID.length

/-- A call that has returned after the last datagram. -/
def Received (start : NetService) (listener : Socket) (steps : List (NetService × Action)) (datagrams : List Datagram)
    (s : NetService) : Prop :=
  s.pc = .idle ∧ answers steps = datagrams.map Datagram.answer ++ [none] ∧
    ∃ made told, start.Receives listener datagrams datagrams made told s

theorem Supplied.earlier {datagrams : List Datagram} (supplied : start.Supplied datagrams (steps ++ [(s, action)])) :
    start.Supplied datagrams steps where
  unkicked step member := supplied.unkicked step (List.mem_append_left _ member)
  filled := supplied.filled
  served := by
    refine List.IsPrefix.trans ?_ supplied.served
    rw [answers_snoc]
    exact List.prefix_append _ _
  enough := by
    refine Nat.le_trans (Nat.add_le_add_left ?_ _) supplied.enough
    rw [List.countP_append]
    exact Nat.le_add_right _ _

theorem Placed.reads (placed : Placed listener done handled s) : s.pc.reads = true := by
  rcases placed with ⟨_, ⟨data, pc⟩ | ⟨data, pc⟩⟩ | ⟨d, data, _, _, pc⟩ <;> rw [pc] <;> rfl

theorem Placed.receiving (placed : Placed listener done handled s) {sock : Socket} {data : List Byte}
    (pc : s.pc = .receiving sock data) : handled = done ∧ sock = listener := by
  rcases placed with ⟨same, ⟨_, inside⟩ | ⟨_, inside⟩⟩ | ⟨_, _, _, _, inside⟩ <;> cases pc.symm.trans inside
  exact ⟨same, rfl⟩

theorem Placed.delivering (placed : Placed listener done handled s) {sock : Socket} {data : List Byte}
    (pc : s.pc = .dataCallBack sock data) : handled = done ∧ sock = listener := by
  rcases placed with ⟨same, ⟨_, inside⟩ | ⟨_, inside⟩⟩ | ⟨_, _, _, _, inside⟩ <;> cases pc.symm.trans inside
  exact ⟨same, rfl⟩

theorem Placed.opening (placed : Placed listener done handled s) {sock : Socket} {data : List Byte} {nread : Nat}
    (pc : s.pc = .openCallBack sock data id nread) : sock = listener ∧ ∃ d, done = handled ++ [d] ∧
      data.take d.bytes.length = d.bytes ∧ id = s.getUDPSessionID d.address ∧ nread = d.bytes.length := by
  rcases placed with ⟨_, ⟨_, inside⟩ | ⟨_, inside⟩⟩ | ⟨d, _, got, bytes, inside⟩ <;> cases pc.symm.trans inside
  exact ⟨rfl, d, got, bytes, rfl, rfl⟩

theorem user_attempts (positive : 0 ∉ s.queSessionID) (took : s.UserTook action s') :
    s'.attempts.length ≤ s.attempts.length + if action.addsConnector then 1 else 0 := by
  cases took with
  | newConnector free => exact Nat.le_add_right _ _
  | listens => rcases s.epollAdd_cases _ _ _ with same | same <;> rw [same] <;> exact Nat.le_add_right _ _
  | addTCPConnector result =>
    obtain ⟨session, found, _⟩ := Option.bind_eq_some_iff.mp result
    rcases addTCPConnector_cases positive found result with
      ⟨_, rfl⟩ | ⟨id, rest, front, ⟨_, rfl⟩ | ⟨_, _, rfl⟩ | ⟨_, _, rfl⟩⟩ <;> simp [setObject, rotated, Action.addsConnector]

theorem Receiving.beside (receiving : start.Receiving listener steps done handled made told s) (ready : start.Ready)
    (byUser : action.byUser = true) (took : s.UserTook action s') :
    start.Receiving listener (steps ++ [(s, action)]) done handled made told s' := by
  have positive := (receiving.receives.grown.ready ready).positive
  have beside := beside_of_user positive took
  have same := beside.mapUDPSessions
  refine ⟨receiving.receives.same (receiving.receives.grown.beside beside) same, ?_, ?_, ?_⟩
  · have placed := receiving.placed
    rw [Placed, beside.pc]
    simpa only [Placed, getUDPSessionID, same] using placed
  · rw [answers_snoc, Action.answer_byUser byUser, receiving.answered]
    exact List.append_nil _
  · have grows := user_attempts positive took
    have before := receiving.attempts
    rw [List.countP_append, List.countP_singleton]
    show _ ≤ _ + (_ + if action.addsConnector then 1 else 0)
    omega

/-- A step that is not of the user and sends no datagram up. -/
theorem Receiving.moves (receiving : start.Receiving listener steps done handled made told s)
    (own : action.addsConnector = false) {done' handled' : List Datagram} {made' : List Session} {told' : List Event}
    (receives : start.Receives listener done' handled' made' told' s') (placed : Placed listener done' handled' s')
    (answered : done'.map Datagram.answer = done.map Datagram.answer ++ action.answer.toList)
    (attempts : s'.attempts = s.attempts) :
    start.Receiving listener (steps ++ [(s, action)]) done' handled' made' told' s' := by
  refine ⟨receives, placed, ?_, ?_⟩
  · rw [answers_snoc, receiving.answered, answered]
  · have before := receiving.attempts
    rw [attempts, List.countP_append, List.countP_singleton, own]
    simpa using before

theorem receive_take (data bytes : List Byte) : (receive data bytes).take bytes.length = bytes :=
  List.take_left' rfl

/-- `recvfrom` returns a datagram. -/
theorem Receiving.datagram (receiving : start.Receiving listener steps done handled made told s) (ready : start.Ready)
    (agrees : start.Agrees) {datagrams : List Datagram} {data : List Byte} (pc : s.pc = .receiving listener data)
    (supplied : start.Supplied datagrams (steps ++ [(s, .recvfrom (some d))]))
    (result : s.receiveRound listener data (some d) = some s') : ∃ done handled made told,
      start.Receiving listener (steps ++ [(s, .recvfrom (some d))]) done handled made told s' := by
  obtain ⟨rfl, _⟩ := receiving.placed.receiving pc
  have receives := receiving.receives
  have positive := (receives.grown.ready ready).positive
  have begins : handled ++ [d] <+: datagrams := by
    refine prefix_of_map answer_injective (b := none) nofun ?_
    have served := supplied.served
    rw [answers_snoc, receiving.answered] at served
    rw [List.map_append]
    exact served
  have member : d ∈ datagrams := begins.subset (List.mem_append_right _ (List.mem_singleton_self d))
  have numbered : s.getUDPSessionID d.address = 0 → s.newSessionID.1 ≠ 0 := by
    intro unknown
    have unmapped := receives.unknown ready agrees unknown
    have some_free := receives.room ready agrees ((List.prefix_append _ _).trans begins).subset member unmapped
      receiving.attempts supplied.earlier.enough
    obtain ⟨id, rest, front, made⟩ := (newSessionID_cases s).resolve_left fun none => some_free none.1
    rw [made]
    exact head_ne_zero positive front
  have next : s'.pc.drains = true := by
    rcases receiveRound_next result with ⟨_, next⟩ | ⟨refuses, _⟩
    · exact next
    · exact absurd ⟨(supplied.filled d member).1, numbered⟩ refuses
  have answered : (handled ++ [d]).map Datagram.answer =
      handled.map Datagram.answer ++ (Action.recvfrom (some d)).answer.toList := List.map_append ..
  rcases receiveRound_cases positive result with rfl | ⟨known, rfl⟩ | ⟨id, rest, front, unknown, _, rfl⟩
  · cases next
  · obtain ⟨id, mapped⟩ : ∃ id, s.mapUDPSessions (sessionKey d.address) = some id := by
      refine Option.ne_none_iff_exists'.mp fun unmapped => known ?_
      rw [getUDPSessionID, unmapped]
      rfl
    let t : NetService := { s.emit (.onData (s.getUDPSessionID d.address) listener (receive data d.bytes) d.bytes.length)
      with pc := .dataCallBack listener (receive data d.bytes) }
    have delivered : start.Receives listener (handled ++ [d]) (handled ++ [d]) made _ t :=
      (receives.got mapped).tells (List.mem_append_right _ (List.mem_singleton_self d)) (receive_take data d.bytes)
        leaves_rest rfl rfl
    exact ⟨_, _, _, _, receiving.moves rfl delivered (.inl ⟨rfl, .inr ⟨_, rfl⟩⟩) answered rfl⟩
  · let t : NetService := { ((s.setUDPSessionID d.address id).opened id rest (peerSession listener d.address id)).emit
      (.onAddConnection id listener d.address) with
        pc := .openCallBack listener (receive data d.bytes) id d.bytes.length }
    have map : t.mapUDPSessions = Function.update s.mapUDPSessions (sessionKey d.address) (some id) := by
      simp [t, NetService.opened, setUDPSessionID, emit, head_ne_zero positive front]
    have opened : start.Receives listener (handled ++ [d]) handled _ _ t :=
      receives.opens ready agrees (receives.unknown ready agrees unknown) front rfl rfl rfl rfl rfl map rfl
    have own : t.getUDPSessionID d.address = id := getUDPSessionID_of (by rw [map, Function.update_self])
    have placed : Placed listener (handled ++ [d]) handled t :=
      .inr ⟨d, receive data d.bytes, rfl, receive_take data d.bytes, by rw [own]⟩
    exact ⟨_, _, _, _, receiving.moves rfl opened placed answered rfl⟩

/-- `OnAddConnection` returns, and the datagram is delivered. -/
theorem Receiving.announced (receiving : start.Receiving listener steps done handled made told s) {changed : Bool}
    {sock : Socket} {data : List Byte} {nread : Nat} (pc : s.pc = .openCallBack sock data id nread) :
    ∃ handled told, start.Receiving listener (steps ++ [(s, .resume changed)]) done handled made told
      { s.emit (.onData id sock data nread) with pc := .dataCallBack sock data } := by
  obtain ⟨rfl, d, rfl, bytes, rfl, rfl⟩ := receiving.placed.opening pc
  let t : NetService := { s.emit (.onData (s.getUDPSessionID d.address) sock data d.bytes.length) with
    pc := .dataCallBack sock data }
  have delivered : start.Receives sock (handled ++ [d]) (handled ++ [d]) made _ t :=
    receiving.receives.tells (List.mem_append_right _ (List.mem_singleton_self d)) bytes leaves_rest rfl rfl
  exact ⟨_, _, receiving.moves rfl delivered (.inl ⟨rfl, .inr ⟨_, rfl⟩⟩) (List.append_nil _).symm rfl⟩

/-- `OnData` returns. -/
theorem Receiving.delivered (receiving : start.Receiving listener steps done handled made told s) {changed : Bool}
    {sock : Socket} {data : List Byte} (pc : s.pc = .dataCallBack sock data) :
    start.Receiving listener (steps ++ [(s, .resume changed)]) done handled made told
      { s with pc := .receiving sock data } := by
  obtain ⟨rfl, rfl⟩ := receiving.placed.delivering pc
  have turned := receiving.receives.same (receiving.receives.grown.turned (.receiving sock data)) rfl
  exact receiving.moves rfl turned (.inl ⟨rfl, .inl ⟨data, rfl⟩⟩) (List.append_nil _).symm rfl

/-- `recvfrom` returns -1. -/
theorem Receiving.drained (receiving : start.Receiving listener steps done done made told s) {datagrams : List Datagram}
    (supplied : start.Supplied datagrams (steps ++ [(s, .recvfrom none)])) :
    start.Received listener (steps ++ [(s, .recvfrom none)]) datagrams { s with pc := .idle } := by
  have all : answers (steps ++ [(s, .recvfrom none)]) = done.map Datagram.answer ++ [none] := by
    rw [answers_snoc, receiving.answered]
    rfl
  have served := supplied.served
  rw [all] at served
  obtain rfl : done = datagrams := by
    rcases List.prefix_concat_iff.mp served with whole | early
    · exact List.map_injective_iff.mpr answer_injective (List.append_cancel_right whole)
    · have none := early.subset (List.mem_append_right _ (List.mem_singleton_self _))
      simp [Datagram.answer] at none
  exact ⟨rfl, all, made, told, receiving.receives.same (receiving.receives.grown.turned .idle) rfl⟩

theorem Receiving.recvfrom (receiving : start.Receiving listener steps done handled made told s) (ready : start.Ready)
    (agrees : start.Agrees) {datagrams : List Datagram} {sock : Socket} {data : List Byte} {answer : Option Datagram}
    (pc : s.pc = .receiving sock data) (supplied : start.Supplied datagrams (steps ++ [(s, .recvfrom answer)]))
    (result : s.receiveRound sock data answer = some s') :
    (∃ done handled made told, start.Receiving listener (steps ++ [(s, .recvfrom answer)]) done handled made told s') ∨
    start.Received listener (steps ++ [(s, .recvfrom answer)]) datagrams s' := by
  obtain ⟨rfl, rfl⟩ := receiving.placed.receiving pc
  cases answer with
  | none =>
    cases Option.some.inj result
    exact .inr (receiving.drained supplied)
  | some d => exact .inl (receiving.datagram ready agrees pc supplied result)

theorem Receiving.step (receiving : start.Receiving listener steps done handled made told s) (ready : start.Ready)
    (agrees : start.Agrees) {datagrams : List Datagram} (supplied : start.Supplied datagrams (steps ++ [(s, action)]))
    (taken : s.step action = some s') :
    (∃ done handled made told, start.Receiving listener (steps ++ [(s, action)]) done handled made told s') ∨
    start.Received listener (steps ++ [(s, action)]) datagrams s' := by
  have unkicked := supplied.unkicked _ (List.mem_append_right _ (List.mem_singleton_self _))
  have reads := receiving.placed.reads
  cases call_took (Pc.drains_of_reads reads) taken with
  | user user byUser taken => exact .inl ⟨_, _, _, _, receiving.beside ready byUser (user_took byUser unkicked taken)⟩
  | recvfrom pc result => exact receiving.recvfrom ready agrees pc supplied result
  | opened pc =>
    obtain ⟨handled, told, next⟩ := receiving.announced pc
    exact .inl ⟨_, _, _, _, next⟩
  | delivered pc => exact .inl ⟨_, _, _, _, receiving.delivered pc⟩
  | accept pc result => simp [pc, Pc.reads] at reads
  | accepted pc => simp [pc, Pc.reads] at reads

theorem Receiving.run (ready : start.Ready) (agrees : start.Agrees) {datagrams : List Datagram} {data : List Byte}
    (pc : start.pc = .receiving listener data) (running : start.Calls steps s) (supplied : start.Supplied datagrams steps) :
    (∃ done handled made told, start.Receiving listener steps done handled made told s) ∨
    start.Received listener steps datagrams s := by
  induction running with
  | nil => exact .inl ⟨[], [], [], [], ready.receives, .inl ⟨rfl, .inl ⟨data, pc⟩⟩, rfl, Nat.le_refl _⟩
  | snoc running taken ih =>
    obtain ⟨busy, taken⟩ := taken
    rcases ih supplied.earlier with ⟨done, handled, made, told, receiving⟩ | ⟨idle, _⟩
    · exact receiving.step ready agrees supplied taken
    · exact absurd idle busy

/-! ### The call returns -/

theorem Receives.known_peer (receives : s.Receives listener done handled made told s') (ready : s.Ready)
    (agrees : s.Agrees) (peer : a ∈ s.newPeers done) :
    ∃ id, s'.getUDPSessionID a = id ∧ peerSession listener a id ∈ made := by
  obtain ⟨address, zero⟩ := mem_newPeers.mp peer
  obtain ⟨d, member, rfl⟩ := List.mem_map.mp address
  have unmapped := (agrees.unknown ready).mp zero
  obtain ⟨id, mapped⟩ := receives.served d member
  refine ⟨id, getUDPSessionID_of mapped, (receives.origin _ id mapped).resolve_left fun before => ?_⟩
  cases unmapped.symm.trans before

theorem Receives.announces_peer (receives : s.Receives listener done handled made told s') (address : SockAddr) :
    (s.during s').filter (Event.addsPeer address) = (made.map Session.announced).filter (Event.addsPeer address) := by
  rw [receives.grown.filtered _ (fun event adds => by cases event <;> first | rfl | cases adds), ← receives.added,
    List.filter_filter]
  refine List.filter_congr fun event _ => ?_
  cases event <;> simp [Event.addsPeer, Event.announces]

theorem Receives.delivers (receives : s.Receives listener done done made told s') (ready : s.Ready) (agrees : s.Agrees) :
    s.Delivers s' listener done s'.getUDPSessionID where
  data := by
    rw [receives.grown.filterMapped _ (fun event silent => by cases event <;> first | rfl | cases silent)]
    exact receives.data
  known address id mapped := getUDPSessionID_of (receives.known address id mapped)
  apart d inD e inE same := by
    obtain ⟨id, mapped⟩ := receives.served d inD
    obtain ⟨id', mapped'⟩ := receives.served e inE
    rw [getUDPSessionID_of mapped, getUDPSessionID_of mapped'] at same
    exact receives.apart ready agrees mapped (same ▸ mapped')
  added address := by
    rw [receives.announces_peer]
    split
    · rename_i peer
      obtain ⟨id, own, member⟩ := receives.known_peer ready agrees peer
      rw [announced_once ((receives.grown.distinct ready).2.1.of_map _) member, own]
      · rfl
      · intro other inside
        constructor
        · intro adds
          exact List.inj_on_of_nodup_map (receives.distinct ready) inside member (eq_of_beq adds)
        · rintro rfl
          exact beq_self_eq_true _
    · rename_i known
      rw [List.filter_eq_nil_iff]
      intro event announced adds
      obtain ⟨session, member, rfl⟩ := List.mem_map.mp announced
      obtain rfl : session.address = address := eq_of_beq adds
      exact known (receives.new ready agrees (List.Subset.refl _) (List.mem_map_of_mem member))
  first address peer := by
    obtain ⟨id, own, member⟩ := receives.known_peer ready agrees peer
    rw [receives.grown.filtered _ (fun event names => by cases event <;> first | rfl | cases names), own]
    exact receives.first _ member

/-- A call of `PostReadFrom` goes on until `recvfrom` returns -1, in a number of
    steps that the datagrams bound, and has then delivered every one of them. -/
theorem datagrams_delivered (s t : NetService) (listener : Socket) (data : List Byte) (datagrams : List Datagram)
    (steps : List (NetService × Action)) (ready : s.Ready) (agrees : s.Agrees) (started : s.pc = .receiving listener data)
    (running : s.Calls steps t) (supplied : s.Supplied datagrams steps) :
    (t.pc = .idle → answers steps = datagrams.map Datagram.answer ++ [none] ∧
      s.Delivers t listener datagrams t.getUDPSessionID) ∧
    (t.pc ≠ .idle → (∀ answer, (t.step (.recvfrom answer)).isSome) ∨ ∀ changed, (t.step (.resume changed)).isSome) ∧
    ownSteps steps ≤ 3 * (datagrams.length + 1) := by
  have bound : ownSteps steps ≤ 3 * (datagrams.length + 1) := by
    have own := calls_own (by rw [started]; rfl) running
    have none : s.pc.callbacks = 0 := by rw [started]; rfl
    have answered := supplied.served.length_le
    rw [List.length_append, List.length_map, List.length_singleton] at answered
    omega
  rcases Receiving.run ready agrees started running supplied with
    ⟨done, handled, made, told, receiving⟩ | ⟨idle, all, made, told, receives⟩
  · have reads := receiving.placed.reads
    refine ⟨fun idle => ?_, fun _ => ?_, bound⟩
    · rw [idle] at reads
      cases reads
    · refine (call_goes_on (Pc.drains_of_reads reads)).resolve_left fun accept => ?_
      have accepted := accept none
      cases pc : t.pc <;> simp [NetService.step, pc, Pc.reads] at accepted reads
  · exact ⟨fun _ => ⟨all, receives.delivers ready agrees⟩, fun busy => absurd idle busy, bound⟩

/-- One peer has a session, and `PostReadFrom` begins. -/
def onePeer : NetService := { initSession with
  queSessionID := List.range' 2 (maxSockEvent - 1)
  mapUDPSessions := Function.update (fun _ => none) (sessionKey ⟨5, 6⟩) (some 1)
  sessions := Function.update (fun _ => none) 1 (some (.heap 0))
  objects := Function.update (fun _ => none) (.heap 0) (some ⟨true, 3, .udp, ⟨5, 6⟩, some 3, 1⟩)
  allocated := 1
  pc := .receiving 3 emptyBuffer }

theorem onePeer_ready : onePeer.Ready where
  once := List.nodup_range'
  free id member := by
    simp only [onePeer, List.mem_range'_1] at member
    exact Function.update_of_ne (Nat.ne_of_gt member.1) _ (fun _ => none)
  positive := by simp [onePeer, List.mem_range'_1]
  filed id n stored := by
    simp only [onePeer, Function.update_apply] at stored ⊢
    split at stored
    · cases stored
      exact Nat.one_pos
    · cases stored
  fresh n session found := by
    simp only [onePeer, Function.update_apply, SessionPtr.heap.injEq] at found ⊢
    split at found
    · omega
    · cases found

theorem onePeer_agrees : onePeer.Agrees where
  zero := rfl
  inStep key id := by
    simp only [onePeer, Peer, Function.update_apply]
    constructor
    · intro mapped
      split at mapped
      · rename_i same
        cases mapped
        exact ⟨⟨5, 6⟩, same.symm, .heap 0, _, rfl, rfl, rfl, rfl, rfl⟩
      · cases mapped
    · rintro ⟨address, rfl, p, session, stored, found, _, _, rfl⟩
      split at stored
      · cases stored
        cases found
        rw [if_pos rfl]
        simp [*]
      · cases stored

/-- Datagrams of a known peer and of two new ones, who get the IDs 2 and 3. -/
theorem first_datagram_delivered : ∃ (s : NetService) (steps : List (NetService × Action)) (t : NetService),
    s.Calls steps t ∧ t.pc = .idle ∧ s.Delivers t 3 [⟨[1, 2], ⟨5, 6⟩⟩, ⟨[3], ⟨7, 8⟩⟩, ⟨[4], ⟨9, 8⟩⟩, ⟨[5, 6, 7], ⟨7, 8⟩⟩]
      t.getUDPSessionID ∧
    t.getUDPSessionID ⟨5, 6⟩ = 1 ∧ t.getUDPSessionID ⟨7, 8⟩ = 2 ∧ t.getUDPSessionID ⟨9, 8⟩ = 3 := by
  have known := (Calls.start (s := onePeer)).act (.recvfrom (some ⟨[1, 2], ⟨5, 6⟩⟩)) (by simp [onePeer]) rfl
  have announced := (known.act (.resume true) (by simp) rfl).act (.recvfrom (some ⟨[3], ⟨7, 8⟩⟩)) (by simp) rfl
  have delivered := (announced.act (.resume true) (by simp) rfl).act (.resume true) (by simp) rfl
  have announced' := delivered.act (.recvfrom (some ⟨[4], ⟨9, 8⟩⟩)) (by simp) rfl
  have delivered' := (announced'.act (.resume true) (by simp) rfl).act (.resume true) (by simp) rfl
  have again := delivered'.act (.recvfrom (some ⟨[5, 6, 7], ⟨7, 8⟩⟩)) (by simp) rfl
  have drained := (again.act (.resume true) (by simp) rfl).act (.recvfrom none) (by simp) rfl
  refine ⟨onePeer, _, _, drained, rfl, ((datagrams_delivered onePeer _ 3 emptyBuffer _ _ onePeer_ready onePeer_agrees
    rfl drained ⟨?_, ?_, ?_, ?_⟩).1 rfl).2, rfl, rfl, rfl⟩
  · simp
  · simp [bufferSize]
  · exact List.prefix_refl _
  · have ids : 4 ≤ (List.range' 2 (maxSockEvent - 1)).length := by
      rw [List.length_range']
      decide
    refine le_trans ?_ ids
    simp only [List.countP_append, List.countP_cons, List.countP_nil, Action.addsConnector]
    exact newPeers_length_le (s := onePeer) _

end NetService

end LiteServer.Net
