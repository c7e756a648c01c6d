import LiteServer.Lib.Lifetime
import LiteServer.Net.SessionIDs

/-!
The sessions that the service is still going to use: the targets of read
registrations and of pending read events, the peers of the UDP map, and the
session of a callback that will be followed by more. All of them are in the
table and were neither kicked nor dropped, but for connectors, whose sessions
outlive a kick with their descriptor closed.
-/
namespace LiteServer.Net

/-! ### Lifetimes -/

namespace Event

def opens (id : SessionID) : Event → Bool
  | .onAddConnection j _ _ => j == id
  | .onConnected j _ => j == id
  | _ => false

def closes (id : SessionID) : Event → Bool
  | .kick j => j == id
  | .onConnectionDrop j _ => j == id
  | .onConnectFail j _ => j == id
  | _ => false

def delivers (id : SessionID) : Event → Bool
  | .onData j _ _ _ => j == id
  | _ => false

end Event

def lifetime : Lifetime.Marks SessionID Event := ⟨Event.opens, Event.closes, Event.delivers⟩

@[simp] theorem lifetime_opens : lifetime.opens = Event.opens := rfl
@[simp] theorem lifetime_closes : lifetime.closes = Event.closes := rfl
@[simp] theorem lifetime_uses : lifetime.uses = Event.delivers := rfl

/-- The callbacks after which their operation uses the session again. -/
def Pc.returns : Pc → Bool
  | .connectCallBack _ => true
  | .openCallBack _ _ _ _ => true
  | .dropCallBack _ => true
  | _ => false

namespace NetService
variable {s s' : NetService}

/-- The session in the table under an ID, unless it was kicked or dropped. -/
def alive (s : NetService) (id : SessionID) : Option (SessionPtr × Session) :=
  if lifetime.closed id s.trace then none
  else (s.sessions id).bind fun p => (s.objects p).map fun session => (p, session)

theorem alive_eq_some {id : SessionID} {p : SessionPtr} {session : Session} : s.alive id = some (p, session) ↔
    lifetime.closed id s.trace = false ∧ s.sessions id = some p ∧ s.objects p = some session := by
  by_cases closed : lifetime.closed id s.trace = true
  · simp [alive, closed]
  · simp only [alive, closed, Bool.false_eq_true, if_false, Option.bind_eq_some_iff, Option.map_eq_some_iff,
      Prod.mk.injEq, true_and]
    constructor
    · rintro ⟨_, stored, _, found, rfl, rfl⟩
      exact ⟨stored, found⟩
    · rintro ⟨stored, found⟩
      exact ⟨p, stored, session, found, rfl, rfl⟩

/-- A session that a descriptor is registered to be read by. -/
def Registered (s : NetService) (sock : Socket) (p : SessionPtr) : Prop :=
  ∃ id session, s.alive id = some (p, session) ∧ session.socket = sock ∧ session.sock = some sock ∧
    session.sockType ≠ .udp

/-- A connector whose session was kicked. -/
def Shut (s : NetService) (c : Nat) : Prop := ∃ session, s.objects (.connector c) = some session ∧ session.sock = none

def Pending (s : NetService) (p : SessionPtr) : Prop :=
  (∃ id session, s.alive id = some (p, session) ∧ session.sockType ≠ .udp) ∨ ∃ c, p = .connector c ∧ s.Shut c

def Mapped (s : NetService) (key : BitVec 64) (id : SessionID) : Prop :=
  ∃ p session, s.alive id = some (p, session) ∧ session.sockType = .udp ∧ sessionKey session.address = key

def Connecting (s : NetService) (c : Nat) : Prop :=
  (∃ id session, s.alive id = some (.connector c, session) ∧ session.sock = some session.socket) ∧
    ∀ event ∈ s.events, event.context ≠ .read (.connector c)

structure Watched (s : NetService) : Prop where
  registered : ∀ sock p, s.epoll sock = some (.read p) → s.Registered sock p
  pending : ∀ event ∈ s.events, ∀ p, event.context = .read p → s.Pending p
  apart : s.events.Pairwise fun a b => ∀ p, a.context = .read p → b.context ≠ .read p
  mapped : ∀ key id, s.mapUDPSessions key = some id → s.Mapped key id
  opening : ∀ listener data id nread, s.pc = .openCallBack listener data id nread → (s.alive id).isSome
  connecting : ∀ c, s.pc = .connectCallBack c → s.Connecting c ∨ s.Shut c

/-- No ID under which a session is alive is among those given up. -/
def Spared (s : NetService) (given : SessionID → Prop) (p : SessionPtr) : Prop :=
  ∀ id session, s.alive id = some (p, session) → ¬ given id

/-- Sessions stay alive but for the IDs given up; what a step leads to refers
    to sessions that it referred to before and that are spared, or to new ones. -/
theorem Watched.move (watched : s.Watched) (given : SessionID → Prop)
    (survive : ∀ id p session, ¬ given id → s.alive id = some (p, session) →
      ∃ flag, s'.alive id = some (p, { session with alive := flag }))
    (shut : ∀ c, s.Shut c → s'.Shut c)
    (registered : ∀ sock p, s'.epoll sock = some (.read p) →
      (s.epoll sock = some (.read p) ∧ s.Spared given p) ∨ s'.Registered sock p)
    (pending : ∀ event ∈ s'.events, ∀ p, event.context = .read p →
      (event ∈ s.events ∧ s.Spared given p) ∨ s'.Pending p)
    (apart : s'.events.Pairwise fun a b => ∀ p, a.context = .read p → b.context ≠ .read p)
    (mapped : ∀ key id, s'.mapUDPSessions key = some id →
      (s.mapUDPSessions key = some id ∧ ¬ given id) ∨ s'.Mapped key id)
    (opening : ∀ listener data id nread, s'.pc = .openCallBack listener data id nread →
      (s.pc = .openCallBack listener data id nread ∧ ¬ given id) ∨ (s'.alive id).isSome)
    (connecting : ∀ c, s'.pc = .connectCallBack c →
      (s.pc = .connectCallBack c ∧ s'.events ⊆ s.events ∧ s.Spared given (.connector c)) ∨
        s'.Connecting c ∨ s'.Shut c) : s'.Watched where
  registered sock p after := by
    rcases registered sock p after with ⟨before, spared⟩ | new
    · obtain ⟨id, session, alive, facts⟩ := watched.registered sock p before
      obtain ⟨flag, alive'⟩ := survive id p session (spared id session alive) alive
      exact ⟨id, _, alive', facts⟩
    · exact new
  pending event member p context := by
    rcases pending event member p context with ⟨before, spared⟩ | new
    · rcases watched.pending event before p context with ⟨id, session, alive, tcp⟩ | ⟨c, rfl, before⟩
      · obtain ⟨flag, alive'⟩ := survive id p session (spared id session alive) alive
        exact .inl ⟨id, _, alive', tcp⟩
      · exact .inr ⟨c, rfl, shut c before⟩
    · exact new
  apart := apart
  mapped key id after := by
    rcases mapped key id after with ⟨before, spared⟩ | new
    · obtain ⟨p, session, alive, facts⟩ := watched.mapped key id before
      obtain ⟨flag, alive'⟩ := survive id p session spared alive
      exact ⟨p, _, alive', facts⟩
    · exact new
  opening listener data id nread after := by
    rcases opening listener data id nread after with ⟨before, spared⟩ | new
    · obtain ⟨⟨p, session⟩, alive⟩ := Option.isSome_iff_exists.mp (watched.opening listener data id nread before)
      obtain ⟨flag, alive'⟩ := survive id p session spared alive
      rw [alive']
      rfl
    · exact new
  connecting c after := by
    rcases connecting c after with ⟨before, events, spared⟩ | new
    · rcases watched.connecting c before with ⟨⟨id, session, alive, unclosed⟩, apart⟩ | before
      · obtain ⟨flag, alive'⟩ := survive id _ session (spared id session alive) alive
        exact .inl ⟨⟨id, _, alive', unclosed⟩, fun event member => apart event (events member)⟩
      · exact .inr (shut c before)
    · exact new

/-- The same sessions are alive and no more of them are referred to. -/
theorem Watched.frame (watched : s.Watched) (alive : s'.alive = s.alive) (shut : ∀ c, s.Shut c → s'.Shut c)
    (registered : ∀ sock p, s'.epoll sock = some (.read p) → s.epoll sock = some (.read p))
    (events : s'.events.Sublist s.events)
    (mapped : ∀ key id, s'.mapUDPSessions key = some id → s.mapUDPSessions key = some id)
    (pc : s'.pc = s.pc ∨ s'.pc.returns = false) : s'.Watched := by
  refine watched.move (fun _ => False) (fun id p session _ before => ⟨session.alive, by rw [alive]; exact before⟩)
    shut (fun sock p after => .inl ⟨registered sock p after, fun _ _ _ => id⟩)
    (fun event member p _ => .inl ⟨events.subset member, fun _ _ _ => id⟩) (watched.apart.sublist events)
    (fun key j after => .inl ⟨mapped key j after, id⟩) ?_ ?_
  · intro listener data j nread after
    rcases pc with same | calm
    · exact .inl ⟨same ▸ after, id⟩
    · rw [after] at calm
      cases calm
  · intro c after
    rcases pc with same | calm
    · exact .inl ⟨same ▸ after, events.subset, fun _ _ _ => id⟩
    · rw [after] at calm
      cases calm

/-- The session of one ID is given up, and nothing refers to it any more. -/
theorem Watched.kill (watched : s.Watched) {k : SessionID} {p : SessionPtr} (stored : s.sessions k = some p)
    (alive : ∀ id, id ≠ k → s'.alive id = s.alive id) (shut : ∀ c, s.Shut c → s'.Shut c)
    (registered : ∀ sock q, s'.epoll sock = some (.read q) → s.epoll sock = some (.read q) ∧ q ≠ p)
    (events : s'.events = s.events) (spared : ∀ event ∈ s.events, event.context = .read p → s'.Pending p)
    (mapped : ∀ key id, s'.mapUDPSessions key = some id → s.mapUDPSessions key = some id ∧ id ≠ k)
    (pc : s'.pc.returns = false ∨ (∃ q, s'.pc = .dropCallBack q) ∨ (s'.pc = s.pc ∧
      (∀ listener data nread, s.pc ≠ .openCallBack listener data k nread) ∧
      ∀ c, s.pc = .connectCallBack c → .connector c = p → s'.Shut c)) : s'.Watched := by
  have other : ∀ q, q ≠ p → s.Spared (· = k) q := by
    rintro q differ _ session before rfl
    obtain ⟨_, stored', _⟩ := alive_eq_some.mp before
    exact differ (Option.some.inj (stored'.symm.trans stored))
  refine watched.move (· = k) (fun id q session given before => ⟨session.alive, by rw [alive id given]; exact before⟩)
    shut ?_ ?_ (events ▸ watched.apart)
    (fun key id after => .inl (mapped key id after)) ?_ ?_
  · intro sock q after
    obtain ⟨before, differ⟩ := registered sock q after
    exact .inl ⟨before, other q differ⟩
  · intro event member q context
    rw [events] at member
    by_cases same : q = p
    · exact .inr (same ▸ spared event member (same ▸ context))
    · exact .inl ⟨member, other q same⟩
  · intro listener data id nread after
    rcases pc with calm | ⟨q, drops⟩ | ⟨same, opening, _⟩
    · rw [after] at calm
      cases calm
    · rw [after] at drops
      cases drops
    · refine .inl ⟨same ▸ after, ?_⟩
      rintro rfl
      exact opening _ _ _ (same ▸ after)
  · intro c after
    rcases pc with calm | ⟨q, drops⟩ | ⟨same, _, connecting⟩
    · rw [after] at calm
      cases calm
    · rw [after] at drops
      cases drops
    · have before : s.pc = .connectCallBack c := same ▸ after
      by_cases same : SessionPtr.connector c = p
      · exact .inr (.inr (connecting c before same))
      · exact .inl ⟨before, events ▸ List.Subset.refl _, other _ same⟩

end NetService

end LiteServer.Net
