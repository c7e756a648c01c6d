import LiteServer.Lib.Monitor
import LiteServer.Net.SessionIDs

/-!
The conversation about an ID: a session is announced while there is none, data
and the report of its end come in between, and the end is reported once. Of a
connector that the user kicked the failure may still be reported, before its ID
is announced again, and on one backend data that arrived before the kick.
-/
namespace LiteServer.Net

/-- The session an event is about. -/
def Event.session : Event → Option SessionID
  | .onAddConnection id _ _ => some id
  | .onConnectionDrop id _ => some id
  | .onConnected id _ => some id
  | .onConnectFail id _ => some id
  | .onData id _ _ _ => some id
  | .kick id => some id
  | .opened _ => none
  | .closed _ => none

/-- What the user knows of an ID: there is no session, or one that was accepted
    or connected, or it kicked a connector that was not reported as failed. -/
inductive Talk where
  | absent
  | added
  | connected
  | kicked
  deriving DecidableEq, Repr

def Talk.live : Talk → Bool
  | .added => true
  | .connected => true
  | _ => false

/-- `none` for an event that the user does not expect; `late` is whether it may
    be given data that was received before a kick. -/
def Talk.next (late : Bool) (talk : Talk) : Event → Option Talk
  | .onAddConnection _ _ _ => if talk = .absent then some .added else none
  | .onConnected _ _ => if talk = .absent then some .connected else none
  | .onData _ _ _ _ => if talk.live ∨ late ∧ talk = .kicked then some talk else none
  | .onConnectionDrop _ _ => if talk = .added then some .absent else none
  | .onConnectFail _ _ => if talk = .connected ∨ talk = .kicked then some .absent else none
  | .kick _ => some (match talk with
    | .added => .absent
    | .connected => .kicked
    | talk => talk)
  | .opened _ => some talk
  | .closed _ => some talk

def conversation (late : Bool) : Monitor.Protocol SessionID Talk Event := ⟨Event.session, .absent, Talk.next late⟩

def Session.talk (session : Session) : Talk := if session.sockType = .connect then .connected else .added

@[simp] theorem talk_live (session : Session) : session.talk.live = true := by
  unfold Session.talk
  split <;> rfl

theorem about_no_other {late : Bool} {events : List Event} {id : SessionID}
    (silent : ∀ event ∈ events, event.session = none) :
    ∀ event ∈ events, (conversation late).about event ≠ some id := by
  intro event member same
  have about : event.session = some id := same
  rw [silent event member] at about
  cases about

theorem silent_sockets (socks : List Socket) : ∀ event ∈ socks.map Event.closed, event.session = none := by
  intro event member
  obtain ⟨sock, _, rfl⟩ := List.mem_map.mp member
  rfl

theorem NetService.held_of_stored {s : NetService} {id : SessionID} {p : SessionPtr} (stored : s.sessions id = some p) :
    s.held id ≠ 0 := by
  simp [NetService.held, holders, stored]

end LiteServer.Net
