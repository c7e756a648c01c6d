import LiteServer.Net.Connects
import LiteServer.Net.Descriptors
import LiteServer.Net.SessionTable

/-!
What a failed `AddTCPConnector` leaves behind. It gives the ID back, but where
`connect` fails at once the descriptor stays registered, and its event makes
`PostConnect` install the session under the freed ID.
-/
namespace LiteServer.Net

/-- The connector that an event reports the connection of. -/
def PollEvent.connects (event : PollEvent) : Option Nat :=
  match event.context with
  | .connect c => some c
  | _ => none

namespace NetService
variable {s s' : NetService} {c d : Nat} {id : SessionID} {rest : List SessionID}

/-- The connectors of the events that are not yet handled. -/
def pendingConnects (s : NetService) : List Nat := s.events.filterMap PollEvent.connects

/-- An event can still make the loop call `PostConnect` for a connector. -/
def Awaited (s : NetService) (c : Nat) : Prop :=
  (∃ sock, s.epoll sock = some (.connect c) ∧ s.pc ≠ .connectCallBack c) ∨ c ∈ s.pendingConnects

/-- An ID that is neither free nor that of a session. -/
def Spare (s : NetService) (id : SessionID) : Prop := id ∉ s.queSessionID ∧ s.sessions id = none

/-- The IDs of awaited connectors are spare, each that of one connector. -/
structure Awaiting (s : NetService) : Prop where
  shaped : s.Shaped
  once : s.queSessionID.Nodup
  free : ∀ id ∈ s.queSessionID, s.sessions id = none
  registered : ∀ sock c, s.epoll sock = some (.connect c) →
    ∃ session, s.objects (.connector c) = some session ∧ session.socket = sock
  single : s.pendingConnects.Nodup
  made : ∀ c ∈ s.pendingConnects, (s.objects (.connector c)).isSome
  spare : ∀ c, s.Awaited c → s.Spare (s.attemptID c)
  apart : ∀ c d, s.Awaited c → s.Awaited d → s.attemptID c = s.attemptID d → c = d

/-! ### IDs -/

/-- The free IDs are distinct and not in use, and no spare ID is given out. -/
structure Circulates (s s' : NetService) : Prop where
  once : s'.queSessionID.Nodup
  free : ∀ id ∈ s'.queSessionID, s'.sessions id = none
  spare : ∀ id, s.Spare id → s'.Spare id

theorem Awaiting.circulates_same (awaiting : s.Awaiting) (queue : s'.queSessionID = s.queSessionID)
    (sessions : s'.sessions = s.sessions) : s.Circulates s' := by
  refine ⟨queue ▸ awaiting.once, ?_, fun id spare => ?_⟩
  · rw [queue, sessions]
    exact awaiting.free
  · rwa [Spare, queue, sessions]

theorem Awaiting.circulates_turned (awaiting : s.Awaiting) (front : s.queSessionID = id :: rest)
    (queue : s'.queSessionID = rest ++ [id]) (sessions : s'.sessions = s.sessions) : s.Circulates s' := by
  have same : s'.queSessionID.Perm s.queSessionID := by
    rw [queue, front]
    exact List.perm_append_singleton id rest
  refine ⟨same.nodup_iff.mpr awaiting.once, fun j member => ?_, fun j spare => ?_⟩
  · rw [sessions]
    exact awaiting.free j (same.subset member)
  · exact ⟨fun member => spare.1 (same.subset member), by rw [sessions]; exact spare.2⟩

theorem Awaiting.circulates_taken (awaiting : s.Awaiting) (front : s.queSessionID = id :: rest)
    (queue : s'.queSessionID = rest) (sessions : ∀ j, j ≠ id → s'.sessions j = s.sessions j) : s.Circulates s' := by
  have once := awaiting.once
  have free := awaiting.free
  rw [front] at once free
  obtain ⟨absent, once⟩ := List.nodup_cons.mp once
  refine ⟨queue ▸ once, fun j member => ?_, fun j spare => ?_⟩
  · rw [queue] at member
    have differ : j ≠ id := by
      rintro rfl
      exact absent member
    rw [sessions j differ]
    exact free j (List.mem_cons_of_mem _ member)
  · have differ : j ≠ id := by
      rintro rfl
      exact spare.1 (by simp [front])
    refine ⟨?_, by rw [sessions j differ]; exact spare.2⟩
    rw [queue]
    exact fun member => spare.1 (by simp [front, member])

theorem Awaiting.circulates_removed (awaiting : s.Awaiting) (used : (s.sessions id).isSome)
    (queue : s'.queSessionID = s.queSessionID ++ [id]) (sessions : s'.sessions = Function.update s.sessions id none) :
    s.Circulates s' := by
  have absent : id ∉ s.queSessionID := by
    intro member
    rw [awaiting.free id member] at used
    cases used
  refine ⟨?_, fun j member => ?_, fun j spare => ?_⟩
  · rw [queue]
    exact (List.perm_append_singleton id _).nodup_iff.mpr (List.nodup_cons.mpr ⟨absent, awaiting.once⟩)
  · rw [queue] at member
    rw [sessions, Function.update_apply]
    split
    · rfl
    · rename_i differ
      rcases List.mem_append.mp member with before | now
      · exact awaiting.free j before
      · exact absurd (List.mem_singleton.mp now) differ
  · have differ : j ≠ id := by
      rintro rfl
      rw [spare.2] at used
      cases used
    refine ⟨?_, by rw [sessions, Function.update_of_ne differ]; exact spare.2⟩
    rw [queue]
    simpa [differ] using spare.1

theorem Awaiting.circulates_cleared (awaiting : s.Awaiting) (queue : s'.queSessionID = s.queSessionID)
    (sessions : s'.sessions = Function.update s.sessions id none) : s.Circulates s' := by
  have cleared : ∀ j, s.sessions j = none → s'.sessions j = none := by
    intro j empty
    rw [sessions, Function.update_apply]
    split
    · rfl
    · exact empty
  exact ⟨queue ▸ awaiting.once, fun j member => cleared j (awaiting.free j (queue ▸ member)),
    fun j spare => ⟨by rw [queue]; exact spare.1, cleared j spare.2⟩⟩

/-! ### Steps -/

/-- Connectors keep their descriptors, and the awaited ones their IDs. -/
def Keeping (s s' : NetService) : Prop :=
  ∀ c session, s.objects (.connector c) = some session → ∃ session', s'.objects (.connector c) = some session' ∧
    session'.socket = session.socket ∧ (s.Awaited c → session'.sessionID = session.sessionID)

/-- No connector is awaited that was not before. -/
structure Calms (s s' : NetService) : Prop where
  epoll : ∀ sock c, s'.epoll sock = some (.connect c) → s.epoll sock = some (.connect c)
  single : s'.pendingConnects.Nodup
  awaited : ∀ c, s'.Awaited c → s.Awaited c

theorem Awaiting.calms (awaiting : s.Awaiting)
    (epoll : ∀ sock c, s'.epoll sock = some (.connect c) → s.epoll sock = some (.connect c))
    (pending : s'.pendingConnects.Sublist s.pendingConnects)
    (pc : ∀ c, s.pc = .connectCallBack c → s'.pc = .connectCallBack c ∨ ∀ sock, s'.epoll sock ≠ some (.connect c)) :
    s.Calms s' := by
  refine ⟨epoll, pending.nodup awaiting.single, ?_⟩
  rintro c (⟨sock, registered, outside⟩ | waits)
  · refine .inl ⟨sock, epoll sock c registered, fun inside => ?_⟩
    exact (pc c inside).elim outside fun none => none sock registered
  · exact .inr (pending.subset waits)

/-- The registrations are the same or fewer, and no callback of `PostConnect` returns. -/
theorem Awaiting.calm (awaiting : s.Awaiting)
    (epoll : ∀ sock c, s'.epoll sock = some (.connect c) → s.epoll sock = some (.connect c))
    (events : s'.events = s.events) (pc : s'.pc = s.pc ∨ ∀ c, s.pc ≠ .connectCallBack c) : s.Calms s' := by
  refine awaiting.calms epoll (by rw [pendingConnects, pendingConnects, events]) fun c inside => .inl ?_
  rcases pc with same | outside
  · exact same.trans inside
  · exact absurd inside (outside c)

theorem Awaiting.found (awaiting : s.Awaiting) (awaited : s.Awaited c) : (s.objects (.connector c)).isSome := by
  rcases awaited with ⟨sock, registered, _⟩ | pending
  · obtain ⟨session, found, _⟩ := awaiting.registered sock c registered
    rw [found]
    rfl
  · exact awaiting.made c pending

theorem Awaiting.keep (awaiting : s.Awaiting) (shaped : s'.Shaped) (circulates : s.Circulates s')
    (keeping : s.Keeping s') (calms : s.Calms s') : s'.Awaiting := by
  have own : ∀ c, s'.Awaited c → s'.attemptID c = s.attemptID c := by
    intro c awaited
    obtain ⟨session, found⟩ := Option.isSome_iff_exists.mp (awaiting.found (calms.awaited c awaited))
    obtain ⟨session', found', _, same⟩ := keeping c session found
    simp [attemptID, found, found', same (calms.awaited c awaited)]
  refine ⟨shaped, circulates.once, circulates.free, ?_, calms.single, ?_, ?_, ?_⟩
  · intro sock c registered
    obtain ⟨session, found, socket⟩ := awaiting.registered sock c (calms.epoll sock c registered)
    obtain ⟨session', found', same, _⟩ := keeping c session found
    exact ⟨session', found', same.trans socket⟩
  · intro c pending
    obtain ⟨session, found⟩ := Option.isSome_iff_exists.mp (awaiting.found (calms.awaited c (.inr pending)))
    obtain ⟨session', found', _⟩ := keeping c session found
    rw [found']
    rfl
  · intro c awaited
    rw [own c awaited]
    exact circulates.spare _ (awaiting.spare c (calms.awaited c awaited))
  · intro c d first second same
    rw [own c first, own d second] at same
    exact awaiting.apart c d (calms.awaited c first) (calms.awaited d second) same

theorem keeping_same (objects : ∀ c, s'.objects (.connector c) = s.objects (.connector c)) : s.Keeping s' :=
  fun c session found => ⟨session, (objects c).trans found, rfl, fun _ => rfl⟩

/-- A connector's session was written. -/
theorem keeping_written {session : Session} (session' : Session) (found : s.objects (.connector c) = some session)
    (objects : s'.objects = Function.update s.objects (.connector c) (some session'))
    (socket : session'.socket = session.socket) (own : s.Awaited c → session'.sessionID = session.sessionID) :
    s.Keeping s' := by
  intro d session₁ found₁
  rw [objects]
  by_cases same : d = c
  · subst same
    cases Option.some.inj (found.symm.trans found₁)
    exact ⟨session', Function.update_self .., socket, own⟩
  · exact ⟨session₁, (Function.update_of_ne (by simpa using same) _ _).trans found₁, rfl, fun _ => rfl⟩

/-- Sessions and IDs are left where they are. -/
theorem Awaiting.frame (awaiting : s.Awaiting) (leaves : s.Leaves s') (calms : s.Calms s') : s'.Awaiting :=
  awaiting.keep
    (awaiting.shaped.same (leaves.queSessionID ▸ awaiting.shaped.positive) leaves.sessions leaves.objects leaves.allocated)
    (awaiting.circulates_same leaves.queSessionID leaves.sessions) (keeping_same fun c => by rw [leaves.objects]) calms

theorem update_connect {epoll : Socket → Option Context} {sock x : Socket} {context : Option Context}
    (other : context ≠ some (.connect c)) (after : Function.update epoll sock context x = some (.connect c)) :
    epoll x = some (.connect c) ∧ x ≠ sock := by
  by_cases same : x = sock
  · subst same
    rw [Function.update_self] at after
    exact absurd after other
  · rw [Function.update_of_ne same] at after
    exact ⟨after, same⟩

theorem Awaiting.epollAdd (awaiting : s.Awaiting) (sock : Socket) {context : Context} (added : Bool)
    (other : ∀ c, context ≠ .connect c) : ((s.epollAdd sock context added).getD s).Awaiting := by
  rcases s.epollAdd_cases sock context added with same | same <;> rw [same]
  · exact awaiting
  · exact awaiting.frame leaves_rest
      (awaiting.calm (fun _ c after => (update_connect (by simpa using other c) after).1) rfl (.inl rfl))

/-! ### Sessions -/

theorem Awaiting.removed (awaiting : s.Awaiting) {n : Nat} {session : Session}
    (stored : s.sessions session.sessionID = some (.heap n)) : (s.removed (.heap n) session).Awaiting := by
  refine awaiting.keep (awaiting.shaped.removed (awaiting.shaped.filed _ n stored).1)
    (awaiting.circulates_removed (by rw [stored]; rfl) rfl rfl) (keeping_same fun c => removed_connector c) ?_
  exact awaiting.calm (fun _ _ after => (closed_epoll after).1) rfl (.inl rfl)

theorem Awaiting.closeSock (awaiting : s.Awaiting) (result : s.closeSock (.connector c) = some s') : s'.Awaiting := by
  obtain ⟨session, found, _⟩ := Option.bind_eq_some_iff.mp result
  have shaped := awaiting.shaped.closeSock result
  rcases closeSock_cases found result with rfl | ⟨sock, held, rfl⟩
  · exact awaiting
  · refine awaiting.keep shaped (awaiting.circulates_same rfl rfl)
      (keeping_written { session with sock := none } found rfl rfl fun _ => rfl) ?_
    exact awaiting.calm (fun _ _ after => (update_none_eq_some after).1) rfl (.inl rfl)

theorem Awaiting.delSession (awaiting : s.Awaiting) {p : SessionPtr} (result : s.delSession p = some s') :
    s'.Awaiting := by
  obtain ⟨id, rfl | ⟨c, session, stored, found, rfl⟩ | ⟨n, session, stored, _, rfl, rfl⟩⟩ :=
    awaiting.shaped.delSession_cases result
  · exact awaiting.frame leaves_rest (awaiting.calm (fun _ _ after => after) rfl (.inl rfl))
  · obtain ⟨connect, copies⟩ := awaiting.shaped.connector c session found
    refine awaiting.keep ?_ (awaiting.circulates_cleared rfl rfl)
      (keeping_written { session with alive := false } found rfl rfl fun _ => rfl)
      (awaiting.calm (fun _ _ after => after) rfl (.inl rfl))
    exact awaiting.shaped.renewed { session with alive := false } awaiting.shaped.positive rfl
      (fun _ _ after => (update_none_eq_some after).1) rfl connect copies
  · exact awaiting.removed stored

theorem Awaiting.kickSession (awaiting : s.Awaiting) (result : s.kickSession id = some s') : s'.Awaiting := by
  have kicked : ((s.access id).emit (.kick id)).Awaiting :=
    awaiting.frame leaves_rest (awaiting.calm (fun _ _ after => after) rfl (.inl rfl))
  rcases awaiting.shaped.kickSession_cases result with rfl | ⟨n, session, stored, _, rfl, rfl⟩ | ⟨c, t, _, closed, result⟩
  · exact awaiting.frame leaves_rest (awaiting.calm (fun _ _ after => after) rfl (.inl rfl))
  · exact kicked.removed stored
  · exact (kicked.closeSock closed).delSession result

/-! ### Operations -/

/-- `connect` fails at once on a descriptor that `EPOLL_CTL_ADD` takes. -/
def Strands (s : NetService) (session : Session) (added connecting : Bool) : Prop :=
  connecting = false ∧ added = true ∧ s.epoll session.socket = none

/-- A connector is added that no event can connect, or with success, and
    `connect` does not fail at once; only the loop connects. -/
def Undoing (s : NetService) : Action → Prop
  | .addTCPConnector c added connecting => ∀ session, s.objects (.connector c) = some session → s.queSessionID ≠ [] →
      ¬ s.Strands session added connecting ∧ (s.Awaited c → added = true ∧ s.epoll session.socket = none)
  | .postConnect _ => False
  | _ => True

/-- A connector with a new ID is registered, and awaited. -/
theorem Awaiting.started (awaiting : s.Awaiting) {session : Session} (found : s.objects (.connector c) = some session)
    (front : s.queSessionID = id :: rest) (shaped : s'.Shaped) (queue : s'.queSessionID = rest)
    (sessions : s'.sessions = s.sessions)
    (objects : s'.objects = Function.update s.objects (.connector c) (some { session with alive := false, sessionID := id }))
    (epoll : s'.epoll = Function.update s.epoll session.socket (some (.connect c))) (events : s'.events = s.events)
    (pc : s'.pc = s.pc) : s'.Awaiting := by
  have circulates : s.Circulates s' := awaiting.circulates_taken front queue fun _ _ => by rw [sessions]
  have others : ∀ d, d ≠ c → s'.objects (.connector d) = s.objects (.connector d) := fun d differ => by
    rw [objects, Function.update_of_ne (by simpa using differ)]
  have new : s'.attemptID c = id := by simp [attemptID, objects]
  have before : ∀ d, d ≠ c → s'.Awaited d → s.Awaited d := by
    rintro d differ (⟨sock, registered, outside⟩ | waits)
    · rw [epoll] at registered
      exact .inl ⟨sock, (update_connect (by simpa using Ne.symm differ) registered).1, pc ▸ outside⟩
    · rw [pendingConnects, events] at waits
      exact .inr waits
  have old : ∀ d, d ≠ c → s'.attemptID d = s.attemptID d := fun d differ => attemptID_congr (others d differ)
  have unlike : ∀ d, d ≠ c → s'.Awaited d → s'.attemptID d ≠ id := by
    rintro d differ awaited rfl
    rw [old d differ] at front
    exact (awaiting.spare d (before d differ awaited)).1 (by simp [front])
  refine ⟨shaped, circulates.once, circulates.free, ?_, ?_, ?_, ?_, ?_⟩
  · intro sock d registered
    by_cases same : d = c
    · subst same
      refine ⟨_, by rw [objects, Function.update_self], ?_⟩
      rw [epoll] at registered
      rcases update_eq_some registered with ⟨rfl, _⟩ | earlier
      · rfl
      · obtain ⟨session', found', socket⟩ := awaiting.registered sock d earlier
        cases Option.some.inj (found.symm.trans found')
        exact socket
    · rw [epoll] at registered
      rw [others d same]
      exact awaiting.registered sock d (update_connect (by simpa using Ne.symm same) registered).1
  · rw [pendingConnects, events]
    exact awaiting.single
  · intro d waits
    rw [pendingConnects, events] at waits
    by_cases same : d = c
    · rw [same, objects, Function.update_self]
      rfl
    · rw [others d same]
      exact awaiting.made d waits
  · intro d awaited
    by_cases same : d = c
    · rw [same, new, Spare, queue, sessions]
      have once := awaiting.once
      rw [front] at once
      exact ⟨(List.nodup_cons.mp once).1, awaiting.free id (by simp [front])⟩
    · rw [old d same]
      exact circulates.spare _ (awaiting.spare d (before d same awaited))
  · intro d e first second clash
    by_cases isD : d = c <;> by_cases isE : e = c
    · rw [isD, isE]
    · rw [isD, new] at clash
      exact absurd clash.symm (unlike e isE second)
    · rw [isE, new] at clash
      exact absurd clash (unlike d isD first)
    · rw [old d isD, old e isE] at clash
      exact awaiting.apart d e (before d isD first) (before e isE second) clash

theorem Awaiting.addTCPConnector (awaiting : s.Awaiting) {added connecting ok : Bool}
    (undoing : s.Undoing (.addTCPConnector c added connecting))
    (result : s.addTCPConnector c added connecting = some (ok, s')) : s'.Awaiting := by
  obtain ⟨session, found, _⟩ := Option.bind_eq_some_iff.mp result
  have shaped := awaiting.shaped
  obtain ⟨connect, copies⟩ := shaped.connector c session found
  cases queue : s.queSessionID with
  | nil =>
    rw [addTCPConnector_unnumbered found queue] at result
    cases result
    refine awaiting.keep ?_ (awaiting.circulates_same rfl rfl)
      (keeping_written { session with alive := false } found rfl rfl fun _ => rfl)
      (awaiting.calm (fun _ _ after => after) rfl (.inl rfl))
    exact shaped.renewed { session with alive := false } shaped.positive rfl (fun _ _ stored => stored) rfl connect copies
  | cons id rest =>
    have nonzero := head_ne_zero shaped.positive queue
    let session' : Session := { session with alive := false, sessionID := id }
    obtain ⟨whole, alone⟩ := undoing session found (by simp [queue])
    by_cases room : added = true ∧ s.epoll session.socket = none
    · rw [addTCPConnector_added nonzero found queue room] at result
      cases connecting with
      | false => exact absurd ⟨rfl, room⟩ whole
      | true =>
        cases result
        exact awaiting.started found queue
          (shaped.renewed session' (shaped.taken queue) rfl (fun _ _ stored => stored) rfl connect copies) rfl rfl rfl rfl rfl rfl
    · rw [addTCPConnector_refused nonzero found queue room] at result
      cases result
      refine awaiting.keep ?_ (awaiting.circulates_turned queue rfl rfl)
        (keeping_written session' found rfl rfl fun awaited => absurd (alone awaited) room)
        (awaiting.calm (fun _ _ after => after) rfl (.inl rfl))
      exact shaped.renewed session' (shaped.turned queue) rfl (fun _ _ stored => stored) rfl connect copies

/-- The loop takes up the event of an awaited connector. -/
theorem Awaiting.joined (awaiting : s.Awaiting) {event : PollEvent} {events : List PollEvent}
    (pending : s.events = event :: events) (idle : s.pc = .idle) (context : event.context = .connect c)
    (result : { s with events := events }.postConnect c = some s') : s'.Awaiting := by
  obtain ⟨session, found, _⟩ := Option.bind_eq_some_iff.mp result
  have own : s.attemptID c = session.sessionID := by
    simp [attemptID, show s.objects (.connector c) = some session from found]
  have waits : s.pendingConnects = c :: events.filterMap PollEvent.connects := by
    simp [pendingConnects, pending, PollEvent.connects, context]
  have single := awaiting.single
  rw [waits] at single
  obtain ⟨absent, once⟩ := List.nodup_cons.mp single
  have trying : s.Awaited c := .inr (by simp [waits])
  obtain ⟨unqueued, _⟩ := own ▸ awaiting.spare c trying
  rw [postConnect_eq found] at result
  cases Option.some.inj result
  have before : ∀ d, (∃ sock, s.epoll sock = some (.connect d) ∧ .connectCallBack c ≠ Pc.connectCallBack d) ∨
      d ∈ events.filterMap PollEvent.connects → s.Awaited d ∧ d ≠ c := by
    rintro d (⟨sock, registered, outside⟩ | later)
    · exact ⟨.inl ⟨sock, registered, by simp [idle]⟩, fun same => outside (by rw [same])⟩
    · refine ⟨.inr (by simp [waits, later]), ?_⟩
      rintro rfl
      exact absent later
  refine ⟨?_, awaiting.once, ?_, awaiting.registered, once, ?_, ?_, ?_⟩
  · refine awaiting.shaped.kept awaiting.shaped.positive rfl ?_ (fun _ _ found => found) awaiting.shaped.connector
    intro id n stored
    rcases update_eq_some stored with ⟨_, ⟨⟩⟩ | before
    exact before
  · intro id member
    have differ : id ≠ session.sessionID := by
      rintro rfl
      exact unqueued member
    exact (Function.update_of_ne differ _ _).trans (awaiting.free id member)
  · exact fun d later => awaiting.made d (waits ▸ List.mem_cons_of_mem c later)
  · intro d awaited
    obtain ⟨earlier, differ⟩ := before d awaited
    obtain ⟨unfree, unused⟩ := awaiting.spare d earlier
    refine ⟨unfree, ?_⟩
    have unlike : s.attemptID d ≠ session.sessionID := by
      intro clash
      exact differ (awaiting.apart d c earlier trying (clash.trans own.symm))
    exact (Function.update_of_ne unlike _ _).trans unused
  · exact fun d e first second => awaiting.apart d e (before d first).1 (before e second).1

theorem Awaiting.connected (awaiting : s.Awaiting) {changed : Bool} (pc : s.pc = .connectCallBack c)
    (result : s.connected c changed = some s') : s'.Awaiting := by
  obtain ⟨session, found, _⟩ := Option.bind_eq_some_iff.mp result
  obtain ⟨connect, copies⟩ := awaiting.shaped.connector c session found
  have calms : ∀ context, context ≠ some (.connect c) → s'.epoll = Function.update s.epoll session.socket context →
      (∀ d, context ≠ some (.connect d)) → s'.events = s.events → s.Calms s' := by
    intro context _ epoll other events
    refine awaiting.calms ?_ (by rw [pendingConnects, pendingConnects, events]) fun d inside => .inr fun sock after => ?_
    · intro sock d after
      rw [epoll] at after
      exact (update_connect (other d) after).1
    · cases pc.symm.trans inside
      rw [epoll] at after
      obtain ⟨before, differ⟩ := update_connect (other c) after
      obtain ⟨session', found', socket⟩ := awaiting.registered sock c before
      cases Option.some.inj (found.symm.trans found')
      exact differ socket.symm
  rcases connected_cases found connect result with ⟨_, _, rfl⟩ | rfl
  · refine awaiting.keep ?_ (awaiting.circulates_same rfl rfl)
      (keeping_written { session with alive := true } found rfl rfl fun _ => rfl)
      (calms (some (.read (.connector c))) (by simp) rfl (by simp) rfl)
    exact awaiting.shaped.renewed { session with alive := true } awaiting.shaped.positive rfl (fun _ _ stored => stored)
      rfl connect copies
  · exact awaiting.frame leaves_rest (calms none (by simp) rfl (by simp) rfl)

/-- A session takes the ID at the front and enters the table. -/
theorem Awaiting.opened (awaiting : s.Awaiting) (session : Session) (front : s.queSessionID = session.sessionID :: rest)
    (kind : session.sockType = .udp ∨ session.sockType = .accepted ∧ session.sock = some session.socket)
    (queue : s'.queSessionID = rest) (allocated : s'.allocated = s.allocated + 1)
    (sessions : s'.sessions = Function.update s.sessions session.sessionID (some (.heap s.allocated)))
    (objects : s'.objects = Function.update s.objects (.heap s.allocated) (some session)) (calms : s.Calms s') :
    s'.Awaiting := by
  refine awaiting.keep (awaiting.shaped.entered session front queue kind allocated sessions objects) ?_ ?_ calms
  · exact awaiting.circulates_taken front queue fun j differ => by rw [sessions, Function.update_of_ne differ]
  · exact keeping_same fun c => by rw [objects, Function.update_of_ne (by simp)]

theorem Awaiting.acceptRound (awaiting : s.Awaiting) {listener : Socket} {answer : Option Accepted}
    (pc : s.pc = .accepting listener) (result : s.acceptRound listener answer = some s') : s'.Awaiting := by
  have outside : ∀ c, s.pc ≠ .connectCallBack c := by simp [pc]
  cases answer with
  | none =>
    cases Option.some.inj result
    exact awaiting.frame leaves_rest (awaiting.calm (fun _ _ after => after) rfl (.inr outside))
  | some a =>
    rcases acceptRound_cases awaiting.shaped.positive result with rfl | ⟨id, rest, front, rfl | rfl⟩
    · exact awaiting.frame leaves_rest
        (awaiting.calm (fun _ _ after => (update_none_eq_some after).1) rfl (.inr outside))
    · exact awaiting.keep (awaiting.shaped.same (awaiting.shaped.turned front) rfl rfl rfl)
        (awaiting.circulates_turned front rfl rfl) (keeping_same fun _ => rfl)
        (awaiting.calm (fun _ _ after => (update_none_eq_some after).1) rfl (.inr outside))
    · exact awaiting.opened ⟨true, a.socket, .accepted, a.address, some a.socket, id⟩ front (.inr ⟨rfl, rfl⟩) rfl rfl rfl rfl
        (awaiting.calm (fun _ _ after => (update_connect (by simp) after).1) rfl (.inr outside))

theorem Awaiting.receiveRound (awaiting : s.Awaiting) {listener : Socket} {data : List Byte} {answer : Option Datagram}
    (pc : s.pc = .receiving listener data) (result : s.receiveRound listener data answer = some s') : s'.Awaiting := by
  have outside : ∀ c, s.pc ≠ .connectCallBack c := by simp [pc]
  cases answer with
  | none =>
    cases Option.some.inj result
    exact awaiting.frame leaves_rest (awaiting.calm (fun _ _ after => after) rfl (.inr outside))
  | some d =>
    rcases receiveRound_cases awaiting.shaped.positive result with rfl | ⟨_, rfl⟩ | ⟨id, rest, front, _, _, rfl⟩
    · exact awaiting.frame leaves_rest (awaiting.calm (fun _ _ after => after) rfl (.inr outside))
    · exact awaiting.frame leaves_rest (awaiting.calm (fun _ _ after => after) rfl (.inr outside))
    · exact awaiting.opened ⟨true, listener, .udp, d.address, some listener, id⟩ front (.inl rfl) rfl rfl rfl rfl
        (awaiting.calm (fun _ _ after => after) rfl (.inr outside))

theorem Awaiting.postRead (awaiting : s.Awaiting) (idle : s.pc = .idle) {p : SessionPtr} {chunks : List (List Byte)}
    {ending : ReadEnd} (result : s.postRead p chunks ending = some s') : s'.Awaiting := by
  have outside : ∀ c, s.pc ≠ .connectCallBack c := by simp [idle]
  obtain ⟨session, found, _⟩ := Option.bind_eq_some_iff.mp result
  rcases postRead_cases found result with ⟨_, _, rfl⟩ | ⟨_, _, rfl⟩ | ⟨_, rfl⟩
  · exact awaiting.frame leaves_rest
      (awaiting.calm (fun _ _ after => (update_none_eq_some after).1) rfl (.inr outside))
  · exact awaiting.frame leaves_rest
      (awaiting.calm (fun _ _ after => (update_none_eq_some after).1) rfl (.inr outside))
  · exact awaiting.frame leaves_rest (awaiting.calm (fun _ _ after => after) rfl (.inr outside))

/-- The events of a batch are those of registered descriptors, one for each
    connector. -/
theorem Awaiting.polled (awaiting : s.Awaiting) (idle : s.pc = .idle) {batch : List PollEvent} (polled : s.Polled batch) :
    ({ s with events := batch } : NetService).Awaiting := by
  have registered : ∀ event ∈ batch, ∀ c, event.connects = some c → s.epoll event.socket = some (.connect c) := by
    intro event member c connects
    rw [polled.2 event member]
    unfold PollEvent.connects at connects
    split at connects <;> cases connects
    rename_i context
    rw [context]
  refine awaiting.frame leaves_rest ⟨fun _ _ after => after, ?_, ?_⟩
  · refine List.pairwise_filterMap.mpr ((List.pairwise_map.mp polled.1).imp_of_mem ?_)
    intro first second inFirst inSecond differ c connects d connects' same
    subst same
    obtain ⟨session, found, socket⟩ := awaiting.registered _ c (registered first inFirst c connects)
    obtain ⟨session', found', socket'⟩ := awaiting.registered _ c (registered second inSecond c connects')
    cases Option.some.inj (found.symm.trans found')
    exact differ (socket.symm.trans socket')
  · rintro c (⟨sock, kept, _⟩ | waits)
    · exact .inl ⟨sock, kept, by simp [idle]⟩
    · obtain ⟨event, member, connects⟩ := List.mem_filterMap.mp waits
      exact .inl ⟨event.socket, registered event member c connects, by simp [idle]⟩

/-- The next event of the batch is taken off. -/
theorem Awaiting.popped (awaiting : s.Awaiting) {event : PollEvent} {events : List PollEvent}
    (pending : s.events = event :: events) (idle : s.pc = .idle) (pc : Pc) :
    ({ s with events := events, pc := pc } : NetService).Awaiting := by
  refine awaiting.frame leaves_rest (awaiting.calms (fun _ _ after => after) ?_ (by simp [idle]))
  rw [pendingConnects, pendingConnects, pending]
  exact (List.sublist_cons_self event events).filterMap _

theorem Awaiting.step (awaiting : s.Awaiting) {action : Action} (undoing : s.Undoing action)
    (taken : s.step action = some s') : s'.Awaiting := by
  have turned : ∀ pc : Pc, (∀ c, s.pc ≠ .connectCallBack c) → ({ s with pc := pc } : NetService).Awaiting :=
    fun pc outside => awaiting.frame leaves_rest (awaiting.calm (fun _ _ after => after) rfl (.inr outside))
  cases step_took taken with
  | @newConnector c sock user free =>
    refine awaiting.keep ?_ (awaiting.circulates_same rfl rfl) ?_ (awaiting.calm (fun _ _ after => after) rfl (.inl rfl))
    · exact awaiting.shaped.renewed _ awaiting.shaped.positive rfl (fun _ _ stored => stored) rfl rfl (by simp)
    · intro d session found
      have differ : d ≠ c := by
        rintro rfl
        cases free.symm.trans found
      exact ⟨session, (Function.update_of_ne (by simpa using differ) _ _).trans found, rfl, fun _ => rfl⟩
  | addTCPListener user => exact awaiting.epollAdd _ _ (by simp)
  | addUDPListener user => exact awaiting.epollAdd _ _ (by simp)
  | addTCPConnector user result => exact awaiting.addTCPConnector undoing result
  | kickSession user issued result => exact awaiting.kickSession result
  | postAccept idle => exact turned _ (by simp [idle])
  | postConnect idle result => exact undoing.elim
  | postRead idle result => exact awaiting.postRead idle result
  | postReadFrom idle => exact turned _ (by simp [idle])
  | epollWait idle polled => exact awaiting.polled idle polled
  | connecting idle events context out result => exact awaiting.joined events idle context result
  | reading idle events context result => exact (awaiting.popped events idle .idle).postRead rfl result
  | accept pc result => exact awaiting.acceptRound pc result
  | recvfrom pc result => exact awaiting.receiveRound pc result
  | connected pc result => exact awaiting.connected pc result
  | ignored idle events => exact awaiting.popped events idle _
  | accepting idle events context => exact awaiting.popped events idle _
  | receiving idle events context => exact awaiting.popped events idle _
  | accepted pc => exact turned _ (by simp [pc])
  | opened pc =>
    exact awaiting.frame leaves_rest (awaiting.calm (fun _ _ after => after) rfl (.inr (by simp [pc])))
  | delivered pc => exact turned _ (by simp [pc])
  | dropped pc result =>
    have outside := (delSession_pc result).trans pc
    exact (awaiting.delSession result).frame leaves_rest
      ((awaiting.delSession result).calm (fun _ _ after => after) rfl (.inr (by simp [outside])))
  | returned pc => exact turned _ (by simp [pc])

theorem initSession_awaiting : initSession.Awaiting where
  shaped := initSession_shaped
  once := List.nodup_range'
  free _ _ := rfl
  registered := by simp [initSession]
  single := List.nodup_nil
  made := by simp [initSession, pendingConnects]
  spare := by simp [initSession, pendingConnects, Awaited]
  apart := by simp [initSession, pendingConnects, Awaited]

theorem awaiting_of_reachable (reached : Reachable Undoing s) : s.Awaiting := by
  refine Transition.Reachable.invariant (P := NetService.Awaiting) ?_ ?_ reached
  · rintro _ rfl
    exact initSession_awaiting
  · rintro s s' _ awaiting ⟨action, undoing, taken⟩
    exact awaiting.step undoing taken

/-! ### Failed adds -/

/-- The free IDs, the table and the registered descriptors are the same. -/
structure Restored (s s' : NetService) : Prop where
  ids : s'.queSessionID.Perm s.queSessionID
  sessions : s'.sessions = s.sessions
  registered : ∀ sock, (s'.epoll sock).isSome = (s.epoll sock).isSome

/-- A connector whose event is next has an ID that is neither free nor that of
    a session or of another connector with an event to come. -/
def ConnectsApart (s : NetService) : Prop :=
  ∀ c, s.reported = some c → ∃ session, s.objects (.connector c) = some session ∧ s.Spare session.sessionID ∧
    ∀ d, d ≠ c → s.Awaited d → s.attemptID d ≠ session.sessionID

theorem restored_iff {session : Session} {added connecting : Bool} (positive : 0 ∉ s.queSessionID)
    (found : s.objects (.connector c) = some session) (result : s.addTCPConnector c added connecting = some (false, s')) :
    s.Restored s' ↔ s.queSessionID = [] ∨ ¬ s.Strands session added connecting := by
  cases queue : s.queSessionID with
  | nil =>
    rw [addTCPConnector_unnumbered found queue] at result
    cases result
    exact iff_of_true ⟨List.Perm.refl _, rfl, fun _ => rfl⟩ (.inl rfl)
  | cons id rest =>
    have nonzero := head_ne_zero positive queue
    by_cases room : added = true ∧ s.epoll session.socket = none
    · rw [addTCPConnector_added nonzero found queue room] at result
      obtain rfl : connecting = false := congrArg Prod.fst (Option.some.inj result)
      cases result
      refine iff_of_false (fun restored => ?_) (by simp [Strands, room])
      have still := restored.registered session.socket
      simp [room.2] at still
    · rw [addTCPConnector_refused nonzero found queue room] at result
      cases result
      refine iff_of_true ⟨?_, rfl, fun _ => rfl⟩ (.inr fun strands => room strands.2)
      rw [queue]
      exact List.perm_append_singleton id rest

theorem Awaiting.connectsApart (awaiting : s.Awaiting) : s.ConnectsApart := by
  intro c next
  obtain ⟨_, event, rest, events, context, _⟩ := reported_cases next
  have waits : s.Awaited c := .inr (by simp [pendingConnects, events, PollEvent.connects, context])
  obtain ⟨session, found⟩ := Option.isSome_iff_exists.mp (awaiting.found waits)
  have own : s.attemptID c = session.sessionID := by simp [attemptID, found]
  refine ⟨session, found, own ▸ awaiting.spare c waits, fun d differ others clash => ?_⟩
  exact differ (awaiting.apart d c others waits (clash.trans own.symm))

/-- An add that fails leaves the service as it was unless `connect` fails at
    once, and without such adds no event connects a session under an ID that is
    free or of another. -/
theorem failed_add_undone_iff (s : NetService) :
    (Reachable (fun _ _ => True) s → ∀ c session added connecting s', s.objects (.connector c) = some session →
      s.addTCPConnector c added connecting = some (false, s') →
      (s.Restored s' ↔ s.queSessionID = [] ∨ ¬ s.Strands session added connecting)) ∧
    (Reachable Undoing s → s.ConnectsApart) := by
  constructor
  · intro reached c session added connecting s' found result
    have positive : 0 ∉ s.queSessionID :=
      fun member => (numbered_of_reachable reached).positive (List.mem_append_right _ member)
    exact restored_iff positive found result
  · intro reached
    exact (awaiting_of_reachable reached).connectsApart

theorem refused_add_undone :
    (∃ s s', Reachable (fun _ _ => True) s ∧ s.addTCPConnector 0 false false = some (false, s') ∧ s.Restored s') ∧
    ∃ s, Reachable Undoing s ∧ s.reported = some 0 ∧ s.ConnectsApart := by
  constructor
  · have made : Reachable (fun _ _ => True) _ := Reachable.init.act (.newConnector 0 9) trivial rfl
    refine ⟨_, _, made, rfl, ((failed_add_undone_iff _).1 made 0 _ false false _ rfl rfl).mpr (.inr ?_)⟩
    simp [Strands]
  · have made : Reachable Undoing _ := Reachable.init.act (.newConnector 0 9) trivial rfl
    have added := made.act (.addTCPConnector 0 true true) ?_ rfl
    · have polled := added.act (.epollWait [⟨9, .connect 0, false, true⟩]) trivial rfl
      exact ⟨_, polled, rfl, (failed_add_undone_iff _).2 polled⟩
    · rintro _ ⟨⟩ _
      exact ⟨by simp [Strands], fun _ => ⟨rfl, rfl⟩⟩

/-- `connect` fails at once on descriptor 9: it stays registered, and its event
    connects the session under the ID that was given back. -/
theorem failed_connect_stays_registered :
    (¬ ∀ s, Reachable (fun _ _ => True) s → ∀ c added connecting s',
      s.addTCPConnector c added connecting = some (false, s') → s.Restored s') ∧
    ¬ ∀ s, Reachable (fun _ _ => True) s → s.ConnectsApart := by
  have made : Reachable (fun _ _ => True) _ := Reachable.init.act (.newConnector 0 9) trivial rfl
  have added := made.act (.addTCPConnector 0 true false) trivial rfl
  have polled := added.act (.epollWait [⟨9, .connect 0, false, true⟩]) trivial rfl
  constructor
  · intro always
    have registered := (always _ made 0 true false _ rfl).registered 9
    cases registered
  · intro always
    obtain ⟨session, found, ⟨unfree, _⟩, _⟩ := always _ polled 0 rfl
    cases found
    exact unfree (List.mem_append_right _ (List.mem_singleton_self 1))

end NetService

end LiteServer.Net
