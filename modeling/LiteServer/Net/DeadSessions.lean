import LiteServer.Net.Watched

/-!
No event for a session that is gone: no read event is taken up after the session
was deleted, and `OnData` is never called for an ID after its session was kicked
or dropped, as long as callbacks kick no session that the service still has in
hand.
-/
namespace LiteServer.Net

namespace NetService
variable {s s' : NetService}

/-- The invariant of runs. -/
structure Guarded (s : NetService) : Prop where
  sound : s.Sound
  lost : ∀ c session, s.objects (.connector c) = some session → session.sock = none → s.held session.sessionID = 0
  own : ∀ id c session, s.sessions id = some (.connector c) → s.objects (.connector c) = some session →
    session.sessionID = id
  unclosed : ∀ c ∈ s.attempts, ∀ session, s.objects (.connector c) = some session → session.sock = some session.socket
  quiet : lifetime.Respected s.trace
  dropped : ∀ p session, s.pc = .dropCallBack p → s.objects p = some session →
    lifetime.closed session.sessionID s.trace = true
  watched : s.Watched

/-- What the theorem promises: a read event finds its session, and data is
    delivered only for IDs that are open. -/
structure Undisturbed (s : NetService) : Prop where
  dispatched : ∀ event ∈ s.events, ∀ p, event.context = .read p → (s.objects p).isSome
  quiet : ∀ before id sock data size, before ++ [.onData id sock data size] <+: s.trace →
    lifetime.closed id before = false

theorem Guarded.undisturbed (guarded : s.Guarded) : s.Undisturbed where
  dispatched event member p context := by
    rcases guarded.watched.pending event member p context with ⟨id, session, alive, _⟩ | ⟨c, rfl, session, found, _⟩
    · rw [(alive_eq_some.mp alive).2.2]
      rfl
    · rw [found]
      rfl
  quiet before id sock data size earlier := guarded.quiet before _ id earlier (by simp [Event.delivers])

/-! ### Sessions alive -/

theorem Guarded.own_id (guarded : s.Guarded) {id : SessionID} {p : SessionPtr} {session : Session}
    (stored : s.sessions id = some p) (found : s.objects p = some session) : session.sessionID = id := by
  cases p with
  | connector c => exact guarded.own id c session stored found
  | heap n =>
    obtain ⟨session', found', own⟩ := guarded.sound.stored id _ stored
    cases Option.some.inj (found.symm.trans found')
    exact own n rfl

theorem Guarded.own_erased (guarded : s.Guarded) {k id : SessionID} {c : Nat} {session : Session}
    (stored : Function.update s.sessions k none id = some (.connector c))
    (found : s.objects (.connector c) = some session) : session.sessionID = id := by
  rcases update_eq_some stored with ⟨_, none⟩ | before
  · cases none
  · exact guarded.own id c session before found

theorem alive_congr {id : SessionID} (closed : lifetime.closed id s'.trace = lifetime.closed id s.trace)
    (sessions : s'.sessions id = s.sessions id) (objects : ∀ p, s.sessions id = some p → s'.objects p = s.objects p) :
    s'.alive id = s.alive id := by
  unfold alive
  rw [closed, sessions]
  cases stored : s.sessions id with
  | none => rfl
  | some p => simp only [objects p stored, Option.bind_some]

theorem alive_of_closed {id : SessionID} (closed : lifetime.closed id s.trace = true) : s.alive id = none := by
  rw [alive, if_pos closed]

/-- The ID of a kicked connector is nobody's. -/
theorem Guarded.unstored (guarded : s.Guarded) {c : Nat} {session : Session}
    (found : s.objects (.connector c) = some session) (shut : session.sock = none) :
    s.sessions session.sessionID = none := by
  have nobody := guarded.lost c session found shut
  cases stored : s.sessions session.sessionID with
  | none => rfl
  | some p => simp [NetService.held, holders, stored] at nobody

/-- Another session than the one an ID stands for. -/
theorem Guarded.other (guarded : s.Guarded) {id k : SessionID} {p q : SessionPtr} (differ : id ≠ k)
    (stored : s.sessions k = some p) (stored' : s.sessions id = some q) : q ≠ p := by
  rintro rfl
  obtain ⟨session, found, _⟩ := guarded.sound.stored id q stored'
  exact differ ((guarded.own_id stored' found).symm.trans (guarded.own_id stored found))

/-- A step leaves the sessions sound and gives no ID a new holder. -/
def Follows (s s' : NetService) : Prop := s'.Sound ∧ ∀ id, s'.held id ≤ s.held id

theorem Follows.lost (follows : s.Follows s') {id : SessionID} (nobody : s.held id = 0) : s'.held id = 0 :=
  Nat.le_zero.mp (nobody ▸ follows.2 id)

/-- Nothing but the position, the registrations, the batch, the map and the
    trace differs, and no ID in the table is opened or closed. -/
theorem Guarded.frame (guarded : s.Guarded) (follows : s.Follows s') (sessions : s'.sessions = s.sessions)
    (objects : s'.objects = s.objects) (attempts : s'.attempts = s.attempts)
    (closed : ∀ id, (s.sessions id).isSome → lifetime.closed id s'.trace = lifetime.closed id s.trace)
    (quiet : lifetime.Respected s'.trace)
    (registered : ∀ sock p, s'.epoll sock = some (.read p) → s.epoll sock = some (.read p))
    (events : s'.events.Sublist s.events) (mapped : s'.mapUDPSessions = s.mapUDPSessions)
    (pc : s'.pc = s.pc ∨ s'.pc.returns = false) : s'.Guarded := by
  have alive : s'.alive = s.alive := funext fun id => by
    cases stored : s.sessions id with
    | none => simp [alive, sessions, stored]
    | some p => exact alive_congr (closed id (by rw [stored]; rfl)) (by rw [sessions]) fun p _ => by rw [objects]
  refine ⟨follows.1, ?_, ?_, ?_, quiet, ?_,
    guarded.watched.frame alive (fun c shut => by rwa [Shut, objects]) registered events
      (fun key id after => by rwa [mapped] at after) pc⟩
  · intro c session found shut
    exact follows.lost (guarded.lost c session (objects ▸ found) shut)
  · rw [sessions, objects]; exact guarded.own
  · rw [attempts, objects]; exact guarded.unclosed
  · intro p session drops found
    rw [objects] at found
    rcases pc with same | calm
    · have drops : s.pc = .dropCallBack p := same ▸ drops
      obtain ⟨n, session', rfl, _⟩ := guarded.sound.dropping p drops
      rw [closed _ (by rw [(guarded.sound.heap n session found).1]; rfl)]
      exact guarded.dropped _ session drops found
    · rw [drops] at calm
      cases calm

/-- Only the thread moves on. -/
theorem Guarded.goto (guarded : s.Guarded) {pc : Pc} (follows : s.Follows { s with pc := pc })
    (calm : pc.returns = false) : ({ s with pc := pc } : NetService).Guarded :=
  guarded.frame follows rfl rfl rfl (fun _ _ => rfl) guarded.quiet (fun _ _ => id) (List.Sublist.refl _) rfl (.inr calm)

/-! ### Conditions -/

/-- What callers and the system have to respect: the operations are run by the
    loop; a connector is added while it rests with its descriptor open and
    connected after that; no session is kicked that a later event of the batch
    would read after its deletion, or that the operation making the callback is
    going to use; and calls on the closed descriptor of a kicked connector fail. -/
def Spares (s : NetService) : Action → Prop
  | .addTCPConnector c _ _ => c ∉ s.attempts ∧ (∀ id, s.sessions id ≠ some (.connector c)) ∧
      ∀ session, s.objects (.connector c) = some session → session.sock = some session.socket
  | .kickSession id => ∀ p, s.sessions id = some p →
      (∀ n, p = .heap n → ∀ event ∈ s.events, event.context ≠ .read p) ∧ s.pc ≠ .dropCallBack p ∧
      ∀ listener data nread, s.pc ≠ .openCallBack listener data id nread
  | .postConnect _ => False
  | .postRead _ _ _ => False
  | .dispatch _ ending => ∀ event rest, s.events = event :: rest →
      (∀ c, event.context = .connect c → event.epollOut = true → c ∈ s.attempts) ∧
      ∀ c, event.context = .read (.connector c) → s.Shut c → ending = .error
  | .resume changed => ∀ c, s.pc = .connectCallBack c → s.Shut c → changed = false
  | _ => True

theorem Guarded.follows (guarded : s.Guarded) {action : Action} (spares : s.Spares action)
    (taken : s.step action = some s') : s.Follows s' := by
  have proper : s.Proper action := by
    cases action with
    | addTCPConnector c added connecting => exact spares.1
    | kickSession id =>
      intro p stored
      refine ⟨(spares p stored).2.1, ?_⟩
      rintro c session rfl found
      exact guarded.own id c session stored found
    | postConnect c => exact spares.elim
    | postRead p chunks ending => exact spares.elim
    | dispatch chunks ending => exact fun event rest c events => (spares event rest events).1 c
    | _ => trivial
  rcases guarded.sound.step proper taken with ⟨sound, held⟩ | ⟨c, session, _, found, stored, rfl⟩
  · exact ⟨sound, fun id => (held id).le⟩
  · refine ⟨guarded.sound.detached found stored, ?_⟩
    intro id
    rw [← guarded.sound.detached_held found stored id]
    exact Nat.le_add_right ..

/-! ### Calls of the user -/

theorem closed_sockets (id : SessionID) (trace : List Event) (socks : List Socket) :
    lifetime.closed id (trace ++ socks.map .closed) = lifetime.closed id trace := by
  apply Lifetime.closed_append
  intro event member
  obtain ⟨sock, _, rfl⟩ := List.mem_map.mp member
  exact ⟨rfl, rfl⟩

theorem quiet_sockets {trace : List Event} (quiet : lifetime.Respected trace) (socks : List Socket) :
    lifetime.Respected (trace ++ socks.map .closed) := by
  apply quiet.append
  intro event member x
  obtain ⟨sock, _, rfl⟩ := List.mem_map.mp member
  rfl

/-- The trace of a `KickSession`, with the descriptors it closes. -/
theorem Guarded.quiet_kick (guarded : s.Guarded) (id : SessionID) (socks : List Socket) :
    lifetime.Respected (s.trace ++ [.kick id] ++ socks.map .closed) := by
  have kicked : lifetime.Respected (s.trace ++ [.kick id]) := guarded.quiet.extend fun _ => rfl
  exact quiet_sockets kicked socks

theorem closed_kick {id j : SessionID} {trace : List Event} (socks : List Socket) :
    lifetime.closed j (trace ++ [.kick id] ++ socks.map .closed) = (id == j || lifetime.closed j trace) := by
  rw [closed_sockets, Lifetime.closed_snoc]
  simp [Event.closes, Event.opens]

/-- A peer's session leaves the map and the table together. -/
theorem Guarded.unmapped (guarded : s.Guarded) {k id : SessionID} {p : SessionPtr} {session : Session}
    {key : BitVec 64} (stored : s.sessions k = some p) (found : s.objects p = some session)
    (after : (if session.sockType = .udp then Function.update s.mapUDPSessions (sessionKey session.address) none
      else s.mapUDPSessions) key = some id) : s.mapUDPSessions key = some id ∧ id ≠ k := by
  have before : s.mapUDPSessions key = some id := by
    split at after
    · rcases update_eq_some after with ⟨_, none⟩ | before
      · cases none
      · exact before
    · exact after
  refine ⟨before, ?_⟩
  rintro rfl
  obtain ⟨q, session', alive, udp, rfl⟩ := guarded.watched.mapped key id before
  obtain ⟨_, stored', found'⟩ := alive_eq_some.mp alive
  cases Option.some.inj (stored'.symm.trans stored)
  cases Option.some.inj (found'.symm.trans found)
  rw [if_pos udp, Function.update_self] at after
  cases after

theorem Guarded.kick_heap (guarded : s.Guarded) {n : Nat} {session : Session}
    (found : s.objects (.heap n) = some session) (spares : s.Spares (.kickSession session.sessionID))
    (follows : s.Follows (((s.access session.sessionID).emit (.kick session.sessionID)).removed (.heap n) session)) :
    (((s.access session.sessionID).emit (.kick session.sessionID)).removed (.heap n) session).Guarded := by
  obtain ⟨stored, kind⟩ := guarded.sound.heap n session found
  obtain ⟨events, _, opening⟩ := spares _ stored
  have closed : ∀ j, lifetime.closed j (s.trace ++ [.kick session.sessionID] ++ session.closing.toList.map .closed) =
    (session.sessionID == j || lifetime.closed j s.trace) := fun j => closed_kick _
  refine ⟨follows.1, fun c session' found' shut => follows.lost (guarded.lost c session' found' shut), ?_, ?_,
    guarded.quiet_kick _ _, ?_, ?_⟩
  · exact fun id c session' stored' found' => guarded.own_erased stored' found'
  · intro c trying session' found'
    exact guarded.unclosed c trying session' found'
  · intro p session' drops found'
    rcases update_eq_some found' with ⟨_, none⟩ | before
    · cases none
    · refine (closed _).trans ?_
      rw [guarded.dropped p session' drops before, Bool.or_true]
  · refine guarded.watched.kill stored ?_ (fun c shut => shut) ?_ rfl
      (fun event member context => absurd context (events n rfl event member))
      (fun key id after => guarded.unmapped stored found after) (.inr (.inr ⟨rfl, opening, nofun⟩))
    · intro id differ
      refine alive_congr ((closed id).trans ?_) (Function.update_of_ne differ _ _) ?_
      · rw [beq_false_of_ne (Ne.symm differ), Bool.false_or]
      · intro q stored'
        exact Function.update_of_ne (guarded.other differ stored stored') _ _
    · intro sock q after
      obtain ⟨before, unclosed⟩ := closed_epoll after
      refine ⟨before, ?_⟩
      rintro rfl
      -- The descriptor of an accepted session was closed with it.
      obtain ⟨id, session', alive, _, sock', tcp⟩ := guarded.watched.registered sock _ before
      cases Option.some.inj ((alive_eq_some.mp alive).2.2.symm.trans found)
      rw [Session.closing, if_pos (kind.resolve_right tcp)] at unclosed
      exact unclosed sock'

theorem Guarded.kick_connector (guarded : s.Guarded) {c : Nat} {session : Session}
    (found : s.objects (.connector c) = some session) (stored : s.sessions session.sessionID = some (.connector c))
    (spares : s.Spares (.kickSession session.sessionID)) (follows : s.Follows (s.detached c session)) :
    (s.detached c session).Guarded := by
  obtain ⟨_, _, opening⟩ := spares _ stored
  have connect := guarded.sound.connectors c session found
  have trace : (s.detached c session).trace = s.trace ++ [.kick session.sessionID] ++ session.sock.toList.map .closed := by
    simp [detached]
  have closed : ∀ j, lifetime.closed j (s.detached c session).trace =
    (session.sessionID == j || lifetime.closed j s.trace) := fun j => by rw [trace]; exact closed_kick _
  -- A connector still in the table or with an attempt in progress is another one.
  have others : ∀ d, d ≠ c → (s.detached c session).objects (.connector d) = s.objects (.connector d) :=
    fun d differ => Function.update_of_ne (by simpa using differ) _ _
  have here : (s.detached c session).objects (.connector c) = some { session with alive := false, sock := none } :=
    Function.update_self ..
  have shut : (s.detached c session).Shut c := ⟨_, here, rfl⟩
  refine ⟨follows.1, ?_, ?_, ?_, trace ▸ guarded.quiet_kick _ _, ?_, ?_⟩
  · intro d session' found' closed'
    by_cases same : d = c
    · subst same
      cases Option.some.inj (here.symm.trans found')
      show (s.detached d session).held session.sessionID = 0
      have once := guarded.sound.detached_held found stored session.sessionID
      have bound := guarded.sound.held session.sessionID
      rw [if_pos rfl] at once
      split at bound <;> omega
    · exact follows.lost (guarded.lost d session' ((others d same).symm.trans found') closed')
  · intro id d session' stored' found'
    rcases update_eq_some stored' with ⟨_, none⟩ | before
    · cases none
    · have differ : d ≠ c := by
        rintro rfl
        rw [← guarded.own id d session before found] at stored'
        cases stored'.symm.trans (Function.update_self ..)
      exact guarded.own id d session' before ((others d differ).symm.trans found')
  · intro d trying session' found'
    have differ : d ≠ c := by
      rintro rfl
      have free := guarded.sound.attempt_free trying
      rw [show s.attemptID d = session.sessionID by simp [attemptID, found], stored] at free
      cases free
    exact guarded.unclosed d trying session' ((others d differ).symm.trans found')
  · intro p session' drops found'
    obtain ⟨n, _, rfl, _⟩ := guarded.sound.dropping p drops
    rw [closed, guarded.dropped _ session' drops found', Bool.or_true]
  · refine guarded.watched.kill stored ?_ ?_ ?_ rfl
      (fun _ _ _ => .inr ⟨c, rfl, shut⟩)
      (fun key id after => guarded.unmapped stored found (by rwa [if_neg (by rw [connect]; simp)]))
      (.inr (.inr ⟨rfl, opening, fun d _ same => by cases same; exact shut⟩))
    · intro id differ
      refine alive_congr ((closed id).trans ?_) (Function.update_of_ne differ _ _) ?_
      · rw [beq_false_of_ne (Ne.symm differ), Bool.false_or]
      · intro q stored'
        exact Function.update_of_ne (guarded.other differ stored stored') _ _
    · intro d before
      by_cases same : d = c
      · exact same ▸ shut
      · obtain ⟨session', found', closed'⟩ := before
        exact ⟨session', (others d same).trans found', closed'⟩
    · intro sock q after
      obtain ⟨before, unclosed⟩ := closed_epoll after
      refine ⟨before, ?_⟩
      rintro rfl
      obtain ⟨id, session', alive, _, sock', _⟩ := guarded.watched.registered sock _ before
      cases Option.some.inj ((alive_eq_some.mp alive).2.2.symm.trans found)
      exact unclosed sock'

/-- A connector that rests outside the table is constructed or gets an ID. -/
theorem Guarded.setConnector (guarded : s.Guarded) {c : Nat} {session' : Session} (follows : s.Follows s')
    (resting : ∀ id, s.sessions id ≠ some (.connector c)) (sessions : s'.sessions = s.sessions)
    (objects : s'.objects = Function.update s.objects (.connector c) (some session'))
    (attempts : ∀ d ∈ s'.attempts, d ∈ s.attempts ∨ d = c)
    (open_ : ¬ s.Shut c) (unclosed : session'.sock = some session'.socket)
    (closed : ∀ id, lifetime.closed id s'.trace = lifetime.closed id s.trace) (quiet : lifetime.Respected s'.trace)
    (registered : ∀ sock p, s'.epoll sock = some (.read p) → s.epoll sock = some (.read p))
    (events : s'.events = s.events) (mapped : s'.mapUDPSessions = s.mapUDPSessions) (pc : s'.pc = s.pc) :
    s'.Guarded := by
  have others : ∀ p, p ≠ .connector c → s'.objects p = s.objects p := fun p differ => by
    rw [objects, Function.update_of_ne differ]
  have alive : s'.alive = s.alive := funext fun id => by
    refine alive_congr (closed id) (by rw [sessions]) fun p stored => others p ?_
    rintro rfl
    exact resting id stored
  refine ⟨follows.1, ?_, ?_,
    ?_, quiet, ?_,
    guarded.watched.frame alive ?_ registered (events ▸ List.Sublist.refl _)
      (fun key id after => by rwa [mapped] at after) (.inl pc)⟩
  · intro d session found shut
    by_cases same : d = c
    · rw [same, objects, Function.update_self] at found
      cases found
      rw [unclosed] at shut
      cases shut
    · exact follows.lost (guarded.lost d session ((others _ (by simpa using same)).symm.trans found) shut)
  · intro id d session stored found
    rw [sessions] at stored
    have differ : SessionPtr.connector d ≠ .connector c := by
      intro same
      exact resting id (same ▸ stored)
    exact guarded.own id d session stored ((others _ differ).symm.trans found)
  · intro d trying session found
    by_cases same : d = c
    · rw [same, objects, Function.update_self] at found
      cases found
      exact unclosed
    · refine guarded.unclosed d ((attempts d trying).resolve_right same) session ?_
      exact (others _ (by simpa using same)).symm.trans found
  · intro p session drops found
    rw [pc] at drops
    obtain ⟨n, _, rfl, _⟩ := guarded.sound.dropping p drops
    rw [closed]
    exact guarded.dropped _ session drops ((others _ (by simp)).symm.trans found)
  · intro d shut
    by_cases same : d = c
    · exact absurd (same ▸ shut) open_
    · obtain ⟨session, found, closed⟩ := shut
      exact ⟨session, (others _ (by simpa using same)).trans found, closed⟩

theorem Guarded.newConnector (guarded : s.Guarded) {c : Nat} {sock : Socket} (free : s.objects (.connector c) = none)
    (follows : s.Follows
      ((s.emit (.opened sock)).setObject (.connector c) ⟨false, sock, .connect, ⟨0, 0⟩, some sock, 0⟩)) :
    ((s.emit (.opened sock)).setObject (.connector c) ⟨false, sock, .connect, ⟨0, 0⟩, some sock, 0⟩).Guarded := by
  refine guarded.setConnector follows ?_ rfl rfl (fun d => .inl) ?_ rfl ?_ ?_ (fun sock p => id) rfl rfl rfl
  · intro id stored
    obtain ⟨session, found, _⟩ := guarded.sound.stored id _ stored
    rw [free] at found
    cases found
  · rintro ⟨session, found, _⟩
    rw [free] at found
    cases found
  · intro id
    exact Lifetime.closed_append (by simp [Event.opens, Event.closes])
  · exact guarded.quiet.append (by simp [Event.delivers])

theorem Guarded.addTCPConnector (guarded : s.Guarded) {c : Nat} {added connecting ok : Bool} (follows : s.Follows s')
    (spares : s.Spares (.addTCPConnector c added connecting))
    (taken : s.addTCPConnector c added connecting = some (ok, s')) : s'.Guarded := by
  obtain ⟨session, found, _⟩ := Option.bind_eq_some_iff.mp taken
  obtain ⟨_, resting, unclosed⟩ := spares
  have open_ : ¬ s.Shut c := by
    rintro ⟨session, found, shut⟩
    rw [unclosed session found] at shut
    cases shut
  have registered : ∀ sock p, Function.update s.epoll session.socket (some (.connect c)) sock = some (.read p) →
      s.epoll sock = some (.read p) := fun sock p after => by
    rcases update_eq_some after with ⟨_, connect⟩ | before
    · cases connect
    · exact before
  rcases addTCPConnector_cases guarded.sound.positive found taken with
    ⟨_, rfl⟩ | ⟨id, rest, _, ⟨_, rfl⟩ | ⟨_, _, rfl⟩ | ⟨_, _, rfl⟩⟩
  · exact guarded.setConnector follows resting rfl rfl (fun d => .inl) open_ (unclosed session found) (fun _ => rfl)
      guarded.quiet (fun _ _ => id) rfl rfl rfl
  · exact guarded.setConnector follows resting rfl rfl (fun d => .inl) open_ (unclosed session found) (fun _ => rfl)
      guarded.quiet (fun _ _ => fun before => before) rfl rfl rfl
  · exact guarded.setConnector follows resting rfl rfl (fun d => .inl) open_ (unclosed session found) (fun _ => rfl)
      guarded.quiet registered rfl rfl rfl
  · refine guarded.setConnector follows resting rfl rfl ?_ open_ (unclosed session found) (fun _ => rfl) guarded.quiet
      registered rfl rfl rfl
    intro d trying
    simpa using trying

theorem Guarded.addListener (guarded : s.Guarded) {listener : Socket} {context : Context} {add : Bool}
    (notRead : ∀ p, context ≠ .read p) (added : (s.epollAdd listener context add).getD s = s')
    (follows : s.Follows s') :
    s'.Guarded := by
  unfold epollAdd at added
  split at added <;> subst added
  · refine guarded.frame follows rfl rfl rfl (fun _ _ => rfl) guarded.quiet ?_ (List.Sublist.refl _) rfl (.inl rfl)
    intro sock p after
    rcases update_eq_some after with ⟨_, read⟩ | before
    · exact absurd (Option.some.inj read) (notRead p)
    · exact before
  · exact guarded

/-! ### Operations -/

/-- A new session takes a free ID; the descriptor or the peer that leads to it
    is the only new reference. -/
theorem Guarded.opened (guarded : s.Guarded) {id : SessionID} {rest : List SessionID} {session : Session}
    (follows : s.Follows s') (front : s.queSessionID = id :: rest)
    (sessions : s'.sessions = Function.update s.sessions id (some (.heap s.allocated)))
    (objects : s'.objects = Function.update s.objects (.heap s.allocated) (some session))
    (attempts : s'.attempts = s.attempts)
    (closed : ∀ j, lifetime.closed j s'.trace = (lifetime.closed j s.trace && !(id == j)))
    (quiet : lifetime.Respected s'.trace)
    (registered : ∀ sock p, s'.epoll sock = some (.read p) → s.epoll sock = some (.read p) ∨
      (p = .heap s.allocated ∧ session.socket = sock ∧ session.sock = some sock ∧ session.sockType ≠ .udp))
    (events : s'.events = s.events)
    (mapped : ∀ key j, s'.mapUDPSessions key = some j → s.mapUDPSessions key = some j ∨
      (j = id ∧ session.sockType = .udp ∧ sessionKey session.address = key))
    (pc : (∀ q, s'.pc ≠ .dropCallBack q) ∧ (∀ c, s'.pc ≠ .connectCallBack c) ∧
      ∀ listener data j nread, s'.pc = .openCallBack listener data j nread → j = id) : s'.Guarded := by
  obtain ⟨free, _⟩ := guarded.sound.free front
  have fresh := guarded.sound.fresh _ (Nat.le_refl s.allocated)
  have connectors : ∀ c, s'.objects (.connector c) = s.objects (.connector c) := fun c => by
    rw [objects, Function.update_of_ne (by simp)]
  have new : s'.alive id = some (.heap s.allocated, session) := by
    rw [alive_eq_some, closed, sessions, objects, Function.update_self, Function.update_self]
    simp
  have same : ∀ j, j ≠ id → s'.alive j = s.alive j := fun j differ => by
    refine alive_congr (by rw [closed, beq_false_of_ne (Ne.symm differ)]; simp) ?_ ?_
    · rw [sessions, Function.update_of_ne differ]
    · intro p stored
      have old : p ≠ .heap s.allocated := by
        rintro rfl
        obtain ⟨session', found, _⟩ := guarded.sound.stored j _ stored
        rw [fresh] at found
        cases found
      rw [objects, Function.update_of_ne old]
  obtain ⟨notDropping, notConnecting, opening⟩ := pc
  refine ⟨follows.1, ?_, ?_, ?_, quiet, fun p session' drops => absurd drops (notDropping p), ?_⟩
  · intro c session' found shut
    exact follows.lost (guarded.lost c session' ((connectors c).symm.trans found) shut)
  · intro j c session' stored found
    rw [sessions] at stored
    rcases update_eq_some stored with ⟨_, heap⟩ | before
    · cases heap
    · exact guarded.own j c session' before ((connectors c).symm.trans found)
  · intro c trying session' found
    exact guarded.unclosed c (attempts ▸ trying) session' ((connectors c).symm.trans found)
  · refine guarded.watched.move (fun _ => False) ?_
      (fun c shut => by rwa [Shut, connectors]) ?_
      (fun event member p context => .inl ⟨events ▸ member, fun _ _ _ given => given⟩) (events ▸ guarded.watched.apart)
      ?_ ?_ fun c after => absurd after (notConnecting c)
    · intro j p session' _ before
      have differ : j ≠ id := by
        rintro rfl
        rw [(alive_eq_some.mp before).2.1] at free
        cases free
      exact ⟨session'.alive, (same j differ).trans before⟩
    · intro sock p after
      refine (registered sock p after).imp (fun before => ⟨before, fun _ _ _ given => given⟩) ?_
      rintro ⟨rfl, facts⟩
      exact ⟨id, session, new, facts⟩
    · intro key j after
      refine (mapped key j after).imp (fun before => ⟨before, fun given => given⟩) ?_
      rintro ⟨rfl, facts⟩
      exact ⟨_, session, new, facts⟩
    · intro listener data j nread after
      right
      rw [opening _ _ _ _ after, new]
      rfl

theorem Guarded.acceptRound (guarded : s.Guarded) {listener : Socket} {answer : Option Accepted} (follows : s.Follows s')
    (taken : s.acceptRound listener answer = some s') : s'.Guarded := by
  cases answer with
  | none =>
    cases Option.some.inj taken
    exact guarded.goto follows rfl
  | some a =>
    have quiet : lifetime.Respected (s.trace ++ [.opened a.socket]) := guarded.quiet.extend fun _ => rfl
    rcases acceptRound_cases guarded.sound.positive taken with rfl | ⟨id, rest, front, rfl | rfl⟩
    · exact guarded.frame follows rfl rfl rfl (fun id _ => by simp [destroySocket, emit, Event.opens, Event.closes])
        (quiet.extend fun _ => rfl) (fun _ _ after => (update_none_eq_some after).1) (List.Sublist.refl _) rfl (.inr rfl)
    · exact guarded.frame follows rfl rfl rfl
        (fun id _ => by simp [destroySocket, emit, rotated, Event.opens, Event.closes])
        (quiet.extend fun _ => rfl) (fun _ _ after => (update_none_eq_some after).1) (List.Sublist.refl _) rfl (.inr rfl)
    · refine guarded.opened follows front rfl rfl rfl
        (fun j => by simp [emit, NetService.opened, Event.opens, Event.closes]) (quiet.extend fun _ => rfl)
        ?_ rfl (fun key j => .inl) (by simp)
      intro sock p after
      rcases update_eq_some after with ⟨rfl, read⟩ | before
      · cases read
        exact .inr ⟨rfl, rfl, rfl, by simp⟩
      · exact .inl before

theorem getUDPSessionID_eq {address : SockAddr} (known : s.getUDPSessionID address ≠ 0) :
    s.mapUDPSessions (sessionKey address) = some (s.getUDPSessionID address) := by
  unfold getUDPSessionID at *
  cases found : s.mapUDPSessions (sessionKey address) with
  | none => simp [found] at known
  | some id => rfl

theorem Guarded.receiveRound (guarded : s.Guarded) {listener : Socket} {data : List Byte} {answer : Option Datagram}
    (follows : s.Follows s') (taken : s.receiveRound listener data answer = some s') : s'.Guarded := by
  cases answer with
  | none =>
    cases Option.some.inj taken
    exact guarded.goto follows rfl
  | some d =>
    rcases receiveRound_cases guarded.sound.positive taken with rfl | ⟨known, rfl⟩ | ⟨id, rest, front, _, _, rfl⟩
    · exact guarded.goto follows rfl
    · obtain ⟨p, session, alive, _⟩ := guarded.watched.mapped _ _ (getUDPSessionID_eq known)
      refine guarded.frame follows rfl rfl rfl (fun id _ => by simp [emit, Event.opens, Event.closes])
        (guarded.quiet.snoc ?_) (fun _ _ => id) (List.Sublist.refl _) rfl (.inr rfl)
      intro id uses
      rw [← beq_iff_eq.mp uses]
      exact (alive_eq_some.mp alive).1
    · have positive := head_ne_zero guarded.sound.positive front
      refine guarded.opened follows front rfl rfl rfl
        (fun j => by simp [emit, NetService.opened, setUDPSessionID, Event.opens, Event.closes])
        (guarded.quiet.extend fun _ => rfl) (fun sock p => .inl) rfl ?_
        ⟨by rintro _ ⟨⟩, by rintro _ ⟨⟩, by rintro _ _ _ _ ⟨⟩; rfl⟩
      intro key j after
      have mapped : Function.update s.mapUDPSessions (sessionKey d.address) (some id) key = some j := by
        simpa [emit, NetService.opened, setUDPSessionID, positive] using after
      rcases update_eq_some mapped with ⟨rfl, same⟩ | before
      · exact .inr ⟨(Option.some.inj same).symm, rfl, rfl⟩
      · exact .inl before

/-- The ID of an attempt passes to the table. -/
theorem Guarded.postConnect (guarded : s.Guarded) {c : Nat} (trying : c ∈ s.attempts) (follows : s.Follows s')
    (taken : s.postConnect c = some s') : s'.Guarded := by
  obtain ⟨session, found, _⟩ := Option.bind_eq_some_iff.mp taken
  rw [postConnect_eq found] at taken
  cases Option.some.inj taken
  have free : s.sessions session.sessionID = none := by
    have free := guarded.sound.attempt_free trying
    rwa [show s.attemptID c = session.sessionID by simp [attemptID, found]] at free
  have closed : ∀ j, lifetime.closed j (s.trace ++ [.onConnected session.sessionID session.socket]) =
      (lifetime.closed j s.trace && !(session.sessionID == j)) := fun j => by
    simp [Event.opens, Event.closes]
  have outside : ∀ id, s.sessions id ≠ some (.connector c) := fun id stored => by
    rw [guarded.own id c session stored found, stored] at free
    cases free
  refine ⟨follows.1, fun d session' found' shut => follows.lost (guarded.lost d session' found' shut),
    ?_, fun d trying' => guarded.unclosed d (List.mem_of_mem_erase trying'),
    guarded.quiet.extend fun _ => rfl, by rintro _ _ ⟨⟩, ?_⟩
  · intro id d session' stored' found'
    rcases update_eq_some stored' with ⟨rfl, same⟩ | before
    · cases same
      cases Option.some.inj (found.symm.trans found')
      rfl
    · exact guarded.own id d session' before found'
  · refine guarded.watched.move (fun _ => False) ?_ (fun d shut => shut)
      (fun sock p after => .inl ⟨after, fun _ _ _ given => given⟩)
      (fun event member p context => .inl ⟨member, fun _ _ _ given => given⟩) guarded.watched.apart
      (fun key j after => .inl ⟨after, fun given => given⟩) (by rintro _ _ _ _ ⟨⟩) fun d after => .inr (.inl ?_)
    · intro j p session' _ before
      have differ : j ≠ session.sessionID := by
        rintro rfl
        rw [(alive_eq_some.mp before).2.1] at free
        cases free
      refine ⟨session'.alive, Eq.trans ?_ before⟩
      refine alive_congr ((closed j).trans ?_) (Function.update_of_ne differ _ _) fun _ _ => rfl
      simp [beq_false_of_ne (Ne.symm differ)]
    · cases after
      refine ⟨⟨session.sessionID, session, ?_, guarded.unclosed c trying session found⟩, ?_⟩
      · exact alive_eq_some.mpr ⟨(closed _).trans (by simp), Function.update_self .., found⟩
      · intro event member context
        rcases guarded.watched.pending event member _ context with ⟨id, _, alive, _⟩ | ⟨d, same, session', found', shut⟩
        · exact outside id (alive_eq_some.mp alive).2.1
        · cases same
          rw [guarded.unclosed c trying session' found'] at shut
          cases shut

/-- The session of one ID is reported as ended; its registration is gone. -/
theorem Guarded.ended (guarded : s.Guarded) {p : SessionPtr} {session : Session} {k : SessionID} {event : Event}
    (alive : s.alive k = some (p, session)) (tcp : session.sockType ≠ .udp) (follows : s.Follows s')
    (closes : ∀ id, event.closes id = (k == id)) (opens : ∀ id, event.opens id = false)
    (delivers : ∀ id, event.delivers id = false) (sessions : s'.sessions = s.sessions) (objects : s'.objects = s.objects)
    (attempts : s'.attempts = s.attempts)
    (trace : ∃ socks : List Socket, s'.trace = s.trace ++ (socks.map .closed ++ [event]))
    (registered : ∀ sock q, s'.epoll sock = some (.read q) → s.epoll sock = some (.read q) ∧ sock ≠ session.socket)
    (events : s'.events = s.events) (spared : ∀ event ∈ s.events, event.context ≠ .read p)
    (mapped : s'.mapUDPSessions = s.mapUDPSessions) (pc : s'.pc = .lastCallBack ∨ s'.pc = .dropCallBack p) :
    s'.Guarded := by
  obtain ⟨socks, trace⟩ := trace
  rw [← List.append_assoc] at trace
  obtain ⟨_, stored, found⟩ := alive_eq_some.mp alive
  have closed : ∀ id, lifetime.closed id s'.trace = (k == id || lifetime.closed id s.trace) := fun id => by
    rw [trace, Lifetime.closed_snoc, closed_sockets]
    simp [closes, opens]
  have quiet : lifetime.Respected (s.trace ++ socks.map .closed) := quiet_sockets guarded.quiet socks
  refine ⟨follows.1, fun c session' found' shut => follows.lost (guarded.lost c session' (objects ▸ found') shut),
    by rw [sessions, objects]; exact guarded.own, by rw [attempts, objects]; exact guarded.unclosed, ?_,
    ?_, ?_⟩
  · rw [trace]
    exact quiet.extend delivers
  · intro q session' drops found'
    rcases pc with last | drop
    · rw [last] at drops
      cases drops
    · rw [drop] at drops
      cases drops
      rw [objects, found] at found'
      cases found'
      rw [closed, guarded.own_id stored found]
      simp
  · refine guarded.watched.kill stored ?_ (fun c shut => by rwa [Shut, objects])
      ?_ events (fun event member context => absurd context (spared event member))
      ?_ ?_
    · intro id differ
      exact alive_congr (by rw [closed, beq_false_of_ne (Ne.symm differ), Bool.false_or]) (by rw [sessions])
        fun q _ => by rw [objects]
    · intro sock q after
      obtain ⟨before, differ⟩ := registered sock q after
      refine ⟨before, ?_⟩
      rintro rfl
      obtain ⟨_, session', alive', socket, _⟩ := guarded.watched.registered sock q before
      cases Option.some.inj ((alive_eq_some.mp alive').2.2.symm.trans found)
      exact differ socket.symm
    · intro key id after
      rw [mapped] at after
      exact guarded.unmapped stored found (by rwa [if_neg tcp])
    · rcases pc with last | drop
      · exact .inl (by rw [last]; rfl)
      · exact .inr (.inl ⟨p, drop⟩)

/-- A connector that was kicked fails: nothing was left of its session. -/
theorem Guarded.failed (guarded : s.Guarded) {c : Nat} {session : Session}
    (found : s.objects (.connector c) = some session) (shut : session.sock = none) (follows : s.Follows s')
    (sessions : s'.sessions = s.sessions) (objects : s'.objects = s.objects) (attempts : s'.attempts = s.attempts)
    (trace : ∃ socks : List Socket, s'.trace = s.trace ++ (socks.map .closed ++
      [.onConnectFail session.sessionID session.socket]))
    (registered : ∀ sock q, s'.epoll sock = some (.read q) → s.epoll sock = some (.read q))
    (events : s'.events = s.events) (mapped : s'.mapUDPSessions = s.mapUDPSessions) (pc : s'.pc = .lastCallBack) :
    s'.Guarded := by
  obtain ⟨socks, trace⟩ := trace
  rw [← List.append_assoc] at trace
  refine guarded.frame follows sessions objects attempts ?_ ?_ registered (events ▸ List.Sublist.refl _) mapped
    (.inr (by rw [pc]; rfl))
  · intro id stored
    have differ : session.sessionID ≠ id := by
      rintro rfl
      rw [guarded.unstored found shut] at stored
      cases stored
    rw [trace, Lifetime.closed_snoc, closed_sockets]
    simp [Event.closes, Event.opens, differ]
  · rw [trace]
    exact (quiet_sockets guarded.quiet socks).extend fun _ => rfl

section
variable {c : Nat} {session : Session}

theorem object_confirmed (found : s.objects (.connector c) = some session) {p : SessionPtr} {before : Session}
    (found' : s.objects p = some before) :
    ∃ flag, (s.confirmed c session).objects p = some { before with alive := flag } := by
  by_cases same : p = .connector c
  · subst same
    cases Option.some.inj (found.symm.trans found')
    exact ⟨true, Function.update_self ..⟩
  · exact ⟨before.alive, (Function.update_of_ne same _ _).trans found'⟩

theorem confirmed_object (found : s.objects (.connector c) = some session) {p : SessionPtr} {after : Session}
    (found' : (s.confirmed c session).objects p = some after) :
    ∃ before, s.objects p = some before ∧ ∃ flag, after = { before with alive := flag } := by
  rcases update_eq_some found' with ⟨rfl, new⟩ | before
  · cases new
    exact ⟨session, found, true, rfl⟩
  · exact ⟨after, before, after.alive, rfl⟩

/-- The flag is all that differs in the session that is confirmed. -/
theorem Guarded.confirmed (guarded : s.Guarded) {id : SessionID} (alive : s.alive id = some (.connector c, session))
    (unclosed : session.sock = some session.socket) (follows : s.Follows (s.confirmed c session)) :
    (s.confirmed c session).Guarded := by
  obtain ⟨_, _, found⟩ := alive_eq_some.mp alive
  have survive : ∀ j p before, s.alive j = some (p, before) →
      ∃ flag, (s.confirmed c session).alive j = some (p, { before with alive := flag }) := by
    intro j p before alive
    obtain ⟨opened, stored, found'⟩ := alive_eq_some.mp alive
    obtain ⟨flag, found''⟩ := object_confirmed found found'
    exact ⟨flag, alive_eq_some.mpr ⟨opened, stored, found''⟩⟩
  refine ⟨follows.1, ?_, ?_, ?_, guarded.quiet, nofun, ?_⟩
  · intro d session' found' shut
    obtain ⟨before, found, flag, rfl⟩ := confirmed_object found found'
    exact follows.lost (guarded.lost d before found shut)
  · intro j d session' stored found'
    obtain ⟨before, found, flag, rfl⟩ := confirmed_object found found'
    exact guarded.own j d before stored found
  · intro d trying session' found'
    obtain ⟨before, found, flag, rfl⟩ := confirmed_object found found'
    exact guarded.unclosed d trying before found
  · refine guarded.watched.move (fun _ => False) (fun j p before _ alive => survive j p before alive) ?_ ?_
      (fun event member p _ => .inl ⟨member, fun _ _ _ given => given⟩) guarded.watched.apart
      (fun key j after => .inl ⟨after, fun given => given⟩) nofun nofun
    · rintro d ⟨before, found', closed⟩
      obtain ⟨flag, after⟩ := object_confirmed found found'
      exact ⟨_, after, closed⟩
    · intro sock p after
      rcases update_eq_some after with ⟨rfl, read⟩ | before
      · cases read
        obtain ⟨flag, alive'⟩ := survive id _ session alive
        exact .inr ⟨id, _, alive', rfl, unclosed, by simp [guarded.sound.connectors c session found]⟩
      · exact .inl ⟨before, fun _ _ _ given => given⟩

end

theorem Guarded.connected (guarded : s.Guarded) {c : Nat} {changed : Bool} (pc : s.pc = .connectCallBack c)
    (spares : s.Shut c → changed = false) (follows : s.Follows s') (taken : s.connected c changed = some s') :
    s'.Guarded := by
  rcases guarded.watched.connecting c pc with ⟨⟨id, session, alive, unclosed⟩, spared⟩ | shut
  · obtain ⟨_, stored, found⟩ := alive_eq_some.mp alive
    have connect := guarded.sound.connectors c session found
    rcases connected_cases found connect taken with ⟨_, _, rfl⟩ | rfl
    · exact guarded.confirmed alive unclosed follows
    · have own := guarded.own id c session stored found
      exact guarded.ended alive (by rw [connect]; simp) follows (fun id => by rw [own]; rfl) (fun _ => by rfl)
        (fun _ => by rfl) rfl rfl rfl ⟨[session.socket], List.append_assoc ..⟩
        (fun sock q after => update_none_eq_some after) rfl spared rfl (.inl rfl)
  · have unchanged := spares shut
    obtain ⟨session, found, closed⟩ := shut
    rcases connected_cases found (guarded.sound.connectors c session found) taken with ⟨changed, _, _⟩ | rfl
    · rw [unchanged] at changed
      cases changed
    · exact guarded.failed found closed follows rfl rfl rfl ⟨[session.socket], List.append_assoc ..⟩
        (fun sock q after => (update_none_eq_some after).1) rfl rfl rfl

theorem Guarded.postRead (guarded : s.Guarded) {p : SessionPtr} {chunks : List (List Byte)} {ending : ReadEnd}
    (pending : s.Pending p) (spared : ∀ event ∈ s.events, event.context ≠ .read p)
    (shut : ∀ c, p = .connector c → s.Shut c → ending = .error) (follows : s.Follows s')
    (taken : s.postRead p chunks ending = some s') : s'.Guarded := by
  rcases pending with ⟨id, session, alive, tcp⟩ | ⟨c, rfl, kicked⟩
  · obtain ⟨opened, stored, found⟩ := alive_eq_some.mp alive
    have own := guarded.own_id stored found
    rcases postRead_cases found taken with ⟨_, _, rfl⟩ | ⟨_, _, rfl⟩ | ⟨_, rfl⟩
    · exact guarded.ended alive tcp follows (fun id => by rw [own]; rfl) (fun _ => by rfl) (fun _ => by rfl) rfl rfl rfl
        ⟨[], rfl⟩ (fun sock q after => update_none_eq_some after) rfl spared rfl (.inl rfl)
    · exact guarded.ended alive tcp follows (fun id => by rw [own]; rfl) (fun _ => by rfl) (fun _ => by rfl) rfl rfl rfl
        ⟨[], rfl⟩ (fun sock q after => update_none_eq_some after) rfl spared rfl (.inr rfl)
    · refine guarded.frame follows rfl rfl rfl (fun id _ => by simp [emit, Event.opens, Event.closes])
        (guarded.quiet.snoc ?_) (fun _ _ => fun before => before) (List.Sublist.refl _) rfl (.inr rfl)
      intro j uses
      rw [← beq_iff_eq.mp uses, own]
      exact opened
  · have error := shut c rfl kicked
    obtain ⟨session, found, closed⟩ := kicked
    rcases postRead_cases found taken with ⟨_, _, rfl⟩ | ⟨_, heap, _⟩ | ⟨delivered, _⟩
    · exact guarded.failed found closed follows rfl rfl rfl ⟨[], rfl⟩
        (fun sock q after => (update_none_eq_some after).1) rfl rfl rfl
    · exact absurd (guarded.sound.connectors c session found) heap
    · exact absurd error delivered

/-- A session that was dropped is deleted: it was not alive before. -/
theorem Guarded.delSession (guarded : s.Guarded) {p : SessionPtr} (drops : s.pc = .dropCallBack p)
    {t : NetService} (taken : s.delSession p = some t) (follows : s.Follows { t with pc := .idle }) :
    ({ t with pc := .idle } : NetService).Guarded := by
  obtain ⟨n, session, rfl, found⟩ := guarded.sound.dropping p drops
  obtain ⟨stored, kind⟩ := guarded.sound.heap n session found
  have dead := guarded.dropped _ session drops found
  rw [delSession_eq found stored kind] at taken
  cases Option.some.inj taken
  have closed : ∀ id, lifetime.closed id (s.removed (.heap n) session).trace = lifetime.closed id s.trace := fun id =>
    closed_sockets id s.trace session.closing.toList
  have alive : (s.removed (.heap n) session).alive = s.alive := funext fun id => by
    by_cases same : id = session.sessionID
    · subst same
      rw [alive_of_closed dead, alive_of_closed ((closed _).trans dead)]
    · exact alive_congr (closed id) (Function.update_of_ne same _ _) fun q stored' =>
        Function.update_of_ne (guarded.other same stored stored') _ _
  refine ⟨follows.1, fun c session' found' shut => follows.lost (guarded.lost c session' found' shut), ?_, ?_,
    quiet_sockets guarded.quiet _, nofun, ?_⟩
  · exact fun id c session' stored' found' => guarded.own_erased stored' found'
  · intro c trying session' found'
    exact guarded.unclosed c trying session' found'
  · exact guarded.watched.frame alive (fun c shut => shut) (fun sock q after => (closed_epoll after).1)
      (List.Sublist.refl _) (fun key id after => (guarded.unmapped stored found after).1) (.inr rfl)

/-- A batch refers to registrations, each descriptor once. -/
theorem Guarded.epollWait (guarded : s.Guarded) {batch : List PollEvent} (polled : s.Polled batch)
    (idle : s.pc = .idle) (follows : s.Follows { s with events := batch }) :
    ({ s with events := batch } : NetService).Guarded := by
  obtain ⟨once, registered⟩ := polled
  refine ⟨follows.1, guarded.lost, guarded.own, guarded.unclosed, guarded.quiet, guarded.dropped, ?_⟩
  refine guarded.watched.move (fun _ => False) (fun id p session _ before => ⟨session.alive, before⟩)
    (fun c shut => shut) (fun sock p after => .inl ⟨after, fun _ _ _ given => given⟩)
    (fun event member p context => .inr ?_) ?_ (fun key id after => .inl ⟨after, fun given => given⟩) ?_ ?_
  · obtain ⟨id, session, alive, _, _, tcp⟩ := guarded.watched.registered _ p (context ▸ registered event member)
    exact .inl ⟨id, session, alive, tcp⟩
  · refine (List.pairwise_map.mp once).imp_of_mem fun {a b} memberA memberB differ p contextA contextB => differ ?_
    -- A session is registered with its own descriptor.
    obtain ⟨_, session, alive, socket, _⟩ := guarded.watched.registered _ p (contextA ▸ registered a memberA)
    obtain ⟨_, session', alive', socket', _⟩ := guarded.watched.registered _ p (contextB ▸ registered b memberB)
    cases Option.some.inj ((alive_eq_some.mp alive).2.2.symm.trans (alive_eq_some.mp alive').2.2)
    exact socket.symm.trans socket'
  · intro _ _ _ _ opening
    cases idle.symm.trans opening
  · intro c connecting
    cases idle.symm.trans connecting

theorem Guarded.pop (guarded : s.Guarded) {event : PollEvent} {rest : List PollEvent} (events : s.events = event :: rest) :
    ({ s with events := rest } : NetService).Guarded := by
  have popped : Keeps s { s with events := rest } := guarded.sound.elsewhere leaves_rest (.inl rfl)
  exact guarded.frame ⟨popped.1, fun id => (popped.2 id).le⟩ rfl rfl rfl (fun _ _ => rfl) guarded.quiet (fun _ _ => id)
    (events ▸ List.sublist_cons_self event rest) rfl (.inl rfl)

theorem Guarded.kickSession (guarded : s.Guarded) {id : SessionID} (spares : s.Spares (.kickSession id))
    (follows : s.Follows s') (taken : s.kickSession id = some s') : s'.Guarded := by
  cases stored : s.sessions id with
  | none =>
    rw [kickSession_none stored] at taken
    cases Option.some.inj taken
    exact guarded.frame follows rfl rfl rfl (fun _ _ => rfl) guarded.quiet (fun _ _ => fun before => before)
      (List.Sublist.refl _) rfl (.inl rfl)
  | some p =>
    obtain ⟨session, found, _⟩ := guarded.sound.stored id p stored
    obtain rfl := guarded.own_id stored found
    cases p with
    | heap n =>
      rw [kickSession_heap found stored (guarded.sound.heap n session found).2] at taken
      cases Option.some.inj taken
      exact guarded.kick_heap found spares follows
    | connector c =>
      rw [kickSession_connector found stored (guarded.sound.connectors c session found)] at taken
      cases Option.some.inj taken
      exact guarded.kick_connector found stored spares follows

theorem Guarded.step (guarded : s.Guarded) {action : Action} (spares : s.Spares action)
    (taken : s.step action = some s') : s'.Guarded := by
  have follows := guarded.follows spares taken
  cases step_took taken with
  | newConnector user free => exact guarded.newConnector free follows
  | addTCPListener user => exact guarded.addListener (by simp) rfl follows
  | addUDPListener user => exact guarded.addListener (by simp) rfl follows
  | addTCPConnector user result => exact guarded.addTCPConnector follows spares result
  | kickSession user issued result => exact guarded.kickSession spares follows result
  | postAccept idle => exact guarded.goto follows rfl
  | postConnect idle result => exact spares.elim
  | postRead idle result => exact spares.elim
  | postReadFrom idle => exact guarded.goto follows rfl
  | epollWait idle polled => exact guarded.epollWait polled idle follows
  | ignored idle events => exact guarded.pop events
  | accepting idle events context => exact (guarded.pop events).goto follows rfl
  | connecting idle events context out result =>
    exact (guarded.pop events).postConnect ((spares _ _ events).1 _ context out) follows result
  | @reading _ _ event _ p _ idle events context result =>
    have pending : s.Pending p := guarded.watched.pending event (events ▸ List.mem_cons_self ..) p context
    have apart := guarded.watched.apart
    rw [events, List.pairwise_cons] at apart
    exact (guarded.pop events).postRead pending (fun later member => apart.1 later member p context)
      (fun c same => (spares _ _ events).2 c (same ▸ context)) follows result
  | receiving idle events context => exact (guarded.pop events).goto follows rfl
  | accept pc result => exact guarded.acceptRound follows result
  | recvfrom pc result => exact guarded.receiveRound follows result
  | accepted pc => exact guarded.goto follows rfl
  | connected pc result => exact guarded.connected pc (spares _ pc) follows result
  | @opened _ listener data id nread pc =>
    obtain ⟨⟨p, session⟩, alive⟩ := Option.isSome_iff_exists.mp (guarded.watched.opening _ _ _ _ pc)
    refine guarded.frame follows rfl rfl rfl (fun j _ => by simp [emit, Event.opens, Event.closes])
      (guarded.quiet.snoc ?_) (fun _ _ => fun before => before) (List.Sublist.refl _) rfl (.inr rfl)
    intro j uses
    rw [← beq_iff_eq.mp uses]
    exact (alive_eq_some.mp alive).1
  | delivered pc => exact guarded.goto follows rfl
  | dropped pc result => exact guarded.delSession pc result follows
  | returned pc => exact guarded.goto follows rfl

theorem initSession_guarded : initSession.Guarded where
  sound := initSession_sound
  lost := nofun
  own := nofun
  unclosed := nofun
  quiet := Lifetime.respected_nil
  dropped := nofun
  watched := ⟨nofun, nofun, List.Pairwise.nil, nofun, nofun, nofun⟩

/-- In every run that spares the sessions in hand, nothing is done for a session
    after it is gone. -/
theorem no_event_for_dead_session (s : NetService) (reached : Reachable Spares s) : s.Undisturbed := by
  refine Guarded.undisturbed (Transition.Reachable.invariant ?_ ?_ reached)
  · rintro _ rfl
    exact initSession_guarded
  · rintro s s' _ guarded ⟨action, spares, taken⟩
    exact guarded.step spares taken

/-- In a batch of two events the first session is kicked by its own callback. -/
theorem one_event_undisturbed : ∃ s, Reachable Spares s ∧ s.trace = [.opened 7, .onAddConnection 1 7 ⟨0, 0⟩, .opened 8,
    .onAddConnection 2 8 ⟨1, 0⟩, .onData 1 7 (readLoop [[1]]).1 1, .kick 1, .closed 7,
    .onData 2 8 (readLoop [[2]]).1 1] ∧ s.Undisturbed := by
  have listening : Reachable Spares _ := Reachable.init.act (.postAccept 3) trivial rfl
  have first := (listening.act (.accept (some ⟨7, ⟨0, 0⟩, true⟩)) trivial rfl).act (.resume true) nofun rfl
  have second := (first.act (.accept (some ⟨8, ⟨1, 0⟩, true⟩)) trivial rfl).act (.resume true) nofun rfl
  have drained := second.act (.accept none) trivial rfl
  have polled := drained.act (.epollWait [⟨7, .read (.heap 0), true, false⟩, ⟨8, .read (.heap 1), true, false⟩])
    trivial rfl
  have read := polled.act (.dispatch [[1]] .again) (by rintro event rest ⟨⟩; exact ⟨nofun, nofun⟩) rfl
  have kicked := read.act (.kickSession 1) (by
    rintro p ⟨⟩
    have later : Context.read (.heap 1) ≠ .read (.heap 0) := by decide
    exact ⟨fun _ _ => List.forall_mem_singleton.mpr later, nofun, nofun⟩) rfl
  have returned := kicked.act (.resume true) nofun rfl
  have read' := returned.act (.dispatch [[2]] .again) (by rintro event rest ⟨⟩; exact ⟨nofun, nofun⟩) rfl
  exact ⟨_, read', rfl, no_event_for_dead_session _ read'⟩

/-- Like `Spares`, but any live session may be kicked. -/
def Serves (s : NetService) : Action → Prop
  | .kickSession id => (s.alive id).isSome
  | action => s.Spares action

/-- Two sessions are readable in one batch, and the callback for the first kicks
    the second: its event is still to come. -/
theorem kicked_session_disturbs : ¬ ∀ s, Reachable Serves s → s.Undisturbed := by
  intro claim
  have listening : Reachable Serves _ := Reachable.init.act (.postAccept 3) trivial rfl
  have first := (listening.act (.accept (some ⟨7, ⟨0, 0⟩, true⟩)) trivial rfl).act (.resume true) nofun rfl
  have second := (first.act (.accept (some ⟨8, ⟨1, 0⟩, true⟩)) trivial rfl).act (.resume true) nofun rfl
  have drained := second.act (.accept none) trivial rfl
  have polled := drained.act (.epollWait [⟨7, .read (.heap 0), true, false⟩, ⟨8, .read (.heap 1), true, false⟩])
    trivial rfl
  have read := polled.act (.dispatch [[1]] .again) (by rintro event rest ⟨⟩; exact ⟨nofun, nofun⟩) rfl
  have kicked := read.act (.kickSession 2) rfl rfl
  have dispatched := (claim _ kicked).dispatched ⟨8, .read (.heap 1), true, false⟩ (List.mem_singleton_self _) _ rfl
  cases dispatched

end NetService

end LiteServer.Net
