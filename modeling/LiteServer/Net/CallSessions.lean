import LiteServer.Net.Calls

/-!
The sessions that a call makes, and the IDs they take, whatever the callbacks
do in between that kicks no session.
-/
namespace LiteServer.Net

/-- All but the descriptors that were handed out. -/
def Event.told : Event → Bool
  | .opened _ => false
  | _ => true

def Event.announces : Event → Bool
  | .onAddConnection _ _ _ => true
  | _ => false

/-- What is told of a session that was made. -/
def Session.announced (session : Session) : Event :=
  .onAddConnection session.sessionID session.socket session.address

namespace NetService
variable {start s s' : NetService} {action : Action} {made : List Session} {told : List Event}

/-! ### Callbacks -/

/-- A step of the user that kicks no session. -/
inductive UserTook (s : NetService) : Action → NetService → Prop where
  | newConnector {c sock} (free : s.objects (.connector c) = none) : s.UserTook (.newConnector c sock)
      ((s.emit (.opened sock)).setObject (.connector c) ⟨false, sock, .connect, ⟨0, 0⟩, some sock, 0⟩)
  | listens {action : Action} {sock context added} : s.UserTook action ((s.epollAdd sock context added).getD s)
  | addTCPConnector {c added connecting ok} {s' : NetService}
      (result : s.addTCPConnector c added connecting = some (ok, s')) : s.UserTook (.addTCPConnector c added connecting) s'

theorem user_took (byUser : action.byUser = true) (unkicked : ∀ id, action ≠ .kickSession id)
    (taken : s.step action = some s') : s.UserTook action s' := by
  cases step_took taken with
  | newConnector user free => exact .newConnector free
  | addTCPListener user => exact .listens
  | addUDPListener user => exact .listens
  | addTCPConnector user result => exact .addTCPConnector result
  | kickSession user issued result => exact absurd rfl (unkicked _)
  | _ => cases byUser

/-- What the calls of a callback leave alone that kicks no session: sessions
    from `new`, the table, the map and what is registered. IDs go to attempts. -/
structure Beside (s s' : NetService) : Prop where
  pc : s'.pc = s.pc
  sessions : s'.sessions = s.sessions
  heap : ∀ n, s'.objects (.heap n) = s.objects (.heap n)
  allocated : s'.allocated = s.allocated
  mapUDPSessions : s'.mapUDPSessions = s.mapUDPSessions
  ids : ∃ started : List SessionID, s.queSessionID.Perm (s'.queSessionID ++ started) ∧
    s'.attempts.length = s.attempts.length + started.length
  epoll : ∀ sock context, s.epoll sock = some context → s'.epoll sock = some context
  trace : ∃ more, s'.trace = s.trace ++ more ∧ ∀ event ∈ more, ∃ sock, event = .opened sock

theorem ids_same (queue : s.queSessionID.Perm s'.queSessionID) (attempts : s'.attempts = s.attempts) :
    ∃ started : List SessionID, s.queSessionID.Perm (s'.queSessionID ++ started) ∧
      s'.attempts.length = s.attempts.length + started.length :=
  ⟨[], by rwa [List.append_nil], by rw [attempts]; rfl⟩

theorem opens_none (trace : s'.trace = s.trace) :
    ∃ more, s'.trace = s.trace ++ more ∧ ∀ event ∈ more, ∃ sock, event = Event.opened sock :=
  ⟨[], by rw [trace, List.append_nil], by simp⟩

theorem beside_epollAdd (sock : Socket) (context : Context) (added : Bool) :
    s.Beside ((s.epollAdd sock context added).getD s) := by
  unfold epollAdd
  split
  · rename_i room
    refine ⟨rfl, rfl, fun _ => rfl, rfl, rfl, ids_same (.refl _) rfl, fun fd context' registered => ?_, opens_none rfl⟩
    have differ : fd ≠ sock := by
      rintro rfl
      simp [registered] at room
    exact (Function.update_of_ne differ _ _).trans registered
  · exact ⟨rfl, rfl, fun _ => rfl, rfl, rfl, ids_same (.refl _) rfl, fun _ _ registered => registered, opens_none rfl⟩

theorem beside_addTCPConnector {c : Nat} {added connecting ok : Bool} (positive : 0 ∉ s.queSessionID)
    (result : s.addTCPConnector c added connecting = some (ok, s')) : s.Beside s' := by
  obtain ⟨session, found, _⟩ := Option.bind_eq_some_iff.mp result
  have heap : ∀ (session' : Session) n, Function.update s.objects (.connector c) (some session') (.heap n) =
      s.objects (.heap n) :=
    fun _ _ => Function.update_of_ne (by simp) _ _
  have registers : s.epoll session.socket = none → ∀ sock context, s.epoll sock = some context →
      Function.update s.epoll session.socket (some (.connect c)) sock = some context := by
    intro free sock context registered
    have differ : sock ≠ session.socket := by
      rintro rfl
      cases free.symm.trans registered
    exact (Function.update_of_ne differ _ _).trans registered
  cases queue : s.queSessionID with
  | nil =>
    rw [addTCPConnector_unnumbered found queue] at result
    cases result
    exact ⟨rfl, rfl, heap { session with alive := false }, rfl, rfl, ids_same (.refl _) rfl,
      fun _ _ registered => registered, opens_none rfl⟩
  | cons id rest =>
    have nonzero := head_ne_zero positive queue
    let numbered : Session := { session with alive := false, sessionID := id }
    have turned : s.queSessionID.Perm (rest ++ [id]) := by
      rw [queue]
      exact (List.perm_append_singleton id rest).symm
    by_cases room : added = true ∧ s.epoll session.socket = none
    · rw [addTCPConnector_added nonzero found queue room] at result
      cases connecting <;> cases result
      · exact ⟨rfl, rfl, heap numbered, rfl, rfl, ids_same turned rfl, registers room.2, opens_none rfl⟩
      · exact ⟨rfl, rfl, heap numbered, rfl, rfl, ⟨[id], turned, by simp [setObject]⟩, registers room.2, opens_none rfl⟩
    · rw [addTCPConnector_refused nonzero found queue room] at result
      cases result
      exact ⟨rfl, rfl, heap numbered, rfl, rfl, ids_same turned rfl, fun _ _ registered => registered, opens_none rfl⟩

theorem beside_of_user (positive : 0 ∉ s.queSessionID) (took : s.UserTook action s') : s.Beside s' := by
  cases took with
  | @newConnector c sock free =>
    exact ⟨rfl, rfl, setObject_heap, rfl, rfl, ids_same (.refl _) rfl,
      fun _ _ registered => registered, [.opened sock], rfl, by simp⟩
  | listens => exact beside_epollAdd _ _ _
  | addTCPConnector result => exact beside_addTCPConnector positive result

/-! ### Sessions -/

/-- The free IDs are distinct and not in use, and `new` gives unused objects. -/
structure Ready (s : NetService) : Prop where
  once : s.queSessionID.Nodup
  free : ∀ id ∈ s.queSessionID, s.sessions id = none
  positive : 0 ∉ s.queSessionID
  filed : ∀ id n, s.sessions id = some (.heap n) → n < s.allocated
  fresh : ∀ n session, s.objects (.heap n) = some session → n < s.allocated

theorem initSession_ready (pc : Pc) : Ready { initSession with pc := pc } where
  once := List.nodup_range'
  free _ _ := rfl
  positive := by simp [initSession, List.mem_range'_1]
  filed := by simp [initSession]
  fresh := by simp [initSession]

/-- The sessions that were made since `s`, each under a free ID that it took,
    and what was told. Other IDs went to attempts only. -/
structure Made (s : NetService) (made : List Session) (told : List Event) (s' : NetService) : Prop where
  ids : ∃ started : List SessionID, s.queSessionID.Perm (s'.queSessionID ++ (made.map Session.sessionID ++ started)) ∧
    s'.attempts.length = s.attempts.length + started.length
  allocated : s'.allocated = s.allocated + made.length
  table : ∀ id, id ∉ made.map Session.sessionID → s'.sessions id = s.sessions id
  each : ∀ session ∈ made, ∃ n, s.allocated ≤ n ∧ n < s'.allocated ∧ s'.sessions session.sessionID = some (.heap n) ∧
    s'.objects (.heap n) = some session
  heap : ∀ n < s.allocated, s'.objects (.heap n) = s.objects (.heap n)
  fresh : ∀ n session, s'.objects (.heap n) = some session → n < s'.allocated
  trace : ∃ more, s'.trace = s.trace ++ more ∧ more.filter Event.told = told

/-- What the trace has more. -/
def during (s s' : NetService) : List Event := s'.trace.drop s.trace.length

theorem Ready.none_made (ready : s.Ready) : s.Made [] [] s where
  ids := ⟨[], by simp, rfl⟩
  allocated := rfl
  table _ _ := rfl
  each := by simp
  heap _ _ := rfl
  fresh := ready.fresh
  trace := ⟨[], by simp, rfl⟩

theorem Made.during (grown : s.Made made told s') : (s.during s').filter Event.told = told := by
  obtain ⟨more, trace, filtered⟩ := grown.trace
  rw [NetService.during, trace, List.drop_left, filtered]

/-- A kind of events that are told. -/
theorem Made.filtered (grown : s.Made made told s') (kind : Event → Bool)
    (tells : ∀ event, kind event = true → event.told = true) : (s.during s').filter kind = told.filter kind := by
  rw [← grown.during, List.filter_filter]
  refine List.filter_congr fun event _ => ?_
  cases kept : kind event
  · rfl
  · simp [tells event kept]

theorem Made.filterMapped {α : Type} (grown : s.Made made told s') (view : Event → Option α)
    (tells : ∀ event, event.told = false → view event = none) : (s.during s').filterMap view = told.filterMap view := by
  rw [← grown.during, List.filterMap_filter]
  refine List.filterMap_congr fun event _ => ?_
  cases kept : event.told
  · simp [tells event kept]
  · rfl

/-- One session that was made is told of in the events of a kind that tells of
    no other. -/
theorem announced_once (once : made.Nodup) {session : Session} (member : session ∈ made) {kind : Event → Bool}
    (only : ∀ other ∈ made, kind other.announced = true ↔ other = session) :
    (made.map Session.announced).filter kind = [session.announced] := by
  rw [List.filter_map, ← List.map_singleton (f := Session.announced)]
  congr 1
  rw [← List.perm_singleton, List.perm_ext_iff_of_nodup (once.filter _) (List.nodup_singleton session)]
  intro other
  rw [List.mem_filter, List.mem_singleton]
  constructor
  · rintro ⟨inside, kept⟩
    exact (only other inside).mp kept
  · rintro rfl
    exact ⟨member, (only other member).mpr rfl⟩

theorem Made.free (grown : start.Made made told s) {id : SessionID} (member : id ∈ s.queSessionID) :
    id ∈ start.queSessionID := by
  obtain ⟨started, shared, _⟩ := grown.ids
  exact shared.symm.subset (List.mem_append_left _ member)

theorem Made.taken (grown : start.Made made told s) {session : Session} (member : session ∈ made) :
    session.sessionID ∈ start.queSessionID := by
  obtain ⟨started, shared, _⟩ := grown.ids
  refine shared.symm.subset (List.mem_append_right _ (List.mem_append_left _ ?_))
  exact List.mem_map_of_mem member

theorem Made.distinct (grown : start.Made made told s) (ready : start.Ready) :
    s.queSessionID.Nodup ∧ (made.map Session.sessionID).Nodup ∧
      ∀ id ∈ s.queSessionID, id ∉ made.map Session.sessionID := by
  obtain ⟨started, shared, _⟩ := grown.ids
  obtain ⟨queue, rest, apart⟩ := List.nodup_append.mp (shared.nodup_iff.mp ready.once)
  refine ⟨queue, (List.nodup_append.mp rest).1, fun id free used => ?_⟩
  exact apart id free id (List.mem_append_left _ used) rfl

theorem Made.ready (grown : start.Made made told s) (ready : start.Ready) : s.Ready := by
  obtain ⟨once, _, apart⟩ := grown.distinct ready
  refine ⟨once, ?_, fun zero => ready.positive (grown.free zero), ?_, grown.fresh⟩
  · intro id member
    rw [grown.table id (apart id member)]
    exact ready.free id (grown.free member)
  · intro id n stored
    by_cases mine : id ∈ made.map Session.sessionID
    · obtain ⟨session, member, rfl⟩ := List.mem_map.mp mine
      obtain ⟨m, _, below, filed, _⟩ := grown.each session member
      cases stored.symm.trans filed
      exact below
    · rw [grown.table id mine] at stored
      rw [grown.allocated]
      exact Nat.lt_add_right _ (ready.filed id n stored)

/-- A callback does what it may. -/
theorem Made.beside (grown : start.Made made told s) (beside : s.Beside s') : start.Made made told s' where
  ids := by
    obtain ⟨started, shared, attempts⟩ := grown.ids
    obtain ⟨more, spent, attempts'⟩ := beside.ids
    refine ⟨more ++ started, ?_, by rw [attempts', attempts, List.length_append]; omega⟩
    refine (shared.trans (spent.append_right _)).trans ?_
    rw [List.append_assoc]
    exact (List.perm_append_comm_assoc ..).append_left _
  allocated := beside.allocated.trans grown.allocated
  table id other := by rw [beside.sessions, grown.table id other]
  each session member := by
    rw [beside.allocated, beside.sessions]
    obtain ⟨n, above, below, stored, found⟩ := grown.each session member
    exact ⟨n, above, below, stored, (beside.heap n).trans found⟩
  heap n below := (beside.heap n).trans (grown.heap n below)
  fresh n session found := by
    rw [beside.allocated]
    exact grown.fresh n session ((beside.heap n).symm.trans found)
  trace := by
    obtain ⟨more, trace, filtered⟩ := grown.trace
    obtain ⟨opened, trace', silent⟩ := beside.trace
    refine ⟨more ++ opened, by rw [trace', trace, List.append_assoc], ?_⟩
    have untold : opened.filter Event.told = [] := by
      rw [List.filter_eq_nil_iff]
      intro event member
      obtain ⟨sock, rfl⟩ := silent event member
      simp [Event.told]
    rw [List.filter_append, filtered, untold, List.append_nil]

theorem Made.turned (grown : start.Made made told s) (pc : Pc) : start.Made made told { s with pc := pc } :=
  ⟨grown.ids, grown.allocated, grown.table, grown.each, grown.heap, grown.fresh, grown.trace⟩

theorem told_snoc {news : List Event} (trace : ∃ more, s.trace = start.trace ++ more ∧ more.filter Event.told = told)
    (trace' : s'.trace = s.trace ++ news) :
    ∃ more, s'.trace = start.trace ++ more ∧ more.filter Event.told = told ++ news.filter Event.told := by
  obtain ⟨more, trace, filtered⟩ := trace
  exact ⟨more ++ news, by rw [trace', trace, List.append_assoc], by rw [List.filter_append, filtered]⟩

/-- No session is made. -/
theorem Made.stays (grown : start.Made made told s) (queue : s.queSessionID.Perm s'.queSessionID)
    (sessions : s'.sessions = s.sessions) (objects : s'.objects = s.objects) (allocated : s'.allocated = s.allocated)
    (attempts : s'.attempts = s.attempts) {news : List Event} (trace : s'.trace = s.trace ++ news) :
    start.Made made (told ++ news.filter Event.told) s' where
  ids := by
    obtain ⟨started, shared, grows⟩ := grown.ids
    exact ⟨started, shared.trans (queue.append_right _), attempts ▸ grows⟩
  allocated := allocated.trans grown.allocated
  table id other := by rw [sessions, grown.table id other]
  each := by rw [allocated, sessions, objects]; exact grown.each
  heap := by rw [objects]; exact grown.heap
  fresh := by rw [objects, allocated]; exact grown.fresh
  trace := told_snoc grown.trace trace

/-- A session is made under the ID at the front. -/
theorem Made.opens (grown : start.Made made told s) (ready : start.Ready) (session : Session) {rest : List SessionID}
    (front : s.queSessionID = session.sessionID :: rest) (queue : s'.queSessionID = rest)
    (sessions : s'.sessions = Function.update s.sessions session.sessionID (some (.heap s.allocated)))
    (objects : s'.objects = Function.update s.objects (.heap s.allocated) (some session))
    (allocated : s'.allocated = s.allocated + 1) (attempts : s'.attempts = s.attempts) {news : List Event}
    (trace : s'.trace = s.trace ++ news) : start.Made (made ++ [session]) (told ++ news.filter Event.told) s' where
  ids := by
    obtain ⟨started, shared, grows⟩ := grown.ids
    refine ⟨started, shared.trans ?_, attempts ▸ grows⟩
    rw [front, queue]
    have moved : (session.sessionID :: (rest ++ made.map Session.sessionID ++ started)).Perm
        (rest ++ made.map Session.sessionID ++ session.sessionID :: started) := List.perm_middle.symm
    simpa using moved
  allocated := by rw [allocated, grown.allocated, List.length_append, List.length_singleton, Nat.add_assoc]
  table id other := by
    simp only [List.map_append, List.map_cons, List.map_nil, List.mem_append, List.mem_singleton, not_or] at other
    rw [sessions, Function.update_of_ne other.2, grown.table id other.1]
  each session' member := by
    rw [allocated, sessions, objects]
    rcases List.mem_append.mp member with before | now
    · obtain ⟨n, above, below, stored, found⟩ := grown.each session' before
      have differ : session'.sessionID ≠ session.sessionID := by
        intro same
        refine (grown.distinct ready).2.2 session.sessionID (by simp [front]) ?_
        exact same ▸ List.mem_map_of_mem before
      refine ⟨n, above, Nat.lt_succ_of_lt below, (Function.update_of_ne differ _ _).trans stored, ?_⟩
      exact (Function.update_of_ne (by simpa using below.ne) _ _).trans found
    · rw [List.mem_singleton.mp now]
      refine ⟨s.allocated, ?_, Nat.lt_succ_self _, Function.update_self .., Function.update_self ..⟩
      rw [grown.allocated]
      exact Nat.le_add_right _ _
  heap n below := by
    have differ : n ≠ s.allocated := by
      rw [grown.allocated]
      omega
    rw [objects, Function.update_of_ne (by simpa using differ)]
    exact grown.heap n below
  fresh n session' found := by
    rw [objects] at found
    rw [allocated]
    rcases update_eq_some found with ⟨same, _⟩ | before
    · cases same
      exact Nat.lt_succ_self _
    · exact Nat.lt_succ_of_lt (grown.fresh n session' before)
  trace := told_snoc grown.trace trace

end NetService

end LiteServer.Net
