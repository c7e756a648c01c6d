import LiteServer.Lib.Latest
import LiteServer.Net.Outcomes

/-!
Who closes a descriptor on the epoll backend: its accepted session, or its
connector as long as `PostConnect` did not close it under the `Sock`.
-/
namespace LiteServer.Net

namespace Event

/-- What an event says of a descriptor: that it is open from now on, or closed. -/
def opensDescriptor (sock : Socket) : Event → Option Bool
  | .opened fd => if fd = sock then some true else none
  | .closed fd => if fd = sock then some false else none
  | _ => none

/-- A close takes the descriptor to be open. -/
def closesDescriptor (sock : Socket) : Event → Option Bool
  | .closed fd => if fd = sock then some true else none
  | _ => none

end Event

def descriptors : Latest.Marks Socket Bool Event := ⟨Event.opensDescriptor, Event.closesDescriptor⟩

namespace NetService
variable {s s' : NetService} {cut : List Nat} {sock x : Socket} {p q : SessionPtr} {c n : Nat}

/-- A descriptor was obtained from the system and not closed since. -/
def Unclosed (s : NetService) (sock : Socket) : Prop := descriptors.latest sock s.trace = some true

/-- No descriptor was obtained or closed. -/
def Silent (s s' : NetService) : Prop :=
  ∃ more, s'.trace = s.trace ++ more ∧ ∀ event ∈ more, ∀ sock, event.opensDescriptor sock = none

theorem silent_rest {queSessionID : List SessionID} {mapUDPSessions : BitVec 64 → Option SessionID}
    {sessions : SessionID → Option SessionPtr} {objects : SessionPtr → Option Session} {allocated : Nat}
    {epoll : Socket → Option Context} {pc : Pc} {events : List PollEvent} {attempts : List Nat}
    {issued accesses : List SessionID} : s.Silent ⟨queSessionID, mapUDPSessions, sessions, objects, allocated, epoll, pc,
      events, attempts, s.trace, issued, accesses⟩ :=
  ⟨[], (List.append_nil _).symm, by simp⟩

theorem silent_event {event : Event} (trace : s'.trace = s.trace ++ [event])
    (silent : ∀ sock, event.opensDescriptor sock = none) : s.Silent s' :=
  ⟨[event], trace, fun _ member => List.mem_singleton.mp member ▸ silent⟩

theorem Silent.live (silent : s.Silent s') (sock : Socket) : s'.Unclosed sock ↔ s.Unclosed sock := by
  obtain ⟨more, trace, unsaid⟩ := silent
  have latest : descriptors.latest sock (s.trace ++ more) = descriptors.latest sock s.trace :=
    Latest.latest_append fun event member => unsaid event member sock
  rw [Unclosed, Unclosed, trace, latest]

theorem Silent.once (silent : s.Silent s') (once : descriptors.Agreed s.trace) : descriptors.Agreed s'.trace := by
  obtain ⟨more, trace, unsaid⟩ := silent
  rw [trace]
  refine once.append fun event member sock => ?_
  have unsaid := unsaid event member sock
  cases event with
  | closed fd => simpa [descriptors, Event.closesDescriptor, Event.opensDescriptor] using unsaid
  | _ => rfl

theorem live_opened (trace : s'.trace = s.trace ++ [.opened sock]) (x : Socket) :
    s'.Unclosed x ↔ x = sock ∨ s.Unclosed x := by
  rw [Unclosed, trace, Latest.latest_snoc]
  by_cases same : sock = x
  · simp [descriptors, Event.opensDescriptor, same]
  · simp [descriptors, Event.opensDescriptor, same, Ne.symm same, Unclosed]

theorem live_closed (trace : s'.trace = s.trace ++ [.closed sock]) (x : Socket) :
    s'.Unclosed x ↔ x ≠ sock ∧ s.Unclosed x := by
  rw [Unclosed, trace, Latest.latest_snoc]
  by_cases same : sock = x
  · simp [descriptors, Event.opensDescriptor, same]
  · simp [descriptors, Event.opensDescriptor, same, Ne.symm same, Unclosed]

theorem once_opened (trace : s'.trace = s.trace ++ [.opened sock]) (once : descriptors.Agreed s.trace) :
    descriptors.Agreed s'.trace := by
  rw [trace]
  refine once.append fun event member x => ?_
  rw [List.mem_singleton.mp member]
  rfl

theorem once_closed (trace : s'.trace = s.trace ++ [.closed sock]) (live : s.Unclosed sock)
    (once : descriptors.Agreed s.trace) : descriptors.Agreed s'.trace := by
  rw [trace]
  refine once.snoc fun x value uses => ?_
  obtain ⟨rfl, rfl⟩ : sock = x ∧ true = value := by
    simpa [descriptors, Event.closesDescriptor] using uses
  exact live

/-! ### Owners -/

/-- The connector whose descriptor `PostConnect` closes when `OnConnected`
    returns, since it cannot be registered to be read. -/
def cutting (s : NetService) (changed : Bool) : Option Nat :=
  match s.pc with
  | .connectCallBack c =>
    match s.objects (.connector c) with
    | some session => if changed && (s.epoll session.socket).isSome then none else some c
    | none => none
  | _ => none

/-- What a step records of the connectors whose descriptor `PostConnect` closed. -/
def cuts (s : NetService) (cut : List Nat) : Action → List Nat
  | .resume changed => (s.cutting changed).toList ++ cut
  | _ => cut

theorem cuts_resume {changed : Bool} (elsewhere : ∀ c, s.pc ≠ .connectCallBack c) :
    s.cuts cut (.resume changed) = cut := by
  unfold cuts cutting
  cases pc : s.pc with
  | connectCallBack c => exact absurd pc (elsewhere c)
  | _ => rfl

theorem connected_cutting {changed : Bool} {session : Session} (pc : s.pc = .connectCallBack c)
    (found : s.objects (.connector c) = some session) (connect : session.sockType = .connect)
    (result : s.connected c changed = some s') :
    (s.cutting changed = none ∧ s' = s.confirmed c session) ∨
    (s.cutting changed = some c ∧
      s' = { (s.destroySocket session.socket).emit (.onConnectFail session.sessionID session.socket) with
        pc := .lastCallBack }) := by
  by_cases room : changed = true ∧ (s.epoll session.socket).isSome
  · left
    refine ⟨by simp [cutting, pc, found, room], ?_⟩
    simpa [connected, found, epollMod, room, setObject, confirmed] using result.symm
  · right
    refine ⟨by simp [cutting, pc, found, room], ?_⟩
    rcases connected_cases found connect result with ⟨changed, registered, _⟩ | same
    · exact absurd ⟨changed, registered⟩ room
    · exact same

/-- An accepted session closes its descriptor when it is removed, and a connector
    when it is kicked or cut. -/
def Owns (s : NetService) (cut : List Nat) (p : SessionPtr) (sock : Socket) : Prop :=
  ∃ session, s.objects p = some session ∧ session.sock = some sock ∧ session.sockType ≠ .udp ∧
    ∀ c ∈ cut, p ≠ .connector c

/-- A pointer whose session holds what it held before owned it before. -/
theorem Owns.back (owns : s'.Owns cut p x) (objects : s'.objects p = s.objects p) : s.Owns cut p x := by
  obtain ⟨session, found, held⟩ := owns
  exact ⟨session, objects ▸ found, held⟩

/-- One session was written. -/
theorem Owns.written (owns : s'.Owns cut p x) (session : Session)
    (objects : s'.objects = Function.update s.objects q (some session)) :
    s.Owns cut p x ∧ p ≠ q ∨ p = q ∧ session.sock = some x ∧ session.sockType ≠ .udp ∧ ∀ c ∈ cut, p ≠ .connector c := by
  by_cases same : p = q
  · subst same
    obtain ⟨session', found, held, kind, whole⟩ := owns
    rw [objects, Function.update_self] at found
    cases found
    exact .inr ⟨rfl, held, kind, whole⟩
  · exact .inl ⟨owns.back (by rw [objects, Function.update_of_ne same]), same⟩

/-- A session was written that holds what the one before held. -/
theorem Owns.renewed (owns : s'.Owns cut p x) {session : Session} (session' : Session) (found : s.objects q = some session)
    (sock : session'.sock = session.sock) (sockType : session'.sockType = session.sockType)
    (objects : s'.objects = Function.update s.objects q (some session')) : s.Owns cut p x := by
  rcases owns.written session' objects with ⟨before, _⟩ | ⟨rfl, held, kind, whole⟩
  · exact before
  · exact ⟨session, found, sock ▸ held, sockType ▸ kind, whole⟩

/-- One session was deleted. -/
theorem Owns.deleted (owns : s'.Owns cut p x) (objects : s'.objects = Function.update s.objects q none) :
    s.Owns cut p x ∧ p ≠ q := by
  have differ : p ≠ q := by
    rintro rfl
    obtain ⟨session, found, _⟩ := owns
    rw [objects, Function.update_self] at found
    cases found
  exact ⟨owns.back (by rw [objects, Function.update_of_ne differ]), differ⟩

/-- What holds of the sessions in every run: those from `new` are filed under
    their own IDs, and both copies of a descriptor agree until the one in the
    `Sock` is marked invalid. -/
structure Shaped (s : NetService) : Prop where
  positive : 0 ∉ s.queSessionID
  filed : ∀ id n, s.sessions id = some (.heap n) → id ≠ 0 ∧ n < s.allocated ∧
    ∀ session, s.objects (.heap n) = some session → session.sessionID = id
  heap : ∀ n session, s.objects (.heap n) = some session →
    session.sockType = .udp ∨ session.sockType = .accepted ∧ session.sock = some session.socket
  connector : ∀ c session, s.objects (.connector c) = some session →
    session.sockType = .connect ∧ ∀ sock, session.sock = some sock → sock = session.socket

theorem Shaped.taken (shaped : s.Shaped) {id : SessionID} {rest : List SessionID} (front : s.queSessionID = id :: rest) :
    0 ∉ rest :=
  fun member => shaped.positive (front ▸ List.mem_cons_of_mem _ member)

theorem Shaped.turned (shaped : s.Shaped) {id : SessionID} {rest : List SessionID} (front : s.queSessionID = id :: rest) :
    0 ∉ rest ++ [id] := by
  have nonzero := head_ne_zero shaped.positive front
  simp [shaped.taken front, Ne.symm nonzero]

/-- No session from `new` was made. -/
theorem Shaped.kept (shaped : s.Shaped) (positive : 0 ∉ s'.queSessionID) (allocated : s'.allocated = s.allocated)
    (filed : ∀ id n, s'.sessions id = some (.heap n) → s.sessions id = some (.heap n))
    (heap : ∀ n session, s'.objects (.heap n) = some session → s.objects (.heap n) = some session)
    (connector : ∀ c session, s'.objects (.connector c) = some session →
      session.sockType = .connect ∧ ∀ sock, session.sock = some sock → sock = session.socket) : s'.Shaped where
  positive := positive
  filed id n stored := by
    obtain ⟨nonzero, bound, own⟩ := shaped.filed id n (filed id n stored)
    exact ⟨nonzero, allocated ▸ bound, fun session found => own session (heap n session found)⟩
  heap n session found := shaped.heap n session (heap n session found)
  connector := connector

theorem Shaped.same (shaped : s.Shaped) (positive : 0 ∉ s'.queSessionID) (sessions : s'.sessions = s.sessions)
    (objects : s'.objects = s.objects) (allocated : s'.allocated = s.allocated) : s'.Shaped := by
  refine shaped.kept positive allocated ?_ ?_ ?_
  · exact fun id n stored => sessions ▸ stored
  · exact fun n session found => objects ▸ found
  · exact fun c session found => shaped.connector c session (objects ▸ found)

/-- The session of a connector was written. -/
theorem Shaped.renewed (shaped : s.Shaped) (session : Session) (positive : 0 ∉ s'.queSessionID)
    (allocated : s'.allocated = s.allocated)
    (filed : ∀ id n, s'.sessions id = some (.heap n) → s.sessions id = some (.heap n))
    (objects : s'.objects = Function.update s.objects (.connector c) (some session))
    (connect : session.sockType = .connect) (copies : ∀ sock, session.sock = some sock → sock = session.socket) :
    s'.Shaped := by
  refine shaped.kept positive allocated filed ?_ ?_
  · intro n session' found
    rwa [objects, Function.update_of_ne (by simp)] at found
  · intro d session' found
    rw [objects] at found
    rcases update_eq_some found with ⟨_, new⟩ | before
    · cases new
      exact ⟨connect, copies⟩
    · exact shaped.connector d session' before

/-- A session from `new` was made and filed. -/
theorem Shaped.entered (shaped : s.Shaped) (session : Session) {rest : List SessionID}
    (front : s.queSessionID = session.sessionID :: rest) (queue : s'.queSessionID = rest)
    (kind : session.sockType = .udp ∨ session.sockType = .accepted ∧ session.sock = some session.socket)
    (allocated : s'.allocated = s.allocated + 1)
    (sessions : s'.sessions = Function.update s.sessions session.sessionID (some (.heap s.allocated)))
    (objects : s'.objects = Function.update s.objects (.heap s.allocated) (some session)) : s'.Shaped where
  positive := queue ▸ shaped.taken front
  filed id n stored := by
    rw [sessions] at stored
    rw [allocated, objects]
    rcases update_eq_some stored with ⟨rfl, new⟩ | before
    · cases new
      refine ⟨head_ne_zero shaped.positive front, Nat.lt_succ_self _, ?_⟩
      rintro session' found
      rw [Function.update_self] at found
      cases found
      rfl
    · obtain ⟨nonzero, bound, own⟩ := shaped.filed id n before
      refine ⟨nonzero, Nat.lt_succ_of_lt bound, fun session' found => own session' ?_⟩
      have differ : SessionPtr.heap n ≠ .heap s.allocated := by
        rintro ⟨⟩
        exact Nat.lt_irrefl _ bound
      rwa [Function.update_of_ne differ] at found
  heap n session' found := by
    rw [objects] at found
    rcases update_eq_some found with ⟨_, new⟩ | before
    · cases new
      exact kind
    · exact shaped.heap n session' before
  connector c session' found := by
    rw [objects, Function.update_of_ne (by simp)] at found
    exact shaped.connector c session' found

/-- `DelSession` on a session from `new`, found in the table under some ID. -/
theorem Shaped.removed (shaped : s.Shaped) {session : Session} {p : SessionPtr} (nonzero : session.sessionID ≠ 0) :
    (s.removed p session).Shaped := by
  refine shaped.kept ?_ rfl ?_ ?_ ?_
  · simpa [NetService.removed, Ne.symm nonzero] using shaped.positive
  · exact fun id n stored => (update_none_eq_some stored).1
  · exact fun n session' found => (update_none_eq_some found).1
  · exact fun c session' found => shaped.connector c session' (update_none_eq_some found).1

theorem Shaped.closeSock (shaped : s.Shaped) (result : s.closeSock (.connector c) = some s') : s'.Shaped := by
  obtain ⟨session, found, _⟩ := Option.bind_eq_some_iff.mp result
  obtain ⟨connect, _⟩ := shaped.connector c session found
  rcases closeSock_cases found result with rfl | ⟨sock, held, rfl⟩
  · exact shaped
  · exact shaped.renewed { session with sock := none } shaped.positive rfl (fun _ _ stored => stored) rfl connect (by simp)

/-- What `DelSession` does, whatever the table has under the ID of the session. -/
theorem Shaped.delSession_cases (shaped : s.Shaped) (result : s.delSession p = some s') : ∃ id,
    s' = s.access id ∨
    (∃ c session, s.sessions id = some (.connector c) ∧ s.objects (.connector c) = some session ∧
      s' = ((s.access id).setObject (.connector c) { session with alive := false }).setSession id none) ∨
    ∃ n session, s.sessions id = some (.heap n) ∧ s.objects (.heap n) = some session ∧ session.sessionID = id ∧
      s' = s.removed (.heap n) session := by
  obtain ⟨session, found, _⟩ := Option.bind_eq_some_iff.mp result
  refine ⟨session.sessionID, ?_⟩
  rcases NetService.delSession_cases found result with
    ⟨_, rfl⟩ | ⟨stored, session₂, inTable, found₂, ⟨connect, rfl⟩ | ⟨other, rfl⟩⟩
  · exact .inl rfl
  · cases stored with
    | heap n => rcases shaped.heap n session₂ found₂ with udp | ⟨accepted, _⟩ <;> simp_all
    | connector c => exact .inr (.inl ⟨c, session₂, inTable, found₂, rfl⟩)
  · cases stored with
    | heap n =>
      have own := (shaped.filed _ n inTable).2.2 session₂ found₂
      exact .inr (.inr ⟨n, session₂, inTable, found₂, own, by rw [← own]⟩)
    | connector c => exact absurd (shaped.connector c session₂ found₂).1 other

/-- A session from `new` is removed, one of a connector closed and taken out. -/
theorem Shaped.kickSession_cases (shaped : s.Shaped) {id : SessionID} (result : s.kickSession id = some s') :
    s' = s.access id ∨
    (∃ n session, s.sessions id = some (.heap n) ∧ s.objects (.heap n) = some session ∧ session.sessionID = id ∧
      s' = ((s.access id).emit (.kick id)).removed (.heap n) session) ∨
    ∃ c t, s.sessions id = some (.connector c) ∧
      ((s.access id).emit (.kick id)).closeSock (.connector c) = some t ∧ t.delSession (.connector c) = some s' := by
  cases stored : s.sessions id with
  | none =>
    rw [kickSession_none stored] at result
    exact .inl (Option.some.inj result).symm
  | some p =>
    cases found : s.objects p with
    | none => simp [NetService.kickSession, access, emit, stored, found] at result
    | some session =>
      cases p with
      | heap n =>
        have own := (shaped.filed id n stored).2.2 session found
        subst own
        have kind := (shaped.heap n session found).symm.imp_left And.left
        rw [kickSession_heap found stored kind] at result
        exact .inr (.inl ⟨n, session, rfl, found, rfl, (Option.some.inj result).symm⟩)
      | connector c =>
        have connect := (shaped.connector c session found).1
        rw [kickSession_some stored found] at result
        simp only [connect, ne_eq, reduceCtorEq, not_false_eq_true, if_true] at result
        obtain ⟨t, closed, result⟩ := Option.bind_eq_some_iff.mp result
        exact .inr (.inr ⟨c, t, rfl, closed, result⟩)

theorem initSession_shaped : initSession.Shaped where
  positive member := absurd (List.left_le_of_mem_range' member) (by simp)
  filed := by simp [initSession]
  heap := by simp [initSession]
  connector := by simp [initSession]

end NetService

end LiteServer.Net
