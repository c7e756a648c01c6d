import LiteServer.Net.CallSessions
import Mathlib.Data.List.ReduceOption

/-!
What a call of `PostAccept` does with the descriptors it gets: each is that of
one session or closed, and no ID is lost.
-/
namespace LiteServer.Net

/-- The session that is made of a connection. -/
def Accepted.session (a : Accepted) (id : SessionID) : Session :=
  ⟨true, a.socket, .accepted, a.address, some a.socket, id⟩

/-- A connection is announced on a descriptor, or it is closed. -/
def Event.settles (sock : Socket) : Event → Bool
  | .onAddConnection _ fd _ => fd == sock
  | .closed fd => fd == sock
  | _ => false

/-- A connection is announced under an ID. -/
def Event.adds (id : SessionID) : Event → Bool
  | .onAddConnection j _ _ => j == id
  | _ => false

/-- `PostAccept` is in its loop. -/
def Pc.accepts : Pc → Bool
  | .accepting _ => true
  | .acceptCallBack _ => true
  | _ => false

theorem Pc.drains_of_accepts {pc : Pc} (accepts : pc.accepts = true) : pc.drains = true := by
  cases pc <;> trivial

namespace NetService
variable {start s s' : NetService} {action : Action} {steps : List (NetService × Action)} {made : List Session}
  {refused : Option Accepted} {listener : Socket} {a : Accepted} {id : SessionID} {rest : List SessionID}

/-- The system hands out no descriptor that is registered. -/
def HandsOut (s : NetService) : Action → Prop
  | .accept (some a) => s.epoll a.socket = none
  | _ => True

/-- A session in the table names a descriptor, as it did before: a connector may
    be left there whose descriptor was closed, and that one is handed out again. -/
def NamedBefore (s : NetService) (sock : Socket) (id : SessionID) (p : SessionPtr) : Prop :=
  s.sessions id = some p ∧ ∀ before, s.objects p = some before → before.socket = sock

/-- A descriptor is registered and that of one session under an ID that was free,
    which was announced once. -/
structure Admitted (s s' : NetService) (a : Accepted) (id : SessionID) : Prop where
  taken : id ∈ s.queSessionID
  kept : id ∉ s'.queSessionID
  stored : ∃ n, s.allocated ≤ n ∧ s'.sessions id = some (.heap n) ∧ s'.objects (.heap n) = some (a.session id) ∧
    s'.epoll a.socket = some (.read (.heap n))
  owner : ∀ j ∈ s.queSessionID, ∀ p session, s'.sessions j = some p → s'.objects p = some session →
    session.socket = a.socket → j = id
  single : ∀ j p session, s'.sessions j = some p → s'.objects p = some session → session.socket = a.socket →
    j = id ∨ s.NamedBefore a.socket j p
  settled : (s.during s').filter (Event.settles a.socket) = [.onAddConnection id a.socket a.address]
  once : (s.during s').filter (Event.adds id) = [.onAddConnection id a.socket a.address]

/-- A descriptor was closed once, and no session was made of it. -/
structure Refused (s s' : NetService) (a : Accepted) : Prop where
  unregistered : s'.epoll a.socket = none
  unowned : ∀ j ∈ s.queSessionID, ∀ p session, s'.sessions j = some p → s'.objects p = some session →
    session.socket ≠ a.socket
  unheld : ∀ j p session, s'.sessions j = some p → s'.objects p = some session → session.socket = a.socket →
    s.NamedBefore a.socket j p
  settled : (s.during s').filter (Event.settles a.socket) = [.closed a.socket]

/-- Each descriptor is admitted or refused. IDs go to the sessions that were
    made, but for those that callbacks add connectors with, and nothing else
    changes but the connectors that they add. -/
structure Conserves (s s' : NetService) (steps : List (NetService × Action)) : Prop where
  each : ∀ step ∈ steps, ∀ a, step.2 = .accept (some a) → (∃ id, s.Admitted s' a id) ∨ s.Refused s' a
  created : s'.allocated - s.allocated = (s.during s').countP Event.announces
  ids : s'.queSessionID.length + (s'.allocated - s.allocated) + (s'.attempts.length - s.attempts.length) =
    s.queSessionID.length
  table : ∀ id, s'.sessions id = s.sessions id ∨ ∃ step ∈ steps, ∃ a, step.2 = .accept (some a) ∧ s.Admitted s' a id
  objects : ∀ p session, s.objects p = some session → s'.objects p = some session ∨
    ∃ step ∈ steps, ∃ c added connecting, p = .connector c ∧ step.2 = .addTCPConnector c added connecting
  registered : ∀ sock context, s.epoll sock = some context → s'.epoll sock = some context

/-! ### Steps -/

/-- A call so far: the sessions that it made, and the connection it refused. -/
structure Accepts (start : NetService) (steps : List (NetService × Action)) (made : List Session)
    (refused : Option Accepted) (s : NetService) : Prop where
  grown : start.Made made (made.map Session.announced ++ refused.toList.map fun a => .closed a.socket) s
  answered : ∀ step ∈ steps, ∀ a, step.2 = .accept (some a) → (∃ id, a.session id ∈ made) ∨ refused = some a
  origin : ∀ session ∈ made, ∃ step ∈ steps, ∃ a id, step.2 = .accept (some a) ∧ session = a.session id
  count : (answers steps).reduceOption.length = made.length + refused.toList.length
  registered : ∀ session ∈ made, ∃ n, s.sessions session.sessionID = some (.heap n) ∧
    s.epoll session.socket = some (.read (.heap n))
  unregistered : ∀ a, refused = some a → s.epoll a.socket = none
  kept : ∀ sock context, start.epoll sock = some context → s.epoll sock = some context
  sockets : ∀ c before, start.objects (.connector c) = some before → ∃ session, s.objects (.connector c) = some session ∧
    session.socket = before.socket
  connectors : ∀ c session, start.objects (.connector c) = some session → s.objects (.connector c) = some session ∨
    ∃ step ∈ steps, ∃ added connecting, step.2 = .addTCPConnector c added connecting

theorem Ready.accepts (ready : s.Ready) : s.Accepts [] [] none s where
  grown := ready.none_made
  answered := by simp
  origin := by simp
  count := rfl
  registered := by simp
  unregistered := by simp
  kept _ _ registered := registered
  sockets _ before found := ⟨before, found, rfl⟩
  connectors _ _ found := .inl found

theorem addTCPConnector_objects {c : Nat} {added connecting ok : Bool} (positive : 0 ∉ s.queSessionID)
    (result : s.addTCPConnector c added connecting = some (ok, s')) : ∃ session session',
      s.objects (.connector c) = some session ∧ session'.socket = session.socket ∧
      s'.objects = Function.update s.objects (.connector c) (some session') := by
  obtain ⟨session, found, _⟩ := Option.bind_eq_some_iff.mp result
  rcases addTCPConnector_cases positive found result with
    ⟨_, rfl⟩ | ⟨id, rest, front, ⟨_, rfl⟩ | ⟨_, _, rfl⟩ | ⟨_, _, rfl⟩⟩
  · exact ⟨session, { session with alive := false }, found, rfl, rfl⟩
  all_goals exact ⟨session, { session with alive := false, sessionID := id }, found, rfl, rfl⟩

/-- What a step of the user does to the objects of sessions. -/
theorem user_objects (positive : 0 ∉ s.queSessionID) (took : s.UserTook action s') : s'.objects = s.objects ∨
    (∃ c sock session, action = .newConnector c sock ∧ s.objects (.connector c) = none ∧ session.socket = sock ∧
      s'.objects = Function.update s.objects (.connector c) (some session)) ∨
    ∃ c added connecting session session', action = .addTCPConnector c added connecting ∧
      s.objects (.connector c) = some session ∧ session'.socket = session.socket ∧
      s'.objects = Function.update s.objects (.connector c) (some session') := by
  cases took with
  | @newConnector c sock free => exact .inr (.inl ⟨c, sock, _, rfl, free, rfl, rfl⟩)
  | listens => rcases s.epollAdd_cases _ _ _ with same | same <;> exact .inl (by rw [same])
  | @addTCPConnector c added connecting _ _ result =>
    obtain ⟨session, session', found, socket, objects⟩ := addTCPConnector_objects positive result
    exact .inr (.inr ⟨c, added, connecting, session, session', rfl, found, socket, objects⟩)

theorem user_connector (positive : 0 ∉ s.queSessionID) (took : s.UserTook action s') {c : Nat} {session : Session}
    (found : s.objects (.connector c) = some session) :
    s'.objects (.connector c) = some session ∨ ∃ added connecting, action = .addTCPConnector c added connecting := by
  rcases user_objects positive took with
    same | ⟨d, sock, _, rfl, free, _, objects⟩ | ⟨d, added, connecting, _, _, rfl, _, _, objects⟩
  · exact .inl (same ▸ found)
  · have differ : c ≠ d := by
      rintro rfl
      cases free.symm.trans found
    rw [objects, Function.update_of_ne (by simpa using differ)]
    exact .inl found
  · by_cases same : c = d
    · exact .inr ⟨added, connecting, by rw [same]⟩
    · rw [objects, Function.update_of_ne (by simpa using same)]
      exact .inl found

/-- A connector keeps its descriptor. -/
theorem user_socket (positive : 0 ∉ s.queSessionID) (took : s.UserTook action s') {c : Nat} {before : Session}
    (found : s.objects (.connector c) = some before) :
    ∃ session, s'.objects (.connector c) = some session ∧ session.socket = before.socket := by
  rcases user_objects positive took with
    same | ⟨d, sock, _, _, free, _, objects⟩ | ⟨d, _, _, session, session', _, exists_before, socket, objects⟩
  · exact ⟨before, same ▸ found, rfl⟩
  · have differ : c ≠ d := by
      rintro rfl
      cases free.symm.trans found
    rw [objects, Function.update_of_ne (by simpa using differ)]
    exact ⟨before, found, rfl⟩
  · by_cases same : c = d
    · subst same
      obtain rfl := Option.some.inj (exists_before.symm.trans found)
      exact ⟨session', by rw [objects, Function.update_self], socket⟩
    · rw [objects, Function.update_of_ne (by simpa using same)]
      exact ⟨before, found, rfl⟩

theorem Accepts.beside (accepts : start.Accepts steps made none s) (ready : start.Ready) (byUser : action.byUser = true)
    (took : s.UserTook action s') :
    start.Accepts (steps ++ [(s, action)]) made none s' := by
  have positive := (accepts.grown.ready ready).positive
  have beside := beside_of_user positive took
  have unanswered := Action.answer_byUser byUser
  refine ⟨accepts.grown.beside beside, ?_, ?_, ?_, ?_, by simp, ?_, ?_, ?_⟩
  · refine List.forall_mem_append.mpr ⟨accepts.answered, List.forall_mem_singleton.mpr fun a same => ?_⟩
    rw [show action = _ from same] at unanswered
    cases unanswered
  · exact fun session member => exists_earlier _ (accepts.origin session member)
  · rw [answers_snoc, unanswered]
    simpa using accepts.count
  · intro session member
    obtain ⟨n, stored, registered⟩ := accepts.registered session member
    exact ⟨n, by rw [beside.sessions, stored], beside.epoll _ _ registered⟩
  · exact fun sock context before => beside.epoll sock context (accepts.kept sock context before)
  · intro c before found
    obtain ⟨session, found₀, socket₀⟩ := accepts.sockets c before found
    obtain ⟨session', found₁, socket₁⟩ := user_socket positive took found₀
    exact ⟨session', found₁, socket₁.trans socket₀⟩
  · intro c session found
    rcases accepts.connectors c session found with still | before
    · rcases user_connector positive took still with after | ⟨added, connecting, rfl⟩
      · exact .inl after
      · exact .inr ⟨_, List.mem_append_right _ (List.mem_singleton_self _), added, connecting, rfl⟩
    · exact .inr (exists_earlier _ before)

/-- A step that makes no session, and may refuse a connection. -/
theorem Accepts.stays (accepts : start.Accepts steps made none s) (refused : Option Accepted)
    (queue : s.queSessionID.Perm s'.queSessionID) (sessions : s'.sessions = s.sessions) (objects : s'.objects = s.objects)
    (allocated : s'.allocated = s.allocated) (attempts : s'.attempts = s.attempts) (epoll : s'.epoll = s.epoll)
    {news : List Event} (trace : s'.trace = s.trace ++ news)
    (told : news.filter Event.told = refused.toList.map fun a => .closed a.socket)
    (unadmitted : ∀ a, action = .accept (some a) → refused = some a)
    (count : action.answer.toList.reduceOption.length = refused.toList.length)
    (unregistered : ∀ a, refused = some a → s.epoll a.socket = none) : start.Accepts (steps ++ [(s, action)]) made refused s' := by
  have grown := accepts.grown.stays queue sessions objects allocated attempts trace
  refine ⟨?_, ?_, ?_, ?_, ?_, ?_, ?_, ?_, ?_⟩
  · simpa [told] using grown
  · refine List.forall_mem_append.mpr ⟨fun step before a same => ?_, List.forall_mem_singleton.mpr fun a same => ?_⟩
    · exact .inl ((accepts.answered step before a same).resolve_right (by simp))
    · exact .inr (unadmitted a same)
  · exact fun session member => exists_earlier _ (accepts.origin session member)
  · rw [answers_snoc, List.reduceOption_append, List.length_append, count, accepts.count]
    simp
  · rw [sessions, epoll]
    exact accepts.registered
  · rw [epoll]
    exact unregistered
  · rw [epoll]
    exact accepts.kept
  · rw [objects]
    exact accepts.sockets
  · intro c session found
    rw [objects]
    exact (accepts.connectors c session found).imp_right (exists_earlier _)

theorem Accepts.unlike (accepts : start.Accepts steps made none s) (ready : start.Ready) (fresh : s.epoll a.socket = none)
    (free : id ∈ s.queSessionID) {session : Session} (member : session ∈ made) :
    session.sessionID ≠ id ∧ session.socket ≠ a.socket := by
  constructor
  · rintro rfl
    exact (accepts.grown.distinct ready).2.2 _ free (List.mem_map_of_mem member)
  · intro same
    obtain ⟨n, _, registered⟩ := accepts.registered session member
    rw [same] at registered
    cases fresh.symm.trans registered

/-- A connection gets a session and is registered. -/
theorem Accepts.opened (accepts : start.Accepts steps made none s) (ready : start.Ready) (fresh : s.epoll a.socket = none)
    (front : s.queSessionID = id :: rest) (queue : s'.queSessionID = rest)
    (sessions : s'.sessions = Function.update s.sessions id (some (.heap s.allocated)))
    (objects : s'.objects = Function.update s.objects (.heap s.allocated) (some (a.session id)))
    (allocated : s'.allocated = s.allocated + 1) (attempts : s'.attempts = s.attempts)
    (epoll : s'.epoll = Function.update s.epoll a.socket (some (.read (.heap s.allocated))))
    (trace : s'.trace = s.trace ++ [.opened a.socket, .onAddConnection id a.socket a.address]) :
    start.Accepts (steps ++ [(s, .accept (some a))]) (made ++ [a.session id]) none s' := by
  have grown := accepts.grown.opens ready (a.session id) front queue sessions objects allocated attempts trace
  have free : id ∈ s.queSessionID := by simp [front]
  refine ⟨?_, ?_, ?_, ?_, ?_, by simp, ?_, ?_, ?_⟩
  · have told : [Event.opened a.socket, .onAddConnection id a.socket a.address].filter Event.told =
        [(a.session id).announced] := rfl
    simpa [told] using grown
  · refine List.forall_mem_append.mpr ⟨fun step before b same => ?_, List.forall_mem_singleton.mpr ?_⟩
    · obtain ⟨j, member⟩ := (accepts.answered step before b same).resolve_right (by simp)
      exact .inl ⟨j, List.mem_append_left _ member⟩
    · rintro b ⟨⟩
      exact .inl ⟨id, List.mem_append_right _ (List.mem_singleton_self _)⟩
  · intro session member
    rcases List.mem_append.mp member with before | now
    · exact exists_earlier _ (accepts.origin session before)
    · exact ⟨_, List.mem_append_right _ (List.mem_singleton_self _), a, id, rfl, List.mem_singleton.mp now⟩
  · rw [answers_snoc, List.reduceOption_append, List.length_append, accepts.count]
    simp [Action.answer, List.reduceOption]
  · intro session member
    rw [sessions, epoll]
    rcases List.mem_append.mp member with before | now
    · obtain ⟨n, stored, registered⟩ := accepts.registered session before
      obtain ⟨otherID, otherSocket⟩ := accepts.unlike ready fresh free before
      exact ⟨n, (Function.update_of_ne otherID _ _).trans stored, (Function.update_of_ne otherSocket _ _).trans registered⟩
    · rw [List.mem_singleton.mp now]
      exact ⟨s.allocated, Function.update_self .., Function.update_self ..⟩
  · intro sock context before
    have registered := accepts.kept sock context before
    have differ : sock ≠ a.socket := by
      rintro rfl
      cases fresh.symm.trans registered
    rw [epoll, Function.update_of_ne differ]
    exact registered
  · intro c before found
    rw [objects, Function.update_of_ne (by simp)]
    exact accepts.sockets c before found
  · intro c session found
    rw [objects, Function.update_of_ne (by simp)]
    exact (accepts.connectors c session found).imp_right (exists_earlier _)

theorem Accepts.acceptRound (accepts : start.Accepts steps made none s) (ready : start.Ready) {answer : Option Accepted}
    (handsOut : s.HandsOut (.accept answer)) (result : s.acceptRound listener answer = some s') :
    ∃ made refused, start.Accepts (steps ++ [(s, .accept answer)]) made refused s' ∧
      (refused = none ∧ s'.pc.accepts = true ∨ s'.pc = .idle) := by
  cases answer with
  | none =>
    cases Option.some.inj result
    refine ⟨made, none, ?_, .inr rfl⟩
    exact accepts.stays none (.refl _) rfl rfl rfl rfl rfl (List.append_nil _).symm rfl (by simp) rfl (by simp)
  | some a =>
    have positive := (accepts.grown.ready ready).positive
    have fresh : s.epoll a.socket = none := handsOut
    have closed : Function.update s.epoll a.socket none = s.epoll := by rw [← fresh, Function.update_eq_self]
    have only : ∀ b, some a = some b → s.epoll b.socket = none := by
      rintro _ ⟨⟩
      exact fresh
    rcases acceptRound_cases positive result with rfl | ⟨id, rest, front, rfl | rfl⟩
    · refine ⟨made, some a, ?_, .inr rfl⟩
      exact accepts.stays (some a) (.refl _) rfl rfl rfl rfl closed (List.append_assoc ..) rfl (by simp) rfl only
    · refine ⟨made, some a, ?_, .inr rfl⟩
      have turned : s.queSessionID.Perm (rest ++ [id]) := by
        rw [front]
        exact (List.perm_append_singleton id rest).symm
      exact accepts.stays (some a) turned rfl rfl rfl rfl closed (List.append_assoc ..) rfl (by simp) rfl only
    · refine ⟨made ++ [a.session id], none, ?_, .inl ⟨rfl, rfl⟩⟩
      exact accepts.opened ready fresh front rfl rfl rfl rfl rfl rfl (List.append_assoc ..)

theorem Accepts.step (accepts : start.Accepts steps made none s) (ready : start.Ready) (inside : s.pc.accepts = true)
    (unkicked : ∀ id, action ≠ .kickSession id) (handsOut : s.HandsOut action) (taken : s.step action = some s') :
    ∃ made refused, start.Accepts (steps ++ [(s, action)]) made refused s' ∧
      (refused = none ∧ s'.pc.accepts = true ∨ s'.pc = .idle) := by
  cases call_took (Pc.drains_of_accepts inside) taken with
  | user user byUser taken =>
    have same := byUser_pc byUser taken
    exact ⟨made, none, accepts.beside ready byUser (user_took byUser unkicked taken), .inl ⟨rfl, same ▸ inside⟩⟩
  | accept pc result => exact accepts.acceptRound ready handsOut result
  | accepted pc =>
    refine ⟨made, none, ?_, .inl ⟨rfl, rfl⟩⟩
    exact accepts.stays none (.refl _) rfl rfl rfl rfl rfl (List.append_nil _).symm rfl (by simp) rfl (by simp)
  | recvfrom pc result => simp [pc, Pc.accepts] at inside
  | opened pc => simp [pc, Pc.accepts] at inside
  | delivered pc => simp [pc, Pc.accepts] at inside

theorem Accepts.run (ready : start.Ready) (inside : start.pc.accepts = true) (running : start.Calls steps s)
    (unkicked : ∀ step ∈ steps, ∀ id, step.2 ≠ .kickSession id) (handsOut : ∀ step ∈ steps, step.1.HandsOut step.2) :
    ∃ made refused, start.Accepts steps made refused s ∧ (refused = none ∧ s.pc.accepts = true ∨ s.pc = .idle) := by
  induction running with
  | nil => exact ⟨[], none, ready.accepts, .inl ⟨rfl, inside⟩⟩
  | @snoc steps t t' action running taken ih =>
    obtain ⟨busy, taken⟩ := taken
    obtain ⟨unkicked, unkicked'⟩ := List.forall_mem_append.mp unkicked
    obtain ⟨handsOut, handsOut'⟩ := List.forall_mem_append.mp handsOut
    obtain ⟨made, refused, accepts, ⟨rfl, inside⟩ | idle⟩ := ih unkicked handsOut
    · exact accepts.step ready inside (unkicked' _ (List.mem_singleton_self _)) (handsOut' _ (List.mem_singleton_self _))
        taken
    · exact absurd idle busy

/-! ### The call returns -/

/-- Of a kind of events that are told, the call tells what the sessions it made
    and the connection it refused say. -/
theorem Accepts.filtered (accepts : s.Accepts steps made refused s') (kind : Event → Bool)
    (tells : ∀ event, kind event = true → event.told = true) : (s.during s').filter kind =
      (made.map Session.announced).filter kind ++ (refused.toList.map fun a => Event.closed a.socket).filter kind := by
  rw [accepts.grown.filtered kind tells, List.filter_append]

theorem settles_told {sock : Socket} (event : Event) (settles : event.settles sock = true) : event.told = true := by
  cases event <;> first | rfl | cases settles

/-- A session that was made is found under its ID and through its descriptor. -/
theorem Accepts.found (accepts : s.Accepts steps made refused s') {session : Session} (member : session ∈ made) :
    ∃ n, s.allocated ≤ n ∧ s'.sessions session.sessionID = some (.heap n) ∧ s'.objects (.heap n) = some session ∧
      s'.epoll session.socket = some (.read (.heap n)) := by
  obtain ⟨n, above, _, stored, found⟩ := accepts.grown.each session member
  obtain ⟨m, stored', registered⟩ := accepts.registered session member
  cases stored.symm.trans stored'
  exact ⟨n, above, stored, found, registered⟩

/-- The sessions that were made differ in their IDs and in their descriptors. -/
theorem Accepts.alike (accepts : s.Accepts steps made refused s') {x y : Session} (inX : x ∈ made) (inY : y ∈ made)
    (same : x.sessionID = y.sessionID ∨ x.socket = y.socket) : x = y := by
  obtain ⟨n, _, stored, found, registered⟩ := accepts.found inX
  obtain ⟨m, _, stored', found', registered'⟩ := accepts.found inY
  have shared : n = m := by
    rcases same with same | same
    · rw [same] at stored
      cases stored.symm.trans stored'
      rfl
    · rw [same] at registered
      cases registered.symm.trans registered'
      rfl
  subst shared
  exact Option.some.inj (found.symm.trans found')

theorem Accepts.held (accepts : s.Accepts steps made refused s') {session : Session} (member : session ∈ made) :
    s'.epoll session.socket ≠ none := by
  obtain ⟨n, _, registered⟩ := accepts.registered session member
  rw [registered]
  exact Option.some_ne_none _

/-- A session in the table was made, or it was there and has the descriptor it had. -/
theorem Accepts.named (accepts : s.Accepts steps made refused s') (ready : s.Ready) {j : SessionID} {p : SessionPtr}
    {session : Session} (stored : s'.sessions j = some p) (found : s'.objects p = some session) :
    session ∈ made ∧ session.sessionID = j ∨ s.NamedBefore session.socket j p := by
  by_cases mine : j ∈ made.map Session.sessionID
  · obtain ⟨own, member, rfl⟩ := List.mem_map.mp mine
    obtain ⟨n, _, stored', found', _⟩ := accepts.found member
    cases stored.symm.trans stored'
    cases found.symm.trans found'
    exact .inl ⟨member, rfl⟩
  · refine .inr ⟨(accepts.grown.table j mine).symm.trans stored, fun before was => ?_⟩
    cases p with
    | heap n =>
      have same := accepts.grown.heap n (ready.fresh n before was)
      cases (same.trans was).symm.trans found
      rfl
    | connector c =>
      obtain ⟨after, now, socket⟩ := accepts.sockets c before was
      cases now.symm.trans found
      exact socket.symm

/-- The ID of a session that was there before was not free. -/
theorem NamedBefore.unfree {sock : Socket} {p : SessionPtr} (before : s.NamedBefore sock id p) (ready : s.Ready) :
    id ∉ s.queSessionID := by
  intro free
  cases before.1.symm.trans (ready.free id free)

theorem Accepts.admitted (accepts : s.Accepts steps made refused s') (ready : s.Ready) (member : a.session id ∈ made) :
    s.Admitted s' a id := by
  have once : made.Nodup := (accepts.grown.distinct ready).2.1.of_map _
  have apart : (refused.toList.map fun b => Event.closed b.socket).filter (Event.settles a.socket) = [] := by
    rw [List.filter_eq_nil_iff]
    intro event closed
    obtain ⟨b, last, rfl⟩ := List.mem_map.mp closed
    intro settles
    have same : b.socket = (a.session id).socket := eq_of_beq settles
    exact accepts.held member (same ▸ accepts.unregistered b (by simpa using last))
  have single : ∀ j p session, s'.sessions j = some p → s'.objects p = some session → session.socket = a.socket →
      j = id ∨ s.NamedBefore a.socket j p := by
    intro j p session stored found socket
    rcases accepts.named ready stored found with ⟨inside, rfl⟩ | before
    · rw [accepts.alike inside member (.inr socket)]
      exact .inl rfl
    · exact .inr (socket ▸ before)
  refine ⟨accepts.grown.taken member, ?_, accepts.found member, ?_, single, ?_, ?_⟩
  · exact fun free => (accepts.grown.distinct ready).2.2 id free (List.mem_map_of_mem member)
  · intro j free p session stored found socket
    exact (single j p session stored found socket).resolve_right fun before => before.unfree ready free
  · rw [accepts.filtered _ settles_told, apart, announced_once once member]
    · rfl
    · intro other inside
      constructor
      · exact fun settles => accepts.alike inside member (.inr (eq_of_beq settles))
      · rintro rfl
        exact beq_self_eq_true _
  · have silent : (refused.toList.map fun b => Event.closed b.socket).filter (Event.adds id) = [] := by
      simp [Event.adds]
    rw [accepts.filtered _ (fun event adds => by cases event <;> first | rfl | cases adds), silent,
      announced_once once member]
    · rfl
    · intro other inside
      constructor
      · exact fun adds => accepts.alike inside member (.inl (eq_of_beq adds))
      · rintro rfl
        exact beq_self_eq_true _

theorem Accepts.refuses (accepts : s.Accepts steps made (some a) s') (ready : s.Ready) : s.Refused s' a := by
  have unregistered := accepts.unregistered a rfl
  have apart : ∀ session ∈ made, session.socket ≠ a.socket := fun session member same =>
    accepts.held member (same ▸ unregistered)
  have unheld : ∀ j p session, s'.sessions j = some p → s'.objects p = some session → session.socket = a.socket →
      s.NamedBefore a.socket j p := by
    intro j p session stored found socket
    rcases accepts.named ready stored found with ⟨inside, _⟩ | before
    · exact absurd socket (apart session inside)
    · exact socket ▸ before
  refine ⟨unregistered, ?_, unheld, ?_⟩
  · exact fun j free p session stored found socket => (unheld j p session stored found socket).unfree ready free
  · have silent : (made.map Session.announced).filter (Event.settles a.socket) = [] := by
      rw [List.filter_eq_nil_iff]
      intro event announced settles
      obtain ⟨session, member, rfl⟩ := List.mem_map.mp announced
      exact apart session member (eq_of_beq settles)
    rw [accepts.filtered _ settles_told, silent]
    simp [Event.settles]

theorem Accepts.conserves (accepts : s.Accepts steps made refused s') (ready : s.Ready) : s.Conserves s' steps := by
  obtain ⟨started, shared, attempts⟩ := accepts.grown.ids
  have allocated := accepts.grown.allocated
  refine ⟨?_, ?_, ?_, ?_, ?_, accepts.kept⟩
  · intro step member a answered
    rcases accepts.answered step member a answered with ⟨id, inside⟩ | rfl
    · exact .inl ⟨id, accepts.admitted ready inside⟩
    · exact .inr (accepts.refuses ready)
  · have all : (made.map Session.announced).filter Event.announces = made.map Session.announced := by
      rw [List.filter_eq_self]
      intro event member
      obtain ⟨session, _, rfl⟩ := List.mem_map.mp member
      rfl
    have silent : (refused.toList.map fun b => Event.closed b.socket).filter Event.announces = [] := by
      simp [Event.announces]
    rw [List.countP_eq_length_filter,
      accepts.filtered _ (fun event announces => by cases event <;> first | rfl | cases announces), all, silent,
      List.append_nil, List.length_map, allocated, Nat.add_sub_cancel_left]
  · have lengths := shared.length_eq
    simp only [List.length_append, List.length_map] at lengths
    omega
  · intro id
    by_cases mine : id ∈ made.map Session.sessionID
    · obtain ⟨session, member, rfl⟩ := List.mem_map.mp mine
      obtain ⟨step, inside, a, id, answered, rfl⟩ := accepts.origin session member
      exact .inr ⟨step, inside, a, answered, accepts.admitted ready member⟩
    · exact .inl (accepts.grown.table id mine)
  · intro p session found
    cases p with
    | heap n => exact .inl ((accepts.grown.heap n (ready.fresh n session found)).trans found)
    | connector c =>
      refine (accepts.connectors c session found).imp_right ?_
      rintro ⟨step, inside, added, connecting, adds⟩
      exact ⟨step, inside, c, added, connecting, rfl, adds⟩

/-- Only the last answer can be -1. -/
theorem answers_length (drains : s.pc.drains = true) (running : s.Calls steps s') :
    (answers steps).length ≤ (answers steps).reduceOption.length + 1 := by
  cases running with
  | nil => simp [answers]
  | @snoc steps t _ action running taken =>
    obtain ⟨_, more⟩ := calls_inside drains running taken.1
    have nobody : (answers steps).filter Option.isNone = [] := by
      rw [List.filter_eq_nil_iff]
      intro answer member
      cases answer with
      | none => exact absurd member more
      | some given => exact Bool.false_ne_true
    have whole := List.length_eq_reduceOption_length_add_filter_none (l := answers steps)
    have last := Option.length_toList_le (o := action.answer)
    rw [nobody, List.length_nil] at whole
    rw [answers_snoc, List.reduceOption_append, List.length_append, List.length_append]
    omega

/-- A call of `PostAccept` conserves descriptors and IDs. It asks for at most one
    connection more than there are free IDs, and goes on until it returns, in a
    number of steps that these IDs bound. -/
theorem accept_call_conserves (s t : NetService) (listener : Socket) (steps : List (NetService × Action)) (ready : s.Ready)
    (started : s.pc = .accepting listener) (running : s.Calls steps t)
    (unkicked : ∀ step ∈ steps, ∀ id, step.2 ≠ .kickSession id) (handsOut : ∀ step ∈ steps, step.1.HandsOut step.2) :
    (t.pc = .idle → s.Conserves t steps) ∧ (answers steps).reduceOption.length ≤ s.queSessionID.length + 1 ∧
    (t.pc ≠ .idle → (∀ answer, (t.step (.accept answer)).isSome) ∨ ∀ changed, (t.step (.resume changed)).isSome) ∧
    ownSteps steps ≤ 3 * (s.queSessionID.length + 2) := by
  obtain ⟨made, refused, accepts, place⟩ := Accepts.run ready (by rw [started]; rfl) running unkicked handsOut
  have asked : (answers steps).reduceOption.length ≤ s.queSessionID.length + 1 := by
    obtain ⟨started, shared, _⟩ := accepts.grown.ids
    have lengths := shared.length_eq
    simp only [List.length_append, List.length_map] at lengths
    rw [accepts.count]
    cases refused <;> simp <;> omega
  refine ⟨fun _ => accepts.conserves ready, asked, fun busy => ?_, ?_⟩
  · obtain ⟨_, inside⟩ := place.resolve_right busy
    rcases call_goes_on (Pc.drains_of_accepts inside) with accept | recvfrom | resume
    · exact .inl accept
    · have received := recvfrom none
      cases pc : t.pc <;> simp [NetService.step, pc, Pc.accepts] at received inside
    · exact .inr resume
  · have drains : s.pc.drains = true := by rw [started]; rfl
    have own := calls_own drains running
    have answered := answers_length drains running
    have none : s.pc.callbacks = 0 := by rw [started]; rfl
    omega

/-- Descriptor 7 gets a session, and 8 is closed as `epoll_ctl` refuses it. -/
theorem one_admitted_one_refused : ∃ (s : NetService) (steps : List (NetService × Action)) (t : NetService),
    s.Calls steps t ∧ answers steps = [some (.inl ⟨7, ⟨0, 0⟩, true⟩), some (.inl ⟨8, ⟨0, 0⟩, false⟩)] ∧
    s.Conserves t steps := by
  let s : NetService := { initSession with pc := .accepting 3 }
  have accepted := (Calls.start (s := s)).act (.accept (some ⟨7, ⟨0, 0⟩, true⟩)) nofun rfl
  have resumed := accepted.act (.resume true) nofun rfl
  have refused := resumed.act (.accept (some ⟨8, ⟨0, 0⟩, false⟩)) nofun rfl
  refine ⟨s, _, _, refused, rfl, (accept_call_conserves s _ 3 _ (initSession_ready _) rfl refused ?_ ?_).1 rfl⟩
  · simp
  · simp only [List.nil_append, List.cons_append, List.forall_mem_cons]
    exact ⟨rfl, trivial, rfl, nofun⟩

end NetService

end LiteServer.Net
