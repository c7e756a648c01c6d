import LiteServer.Net.DeadSessions
import LiteServer.Net.Talk

/-!
The conversations on the epoll backend, as long as callbacks kick no session
that the service still has in hand.
-/
namespace LiteServer.Net

/-- What the user knows agrees with the trace. -/
def Heard (id : SessionID) (trace : List Event) (talk : Talk) : Prop :=
  (talk.live = true → lifetime.closed id trace = false) ∧
    (lifetime.closed id trace = false → (∃ event ∈ trace, event.session = some id) → talk.live = true)

theorem Heard.other {id : SessionID} {trace : List Event} {event : Event} {talk : Talk} (heard : Heard id trace talk)
    (about : event.session ≠ some id) : Heard id (trace ++ [event]) talk := by
  have closed : lifetime.closed id (trace ++ [event]) = lifetime.closed id trace := by
    rw [Lifetime.closed_snoc]
    cases event <;> simp_all [Event.session, Event.opens, Event.closes]
  rw [Heard, closed]
  refine ⟨heard.1, fun opened announced => heard.2 opened ?_⟩
  obtain ⟨event', member, about'⟩ := announced
  rcases List.mem_append.mp member with earlier | last
  · exact ⟨event', earlier, about'⟩
  · rw [List.mem_singleton.mp last] at about'
    exact absurd about' about

theorem Heard.next {id : SessionID} {trace : List Event} {event : Event} {talk talk' : Talk}
    (heard : Heard id trace talk) (about : event.session = some id) (moved : talk.next false event = some talk') :
    Heard id (trace ++ [event]) talk' := by
  rw [Heard, Lifetime.closed_snoc]
  cases event with
  | opened sock => cases about
  | closed sock => cases about
  | _ =>
    cases about
    cases talk <;> simp [Talk.next, Talk.live] at moved <;> subst moved <;>
      simp_all [Heard, Talk.live, Event.opens, Event.closes]

/-- A session is known that was announced and not closed since. -/
theorem heard_of_after {id : SessionID} {trace : List Event} {talk : Talk}
    (told : (conversation false).after id trace = some talk) : Heard id trace talk := by
  refine Monitor.after_invariant (Heard id) ?_ ?_ ?_ told
  · simp [Heard, conversation, Talk.live]
  · exact fun trace event talk about heard => heard.other about
  · exact fun trace event talk talk' about heard moved => heard.next about moved

namespace NetService
variable {s s' : NetService}

/-- A connector that was kicked while it had an ID. -/
def ShutAs (s : NetService) (c : Nat) (id : SessionID) : Prop :=
  ∃ session, s.objects (.connector c) = some session ∧ session.sock = none ∧ session.sessionID = id

/-- The service is still going to report on a connector. -/
def InHand (s : NetService) (c : Nat) : Prop :=
  s.pc = .connectCallBack c ∨ ∃ event ∈ s.events, event.context = .read (.connector c)

/-- How the service stands with an ID that the user knows something of. -/
inductive Stands (s : NetService) (id : SessionID) : Talk → Prop where
  | live (p : SessionPtr) (session : Session) (stored : s.sessions id = some p) (found : s.objects p = some session) :
      s.Stands id session.talk
  | kicked (lost : s.held id = 0) : s.Stands id .kicked
  | absent (ended : ∀ c, s.ShutAs c id → ¬ s.InHand c) : s.Stands id .absent

/-- The invariant of runs. -/
structure Conversing (s : NetService) : Prop where
  guarded : s.Guarded
  told : ∀ id, ∃ talk, (conversation false).after id s.trace = some talk ∧ s.Stands id talk
  announced : ∀ id, (s.sessions id).isSome → ∃ event ∈ s.trace, event.session = some id
  apart : ∀ c d id, s.ShutAs c id → s.ShutAs d id → c = d
  connecting : ∀ c, s.pc = .connectCallBack c → ∀ event ∈ s.events, event.context ≠ .read (.connector c)

theorem shut_iff {c : Nat} : s.Shut c ↔ ∃ id, s.ShutAs c id := by
  constructor
  · rintro ⟨session, found, shut⟩
    exact ⟨session.sessionID, session, found, shut, rfl⟩
  · rintro ⟨_, session, found, shut, _⟩
    exact ⟨session, found, shut⟩

theorem Stands.stored {id : SessionID} {talk : Talk} (stands : s.Stands id talk) (live : talk.live = true) :
    ∃ p session, s.sessions id = some p ∧ s.objects p = some session ∧ session.talk = talk := by
  cases stands with
  | live p session stored found => exact ⟨p, session, stored, found, rfl⟩
  | kicked lost => cases live
  | absent ended => cases live

theorem Conversing.alive (conversing : s.Conversing) {id : SessionID} {p : SessionPtr} {session : Session}
    (alive : s.alive id = some (p, session)) : (conversation false).after id s.trace = some session.talk := by
  obtain ⟨opened, stored, found⟩ := alive_eq_some.mp alive
  obtain ⟨talk, told, stands⟩ := conversing.told id
  have live := (heard_of_after told).2 opened (conversing.announced id (by rw [stored]; rfl))
  obtain ⟨q, session', stored', found', rfl⟩ := stands.stored live
  cases Option.some.inj (stored.symm.trans stored')
  cases Option.some.inj (found.symm.trans found')
  exact told

/-- An ID that is about to be given to a session. -/
theorem Conversing.absent (conversing : s.Conversing) {id : SessionID} (free : s.sessions id = none)
    (held : s.held id ≠ 0) : (conversation false).after id s.trace = some .absent := by
  obtain ⟨talk, told, stands⟩ := conversing.told id
  cases stands with
  | live p session stored found =>
    rw [free] at stored
    cases stored
  | kicked lost => exact absurd lost held
  | absent ended => exact told

/-- The ID of a kicked connector has no holder. -/
theorem Guarded.shut_lost (guarded : s.Guarded) {c : Nat} {id : SessionID} (shut : s.ShutAs c id) : s.held id = 0 := by
  obtain ⟨session, found, closed, rfl⟩ := shut
  exact guarded.lost c session found closed

theorem Guarded.shut_unstored (guarded : s.Guarded) {c : Nat} {id : SessionID} (shut : s.ShutAs c id) :
    s.sessions id = none := by
  obtain ⟨session, found, closed, rfl⟩ := shut
  exact guarded.unstored found closed

/-- Only the conversations about the IDs given go on; connectors are kicked
    under one of these. -/
theorem Conversing.next (conversing : s.Conversing) (follows : s.Follows s') (guarded : s'.Guarded)
    (given : SessionID → Prop) {more : List Event} (trace : s'.trace = s.trace ++ more)
    (about : ∀ event ∈ more, ∀ id, event.session = some id → given id)
    (kept : ∀ id p session, ¬ given id → s.sessions id = some p → s.objects p = some session →
      ∃ session', s'.sessions id = some p ∧ s'.objects p = some session' ∧ session'.sockType = session.sockType)
    (stored : ∀ id, (s'.sessions id).isSome → (s.sessions id).isSome ∨ ∃ event ∈ more, event.session = some id)
    (shut : ∀ c id, s'.ShutAs c id → s.ShutAs c id ∨ given id ∧ s.sessions id = some (.connector c))
    (hand : ∀ c, s'.InHand c → s.InHand c ∨ ¬ s'.Shut c)
    (told : ∀ id talk, given id → (conversation false).after id s.trace = some talk → s.Stands id talk →
      ∃ talk', (conversation false).after id s'.trace = some talk' ∧ s'.Stands id talk')
    (connecting : ∀ c, s'.pc = .connectCallBack c → ∀ event ∈ s'.events, event.context ≠ .read (.connector c)) :
    s'.Conversing := by
  refine ⟨guarded, ?_, ?_, ?_, connecting⟩
  · intro id
    obtain ⟨talk, before, stands⟩ := conversing.told id
    by_cases goesOn : given id
    · exact told id talk goesOn before stands
    · refine ⟨talk, ?_, ?_⟩
      · rw [trace, Monitor.after_append_other fun event member same => goesOn (about event member id same)]
        exact before
      · cases stands with
        | live p session stored found =>
          obtain ⟨session', stored', found', same⟩ := kept id p session goesOn stored found
          have talk : session'.talk = session.talk := by rw [Session.talk, Session.talk, same]
          exact talk ▸ .live p session' stored' found'
        | kicked lost => exact .kicked (follows.lost lost)
        | absent ended =>
          refine .absent fun c after inHand => ?_
          have earlier := (shut c id after).resolve_right fun kicked => goesOn kicked.1
          exact ended c earlier ((hand c inHand).resolve_right (· (shut_iff.mpr ⟨id, after⟩)))
  · intro id after
    rw [trace]
    rcases stored id after with before | ⟨event, member, same⟩
    · obtain ⟨event, member, same⟩ := conversing.announced id before
      exact ⟨event, List.mem_append_left _ member, same⟩
    · exact ⟨event, List.mem_append_right _ member, same⟩
  · intro c d id shutC shutD
    rcases shut c id shutC with earlierC | ⟨_, storedC⟩
    · rcases shut d id shutD with earlierD | ⟨_, storedD⟩
      · exact conversing.apart c d id earlierC earlierD
      · rw [conversing.guarded.shut_unstored earlierC] at storedD
        cases storedD
    · rcases shut d id shutD with earlierD | ⟨_, storedD⟩
      · rw [conversing.guarded.shut_unstored earlierD] at storedC
        cases storedC
      · rw [storedC] at storedD
        cases storedD
        rfl

/-- No kicked connector comes into the service's hands. -/
structure Calm (s s' : NetService) : Prop where
  hand : ∀ c, s'.InHand c → s.InHand c ∨ ¬ s'.Shut c
  connecting : ∀ c, s'.pc = .connectCallBack c → ∀ event ∈ s'.events, event.context ≠ .read (.connector c)

theorem Conversing.calm (conversing : s.Conversing) (pc : s'.pc = s.pc ∨ ∀ c, s'.pc ≠ .connectCallBack c)
    (events : s'.events ⊆ s.events) : Calm s s' where
  hand c inHand := by
    refine .inl (inHand.imp (fun inside => ?_) ?_)
    · exact pc.elim (· ▸ inside) (absurd inside <| · c)
    · rintro ⟨event, member, context⟩
      exact ⟨event, events member, context⟩
  connecting c inside event member := by
    refine conversing.connecting c ?_ event (events member)
    exact pc.elim (· ▸ inside) (absurd inside <| · c)

/-- Sessions stay, and the user is told nothing about them. -/
theorem Conversing.frame (conversing : s.Conversing) (follows : s.Follows s') (guarded : s'.Guarded) (calm : Calm s s')
    (sessions : s'.sessions = s.sessions)
    (kept : ∀ id p session, s.sessions id = some p → s.objects p = some session →
      ∃ session', s'.objects p = some session' ∧ session'.sockType = session.sockType)
    (shut : ∀ c id, s'.ShutAs c id → s.ShutAs c id) {more : List Event} (trace : s'.trace = s.trace ++ more)
    (silent : ∀ event ∈ more, event.session = none) : s'.Conversing := by
  refine conversing.next follows guarded (fun _ => False) trace ?_ ?_ ?_ (fun c id after => .inl (shut c id after))
    calm.hand (fun _ _ given => given.elim) calm.connecting
  · intro event member id about
    rw [silent event member] at about
    cases about
  · intro id p session _ stored found
    obtain ⟨session', found', same⟩ := kept id p session stored found
    exact ⟨session', by rw [sessions, stored], found', same⟩
  · intro id after
    exact .inl (sessions ▸ after)

/-- The same with no session touched. -/
theorem Conversing.still (conversing : s.Conversing) (follows : s.Follows s') (guarded : s'.Guarded) (calm : Calm s s')
    (sessions : s'.sessions = s.sessions) (objects : s'.objects = s.objects) {more : List Event}
    (trace : s'.trace = s.trace ++ more) (silent : ∀ event ∈ more, event.session = none) : s'.Conversing := by
  refine conversing.frame follows guarded calm sessions ?_ ?_ trace silent
  · exact fun _ p session _ found => ⟨session, objects ▸ found, rfl⟩
  · exact fun c j after => by rwa [ShutAs, objects] at after

/-- The user is told one thing about one ID, and the other sessions stay. -/
theorem Conversing.turn (conversing : s.Conversing) (follows : s.Follows s') (guarded : s'.Guarded) (calm : Calm s s')
    {id : SessionID} {event : Event} (first last : List Event) (trace : s'.trace = s.trace ++ (first ++ event :: last))
    (before : ∀ event ∈ first, event.session = none) (about : event.session = some id)
    (behind : ∀ event ∈ last, event.session = none)
    (kept : ∀ j p session, j ≠ id → s.sessions j = some p → s.objects p = some session →
      ∃ session', s'.objects p = some session' ∧ session'.sockType = session.sockType)
    (sessions : ∀ j, j ≠ id → s'.sessions j = s.sessions j)
    (shut : ∀ c j, s'.ShutAs c j → s.ShutAs c j ∨ j = id ∧ s.sessions j = some (.connector c))
    {talk talk' : Talk} (told : (conversation false).after id s.trace = some talk)
    (moved : talk.next false event = some talk') (stands : s'.Stands id talk') : s'.Conversing := by
  refine conversing.next follows guarded (· = id) trace ?_ ?_ ?_ shut calm.hand ?_ calm.connecting
  · intro event' member j about'
    rcases List.mem_append.mp member with early | member
    · rw [before event' early] at about'
      cases about'
    · rcases List.mem_cons.mp member with rfl | late
      · exact Option.some.inj (about'.symm.trans about)
      · rw [behind event' late] at about'
        cases about'
  · intro j p session other stored found
    obtain ⟨session', found', same⟩ := kept j p session other stored found
    exact ⟨session', by rw [sessions j other, stored], found', same⟩
  · intro j after
    by_cases same : j = id
    · exact .inr ⟨event, by simp, same ▸ about⟩
    · exact .inl (sessions j same ▸ after)
  · rintro j _ rfl _ _
    refine ⟨talk', ?_, stands⟩
    rw [trace, Monitor.after_one (about_no_other before) about (about_no_other behind), told]
    exact moved

/-! ### Calls of the user -/

/-- A connector in the table that the service is going to report on. -/
theorem Conversing.inHand_connected (conversing : s.Conversing) {c : Nat} {id : SessionID}
    (stored : s.sessions id = some (.connector c)) (inHand : s.InHand c) :
    (conversation false).after id s.trace = some .connected := by
  have guarded := conversing.guarded
  have known : ∀ j session, s.alive j = some (.connector c, session) →
      (conversation false).after id s.trace = some .connected := by
    intro j session alive
    obtain ⟨_, stored', found⟩ := alive_eq_some.mp alive
    obtain rfl : id = j := (guarded.own id c session stored found).symm.trans (guarded.own j c session stored' found)
    rw [conversing.alive alive, Session.talk, if_pos (guarded.sound.connectors c session found)]
  have unshut : ¬ s.Shut c := by
    rintro ⟨session, found, shut⟩
    rw [← guarded.own id c session stored found, guarded.unstored found shut] at stored
    cases stored
  rcases inHand with inside | ⟨event, member, context⟩
  · rcases guarded.watched.connecting c inside with ⟨⟨j, session, alive, _⟩, _⟩ | shut
    · exact known j session alive
    · exact absurd shut unshut
  · rcases guarded.watched.pending event member _ context with ⟨j, session, alive, _⟩ | ⟨d, same, shut⟩
    · exact known j session alive
    · cases same
      exact absurd shut unshut

/-- Nobody else was kicked under the ID of a session in the table. -/
theorem Conversing.ended (conversing : s.Conversing) {id : SessionID} {p : SessionPtr} (stored : s.sessions id = some p)
    (shut : ∀ c, s'.ShutAs c id → s.ShutAs c id) : s'.Stands id .absent := by
  refine .absent fun c after => ?_
  rw [conversing.guarded.shut_unstored (shut c after)] at stored
  cases stored

theorem Conversing.kick_heap (conversing : s.Conversing) {n : Nat} {session : Session}
    (found : s.objects (.heap n) = some session)
    (kicked : ((s.access session.sessionID).emit (.kick session.sessionID)).removed (.heap n) session = s')
    (follows : s.Follows s') (guarded : s'.Guarded) : s'.Conversing := by
  subst kicked
  obtain ⟨stored, kind⟩ := conversing.guarded.sound.heap n session found
  obtain ⟨talk, told, stands⟩ := conversing.told session.sessionID
  have moved : talk.next false (.kick session.sessionID) = some .absent := by
    cases stands with
    | live p session' stored' found' =>
      cases Option.some.inj (stored.symm.trans stored')
      cases Option.some.inj (found.symm.trans found')
      rw [Session.talk, if_neg (by rcases kind with kind | kind <;> simp [kind])]
      rfl
    | kicked lost => exact absurd lost (held_of_stored stored)
    | absent _ => rfl
  refine conversing.turn follows guarded (conversing.calm (.inl rfl) (List.Subset.refl _)) [] _
    (List.append_assoc s.trace [.kick session.sessionID] _) nofun rfl (silent_sockets _) ?_
    (fun j other => Function.update_of_ne other _ _) (fun c j after => .inl after) told moved
    (conversing.ended stored fun c after => after)
  intro j p session' other stored' found'
  refine ⟨session', ?_, rfl⟩
  exact (Function.update_of_ne (conversing.guarded.other other stored stored') _ _).trans found'

theorem Conversing.kick_connector (conversing : s.Conversing) {c : Nat} {session : Session}
    (found : s.objects (.connector c) = some session) (stored : s.sessions session.sessionID = some (.connector c))
    (kicked : s.detached c session = s') (follows : s.Follows s') (guarded : s'.Guarded) : s'.Conversing := by
  subst kicked
  have here : (s.detached c session).ShutAs c session.sessionID := ⟨_, Function.update_self .., rfl, rfl⟩
  have shut : ∀ d j, (s.detached c session).ShutAs d j →
      s.ShutAs d j ∨ j = session.sessionID ∧ s.sessions j = some (.connector c) ∧ d = c := by
    rintro d j ⟨session', found', closed, rfl⟩
    rcases update_eq_some found' with ⟨same, new⟩ | before
    · cases same
      cases new
      exact .inr ⟨rfl, stored, rfl⟩
    · exact .inl ⟨session', before, closed, rfl⟩
  obtain ⟨talk, told, stands⟩ := conversing.told session.sessionID
  have moved : ∃ talk', talk.next false (.kick session.sessionID) = some talk' ∧
      (s.detached c session).Stands session.sessionID talk' := by
    cases stands with
    | live p session' stored' found' =>
      cases Option.some.inj (stored.symm.trans stored')
      cases Option.some.inj (found.symm.trans found')
      rw [Session.talk, if_pos (conversing.guarded.sound.connectors c session found)]
      exact ⟨.kicked, rfl, .kicked (guarded.shut_lost here)⟩
    | kicked lost => exact absurd lost (held_of_stored stored)
    | absent _ =>
      refine ⟨.absent, rfl, .absent fun d after inHand => ?_⟩
      rcases shut d _ after with before | ⟨_, _, rfl⟩
      · rw [conversing.guarded.shut_unstored before] at stored
        cases stored
      -- It was reported as failed before: nothing more comes.
      · cases told.symm.trans (conversing.inHand_connected stored inHand)
  obtain ⟨talk', moved, after⟩ := moved
  refine conversing.turn follows guarded (conversing.calm (.inl rfl) (List.Subset.refl _)) [] _ rfl nofun rfl
    (silent_sockets _) ?_ (fun j other => Function.update_of_ne other _ _) ?_ told moved after
  · intro j p session' other stored' found'
    refine ⟨session', ?_, rfl⟩
    exact (Function.update_of_ne (conversing.guarded.other other stored stored') _ _).trans found'
  · intro d j after
    rcases shut d j after with before | ⟨own, stored', rfl⟩
    · exact .inl before
    · exact .inr ⟨own, stored'⟩

theorem Conversing.kickSession (conversing : s.Conversing) {id : SessionID} (follows : s.Follows s')
    (guarded : s'.Guarded) (taken : s.kickSession id = some s') : s'.Conversing := by
  cases stored : s.sessions id with
  | none =>
    rw [kickSession_none stored] at taken
    cases Option.some.inj taken
    exact conversing.still follows guarded (conversing.calm (.inl rfl) (List.Subset.refl _)) rfl rfl
      (List.append_nil _).symm nofun
  | some p =>
    obtain ⟨session, found, _⟩ := conversing.guarded.sound.stored id p stored
    obtain rfl := conversing.guarded.own_id stored found
    cases p with
    | heap n =>
      rw [kickSession_heap found stored (conversing.guarded.sound.heap n session found).2] at taken
      exact conversing.kick_heap found (Option.some.inj taken) follows guarded
    | connector c =>
      rw [kickSession_connector found stored (conversing.guarded.sound.connectors c session found)] at taken
      exact conversing.kick_connector found stored (Option.some.inj taken) follows guarded

/-- A connector that is not kicked is constructed or gets an ID. -/
theorem Conversing.setConnector (conversing : s.Conversing) {c : Nat} {session : Session} (follows : s.Follows s')
    (guarded : s'.Guarded) (resting : ∀ id, s.sessions id ≠ some (.connector c)) (sessions : s'.sessions = s.sessions)
    (objects : s'.objects = Function.update s.objects (.connector c) (some session)) (unclosed : session.sock ≠ none)
    {more : List Event} (trace : s'.trace = s.trace ++ more) (silent : ∀ event ∈ more, event.session = none)
    (events : s'.events = s.events) (pc : s'.pc = s.pc) : s'.Conversing := by
  refine conversing.frame follows guarded (conversing.calm (.inl pc) (events ▸ List.Subset.refl _)) sessions ?_ ?_ trace
    silent
  · intro id p session' stored found
    refine ⟨session', ?_, rfl⟩
    rw [objects, Function.update_of_ne (by rintro rfl; exact resting id stored), found]
  · rintro d id ⟨session', found, closed, own⟩
    rw [objects] at found
    rcases update_eq_some found with ⟨_, new⟩ | before
    · cases new
      exact absurd closed unclosed
    · exact ⟨session', before, closed, own⟩

theorem Conversing.addTCPConnector (conversing : s.Conversing) {c : Nat} {added connecting ok : Bool}
    (follows : s.Follows s') (guarded : s'.Guarded) (spares : s.Spares (.addTCPConnector c added connecting))
    (taken : s.addTCPConnector c added connecting = some (ok, s')) : s'.Conversing := by
  obtain ⟨session, found, _⟩ := Option.bind_eq_some_iff.mp taken
  obtain ⟨_, resting, unclosed⟩ := spares
  have unclosed : session.sock ≠ none := by
    rw [unclosed session found]
    nofun
  rcases addTCPConnector_cases conversing.guarded.sound.positive found taken with
    ⟨_, rfl⟩ | ⟨id, rest, _, ⟨_, rfl⟩ | ⟨_, _, rfl⟩ | ⟨_, _, rfl⟩⟩
  · exact conversing.setConnector follows guarded resting rfl rfl unclosed (List.append_nil _).symm nofun rfl rfl
  · exact conversing.setConnector follows guarded resting rfl rfl unclosed (List.append_nil _).symm nofun rfl rfl
  · exact conversing.setConnector follows guarded resting rfl rfl unclosed (List.append_nil _).symm nofun rfl rfl
  · exact conversing.setConnector follows guarded resting rfl rfl unclosed (List.append_nil _).symm nofun rfl rfl

/-! ### Operations -/

/-- A session that was accepted, or that a peer's first datagram opened. -/
theorem Conversing.opened (conversing : s.Conversing) (follows : s.Follows s') (guarded : s'.Guarded) {id : SessionID}
    {rest : List SessionID} {session : Session} (front : s.queSessionID = id :: rest)
    (added : session.sockType ≠ .connect)
    (sessions : s'.sessions = Function.update s.sessions id (some (.heap s.allocated)))
    (objects : s'.objects = Function.update s.objects (.heap s.allocated) (some session)) (first : List Event)
    {sock : Socket} {address : SockAddr} (trace : s'.trace = s.trace ++ (first ++ [.onAddConnection id sock address]))
    (silent : ∀ event ∈ first, event.session = none) (events : s'.events = s.events)
    (pc : ∀ c, s'.pc ≠ .connectCallBack c) : s'.Conversing := by
  have sound := conversing.guarded.sound
  have free := (sound.free front).1
  have waiting : s.held id ≠ 0 := by simp [NetService.held, holders, front]
  have absent := conversing.absent free waiting
  have fresh := sound.fresh _ (Nat.le_refl s.allocated)
  have live : s'.Stands id session.talk :=
    .live _ session (by rw [sessions, Function.update_self]) (by rw [objects, Function.update_self])
  rw [Session.talk, if_neg added] at live
  refine conversing.turn follows guarded (conversing.calm (.inr pc) (events ▸ List.Subset.refl _)) first [] trace silent
    rfl (by simp) ?_ (fun j other => by rw [sessions, Function.update_of_ne other]) ?_ absent rfl live
  · intro j p session' _ _ found
    refine ⟨session', ?_, rfl⟩
    rw [objects, Function.update_of_ne ?_, found]
    rintro rfl
    rw [fresh] at found
    cases found
  · rintro c j ⟨session', found, closed⟩
    rw [objects, Function.update_of_ne (by simp)] at found
    exact .inl ⟨session', found, closed⟩

theorem Conversing.acceptRound (conversing : s.Conversing) {listener : Socket} {answer : Option Accepted}
    (follows : s.Follows s') (guarded : s'.Guarded) (taken : s.acceptRound listener answer = some s') :
    s'.Conversing := by
  cases answer with
  | none =>
    cases Option.some.inj taken
    exact conversing.still follows guarded (conversing.calm (.inr nofun) (List.Subset.refl _)) rfl rfl
      (List.append_nil _).symm nofun
  | some a =>
    rcases acceptRound_cases conversing.guarded.sound.positive taken with rfl | ⟨id, rest, front, rfl | rfl⟩
    · exact conversing.still follows guarded (conversing.calm (.inr nofun) (List.Subset.refl _)) rfl rfl
        (List.append_assoc s.trace [.opened a.socket] _) (by simp [Event.session])
    · exact conversing.still follows guarded (conversing.calm (.inr nofun) (List.Subset.refl _)) rfl rfl
        (List.append_assoc s.trace [.opened a.socket] _) (by simp [Event.session])
    · exact conversing.opened follows guarded front (by simp) rfl rfl [.opened a.socket]
        (List.append_assoc s.trace [.opened a.socket] _) (by simp [Event.session]) rfl nofun

/-- Data is for a session that is alive. -/
theorem Conversing.delivered (conversing : s.Conversing) (follows : s.Follows s') (guarded : s'.Guarded)
    {id : SessionID} {p : SessionPtr} {session : Session} (alive : s.alive id = some (p, session))
    (sessions : s'.sessions = s.sessions) (objects : s'.objects = s.objects) {sock : Socket} {data : List Byte}
    {size : Int} (trace : s'.trace = s.trace ++ [.onData id sock data size]) (events : s'.events ⊆ s.events)
    (pc : ∀ c, s'.pc ≠ .connectCallBack c) : s'.Conversing := by
  obtain ⟨_, stored, found⟩ := alive_eq_some.mp alive
  have moved : session.talk.next false (.onData id sock data size) = some session.talk := by simp [Talk.next]
  have live : s'.Stands id session.talk := .live p session (sessions ▸ stored) (objects ▸ found)
  refine conversing.turn follows guarded (conversing.calm (.inr pc) events) [] [] trace nofun rfl nofun ?_
    (fun j _ => by rw [sessions]) ?_ (conversing.alive alive) moved live
  · exact fun j p session' _ _ found' => ⟨session', objects ▸ found', rfl⟩
  · exact fun c j after => .inl (by rwa [ShutAs, objects] at after)

theorem Conversing.receiveRound (conversing : s.Conversing) {listener : Socket} {data : List Byte}
    {answer : Option Datagram} (follows : s.Follows s') (guarded : s'.Guarded)
    (taken : s.receiveRound listener data answer = some s') : s'.Conversing := by
  cases answer with
  | none =>
    cases Option.some.inj taken
    exact conversing.still follows guarded (conversing.calm (.inr nofun) (List.Subset.refl _)) rfl rfl
      (List.append_nil _).symm nofun
  | some d =>
    rcases receiveRound_cases conversing.guarded.sound.positive taken with
      rfl | ⟨known, rfl⟩ | ⟨id, rest, front, _, _, rfl⟩
    · exact conversing.still follows guarded (conversing.calm (.inr nofun) (List.Subset.refl _)) rfl rfl
        (List.append_nil _).symm nofun
    · obtain ⟨p, session, alive, _⟩ := conversing.guarded.watched.mapped _ _ (getUDPSessionID_eq known)
      exact conversing.delivered follows guarded alive rfl rfl rfl (List.Subset.refl _) nofun
    · exact conversing.opened follows guarded front (by simp) rfl rfl [] rfl nofun rfl nofun

/-- The ID of an attempt passes to the table. -/
theorem Conversing.postConnect (conversing : s.Conversing) {c : Nat} (trying : c ∈ s.attempts)
    (follows : s.Follows s') (guarded : s'.Guarded) (taken : s.postConnect c = some s') : s'.Conversing := by
  obtain ⟨session, found, _⟩ := Option.bind_eq_some_iff.mp taken
  rw [postConnect_eq found] at taken
  cases Option.some.inj taken
  have before := conversing.guarded
  have connect := before.sound.connectors c session found
  have unclosed := before.unclosed c trying session found
  have own : s.attemptID c = session.sessionID := by simp [attemptID, found]
  have free : s.sessions session.sessionID = none := own ▸ before.sound.attempt_free trying
  have waiting : s.held session.sessionID ≠ 0 := by
    have counted : 0 < (s.attempts.map s.attemptID).count session.sessionID :=
      List.count_pos_iff.mpr (List.mem_map.mpr ⟨c, trying, own⟩)
    simp only [NetService.held, holders]
    omega
  have unread : ∀ event ∈ s.events, event.context ≠ .read (.connector c) := by
    intro event member context
    rcases before.watched.pending event member _ context with
      ⟨id, session', alive, _⟩ | ⟨d, same, session', found', shut⟩
    · obtain ⟨_, stored, found'⟩ := alive_eq_some.mp alive
      rw [before.own id c session stored found, stored] at free
      cases free
    · cases same
      cases Option.some.inj (found.symm.trans found')
      rw [unclosed] at shut
      cases shut
  have connected : session.talk = .connected := by rw [Session.talk, if_pos connect]
  refine conversing.turn follows guarded ⟨?_, ?_⟩ [] [] rfl (by simp) rfl (by simp) ?_
    (fun j other => Function.update_of_ne other _ _) (fun d j after => .inl after) (conversing.absent free waiting)
    rfl (connected ▸ .live (.connector c) session (Function.update_self ..) found)
  · rintro d (inside | waiting)
    · cases inside
      refine .inr ?_
      rintro ⟨session', found', shut⟩
      cases Option.some.inj (found.symm.trans found')
      rw [unclosed] at shut
      cases shut
    · exact .inl (.inr waiting)
  · rintro d inside
    cases inside
    exact unread
  · exact fun j p session' _ _ found' => ⟨session', found', rfl⟩

/-- The end of a session that was alive, or a failure after a kick. -/
theorem Conversing.reported (conversing : s.Conversing) (follows : s.Follows s') (guarded : s'.Guarded) {id : SessionID}
    {event : Event} {talk : Talk} (about : event.session = some id)
    (told : (conversation false).after id s.trace = some talk) (moved : talk.next false event = some .absent)
    (sessions : s'.sessions = s.sessions) (objects : s'.objects = s.objects) (socks : List Socket)
    (trace : s'.trace = s.trace ++ (socks.map .closed ++ [event])) (events : s'.events ⊆ s.events)
    (pc : ∀ c, s'.pc ≠ .connectCallBack c)
    (ended : ∀ c, s.ShutAs c id → ∀ event ∈ s'.events, event.context ≠ .read (.connector c)) : s'.Conversing := by
  have shut : ∀ c j, s'.ShutAs c j → s.ShutAs c j := fun c j after => by rwa [ShutAs, objects] at after
  refine conversing.turn follows guarded (conversing.calm (.inr pc) events) (socks.map .closed) [] trace
    (silent_sockets socks) about nofun ?_ (fun j _ => by rw [sessions]) (fun c j after => .inl (shut c j after)) told
    moved (.absent ?_)
  · exact fun j p session' _ _ found' => ⟨session', objects ▸ found', rfl⟩
  · rintro c after (inside | ⟨event, member, context⟩)
    · exact pc c inside
    · exact ended c (shut c id after) event member context

/-- A connector that was kicked and is still in hand was not reported as failed. -/
theorem Conversing.kicked (conversing : s.Conversing) {c : Nat} {session : Session}
    (found : s.objects (.connector c) = some session) (shut : session.sock = none) (inHand : s.InHand c) :
    (conversation false).after session.sessionID s.trace = some .kicked := by
  obtain ⟨talk, told, stands⟩ := conversing.told session.sessionID
  cases stands with
  | live p session' stored _ =>
    rw [conversing.guarded.unstored found shut] at stored
    cases stored
  | kicked lost => exact told
  | absent ended => exact absurd inHand (ended c ⟨session, found, shut, rfl⟩)

/-- Nothing is in hand of a connector kicked under the ID of another session. -/
theorem Conversing.unread (conversing : s.Conversing) {id : SessionID} {p : SessionPtr}
    (stored : s.sessions id = some p) (events : List PollEvent) :
    ∀ c, s.ShutAs c id → ∀ event ∈ events, event.context ≠ .read (.connector c) := by
  intro c shut
  rw [conversing.guarded.shut_unstored shut] at stored
  cases stored

theorem Conversing.connected (conversing : s.Conversing) {c : Nat} {changed : Bool} (pc : s.pc = .connectCallBack c)
    (spares : s.Shut c → changed = false) (follows : s.Follows s') (guarded : s'.Guarded)
    (taken : s.connected c changed = some s') : s'.Conversing := by
  have connectors := conversing.guarded.sound.connectors c
  rcases conversing.guarded.watched.connecting c pc with ⟨⟨id, session, alive, _⟩, _⟩ | shut
  · obtain ⟨_, stored, found⟩ := alive_eq_some.mp alive
    have connect := connectors session found
    have told := conversing.alive alive
    rw [Session.talk, if_pos connect] at told
    rcases connected_cases found connect taken with ⟨_, _, rfl⟩ | rfl
    · refine conversing.frame follows guarded (conversing.calm (.inr nofun) (List.Subset.refl _)) rfl ?_ ?_
        (List.append_nil _).symm nofun
      · intro _ q before _ found'
        obtain ⟨flag, after⟩ := object_confirmed found found'
        exact ⟨_, after, rfl⟩
      · rintro d j ⟨session', found', closed, own⟩
        obtain ⟨before, earlier, flag, rfl⟩ := confirmed_object found found'
        exact ⟨before, earlier, closed, own⟩
    · obtain rfl := conversing.guarded.own id c session stored found
      exact conversing.reported follows guarded rfl told rfl rfl rfl [session.socket] (List.append_assoc ..)
        (List.Subset.refl _) nofun (conversing.unread stored _)
  · have unchanged := spares shut
    obtain ⟨session, found, closed⟩ := shut
    rcases connected_cases found (connectors session found) taken with ⟨changed, _, _⟩ | rfl
    · rw [unchanged] at changed
      cases changed
    · refine conversing.reported follows guarded rfl (conversing.kicked found closed (.inl pc)) rfl rfl rfl
        [session.socket] (List.append_assoc ..) (List.Subset.refl _) nofun ?_
      intro d shut
      rw [conversing.apart d c _ shut ⟨session, found, closed, rfl⟩]
      exact conversing.connecting c pc

/-- `PostRead` for the event at the head of the batch. -/
theorem Conversing.postRead (conversing : s.Conversing) {event : PollEvent} {rest : List PollEvent} {p : SessionPtr}
    {chunks : List (List Byte)} {ending : ReadEnd} (events : s.events = event :: rest)
    (context : event.context = .read p) (shut : ∀ c, p = .connector c → s.Shut c → ending = .error)
    (follows : s.Follows s') (guarded : s'.Guarded)
    (taken : { s with events := rest }.postRead p chunks ending = some s') : s'.Conversing := by
  have fewer : rest ⊆ s.events := events ▸ List.subset_cons_self event rest
  have pending := conversing.guarded.watched.pending event (events ▸ List.mem_cons_self ..) p context
  rcases pending with ⟨id, session, alive, _⟩ | ⟨c, rfl, kicked⟩
  · obtain ⟨_, stored, found⟩ := alive_eq_some.mp alive
    obtain rfl := conversing.guarded.own_id stored found
    have told := conversing.alive alive
    rcases postRead_cases (s := { s with events := rest }) found taken with
      ⟨_, connect, rfl⟩ | ⟨_, heap, rfl⟩ | ⟨_, rfl⟩
    · rw [Session.talk, if_pos connect] at told
      exact conversing.reported follows guarded rfl told rfl rfl rfl [] rfl fewer nofun (conversing.unread stored _)
    · rw [Session.talk, if_neg heap] at told
      exact conversing.reported follows guarded rfl told rfl rfl rfl [] rfl fewer nofun (conversing.unread stored _)
    · exact conversing.delivered follows guarded alive rfl rfl rfl fewer nofun
  · have error := shut c rfl kicked
    obtain ⟨session, found, closed⟩ := kicked
    have inHand : s.InHand c := .inr ⟨event, events ▸ List.mem_cons_self .., context⟩
    rcases postRead_cases (s := { s with events := rest }) found taken with ⟨_, _, rfl⟩ | ⟨_, heap, _⟩ | ⟨delivered, _⟩
    · refine conversing.reported follows guarded rfl (conversing.kicked found closed inHand) rfl rfl rfl [] rfl fewer
        nofun ?_
      intro d shut
      rw [conversing.apart d c _ shut ⟨session, found, closed, rfl⟩]
      have once := conversing.guarded.watched.apart
      rw [events, List.pairwise_cons] at once
      exact fun later member => once.1 later member _ context
    · exact absurd (conversing.guarded.sound.connectors c session found) heap
    · exact absurd error delivered

/-- A session that was dropped leaves the table: the user knows already. -/
theorem Conversing.delSession (conversing : s.Conversing) {p : SessionPtr} (drops : s.pc = .dropCallBack p)
    {t : NetService} (taken : s.delSession p = some t) (follows : s.Follows { t with pc := .idle })
    (guarded : ({ t with pc := .idle } : NetService).Guarded) : ({ t with pc := .idle } : NetService).Conversing := by
  obtain ⟨n, session, rfl, found⟩ := conversing.guarded.sound.dropping p drops
  obtain ⟨stored, kind⟩ := conversing.guarded.sound.heap n session found
  have dead := conversing.guarded.dropped _ session drops found
  rw [delSession_eq found stored kind] at taken
  cases Option.some.inj taken
  have calm : Calm s { s.removed (.heap n) session with pc := .idle } :=
    conversing.calm (.inr nofun) (List.Subset.refl _)
  refine conversing.next follows guarded (· = session.sessionID) rfl ?_ ?_ ?_ (fun c j after => .inl after) calm.hand ?_
    calm.connecting
  · intro event member id about
    rw [silent_sockets _ event member] at about
    cases about
  · intro id q before other stored' found'
    refine ⟨before, (Function.update_of_ne other _ _).trans stored', ?_, rfl⟩
    exact (Function.update_of_ne (conversing.guarded.other other stored stored') _ _).trans found'
  · intro id after
    obtain ⟨q, stored'⟩ := Option.isSome_iff_exists.mp after
    exact .inl (by rw [(update_none_eq_some stored').1]; rfl)
  · rintro _ talk rfl told stands
    refine ⟨talk, ?_, ?_⟩
    · exact (Monitor.after_append_other (about_no_other (silent_sockets _))).trans told
    · cases stands with
      | live q before stored' found' =>
        have opened := (heard_of_after told).1 (talk_live before)
        rw [dead] at opened
        cases opened
      | kicked lost => exact absurd lost (held_of_stored stored)
      | absent _ => exact conversing.ended stored fun c after => after

/-- A batch refers to registrations, none of which is of a kicked connector. -/
theorem Conversing.epollWait (conversing : s.Conversing) {batch : List PollEvent} (polled : s.Polled batch)
    (idle : s.pc = .idle) (follows : s.Follows { s with events := batch })
    (guarded : ({ s with events := batch } : NetService).Guarded) :
    ({ s with events := batch } : NetService).Conversing := by
  have calm : Calm s { s with events := batch } := by
    constructor
    · rintro c (inside | ⟨event, member, context⟩)
      · exact .inl (.inl inside)
      · obtain ⟨id, session, alive, _, unclosed, _⟩ :=
          conversing.guarded.watched.registered _ _ (context ▸ polled.2 event member)
        refine .inr ?_
        rintro ⟨session', found', shut⟩
        cases Option.some.inj ((alive_eq_some.mp alive).2.2.symm.trans found')
        rw [unclosed] at shut
        cases shut
    · intro c inside
      cases idle.symm.trans inside
  exact conversing.still follows guarded calm rfl rfl (List.append_nil _).symm nofun

theorem Conversing.addListener (conversing : s.Conversing) {listener : Socket} {context : Context} {add : Bool}
    (added : (s.epollAdd listener context add).getD s = s') (follows : s.Follows s') (guarded : s'.Guarded) :
    s'.Conversing := by
  rcases s.epollAdd_cases listener context add with same | same
  · rwa [← added, same]
  · obtain rfl := added.symm.trans same
    exact conversing.still follows guarded (conversing.calm (.inl rfl) (List.Subset.refl _)) rfl rfl
      (List.append_nil _).symm nofun

theorem Conversing.pop (conversing : s.Conversing) {event : PollEvent} {rest : List PollEvent}
    (events : s.events = event :: rest) : ({ s with events := rest } : NetService).Conversing := by
  have popped : Keeps s { s with events := rest } := conversing.guarded.sound.elsewhere leaves_rest (.inl rfl)
  exact conversing.still ⟨popped.1, fun id => (popped.2 id).le⟩ (conversing.guarded.pop events)
    (conversing.calm (.inl rfl) (events ▸ List.subset_cons_self event rest)) rfl rfl (List.append_nil _).symm nofun

/-- Only the thread moves on. -/
theorem Conversing.goto (conversing : s.Conversing) {pc : Pc} (follows : s.Follows { s with pc := pc })
    (guarded : ({ s with pc := pc } : NetService).Guarded) (elsewhere : ∀ c, pc ≠ .connectCallBack c) :
    ({ s with pc := pc } : NetService).Conversing :=
  conversing.still follows guarded (conversing.calm (.inr elsewhere) (List.Subset.refl _)) rfl rfl
    (List.append_nil _).symm nofun

theorem Conversing.step (conversing : s.Conversing) {action : Action} (spares : s.Spares action)
    (taken : s.step action = some s') : s'.Conversing := by
  have follows := conversing.guarded.follows spares taken
  have guarded := conversing.guarded.step spares taken
  cases step_took taken with
  | newConnector user free =>
    refine conversing.setConnector follows guarded ?_ rfl rfl nofun rfl (by simp [Event.session]) rfl rfl
    intro id stored
    obtain ⟨session, found, _⟩ := conversing.guarded.sound.stored id _ stored
    rw [free] at found
    cases found
  | addTCPListener user => exact conversing.addListener rfl follows guarded
  | addUDPListener user => exact conversing.addListener rfl follows guarded
  | addTCPConnector user result => exact conversing.addTCPConnector follows guarded spares result
  | kickSession user issued result => exact conversing.kickSession follows guarded result
  | postAccept idle => exact conversing.goto follows guarded nofun
  | postConnect idle result => exact spares.elim
  | postRead idle result => exact spares.elim
  | postReadFrom idle => exact conversing.goto follows guarded nofun
  | epollWait idle polled => exact conversing.epollWait polled idle follows guarded
  | ignored idle events => exact conversing.pop events
  | accepting idle events context => exact (conversing.pop events).goto follows guarded nofun
  | connecting idle events context out result =>
    exact (conversing.pop events).postConnect ((spares _ _ events).1 _ context out) follows guarded result
  | reading idle events context result =>
    exact conversing.postRead events context (fun c same => (spares _ _ events).2 c (same ▸ context)) follows guarded
      result
  | receiving idle events context => exact (conversing.pop events).goto follows guarded nofun
  | accept pc result => exact conversing.acceptRound follows guarded result
  | recvfrom pc result => exact conversing.receiveRound follows guarded result
  | accepted pc => exact conversing.goto follows guarded nofun
  | connected pc result => exact conversing.connected pc (spares _ pc) follows guarded result
  | opened pc =>
    obtain ⟨⟨p, session⟩, alive⟩ := Option.isSome_iff_exists.mp (conversing.guarded.watched.opening _ _ _ _ pc)
    exact conversing.delivered follows guarded alive rfl rfl rfl (List.Subset.refl _) nofun
  | delivered pc => exact conversing.goto follows guarded nofun
  | dropped pc result => exact conversing.delSession pc result follows guarded
  | returned pc => exact conversing.goto follows guarded nofun

theorem initSession_conversing : initSession.Conversing where
  guarded := initSession_guarded
  told id := ⟨.absent, Monitor.after_nil, .absent nofun⟩
  announced id stored := by cases stored
  apart := nofun
  connecting := nofun

/-- What the user was told about an ID fits together, and it knows of a session
    of a kind if and only if the service has one. -/
structure Told (s : NetService) (id : SessionID) (talk : Talk) : Prop where
  after : (conversation false).after id s.trace = some talk
  known : ∀ kind : Talk, kind.live = true →
    (talk = kind ↔ ∃ p session, s.alive id = some (p, session) ∧ session.talk = kind)

/-- In every run that spares the sessions in hand, the callbacks about an ID are
    those of one session after another. -/
theorem conversations_kept (s : NetService) (reached : Reachable Spares s) (id : SessionID) :
    ∃ talk, s.Told id talk := by
  have conversing : s.Conversing := by
    refine Transition.Reachable.invariant ?_ ?_ reached
    · rintro _ rfl
      exact initSession_conversing
    · rintro s s' _ conversing ⟨action, spares, taken⟩
      exact conversing.step spares taken
  obtain ⟨talk, told, stands⟩ := conversing.told id
  refine ⟨talk, told, fun kind live => ⟨?_, ?_⟩⟩
  · rintro rfl
    obtain ⟨p, session, stored, found, same⟩ := stands.stored live
    exact ⟨p, session, alive_eq_some.mpr ⟨(heard_of_after told).1 live, stored, found⟩, same⟩
  · rintro ⟨_, session, alive, rfl⟩
    exact Option.some.inj (told.symm.trans (conversing.alive alive))

theorem kicked_connector_told : ∃ s, Reachable Spares s ∧ s.trace = [.opened 9, .onConnected 1 9, .kick 1, .closed 9,
    .closed 9, .onConnectFail 1 9] ∧ ∃ talk, s.Told 1 talk := by
  have made : Reachable Spares _ := Reachable.init.act (.newConnector 0 9) trivial rfl
  have added := made.act (.addTCPConnector 0 true true)
    ⟨nofun, nofun, by rintro session found; cases Option.some.inj found; rfl⟩ rfl
  have polled := added.act (.epollWait [⟨9, .connect 0, false, true⟩]) trivial rfl
  have connected := polled.act (.dispatch [] .again)
    (by rintro event rest ⟨⟩; refine ⟨?_, nofun⟩; rintro c ⟨⟩ _; exact .head _) rfl
  have kicked := connected.act (.kickSession 1)
    (by rintro p ⟨⟩; exact ⟨nofun, nofun, nofun⟩) rfl
  have failed := kicked.act (.resume false) (fun _ _ _ => rfl) rfl
  exact ⟨_, failed, rfl, conversations_kept _ failed 1⟩

end NetService

end LiteServer.Net
