import LiteServer.Net.Outcomes

/-!
Who holds a session ID: the queue of free IDs, the table, or a connector whose
attempt is in progress. Every step moves an ID from one holder to another, as
long as connectors are added and connected in turn and no session is used after
its deletion.
-/
namespace LiteServer.Net

/-- How many of the queue, the table and the attempts in progress hold an ID. -/
def holders (queue : List SessionID) (sessions : SessionID → Option SessionPtr) (attempts : List SessionID)
    (id : SessionID) : Nat :=
  queue.count id + (if (sessions id).isSome then 1 else 0) + attempts.count id

section
variable {queue attempts attempts' : List SessionID} {sessions : SessionID → Option SessionPtr} {id : SessionID}

theorem holders_pop (j : SessionID) :
    holders (id :: queue) sessions attempts j = holders queue sessions attempts j + if j = id then 1 else 0 := by
  by_cases same : j = id
  · subst same
    simp [holders]
    omega
  · simp [holders, same, List.count_cons_of_ne (Ne.symm same)]

theorem holders_push (j : SessionID) :
    holders (queue ++ [id]) sessions attempts j = holders queue sessions attempts j + if j = id then 1 else 0 := by
  rw [← holders_pop]
  simp only [holders, List.count_append, List.count_cons, List.count_nil]
  omega

theorem holders_set {p : SessionPtr} (free : sessions id = none) (j : SessionID) :
    holders queue (Function.update sessions id (some p)) attempts j =
      holders queue sessions attempts j + if j = id then 1 else 0 := by
  by_cases same : j = id
  · subst same
    simp [holders, free]
    omega
  · simp [holders, same]

theorem holders_clear {p : SessionPtr} (held : sessions id = some p) (j : SessionID) :
    holders queue (Function.update sessions id none) attempts j + (if j = id then 1 else 0) =
      holders queue sessions attempts j := by
  by_cases same : j = id
  · subst same
    simp [holders, held]
    omega
  · simp [holders, same]

theorem holders_perm (moved : attempts'.Perm (id :: attempts)) (j : SessionID) :
    holders queue sessions attempts' j = holders queue sessions attempts j + if j = id then 1 else 0 := by
  simp only [holders, moved.count_eq, List.count_cons, beq_iff_eq]
  by_cases same : j = id
  · simp [same]
    omega
  · simp [same, Ne.symm same]

end

namespace NetService

/-- The ID of a connector's session. -/
def attemptID (s : NetService) (connector : Nat) : SessionID :=
  ((s.objects (.connector connector)).map Session.sessionID).getD 0

def held (s : NetService) (id : SessionID) : Nat :=
  holders s.queSessionID s.sessions (s.attempts.map s.attemptID) id

/-- Every ID of `InitSession` has exactly one holder. -/
def Partition (s : NetService) : Prop := ∀ id, s.held id = if 1 ≤ id ∧ id ≤ maxSockEvent then 1 else 0

/-- Objects from `new` are in the table under their own ID, what the table
    points to exists, and so does a session that is being dropped. -/
structure Sound (s : NetService) : Prop where
  held : ∀ id, s.held id ≤ if 1 ≤ id ∧ id ≤ maxSockEvent then 1 else 0
  heap : ∀ n session, s.objects (.heap n) = some session →
    s.sessions session.sessionID = some (.heap n) ∧ (session.sockType = .accepted ∨ session.sockType = .udp)
  stored : ∀ id p, s.sessions id = some p → ∃ session, s.objects p = some session ∧
    ∀ n, p = .heap n → session.sessionID = id
  connectors : ∀ c session, s.objects (.connector c) = some session → session.sockType = .connect
  fresh : ∀ n, s.allocated ≤ n → s.objects (.heap n) = none
  attempts : ∀ c ∈ s.attempts, (s.objects (.connector c)).isSome
  once : s.attempts.Nodup
  dropping : ∀ p, s.pc = .dropCallBack p → ∃ n session, p = .heap n ∧ s.objects p = some session

/-- What a step that only moves IDs between holders keeps. -/
def Keeps (s s' : NetService) : Prop := s'.Sound ∧ ∀ id, s'.held id = s.held id

variable {s s' : NetService}

theorem Keeps.trans {s'' : NetService} (first : Keeps s s') (second : Keeps s' s'') : Keeps s s'' :=
  ⟨second.1, fun id => (second.2 id).trans (first.2 id)⟩

/-! ### Moves

Each move is about any state with the fields it names. -/

theorem attemptID_congr {c : Nat} (same : s'.objects (.connector c) = s.objects (.connector c)) :
    s'.attemptID c = s.attemptID c := by
  rw [attemptID, attemptID, same]

/-- The objects and the table stay, and IDs move between the queue and the
    attempts. -/
theorem Sound.pass (sound : s.Sound) (held : ∀ id, s'.held id = s.held id) (sessions : s'.sessions = s.sessions)
    (objects : s'.objects = s.objects) (allocated : s'.allocated = s.allocated)
    (attempts : ∀ c ∈ s'.attempts, (s.objects (.connector c)).isSome) (once : s'.attempts.Nodup)
    (dropping : ∀ p, s'.pc = .dropCallBack p → s.pc = .dropCallBack p ∨ ∃ n session, p = .heap n ∧
      s.objects p = some session) : Keeps s s' := by
  refine ⟨⟨fun id => by rw [held]; exact sound.held id, ?_, ?_, ?_, ?_, ?_, once, ?_⟩, held⟩
  · rw [objects, sessions]; exact sound.heap
  · rw [objects, sessions]; exact sound.stored
  · rw [objects]; exact sound.connectors
  · rw [objects, allocated]; exact sound.fresh
  · rw [objects]; exact attempts
  · intro p drops
    rw [objects]
    exact (dropping p drops).elim (sound.dropping p) id

/-- Sessions and IDs do not depend on the rest of the state. -/
theorem Sound.frame (sound : s.Sound) (leaves : s.Leaves s') (dropping : ∀ p, s'.pc = .dropCallBack p →
    s.pc = .dropCallBack p ∨ ∃ n session, p = .heap n ∧ s.objects p = some session) : Keeps s s' := by
  obtain ⟨queue, sessions, objects, allocated, attempts⟩ := leaves
  have ids : s'.attemptID = s.attemptID := funext fun c => attemptID_congr (by rw [objects])
  refine sound.pass ?_ sessions objects allocated (attempts ▸ sound.attempts) (attempts ▸ sound.once) dropping
  intro id
  rw [NetService.held, NetService.held, queue, sessions, attempts, ids]

/-- An ID in the queue has no other holder. -/
theorem Sound.free (sound : s.Sound) {id : SessionID} {rest : List SessionID} (queue : s.queSessionID = id :: rest) :
    s.sessions id = none ∧ 1 ≤ id ∧ id ≤ maxSockEvent := by
  have bound := sound.held id
  rw [NetService.held, queue, holders_pop, if_pos rfl] at bound
  by_cases range : 1 ≤ id ∧ id ≤ maxSockEvent
  · refine ⟨?_, range⟩
    rw [if_pos range] at bound
    cases found : s.sessions id with
    | none => rfl
    | some p =>
      simp only [holders, found, Option.isSome_some, if_true] at bound
      omega
  · rw [if_neg range] at bound
    omega

/-- The ID of an attempt in progress has no other holder. -/
theorem Sound.attempt_free (sound : s.Sound) {c : Nat} (trying : c ∈ s.attempts) :
    s.sessions (s.attemptID c) = none := by
  have bound := sound.held (s.attemptID c)
  have counted : 0 < (s.attempts.map s.attemptID).count (s.attemptID c) :=
    List.count_pos_iff.mpr (List.mem_map.mpr ⟨c, trying, rfl⟩)
  cases found : s.sessions (s.attemptID c) with
  | none => rfl
  | some p =>
    simp only [NetService.held, holders, found, Option.isSome_some, if_true] at bound
    split at bound <;> omega

/-- A session object that keeps its ID and its kind. -/
theorem Sound.setObject (sound : s.Sound) {p : SessionPtr} {session session' : Session}
    (found : s.objects p = some session) (objects : s'.objects = Function.update s.objects p (some session'))
    (id : session'.sessionID = session.sessionID) (sockType : session'.sockType = session.sockType)
    (queue : s'.queSessionID = s.queSessionID) (sessions : s'.sessions = s.sessions)
    (allocated : s'.allocated = s.allocated) (attempts : s'.attempts = s.attempts)
    (dropping : ∀ p, s'.pc = .dropCallBack p → s.pc = .dropCallBack p) : Keeps s s' := by
  -- Both ways between the objects before and after.
  have old : ∀ q session₁, s'.objects q = some session₁ → ∃ session₂, s.objects q = some session₂ ∧
      session₁.sessionID = session₂.sessionID ∧ session₁.sockType = session₂.sockType := by
    intro q session₁ new
    rw [objects] at new
    by_cases same : q = p
    · subst same
      rw [Function.update_self, Option.some.injEq] at new
      subst new
      exact ⟨session, found, id, sockType⟩
    · rw [Function.update_of_ne same] at new
      exact ⟨session₁, new, rfl, rfl⟩
  have new : ∀ q session₂, s.objects q = some session₂ → ∃ session₁, s'.objects q = some session₁ ∧
      session₁.sessionID = session₂.sessionID := by
    intro q session₂ before
    rw [objects]
    by_cases same : q = p
    · subst same
      cases Option.some.inj (found.symm.trans before)
      exact ⟨session', Function.update_self .., id⟩
    · exact ⟨session₂, (Function.update_of_ne same _ _).trans before, rfl⟩
  have ids : s'.attemptID = s.attemptID := by
    funext c
    simp only [attemptID, objects]
    by_cases same : SessionPtr.connector c = p
    · simp [same, found, id]
    · simp [same]
  have held : ∀ j, s'.held j = s.held j := fun j => by
    rw [NetService.held, NetService.held, queue, sessions, attempts, ids]
  refine ⟨⟨fun j => by rw [held]; exact sound.held j, ?_, ?_, ?_, ?_, ?_, attempts ▸ sound.once, ?_⟩, held⟩
  · intro n session₁ after
    obtain ⟨session₂, before, sameID, sameType⟩ := old _ _ after
    rw [sameID, sameType, sessions]
    exact sound.heap n session₂ before
  · intro j q kept
    rw [sessions] at kept
    obtain ⟨session₂, before, own⟩ := sound.stored j q kept
    obtain ⟨session₁, after, sameID⟩ := new q session₂ before
    exact ⟨session₁, after, fun n heap => sameID.trans (own n heap)⟩
  · intro c session₁ after
    obtain ⟨session₂, before, _, sameType⟩ := old _ _ after
    rw [sameType]
    exact sound.connectors c session₂ before
  · intro n unused
    rw [allocated] at unused
    by_contra some
    obtain ⟨session₁, after⟩ := Option.ne_none_iff_exists'.mp some
    obtain ⟨session₂, before, _⟩ := old _ _ after
    rw [sound.fresh n unused] at before
    cases before
  · intro c trying
    rw [attempts] at trying
    obtain ⟨session₂, before⟩ := Option.isSome_iff_exists.mp (sound.attempts c trying)
    obtain ⟨session₁, after, _⟩ := new _ session₂ before
    rw [after]
    rfl
  · intro q drops
    obtain ⟨n, session₂, heap, before⟩ := sound.dropping q (dropping q drops)
    obtain ⟨session₁, after, _⟩ := new q session₂ before
    exact ⟨n, session₁, heap, after⟩

/-- A free ID goes to a new object in the table. -/
theorem Sound.open (sound : s.Sound) {id : SessionID} {rest : List SessionID} (queue : s.queSessionID = id :: rest)
    {session : Session} (own : session.sessionID = id) (sockType : session.sockType = .accepted ∨ session.sockType = .udp)
    (queue' : s'.queSessionID = rest) (sessions : s'.sessions = Function.update s.sessions id (some (.heap s.allocated)))
    (objects : s'.objects = Function.update s.objects (.heap s.allocated) (some session))
    (allocated : s'.allocated = s.allocated + 1) (attempts : s'.attempts = s.attempts)
    (elsewhere : ∀ p, s'.pc ≠ .dropCallBack p) : Keeps s s' := by
  obtain ⟨free, _⟩ := sound.free queue
  have others : ∀ p, p ≠ SessionPtr.heap s.allocated → s'.objects p = s.objects p := fun p differ => by
    rw [objects, Function.update_of_ne differ]
  have ids : s'.attemptID = s.attemptID := funext fun c => attemptID_congr (others _ (by simp))
  have held : ∀ j, s'.held j = s.held j := fun j => by
    rw [NetService.held, NetService.held, queue', sessions, attempts, ids, holders_set free, ← holders_pop, queue]
  refine ⟨⟨fun j => by rw [held]; exact sound.held j, ?_, ?_, ?_, ?_, ?_, attempts ▸ sound.once,
    fun p drops => absurd drops (elsewhere p)⟩, held⟩
  · intro n session₁ after
    by_cases same : n = s.allocated
    · subst same
      rw [objects, Function.update_self, Option.some.injEq] at after
      subst after
      exact ⟨by rw [own, sessions, Function.update_self], sockType⟩
    · rw [others _ (by simpa using same)] at after
      obtain ⟨kept, kind⟩ := sound.heap n session₁ after
      have apart : session₁.sessionID ≠ id := by
        intro clash
        rw [clash, free] at kept
        cases kept
      exact ⟨by rw [sessions, Function.update_of_ne apart, kept], kind⟩
  · intro j p kept
    rw [sessions] at kept
    by_cases same : j = id
    · subst same
      rw [Function.update_self, Option.some.injEq] at kept
      subst kept
      exact ⟨session, by rw [objects, Function.update_self], fun _ _ => own⟩
    · rw [Function.update_of_ne same] at kept
      obtain ⟨session₁, before, ownID⟩ := sound.stored j p kept
      have apart : p ≠ .heap s.allocated := by
        rintro rfl
        rw [sound.fresh _ (Nat.le_refl _)] at before
        cases before
      exact ⟨session₁, (others p apart).trans before, ownID⟩
  · intro c session₁ after
    rw [others _ (by simp)] at after
    exact sound.connectors c session₁ after
  · intro n unused
    rw [allocated] at unused
    rw [others _ (by simp only [ne_eq, SessionPtr.heap.injEq]; omega)]
    exact sound.fresh n (by omega)
  · intro c trying
    rw [attempts] at trying
    rw [others _ (by simp)]
    exact sound.attempts c trying

/-- A stored object is deleted and its ID freed. -/
theorem Sound.remove (sound : s.Sound) {n : Nat} {session : Session} (found : s.objects (.heap n) = some session)
    (queue : s'.queSessionID = s.queSessionID ++ [session.sessionID])
    (sessions : s'.sessions = Function.update s.sessions session.sessionID none)
    (objects : s'.objects = Function.update s.objects (.heap n) none)
    (allocated : s'.allocated = s.allocated) (attempts : s'.attempts = s.attempts)
    (dropping : ∀ p, s'.pc = .dropCallBack p → s.pc = .dropCallBack p ∧ p ≠ .heap n) : Keeps s s' := by
  have stored := (sound.heap n session found).1
  have others : ∀ p, p ≠ SessionPtr.heap n → s'.objects p = s.objects p := fun p differ => by
    rw [objects, Function.update_of_ne differ]
  have ids : s'.attemptID = s.attemptID := funext fun c => attemptID_congr (others _ (by simp))
  have held : ∀ j, s'.held j = s.held j := fun j => by
    rw [NetService.held, NetService.held, queue, sessions, attempts, ids, holders_push, holders_clear stored]
  refine ⟨⟨fun j => by rw [held]; exact sound.held j, ?_, ?_, ?_, ?_, ?_, attempts ▸ sound.once, ?_⟩, held⟩
  · intro m session₁ after
    have differ : m ≠ n := by
      rintro rfl
      rw [objects, Function.update_self] at after
      cases after
    rw [others _ (by simpa using differ)] at after
    obtain ⟨kept, kind⟩ := sound.heap m session₁ after
    have apart : session₁.sessionID ≠ session.sessionID := by
      intro clash
      rw [clash, stored, Option.some.injEq, SessionPtr.heap.injEq] at kept
      exact differ kept.symm
    exact ⟨by rw [sessions, Function.update_of_ne apart, kept], kind⟩
  · intro j p kept
    rw [sessions] at kept
    have apart : j ≠ session.sessionID := by
      rintro rfl
      rw [Function.update_self] at kept
      cases kept
    rw [Function.update_of_ne apart] at kept
    obtain ⟨session₁, before, own⟩ := sound.stored j p kept
    have differ : p ≠ .heap n := by
      rintro rfl
      cases Option.some.inj (found.symm.trans before)
      exact apart (own n rfl).symm
    exact ⟨session₁, (others p differ).trans before, own⟩
  · intro c session₁ after
    rw [others _ (by simp)] at after
    exact sound.connectors c session₁ after
  · intro m unused
    rw [allocated] at unused
    by_cases same : m = n
    · rw [objects, same, Function.update_self]
    · rw [others _ (by simpa using same)]
      exact sound.fresh m unused
  · intro c trying
    rw [attempts] at trying
    rw [others _ (by simp)]
    exact sound.attempts c trying
  · intro p drops
    obtain ⟨before, differ⟩ := dropping p drops
    rw [others p differ]
    exact sound.dropping p before

/-- The ID at the head of the queue is taken and given back. -/
theorem Sound.rotate (sound : s.Sound) {id : SessionID} {rest : List SessionID} (queue : s.queSessionID = id :: rest)
    (queue' : s'.queSessionID = rest ++ [id]) (sessions : s'.sessions = s.sessions) (objects : s'.objects = s.objects)
    (allocated : s'.allocated = s.allocated) (attempts : s'.attempts = s.attempts)
    (dropping : ∀ p, s'.pc = .dropCallBack p → s.pc = .dropCallBack p) : Keeps s s' := by
  have ids : s'.attemptID = s.attemptID := funext fun c => attemptID_congr (by rw [objects])
  refine sound.pass ?_ sessions objects allocated (attempts ▸ sound.attempts) (attempts ▸ sound.once)
    fun p drops => .inl (dropping p drops)
  intro j
  rw [NetService.held, NetService.held, queue', sessions, attempts, ids, holders_push, ← holders_pop, queue]

/-- A connector whose attempt is not in progress is constructed or gets an ID. -/
theorem Sound.setConnector (sound : s.Sound) {c : Nat} (resting : c ∉ s.attempts) {session' : Session}
    (objects : s'.objects = Function.update s.objects (.connector c) (some session'))
    (connect : session'.sockType = .connect) (queue : s'.queSessionID = s.queSessionID)
    (sessions : s'.sessions = s.sessions) (allocated : s'.allocated = s.allocated) (attempts : s'.attempts = s.attempts)
    (dropping : ∀ p, s'.pc = .dropCallBack p → s.pc = .dropCallBack p) : Keeps s s' := by
  have others : ∀ p, p ≠ SessionPtr.connector c → s'.objects p = s.objects p := fun p differ => by
    rw [objects, Function.update_of_ne differ]
  have ids : s.attempts.map s'.attemptID = s.attempts.map s.attemptID := by
    refine List.map_congr_left fun d trying => attemptID_congr (others _ ?_)
    rintro ⟨⟩
    exact resting trying
  have held : ∀ j, s'.held j = s.held j := fun j => by
    rw [NetService.held, NetService.held, queue, sessions, attempts, ids]
  refine ⟨⟨fun j => by rw [held]; exact sound.held j, ?_, ?_, ?_, ?_, ?_, attempts ▸ sound.once, ?_⟩, held⟩
  · intro n session after
    rw [others _ (by simp)] at after
    rw [sessions]
    exact sound.heap n session after
  · intro j p kept
    rw [sessions] at kept
    obtain ⟨session, before, own⟩ := sound.stored j p kept
    by_cases same : p = .connector c
    · exact ⟨session', by rw [same, objects, Function.update_self], fun n heap => by rw [same] at heap; cases heap⟩
    · exact ⟨session, (others p same).trans before, own⟩
  · intro d session after
    by_cases same : d = c
    · rw [same, objects, Function.update_self, Option.some.injEq] at after
      exact after ▸ connect
    · rw [others _ (by simpa using same)] at after
      exact sound.connectors d session after
  · intro n unused
    rw [allocated] at unused
    rw [others _ (by simp)]
    exact sound.fresh n unused
  · intro d trying
    rw [attempts] at trying
    rw [others _ (by rintro ⟨⟩; exact resting trying)]
    exact sound.attempts d trying
  · intro p drops
    obtain ⟨n, session, heap, before⟩ := sound.dropping p (dropping p drops)
    exact ⟨n, session, heap, (others p (by simp [heap])).trans before⟩

/-- The ID at the head of the queue, already in the session of a connector,
    passes to its attempt. -/
theorem Sound.attempt (sound : s.Sound) {id : SessionID} {rest : List SessionID} (queue : s.queSessionID = id :: rest)
    {c : Nat} (resting : c ∉ s.attempts) {session : Session} (found : s.objects (.connector c) = some session)
    (own : session.sessionID = id) (queue' : s'.queSessionID = rest) (attempts : s'.attempts = s.attempts ++ [c])
    (sessions : s'.sessions = s.sessions) (objects : s'.objects = s.objects) (allocated : s'.allocated = s.allocated)
    (dropping : ∀ p, s'.pc = .dropCallBack p → s.pc = .dropCallBack p) : Keeps s s' := by
  have ids : s'.attemptID = s.attemptID := funext fun c => attemptID_congr (by rw [objects])
  have passed : ((s.attempts ++ [c]).map s.attemptID).Perm (id :: s.attempts.map s.attemptID) := by
    rw [List.map_append, List.map_singleton, show s.attemptID c = id by simp [attemptID, found, own]]
    exact List.perm_append_singleton id _
  refine sound.pass ?_ sessions objects allocated ?_ ?_ fun p drops => .inl (dropping p drops)
  · intro j
    rw [NetService.held, NetService.held, queue', sessions, attempts, ids, holders_perm passed, ← holders_pop, queue]
  · intro d trying
    rw [attempts, List.mem_append, List.mem_singleton] at trying
    rcases trying with before | rfl
    · exact sound.attempts d before
    · rw [found]
      rfl
  · rw [attempts]
    exact (List.perm_append_singleton c s.attempts).nodup_iff.mpr (List.nodup_cons.mpr ⟨resting, sound.once⟩)

/-- The ID of an attempt in progress passes to the table. -/
theorem Sound.connect (sound : s.Sound) {c : Nat} (trying : c ∈ s.attempts) {session : Session}
    (found : s.objects (.connector c) = some session) (attempts : s'.attempts = s.attempts.erase c)
    (sessions : s'.sessions = Function.update s.sessions session.sessionID (some (.connector c)))
    (queue : s'.queSessionID = s.queSessionID) (objects : s'.objects = s.objects) (allocated : s'.allocated = s.allocated)
    (elsewhere : ∀ p, s'.pc ≠ .dropCallBack p) : Keeps s s' := by
  have own : s.attemptID c = session.sessionID := by simp [attemptID, found]
  have free := own ▸ sound.attempt_free trying
  have ids : s'.attemptID = s.attemptID := funext fun c => attemptID_congr (by rw [objects])
  have passed : (s.attempts.map s.attemptID).Perm (session.sessionID :: (s.attempts.erase c).map s.attemptID) := by
    rw [← own, ← List.map_cons]
    exact (List.perm_cons_erase trying).map _
  have held : ∀ j, s'.held j = s.held j := fun j => by
    rw [NetService.held, NetService.held, queue, sessions, attempts, ids, holders_set free, ← holders_perm passed]
  refine ⟨⟨fun j => by rw [held]; exact sound.held j, ?_, ?_, ?_, ?_, ?_, ?_,
    fun p drops => absurd drops (elsewhere p)⟩, held⟩
  · intro n session₁ after
    rw [objects] at after
    obtain ⟨kept, kind⟩ := sound.heap n session₁ after
    have apart : session₁.sessionID ≠ session.sessionID := by
      intro clash
      rw [clash, free] at kept
      cases kept
    exact ⟨by rw [sessions, Function.update_of_ne apart, kept], kind⟩
  · intro j p kept
    rw [sessions] at kept
    rw [objects]
    by_cases same : j = session.sessionID
    · rw [same, Function.update_self, Option.some.injEq] at kept
      subst kept
      exact ⟨session, found, fun n heap => by cases heap⟩
    · rw [Function.update_of_ne same] at kept
      exact sound.stored j p kept
  · rw [objects]; exact sound.connectors
  · rw [objects, allocated]; exact sound.fresh
  · rw [objects, attempts]
    exact fun d member => sound.attempts d (List.mem_of_mem_erase member)
  · rw [attempts]
    exact sound.once.erase c

/-- Kicking the session of a connector loses its ID. -/
theorem Sound.detached_held (sound : s.Sound) {c : Nat} {session : Session}
    (found : s.objects (.connector c) = some session) (stored : s.sessions session.sessionID = some (.connector c))
    (j : SessionID) : (s.detached c session).held j + (if j = session.sessionID then 1 else 0) = s.held j := by
  have kept : Keeps s { s.detached c session with sessions := s.sessions } :=
    sound.setObject found rfl rfl rfl rfl rfl rfl rfl fun p drops => drops
  exact (holders_clear stored j).trans (kept.2 j)

theorem Sound.detached (sound : s.Sound) {c : Nat} {session : Session}
    (found : s.objects (.connector c) = some session) (stored : s.sessions session.sessionID = some (.connector c)) :
    (s.detached c session).Sound := by
  have kept : Keeps s { s.detached c session with sessions := s.sessions } :=
    sound.setObject found rfl rfl rfl rfl rfl rfl rfl fun p drops => drops
  obtain ⟨sound', _⟩ := kept
  have fewer : ∀ j, (s.detached c session).held j ≤ s.held j := fun j => by
    rw [← sound.detached_held found stored j]
    exact Nat.le_add_right ..
  refine ⟨fun j => (fewer j).trans (sound.held j), ?_, ?_, sound'.connectors, sound'.fresh, sound'.attempts,
    sound'.once, sound'.dropping⟩
  · intro n session₁ after
    obtain ⟨kept, kind⟩ := sound'.heap n session₁ after
    have apart : session₁.sessionID ≠ session.sessionID := by
      intro clash
      rw [clash] at kept
      cases kept.symm.trans stored
    exact ⟨(Function.update_of_ne apart _ _).trans kept, kind⟩
  · intro j p after
    have apart : j ≠ session.sessionID := by
      rintro rfl
      rw [show (s.detached c session).sessions session.sessionID = none from Function.update_self ..] at after
      cases after
    exact sound'.stored j p ((Function.update_of_ne apart _ _).symm.trans after)

/-! ### Steps -/

/-- What callers have to respect: a connector is added and connected in turn,
    and a session that is being dropped is not kicked. -/
def Proper (s : NetService) : Action → Prop
  | .addTCPConnector c _ _ => c ∉ s.attempts
  | .postConnect c => c ∈ s.attempts
  | .dispatch _ _ => ∀ event rest c, s.events = event :: rest → event.context = .connect c → event.epollOut = true →
      c ∈ s.attempts
  | .kickSession id => ∀ p, s.sessions id = some p → s.pc ≠ .dropCallBack p ∧
      ∀ c session, p = .connector c → s.objects p = some session → session.sessionID = id
  | _ => True

theorem Sound.positive (sound : s.Sound) : 0 ∉ s.queSessionID := by
  intro member
  have bound := sound.held 0
  have counted := List.count_pos_iff.mpr member
  have outside : (if 1 ≤ 0 ∧ 0 ≤ maxSockEvent then 1 else 0) = 0 := if_neg (by omega)
  rw [outside, NetService.held, holders] at bound
  omega

theorem Sound.elsewhere (sound : s.Sound) (leaves : s.Leaves s') (kept : s'.pc = s.pc ∨ ∀ p, s'.pc ≠ .dropCallBack p) :
    Keeps s s' := by
  refine sound.frame leaves ?_
  intro p drops
  rcases kept with same | apart
  · exact .inl (same ▸ drops)
  · exact absurd drops (apart p)

theorem Sound.addTCPConnector (sound : s.Sound) {c : Nat} {added connecting ok : Bool} (resting : c ∉ s.attempts)
    (taken : s.addTCPConnector c added connecting = some (ok, s')) : Keeps s s' := by
  obtain ⟨session, found, _⟩ := Option.bind_eq_some_iff.mp taken
  have connect := sound.connectors c session found
  rcases addTCPConnector_cases sound.positive found taken with
    ⟨_, rfl⟩ | ⟨id, rest, queue, ⟨_, rfl⟩ | ⟨_, _, rfl⟩ | ⟨_, _, rfl⟩⟩
  · exact sound.setConnector resting rfl connect rfl rfl rfl rfl fun p drops => drops
  all_goals
    have numbered : Keeps s (s.setObject (.connector c) { session with alive := false, sessionID := id }) :=
      sound.setConnector resting rfl connect rfl rfl rfl rfl fun p drops => drops
  · exact numbered.trans (numbered.1.rotate queue rfl rfl rfl rfl rfl fun p drops => drops)
  · exact numbered.trans (numbered.1.rotate queue rfl rfl rfl rfl rfl fun p drops => drops)
  · exact numbered.trans (numbered.1.attempt queue resting (Function.update_self ..) rfl rfl rfl rfl rfl rfl
      fun p drops => drops)

theorem Sound.acceptRound (sound : s.Sound) {listener : Socket} {answer : Option Accepted}
    (taken : s.acceptRound listener answer = some s') : Keeps s s' := by
  cases answer with
  | none =>
    cases Option.some.inj taken
    exact sound.elsewhere leaves_rest (.inr (by simp))
  | some a =>
    rcases acceptRound_cases sound.positive taken with rfl | ⟨id, rest, queue, rfl | rfl⟩
    · exact sound.elsewhere leaves_rest (.inr (by simp))
    · exact sound.rotate queue rfl rfl rfl rfl rfl (by simp)
    · exact sound.open queue rfl (.inl rfl) rfl rfl rfl rfl rfl (by simp)

theorem Sound.receiveRound (sound : s.Sound) {listener : Socket} {data : List Byte} {answer : Option Datagram}
    (taken : s.receiveRound listener data answer = some s') : Keeps s s' := by
  cases answer with
  | none =>
    cases Option.some.inj taken
    exact sound.elsewhere leaves_rest (.inr (by simp))
  | some d =>
    rcases receiveRound_cases sound.positive taken with rfl | ⟨_, rfl⟩ | ⟨id, rest, queue, _, _, rfl⟩
    · exact sound.elsewhere leaves_rest (.inr (by simp))
    · exact sound.elsewhere leaves_rest (.inr (by simp))
    · exact sound.open queue rfl (.inr rfl) rfl rfl rfl rfl rfl (by simp)

theorem Sound.postConnect (sound : s.Sound) {c : Nat} (trying : c ∈ s.attempts)
    (taken : s.postConnect c = some s') : Keeps s s' := by
  obtain ⟨session, found⟩ := Option.isSome_iff_exists.mp (sound.attempts c trying)
  rw [postConnect_eq found] at taken
  cases Option.some.inj taken
  exact sound.connect trying found rfl rfl rfl rfl rfl (by simp)

theorem Sound.postRead (sound : s.Sound) {p : SessionPtr} {chunks : List (List Byte)} {ending : ReadEnd}
    (taken : s.postRead p chunks ending = some s') : Keeps s s' := by
  obtain ⟨session, found, _⟩ := Option.bind_eq_some_iff.mp taken
  rcases postRead_cases found taken with ⟨_, _, rfl⟩ | ⟨_, heap, rfl⟩ | ⟨_, rfl⟩
  · exact sound.elsewhere leaves_rest (.inr (by simp))
  · refine sound.frame leaves_rest fun q drops => .inr ?_
    cases drops
    cases p with
    | heap n => exact ⟨n, session, rfl, found⟩
    | connector c => exact absurd (sound.connectors c session found) heap
  · exact sound.elsewhere leaves_rest (.inr (by simp))

/-- A proper step moves IDs between holders, or kicks a connector's session. -/
theorem Sound.step (sound : s.Sound) {action : Action} (proper : s.Proper action) (taken : s.step action = some s') :
    Keeps s s' ∨ ∃ c session, action = .kickSession session.sessionID ∧ s.objects (.connector c) = some session ∧
      s.sessions session.sessionID = some (.connector c) ∧ s' = s.detached c session := by
  cases step_took taken with
  | newConnector user free =>
    have absent : _ ∉ s.attempts := fun trying => by
      have some := sound.attempts _ trying
      rw [free] at some
      cases some
    exact .inl (sound.setConnector absent rfl rfl rfl rfl rfl rfl fun p drops => drops)
  | addTCPListener user =>
    left
    unfold epollAdd
    split <;> exact sound.elsewhere leaves_rest (.inl rfl)
  | addUDPListener user =>
    left
    unfold epollAdd
    split <;> exact sound.elsewhere leaves_rest (.inl rfl)
  | addTCPConnector user result => exact .inl (sound.addTCPConnector proper result)
  | @kickSession id _ user issued result =>
    cases found : s.sessions id with
    | none =>
      rw [kickSession_none found] at result
      cases Option.some.inj result
      exact .inl (sound.elsewhere leaves_rest (.inl rfl))
    | some p =>
      obtain ⟨notDropping, own⟩ := proper p found
      obtain ⟨session, object, heapOwn⟩ := sound.stored id p found
      cases p with
      | heap n =>
        obtain rfl := heapOwn n rfl
        rw [kickSession_heap object found (sound.heap n session object).2] at result
        cases Option.some.inj result
        refine .inl (sound.remove object rfl rfl rfl rfl rfl fun q drops => ⟨drops, ?_⟩)
        rintro rfl
        exact notDropping drops
      | connector c =>
        obtain rfl := own c session rfl object
        rw [kickSession_connector object found (sound.connectors c session object)] at result
        exact .inr ⟨c, session, rfl, object, found, (Option.some.inj result).symm⟩
  | postAccept idle => exact .inl (sound.elsewhere leaves_rest (.inr (by simp)))
  | postConnect idle result => exact .inl (sound.postConnect proper result)
  | postRead idle result => exact .inl (sound.postRead result)
  | postReadFrom idle => exact .inl (sound.elsewhere leaves_rest (.inr (by simp)))
  | epollWait idle polled => exact .inl (sound.elsewhere leaves_rest (.inl rfl))
  | ignored idle events => exact .inl (sound.elsewhere leaves_rest (.inl rfl))
  | accepting idle events context => exact .inl (sound.elsewhere leaves_rest (.inr (by simp)))
  | @connecting _ _ _ rest _ _ idle events context out result =>
    have popped : Keeps s { s with events := rest } := sound.elsewhere leaves_rest (.inl rfl)
    exact .inl (popped.trans (popped.1.postConnect (proper _ _ _ events context out) result))
  | @reading _ _ _ rest _ _ idle events context result =>
    have popped : Keeps s { s with events := rest } := sound.elsewhere leaves_rest (.inl rfl)
    exact .inl (popped.trans (popped.1.postRead result))
  | receiving idle events context => exact .inl (sound.elsewhere leaves_rest (.inr (by simp)))
  | accept pc result => exact .inl (sound.acceptRound result)
  | recvfrom pc result => exact .inl (sound.receiveRound result)
  | accepted pc => exact .inl (sound.elsewhere leaves_rest (.inr (by simp)))
  | connected pc result =>
    left
    obtain ⟨session, found, _⟩ := Option.bind_eq_some_iff.mp result
    rcases connected_cases found (sound.connectors _ session found) result with ⟨_, _, rfl⟩ | rfl
    · exact sound.setObject found rfl rfl rfl rfl rfl rfl rfl nofun
    · exact sound.elsewhere leaves_rest (.inr (by simp))
  | opened pc => exact .inl (sound.elsewhere leaves_rest (.inr (by simp)))
  | delivered pc => exact .inl (sound.elsewhere leaves_rest (.inr (by simp)))
  | dropped pc result =>
    obtain ⟨n, session, rfl, found⟩ := sound.dropping _ pc
    obtain ⟨stored, kind⟩ := sound.heap n session found
    rw [delSession_eq found stored kind] at result
    cases Option.some.inj result
    exact .inl (sound.remove found rfl rfl rfl rfl rfl (by simp))
  | returned pc => exact .inl (sound.elsewhere leaves_rest (.inr (by simp)))

theorem initSession_held (id : SessionID) : initSession.held id = if 1 ≤ id ∧ id ≤ maxSockEvent then 1 else 0 := by
  have count : initSession.held id = (List.range' 1 maxSockEvent).count id := by
    simp [NetService.held, holders, initSession]
  rw [count]
  by_cases inside : 1 ≤ id ∧ id ≤ maxSockEvent
  · rw [if_pos inside]
    refine List.count_eq_one_of_mem List.nodup_range' (List.mem_range'_1.mpr ⟨inside.1, ?_⟩)
    rw [Nat.add_comm]
    exact Nat.lt_succ_of_le inside.2
  · rw [if_neg inside, List.count_eq_zero]
    intro member
    rw [List.mem_range'_1, Nat.add_comm 1] at member
    exact inside ⟨member.1, Nat.le_of_lt_succ member.2⟩

theorem initSession_sound : initSession.Sound where
  held id := (initSession_held id).le
  heap := by simp [initSession]
  stored := by simp [initSession]
  connectors := by simp [initSession]
  fresh := by simp [initSession]
  attempts := by simp [initSession]
  once := List.nodup_nil
  dropping := by simp [initSession]

theorem sound_of_reachable {allowed : NetService → Action → Prop}
    (proper : ∀ s action, allowed s action → s.Proper action) (reached : Reachable allowed s) : s.Sound := by
  refine Transition.Reachable.invariant ?_ ?_ reached
  · rintro _ rfl
    exact initSession_sound
  · rintro s s' _ sound ⟨action, allows, taken⟩
    rcases sound.step (proper s action allows) taken with kept | ⟨c, session, _, found, stored, rfl⟩
    · exact kept.1
    · exact sound.detached found stored

/-! ### The partition -/

/-- The steps after which no ID is lost or held twice: besides being proper,
    they never kick the session of a connector. -/
def KeepsIDs (s : NetService) (action : Action) : Prop :=
  match action with
  | .addTCPConnector c _ _ => c ∉ s.attempts
  | .postConnect c => c ∈ s.attempts
  | .dispatch _ _ => ∀ event rest c, s.events = event :: rest → event.context = .connect c → event.epollOut = true →
      c ∈ s.attempts
  | .kickSession id => ∀ p, s.sessions id = some p → s.pc ≠ .dropCallBack p ∧ ∀ c, p ≠ .connector c
  | _ => True

theorem KeepsIDs.proper {action : Action} (keeps : s.KeepsIDs action) : s.Proper action := by
  cases action with
  | kickSession id =>
    intro p stored
    obtain ⟨notDropping, heap⟩ := keeps p stored
    exact ⟨notDropping, fun c session connector => absurd connector (heap c)⟩
  | _ => exact keeps

/-- In every run whose steps all keep IDs, every ID is free, stored or held by
    an attempt in progress, and only once. -/
theorem session_ids_partitioned (s : NetService) (reached : Reachable KeepsIDs s) : s.Partition := by
  refine Transition.Reachable.invariant (P := Partition) ?_ ?_ reached
  · rintro _ rfl
    exact initSession_held
  · rintro s s' before partition ⟨action, keeps, taken⟩
    have sound := sound_of_reachable (fun _ _ keeps => KeepsIDs.proper keeps) before
    rcases sound.step keeps.proper taken with ⟨_, same⟩ | ⟨c, session, rfl, _, stored, _⟩
    · exact fun id => (same id).trans (partition id)
    · exact absurd rfl ((keeps _ stored).2 c)

theorem one_connection_partitioned : ∃ s, Reachable KeepsIDs s ∧ s.sessions 1 = some (.heap 0) ∧ s.Partition := by
  have listening := (Reachable.init : Reachable KeepsIDs _).act (.postAccept 3) trivial rfl
  have accepted := listening.act (.accept (some ⟨7, ⟨0, 0⟩, true⟩)) trivial rfl
  exact ⟨_, accepted, rfl, session_ids_partitioned _ accepted⟩

theorem held_nowhere {id : SessionID} (queue : id ∉ s.queSessionID) (sessions : s.sessions id = none)
    (attempts : s.attempts = []) : s.held id = 0 := by
  simp [NetService.held, holders, List.count_eq_zero.mpr queue, sessions, attempts]

/-- A connector that connected and was kicked: its ID is free no more. -/
theorem kicked_connector_leaks : ¬ ∀ s, Reachable Proper s → s.Partition := by
  intro claim
  have made : Reachable Proper _ := Reachable.init.act (.newConnector 0 7) trivial rfl
  have added := made.act (.addTCPConnector 0 true true) (by simp [Proper, initSession, setObject, emit]) rfl
  have connected := added.act (.postConnect 0) (by simp [Proper, initSession, setObject, emit]) rfl
  have returned := connected.act (.resume true) trivial rfl
  have kicked := returned.act (.kickSession 1)
    (by rintro p ⟨⟩; exact ⟨by rintro ⟨⟩, by rintro c session ⟨⟩ ⟨⟩; rfl⟩) rfl
  have queue : 1 ∉ List.range' 2 19999 := by simp [List.mem_range'_1]
  have one := claim _ kicked 1
  rw [held_nowhere queue rfl rfl] at one
  exact absurd one (by decide)

end NetService

end LiteServer.Net
