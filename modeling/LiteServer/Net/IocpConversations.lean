import LiteServer.Net.LostIDs
import LiteServer.Net.References
import LiteServer.Net.Talk
import LiteServer.Net.UdpMap

/-!
The conversations on the IOCP backend, as long as no session is kicked that is
in use. A receive that completed before a connector was kicked is delivered.
-/
namespace LiteServer.Net

/-- How often the backend will report on a connector, at most. -/
def grasps (receives : List SessionPtr) (pc : IocpPc) (c : Nat) : Nat :=
  receives.count (.connector c) + if pc = .connectCallBack c ∨ pc = .dataCallBack (.connector c) then 1 else 0

namespace IocpService
variable {s s' : IocpService} {action : IocpAction} {id : SessionID} {talk : Talk}

theorem linked_iff {c : Nat} : s.Linked c ↔ 0 < grasps s.receives s.pc c := by
  rw [Linked, grasps, ← List.count_pos_iff]
  by_cases inside : s.pc = .connectCallBack c ∨ s.pc = .dataCallBack (.connector c) <;> simp [inside]

/-- What the user was told of an ID. -/
def told (s : IocpService) (id : SessionID) : Option Talk := (conversation true).after id s.net.trace

/-- How the service stands with an ID that the user knows something of. -/
structure Stance (s : IocpService) (id : SessionID) (talk : Talk) : Prop where
  told : s.told id = some talk
  live : talk.live = true →
    ∃ p session, s.net.sessions id = some p ∧ s.net.objects p = some session ∧ session.talk = talk
  lost : talk = .kicked → s.net.held id = 0
  heap : ∀ n session, s.net.objects (.heap n) = some session → session.sessionID = id →
    talk = if s.pc = .dropCallBack (.heap n) then .absent else .added
  linked : ∀ c session, s.Linked c → s.net.objects (.connector c) = some session → session.sessionID = id →
    talk = .connected ∨ talk = .kicked
  apart : ∀ c d session session', s.Linked c → s.Linked d → s.net.objects (.connector c) = some session →
    s.net.objects (.connector d) = some session' → session.sessionID = id → session'.sessionID = id → c = d

/-- The invariant of runs. -/
structure Conversing (s : IocpService) : Prop extends s.Referenced where
  kept : s.net.Kept
  stance : ∀ id, ∃ talk, s.Stance id talk
  once : ∀ c, grasps s.receives s.pc c ≤ 1
  opening : ∀ listener data id size, s.pc = .openCallBack listener data id size → s.told id = some .added

/-- No session is kicked that is in use, nor the one whose first datagram is
    about to be delivered. -/
def Talking (s : IocpService) (action : IocpAction) : Prop :=
  s.Sparing action ∧ ∀ id listener data size, action = .kickSession id → s.pc ≠ .openCallBack listener data id size

/-- A connector that is linked keeps its ID. -/
theorem moves_numbered {linked : Nat → Prop} {t t' : NetService} (moves : t.Moves linked t') {c : Nat} (link : linked c)
    {session : Session} (found : t.objects (.connector c) = some session) :
    ∃ session', t'.objects (.connector c) = some session' ∧ session'.sessionID = session.sessionID := by
  let numbered (t : NetService) : Prop :=
    ∃ session', t.objects (.connector c) = some session' ∧ session'.sessionID = session.sessionID
  have start : numbered t := ⟨session, found, rfl⟩
  refine moves.invariant (P := numbered) ?_ start
  rintro t t' ⟨before, found, own⟩ moved
  have set : ∀ d (old new before : Session), t.objects (.connector d) = some old →
      t.objects (.connector c) = some before → new.sessionID = old.sessionID → before.sessionID = session.sessionID →
      ∃ session', Function.update t.objects (.connector d) (some new) (.connector c) = some session' ∧
        session'.sessionID = session.sessionID := by
    intro d old new before found' found own' own
    by_cases same : c = d
    · subst same
      cases Option.some.inj (found.symm.trans found')
      exact ⟨new, Function.update_self .., own'.trans own⟩
    · exact ⟨before, (Function.update_of_ne (by simpa using same) _ _).trans found, own⟩
  cases moved with
  | stay same _ => exact ⟨before, same.objects ▸ found, own⟩
  | construct d new _ _ unlinked _ same _ =>
    have differ : SessionPtr.connector c ≠ .connector d := by
      rintro ⟨⟩
      exact unlinked link
    exact ⟨before, by rw [same.objects]; exact (Function.update_of_ne differ _ _).trans found, own⟩
  | turn _ _ _ same _ => exact ⟨before, same.objects ▸ found, own⟩
  | attempt _ _ _ _ _ _ same _ => exact ⟨before, same.objects ▸ found, own⟩
  | abandon _ same _ => exact ⟨before, same.objects ▸ found, own⟩
  | join _ _ _ _ same _ => exact ⟨before, same.objects ▸ found, own⟩
  | enter _ _ _ _ _ _ same _ => exact ⟨before, by rw [same.objects, NetService.entered_connector, found], own⟩
  | touch d old new found' own' _ _ same _ =>
    obtain ⟨after, stays, number⟩ := set d old new before found' found own' own
    exact ⟨after, by rw [same.objects]; exact stays, number⟩
  | detach d old found' _ same _ =>
    let shut : Session := { old with alive := false, sock := none }
    obtain ⟨after, stays, number⟩ := set d old shut before found' found rfl own
    exact ⟨after, by rw [same.objects]; exact stays, number⟩
  | remove _ _ _ same _ => exact ⟨before, by rw [same.objects, NetService.removed_connector, found], own⟩

/-! ### Steps -/

section
variable {receives : List SessionPtr} {pc : IocpPc} {p : SessionPtr} {c : Nat}

theorem grasps_posted {posted : Bool} (inside : p = .connector c → pc = .connectCallBack c ∨ pc = .dataCallBack p) :
    grasps (if posted then receives ++ [p] else receives) .idle c ≤ grasps receives pc c := by
  by_cases same : p = .connector c
  · subst same
    cases posted <;> simp [grasps, inside rfl]
  · cases posted <;> simp [grasps, same]

theorem grasps_taken (armed : p ∈ receives) :
    grasps (receives.erase p) (.dataCallBack p) c ≤ grasps receives .idle c := by
  by_cases same : p = .connector c
  · subst same
    have counted := List.count_pos_iff.mpr armed
    simp only [grasps, List.count_erase_self, or_true, if_true, reduceCtorEq, or_self, if_false]
    omega
  · simp [grasps, List.count_erase_of_ne (Ne.symm same), same]

theorem grasps_elsewhere (elsewhere : ∀ c, pc ≠ .connectCallBack c ∧ pc ≠ .dataCallBack (.connector c)) :
    grasps receives pc c = receives.count (.connector c) := by
  simp [grasps, elsewhere]

end

theorem dequeue_fewer {operation : Operation} (result : s.dequeue operation = some s') :
    s'.receives.Sublist s.receives := by
  cases operation <;> simp only [dequeue] at result <;> split at result <;> cases result
  case read.isTrue => exact List.erase_sublist
  all_goals exact List.Sublist.refl _

/-- The thread is in no callback about a connector, and receives are only
    taken away. -/
theorem Conversing.fewer_grasps (conversing : s.Conversing) {receives : List SessionPtr} {pc : IocpPc}
    (fewer : receives.Sublist s.receives)
    (moved : pc = s.pc ∨ ∀ c, pc ≠ .connectCallBack c ∧ pc ≠ .dataCallBack (.connector c)) (c : Nat) :
    grasps receives pc c ≤ 1 := by
  have before := conversing.once c
  have counted := fewer.count_le (.connector c)
  rcases moved with same | elsewhere
  · rw [same]
    simp only [grasps] at before ⊢
    omega
  · rw [grasps_elsewhere elsewhere]
    simp only [grasps] at before
    omega

theorem Aside.grasps (aside : s.Aside s') (c : Nat) : grasps s'.receives s'.pc c = grasps s.receives s.pc c := by
  rw [aside.receives, aside.pc]

theorem Conversing.step_once (conversing : s.Conversing) (talking : s.Talking action) (taken : s.step action = some s')
    (c : Nat) : grasps s'.receives s'.pc c ≤ 1 := by
  have regular := conversing.regular
  cases step_took' regular taken with
  | @addTCPListener listener first rest t added =>
    subst added
    exact ((s.addTCPListener_aside listener first rest).grasps c).le.trans (conversing.once c)
  | addUDPListener => exact ((postReadFrom_aside ..).grasps c).le.trans (conversing.once c)
  | @unaccepted listener sock _ _ next idle armed =>
    exact ((rearm_aside _ listener next).grasps c).le.trans (conversing.once c)
  | @unassociated listener sock _ _ next id rest idle armed front =>
    exact ((rearm_aside _ listener next).grasps c).le.trans (conversing.once c)
  | accepted idle armed front => exact conversing.fewer_grasps (List.Sublist.refl _) (.inr (by simp)) c
  | closed idle armed found heap => exact conversing.fewer_grasps List.erase_sublist (.inr (by simp)) c
  | closedConnector idle armed found connect => exact conversing.fewer_grasps List.erase_sublist (.inr (by simp)) c
  | received idle armed found bytes =>
    have once := conversing.once c
    rw [idle] at once
    exact (grasps_taken armed).trans once
  | @unserved listener _ posted idle armed =>
    exact ((postReadFrom_aside _ listener posted).grasps c).le.trans (conversing.once c)
  | known idle armed bytes known => exact conversing.fewer_grasps (List.Sublist.refl _) (.inr (by simp)) c
  | served idle armed bytes unknown front => exact conversing.fewer_grasps (List.Sublist.refl _) (.inr (by simp)) c
  | @connected d session idle trying found =>
    by_cases here : c = d
    · subst here
      have apart := conversing.resting c trying
      rw [linked_iff, Nat.not_lt, Nat.le_zero, idle] at apart
      simp only [grasps, reduceCtorEq, or_self, if_false, Nat.add_zero] at apart
      simp [grasps, apart]
    · have before := conversing.once c
      simp only [grasps, idle, reduceCtorEq, or_self, if_false] at before
      simpa [grasps, Ne.symm here] using before
  | failed idle result =>
    exact conversing.fewer_grasps (dequeue_fewer result) (.inl (dequeue_pc result)) c
  | @acceptReturned posted next listener p _ pc found =>
    obtain ⟨n, rfl⟩ := conversing.dropping.accepted listener p pc
    let armed : IocpService := { s with
      receives := if posted then s.receives ++ [.heap n] else s.receives
      pc := .idle }
    have once := conversing.once c
    rw [pc] at once
    have posts : grasps armed.receives armed.pc c ≤ grasps s.receives (.acceptCallBack listener (.heap n)) c :=
      grasps_posted nofun
    exact ((armed.rearm_aside listener next).grasps c).le.trans (posts.trans once)
  | @connectReturned _ d session pc found =>
    have once := conversing.once c
    rw [pc] at once
    have posted : grasps (if true then s.receives ++ [.connector d] else s.receives) .idle c ≤
        grasps s.receives (.connectCallBack d) c := grasps_posted (by rintro ⟨⟩; exact .inl rfl)
    exact posted.trans once
  | connectRefused pc found connect => exact conversing.fewer_grasps (List.Sublist.refl _) (.inr (by simp)) c
  | connectFailed pc found => exact conversing.fewer_grasps (List.Sublist.refl _) (.inr (by simp)) c
  | @dataReturned posted next p session pc found =>
    have once := conversing.once c
    rw [pc] at once
    exact (grasps_posted fun same => .inr (same ▸ rfl)).trans once
  | dropped pc result => exact conversing.fewer_grasps (List.Sublist.refl _) (.inr (by simp)) c
  | failReturned pc => exact conversing.fewer_grasps (List.Sublist.refl _) (.inr (by simp)) c
  | openReturned pc => exact conversing.fewer_grasps (List.Sublist.refl _) (.inr (by simp)) c
  | @datagramReturned posted next listener pc =>
    have receives := (s.postReadFrom_aside listener posted).receives
    exact conversing.fewer_grasps (receives ▸ List.Sublist.refl _) (.inr (by simp)) c
  | newConnector free => exact conversing.once c
  | unnumbered found => exact conversing.once c
  | unposted found front => exact conversing.once c
  | attempted found front => exact conversing.once c
  | kickSession issued result => exact conversing.once c

/-- What every step keeps, whatever the user is told in it. -/
structure Goes (s : IocpService) (action : IocpAction) (s' : IocpService) : Prop where
  referenced : s'.Referenced
  kept : s'.net.Kept
  fewer : ∀ id, s'.net.held id ≤ s.net.held id
  linked : ∀ c session, s'.Linked c → s'.net.objects (.connector c) = some session → action = .connected c ∨
    s.Linked c ∧ ∃ before, s.net.objects (.connector c) = some before ∧ before.sessionID = session.sessionID
  once : ∀ c, grasps s'.receives s'.pc c ≤ 1

theorem Conversing.goes (conversing : s.Conversing) (talking : s.Talking action) (taken : s.step action = some s') :
    s.Goes action s' := by
  have placed := conversing.toPlaced
  have moves := step_moves placed.regular placed.dropping (placed.orderly talking.1.1 taken) taken
  have kept := moves.invariant (fun _ _ => NetService.Kept.move) conversing.kept
  refine ⟨conversing.toReferenced.step talking.1 taken, kept, ?_, ?_, conversing.step_once talking taken⟩
  · intro id
    rw [← placed.step_held talking.1.1 taken id]
    exact Nat.le_add_right ..
  · intro c session link found
    rcases step_linked placed.regular placed.dropping taken link with before | connected
    · obtain ⟨old, found'⟩ := Option.isSome_iff_exists.mp (placed.made c before)
      obtain ⟨new, found'', own⟩ := moves_numbered moves before found'
      cases Option.some.inj (found.symm.trans found'')
      exact .inr ⟨before, old, found', own.symm⟩
    · exact .inl connected

/-- An ID that a step says nothing of, nor touches a session of. -/
theorem Stance.pass (stance : s.Stance id talk) (goes : s.Goes action s') {more : List Event}
    (trace : s'.net.trace = s.net.trace ++ more) (silent : ∀ event ∈ more, event.session ≠ some id)
    (stored : s'.net.sessions id = s.net.sessions id)
    (kept : ∀ p session, s.net.sessions id = some p → s.net.objects p = some session →
      ∃ session', s'.net.objects p = some session' ∧ session'.talk = session.talk)
    (heap : ∀ n session, s'.net.objects (.heap n) = some session → session.sessionID = id →
      s.net.objects (.heap n) = some session ∧ (s'.pc = .dropCallBack (.heap n) ↔ s.pc = .dropCallBack (.heap n)))
    (unconnected : ∀ c session, action = .connected c → s'.net.objects (.connector c) = some session →
      session.sessionID ≠ id) : s'.Stance id talk where
  told := by
    rw [IocpService.told, trace]
    exact (Monitor.after_append_other silent).trans stance.told
  live live := by
    obtain ⟨p, session, found, object, same⟩ := stance.live live
    obtain ⟨session', object', same'⟩ := kept p session found object
    exact ⟨p, session', stored.trans found, object', same'.trans same⟩
  lost kicked := Nat.le_zero.mp (stance.lost kicked ▸ goes.fewer id)
  heap n session found own := by
    obtain ⟨before, dropping⟩ := heap n session found own
    simp only [dropping]
    exact stance.heap n session before own
  linked c session link found own := by
    rcases goes.linked c session link found with connected | ⟨before, old, found', same⟩
    · exact absurd own (unconnected c session connected found)
    · exact stance.linked c old before found' (same.trans own)
  apart c d session session' linkC linkD foundC foundD ownC ownD := by
    rcases goes.linked c session linkC foundC with connected | ⟨beforeC, oldC, foundC', sameC⟩
    · exact absurd ownC (unconnected c session connected foundC)
    · rcases goes.linked d session' linkD foundD with connected | ⟨beforeD, oldD, foundD', sameD⟩
      · exact absurd ownD (unconnected d session' connected foundD)
      · exact stance.apart c d oldC oldD beforeC beforeD foundC' foundD' (sameC.trans ownC) (sameD.trans ownD)

/-- The user is told nothing about sessions, which stay. -/
theorem Conversing.quiet (conversing : s.Conversing) (goes : s.Goes action s') {more : List Event}
    (trace : s'.net.trace = s.net.trace ++ more) (silent : ∀ event ∈ more, event.session = none)
    (sessions : s'.net.sessions = s.net.sessions)
    (kept : ∀ id p session, s.net.sessions id = some p → s.net.objects p = some session →
      ∃ session', s'.net.objects p = some session' ∧ session'.talk = session.talk)
    (heap : ∀ n, s'.net.objects (.heap n) = s.net.objects (.heap n))
    (unconnected : ∀ c, action ≠ .connected c)
    (pc : s'.pc = s.pc ∨ (∀ p, s'.pc ≠ .dropCallBack p ∧ s.pc ≠ .dropCallBack p) ∧
      ∀ listener data id size, s'.pc ≠ .openCallBack listener data id size) : s'.Conversing := by
  have quiet : ∀ id, ∀ event ∈ more, event.session ≠ some id := by
    intro id event member same
    rw [silent event member] at same
    cases same
  refine ⟨goes.referenced, goes.kept, ?_, goes.once, ?_⟩
  · intro id
    obtain ⟨talk, stance⟩ := conversing.stance id
    refine ⟨talk, stance.pass goes trace (quiet id) (by rw [sessions]) (kept id) ?_ ?_⟩
    · intro n session found _
      refine ⟨heap n ▸ found, ?_⟩
      rcases pc with same | ⟨elsewhere, _⟩
      · rw [same]
      · simp [elsewhere]
    · exact fun c _ connected => absurd connected (unconnected c)
  · intro listener data id size opening
    rcases pc with same | ⟨_, elsewhere⟩
    · rw [IocpService.told, trace]
      exact (Monitor.after_append_other (quiet id)).trans (conversing.opening _ _ _ _ (same ▸ opening))
    · exact absurd opening (elsewhere _ _ _ _)

/-- The user is told about one ID, and the other sessions stay. -/
theorem Conversing.turn (conversing : s.Conversing) (goes : s.Goes action s') {more : List Event}
    (trace : s'.net.trace = s.net.trace ++ more)
    (about : ∀ event ∈ more, event.session = none ∨ event.session = some id) (stance : s'.Stance id talk)
    (sessions : ∀ j, j ≠ id → s'.net.sessions j = s.net.sessions j)
    (kept : ∀ j p, j ≠ id → s.net.sessions j = some p → s'.net.objects p = s.net.objects p)
    (heap : ∀ n session, s'.net.objects (.heap n) = some session → session.sessionID ≠ id →
      s.net.objects (.heap n) = some session ∧ (s'.pc = .dropCallBack (.heap n) ↔ s.pc = .dropCallBack (.heap n)))
    (connected : ∀ c session, action = .connected c → s'.net.objects (.connector c) = some session →
      session.sessionID = id)
    (opening : ∀ listener data j size, s'.pc = .openCallBack listener data j size →
      s.pc = .openCallBack listener data j size ∧ j ≠ id ∨ j = id ∧ talk = .added) : s'.Conversing := by
  have quiet : ∀ j, j ≠ id → ∀ event ∈ more, event.session ≠ some j := by
    intro j other event member same
    rcases about event member with none | own
    · rw [none] at same
      cases same
    · exact other (Option.some.inj (same.symm.trans own))
  refine ⟨goes.referenced, goes.kept, ?_, goes.once, ?_⟩
  · intro j
    by_cases other : j = id
    · exact ⟨talk, other ▸ stance⟩
    · obtain ⟨talk', stance'⟩ := conversing.stance j
      refine ⟨talk', stance'.pass goes trace (quiet j other) (sessions j other) ?_ ?_ ?_⟩
      · exact fun p session stored found => ⟨session, (kept j p other stored).trans found, rfl⟩
      · exact fun n session found own => heap n session found (own ▸ other)
      · exact fun c session connects found => by rw [connected c session connects found]; exact Ne.symm other
  · intro listener data j size opens
    rcases opening listener data j size opens with ⟨before, other⟩ | ⟨rfl, rfl⟩
    · rw [IocpService.told, trace]
      exact (Monitor.after_append_other (quiet j other)).trans (conversing.opening _ _ _ _ before)
    · exact stance.told

/-! ### What the service may tell -/

/-- An ID that is about to be given to a session. -/
theorem Conversing.absent (conversing : s.Conversing) (free : s.net.sessions id = none) (held : s.net.held id ≠ 0) :
    s.Stance id .absent := by
  obtain ⟨talk, stance⟩ := conversing.stance id
  have dead : talk.live = true → False := by
    intro live
    obtain ⟨p, session, stored, _⟩ := stance.live live
    rw [free] at stored
    cases stored
  cases talk with
  | absent => exact stance
  | kicked => exact absurd (stance.lost rfl) held
  | added => exact (dead rfl).elim
  | connected => exact (dead rfl).elim

/-- The session of an accepted connection or of a peer, before it is dropped. -/
theorem Conversing.added (conversing : s.Conversing) {n : Nat} {session : Session}
    (found : s.net.objects (.heap n) = some session) (pc : s.pc ≠ .dropCallBack (.heap n)) :
    s.Stance session.sessionID .added := by
  obtain ⟨talk, stance⟩ := conversing.stance session.sessionID
  have added := stance.heap n session found rfl
  rw [if_neg pc] at added
  exact added ▸ stance

/-- No connector is in hand under the ID of a session from `new`. -/
theorem Conversing.unlinked (conversing : s.Conversing) {n : Nat} {session : Session}
    (found : s.net.objects (.heap n) = some session) {c : Nat} {other : Session} (link : s.Linked c)
    (found' : s.net.objects (.connector c) = some other) : other.sessionID ≠ session.sessionID := by
  intro same
  obtain ⟨talk, stance⟩ := conversing.stance session.sessionID
  have own := stance.heap n session found rfl
  have known := stance.linked c other link found' same
  split at own <;> rcases known with rfl | rfl <;> cases own

/-- Data is for a session that the user knows, or for a connector it kicked. -/
theorem Conversing.delivered (conversing : s.Conversing) (goes : s.Goes action s') (stance : s.Stance id talk)
    (known : talk.live = true ∨ talk = .kicked) {sock : Socket} {data : List Byte} {size : Int}
    (trace : s'.net.trace = s.net.trace ++ [.onData id sock data size]) (sessions : s'.net.sessions = s.net.sessions)
    (objects : s'.net.objects = s.net.objects) (unconnected : ∀ c, action ≠ .connected c)
    (pc : ∀ p, s'.pc ≠ .dropCallBack p ∧ s.pc ≠ .dropCallBack p)
    (elsewhere : ∀ listener data id size, s'.pc ≠ .openCallBack listener data id size) : s'.Conversing := by
  have after : s'.Stance id talk := by
    refine ⟨?_, by rw [sessions, objects]; exact stance.live, ?_, ?_, ?_, ?_⟩
    · have told : (conversation true).after id s.net.trace = some talk := stance.told
      rw [IocpService.told, trace, Monitor.after_snoc rfl, told]
      have moved : talk.next true (.onData id sock data size) = some talk := by simp [Talk.next, known]
      exact moved
    · exact fun kicked => Nat.le_zero.mp (stance.lost kicked ▸ goes.fewer id)
    · intro n session found own
      rw [if_neg (pc _).1]
      have before := stance.heap n session (objects ▸ found) own
      rwa [if_neg (pc _).2] at before
    · intro c session link found own
      obtain ⟨before, _⟩ := (goes.linked c session link found).resolve_left (unconnected c)
      exact stance.linked c session before (objects ▸ found) own
    · intro c d session session' linkC linkD foundC foundD
      obtain ⟨beforeC, _⟩ := (goes.linked c session linkC foundC).resolve_left (unconnected c)
      obtain ⟨beforeD, _⟩ := (goes.linked d session' linkD foundD).resolve_left (unconnected d)
      exact stance.apart c d session session' beforeC beforeD (objects ▸ foundC) (objects ▸ foundD)
  refine conversing.turn goes trace (by simp [Event.session]) after (fun j _ => by rw [sessions])
    (fun _ _ _ _ => by rw [objects]) ?_ (fun c _ connects => absurd connects (unconnected c))
    (fun _ _ _ _ opens => absurd opens (elsewhere _ _ _ _))
  exact fun n session found _ => ⟨objects ▸ found, by simp [pc]⟩

/-- A session that was accepted, or that a peer's first datagram opened. -/
theorem Conversing.opened (conversing : s.Conversing) (goes : s.Goes action s') (idle : s.pc = .idle)
    {rest : List SessionID} (session : Session) (front : s.net.queSessionID = session.sessionID :: rest)
    (added : session.sockType ≠ .connect)
    (sessions : s'.net.sessions = Function.update s.net.sessions session.sessionID (some (.heap s.net.allocated)))
    (objects : s'.net.objects = Function.update s.net.objects (.heap s.net.allocated) (some session))
    {sock : Socket} {address : SockAddr}
    (trace : s'.net.trace = s.net.trace ++ [.onAddConnection session.sessionID sock address])
    (unconnected : ∀ c, action ≠ .connected c) (pc : ∀ p, s'.pc ≠ .dropCallBack p)
    (opening : ∀ listener data j size, s'.pc = .openCallBack listener data j size → j = session.sessionID) :
    s'.Conversing := by
  have regular := conversing.regular
  have free : s.net.sessions session.sessionID = none := (regular.sound.free front).1
  have waiting : s.net.held session.sessionID ≠ 0 := by simp [NetService.held, holders, front]
  have absent := conversing.absent free waiting
  have new : s'.net.sessions session.sessionID = some (.heap s.net.allocated) := by rw [sessions, Function.update_self]
  have fresh : s'.net.objects (.heap s.net.allocated) = some session := by rw [objects, Function.update_self]
  have connectors : ∀ c, s'.net.objects (.connector c) = s.net.objects (.connector c) := fun c => by
    rw [objects, Function.update_of_ne (by simp)]
  have unlinked : ∀ c other, s'.Linked c → s'.net.objects (.connector c) = some other →
      other.sessionID ≠ session.sessionID := by
    intro c other link found own
    obtain ⟨before, _⟩ := (goes.linked c other link found).resolve_left (unconnected c)
    rcases absent.linked c other before (connectors c ▸ found) own with known | known <;> cases known
  have after : s'.Stance session.sessionID .added := by
    refine ⟨?_, ?_, by simp, ?_, ?_, ?_⟩
    · have told : (conversation true).after session.sessionID s.net.trace = some .absent := absent.told
      rw [IocpService.told, trace, Monitor.after_snoc rfl, told]
      rfl
    · exact fun _ => ⟨_, session, new, fresh, by rw [Session.talk, if_neg added]⟩
    · intro n _ _ _
      rw [if_neg (pc _)]
    · exact fun c other link found own => absurd own (unlinked c other link found)
    · exact fun c _ other _ link _ found _ own _ => absurd own (unlinked c other link found)
  refine conversing.turn goes trace (by simp [Event.session]) after
    (fun j other => by rw [sessions, Function.update_of_ne other]) ?_ ?_
    (fun c _ connects => absurd connects (unconnected c))
    (fun _ _ j _ opens => .inr ⟨opening _ _ j _ opens, rfl⟩)
  · intro j p _ stored
    rw [objects, Function.update_of_ne]
    rintro rfl
    obtain ⟨before, found, _⟩ := regular.stored stored
    rw [regular.fresh] at found
    cases found
  · intro n other found differ
    rw [objects] at found
    rcases update_eq_some found with ⟨_, same⟩ | before
    · cases same
      exact absurd rfl differ
    · exact ⟨before, by simp [pc, idle]⟩

/-- The ID of an attempt passes to the table. -/
theorem Conversing.connected (conversing : s.Conversing) {c : Nat} {session : Session}
    (goes : s.Goes (.connected c) s') (idle : s.pc = .idle) (trying : c ∈ s.net.attempts)
    (found : s.net.objects (.connector c) = some session)
    (sessions : s'.net.sessions = Function.update s.net.sessions session.sessionID (some (.connector c)))
    (objects : s'.net.objects = s.net.objects)
    (trace : s'.net.trace = s.net.trace ++ [.onConnected session.sessionID session.socket])
    (pc : s'.pc = .connectCallBack c) : s'.Conversing := by
  have regular := conversing.regular
  have own : s.net.attemptID c = session.sessionID := by simp [NetService.attemptID, found]
  have free : s.net.sessions session.sessionID = none := own ▸ regular.sound.attempt_free trying
  have waiting : s.net.held session.sessionID ≠ 0 := by
    have counted : 0 < (s.net.attempts.map s.net.attemptID).count session.sessionID :=
      List.count_pos_iff.mpr (List.mem_map.mpr ⟨c, trying, own⟩)
    simp only [NetService.held, holders]
    omega
  have absent := conversing.absent free waiting
  have stored : s'.net.sessions session.sessionID = some (.connector c) := by rw [sessions, Function.update_self]
  have connected : session.talk = .connected := by rw [Session.talk, if_pos (regular.connector found)]
  have only : ∀ d other, s'.Linked d → s'.net.objects (.connector d) = some other →
      other.sessionID = session.sessionID → d = c := by
    intro d other link found' same
    rcases goes.linked d other link found' with connects | ⟨before, _⟩
    · exact (IocpAction.connected.inj connects).symm
    · rcases absent.linked d other before (objects ▸ found') same with known | known <;> cases known
  have after : s'.Stance session.sessionID .connected := by
    refine ⟨?_, ?_, by simp, ?_, fun _ _ _ _ _ => .inl rfl, ?_⟩
    · have told : (conversation true).after session.sessionID s.net.trace = some .absent := absent.told
      rw [IocpService.told, trace, Monitor.after_snoc rfl, told]
      rfl
    · exact fun _ => ⟨_, session, stored, objects ▸ found, connected⟩
    · intro n other found' same
      rw [objects] at found'
      rw [← same, (regular.heap found').1] at free
      cases free
    · exact fun d e other other' linkD linkE foundD foundE sameD sameE =>
        (only d other linkD foundD sameD).trans (only e other' linkE foundE sameE).symm
  refine conversing.turn goes trace (by simp [Event.session]) after
    (fun j other => by rw [sessions, Function.update_of_ne other]) (fun _ _ _ _ => by rw [objects]) ?_ ?_ (by simp [pc])
  · exact fun n other found' _ => ⟨objects ▸ found', by simp [pc, idle]⟩
  · intro d other connects found'
    cases connects
    cases Option.some.inj (found.symm.trans (objects ▸ found'))
    rfl

/-- The end of a session from `new` is reported, and it is going to be deleted. -/
theorem Conversing.dropped (conversing : s.Conversing) (goes : s.Goes action s') (idle : s.pc = .idle) {n : Nat}
    {session : Session} (found : s.net.objects (.heap n) = some session) {sock : Socket}
    (trace : s'.net.trace = s.net.trace ++ [.onConnectionDrop session.sessionID sock])
    (sessions : s'.net.sessions = s.net.sessions) (objects : s'.net.objects = s.net.objects)
    (unconnected : ∀ c, action ≠ .connected c) (pc : s'.pc = .dropCallBack (.heap n)) : s'.Conversing := by
  have regular := conversing.regular
  have added := conversing.added found (by simp [idle])
  have unlinked : ∀ c other, s'.Linked c → s'.net.objects (.connector c) = some other →
      other.sessionID ≠ session.sessionID := by
    intro c other link found'
    obtain ⟨before, _⟩ := (goes.linked c other link found').resolve_left (unconnected c)
    exact conversing.unlinked found before (objects ▸ found')
  have only : ∀ m other, s.net.objects (.heap m) = some other → other.sessionID = session.sessionID → m = n := by
    intro m other found' same
    have stored := (regular.heap found').1
    rw [same, (regular.heap found).1] at stored
    cases stored
    rfl
  have after : s'.Stance session.sessionID .absent := by
    refine ⟨?_, nofun, nofun, ?_, ?_, ?_⟩
    · have told : (conversation true).after session.sessionID s.net.trace = some .added := added.told
      rw [IocpService.told, trace, Monitor.after_snoc rfl, told]
      rfl
    · intro m other found' same
      rw [only m other (objects ▸ found') same, if_pos pc]
    · exact fun c other link found' own => absurd own (unlinked c other link found')
    · exact fun c _ other _ link _ found' _ own _ => absurd own (unlinked c other link found')
  refine conversing.turn goes trace (by simp [Event.session]) after (fun j _ => by rw [sessions])
    (fun _ _ _ _ => by rw [objects]) ?_ (fun c _ connects => absurd connects (unconnected c)) (by simp [pc])
  intro m other found' differ
  refine ⟨objects ▸ found', ?_⟩
  have another : m ≠ n := by
    rintro rfl
    cases Option.some.inj (found.symm.trans (objects ▸ found'))
    exact differ rfl
  simp [pc, idle, Ne.symm another]

/-- A connector is reported as failed, and nothing is in hand of it any more. -/
theorem Conversing.failed (conversing : s.Conversing) (goes : s.Goes action s') {c : Nat} {session : Session}
    (link : s.Linked c) (found : s.net.objects (.connector c) = some session) (first : List Event) {sock : Socket}
    (trace : s'.net.trace = s.net.trace ++ (first ++ [.onConnectFail session.sessionID sock]))
    (silent : ∀ event ∈ first, event.session = none) (sessions : s'.net.sessions = s.net.sessions)
    (objects : s'.net.objects = s.net.objects) (unconnected : ∀ c, action ≠ .connected c) (released : ¬ s'.Linked c)
    (pc : ∀ p, s'.pc ≠ .dropCallBack p ∧ s.pc ≠ .dropCallBack p)
    (elsewhere : ∀ listener data id size, s'.pc ≠ .openCallBack listener data id size) : s'.Conversing := by
  obtain ⟨talk, stance⟩ := conversing.stance session.sessionID
  have known := stance.linked c session link found rfl
  have unlinked : ∀ d other, s'.Linked d → s'.net.objects (.connector d) = some other →
      other.sessionID ≠ session.sessionID := by
    intro d other link' found' own
    obtain ⟨before, _⟩ := (goes.linked d other link' found').resolve_left (unconnected d)
    rw [stance.apart d c other session before link (objects ▸ found') found own rfl] at link'
    exact released link'
  have after : s'.Stance session.sessionID .absent := by
    refine ⟨?_, nofun, nofun, ?_, ?_, ?_⟩
    · have told : (conversation true).after session.sessionID s.net.trace = some talk := stance.told
      rw [IocpService.told, trace, Monitor.after_one (about_no_other silent) rfl (List.forall_mem_nil _), told]
      rcases known with rfl | rfl <;> rfl
    · intro n other found' own
      have dropping := stance.heap n other (objects ▸ found') own
      split at dropping <;> rcases known with rfl | rfl <;> cases dropping
    · exact fun d other link found' own => absurd own (unlinked d other link found')
    · exact fun d _ other _ link _ found' _ own _ => absurd own (unlinked d other link found')
  refine conversing.turn goes trace ?_ after (fun j _ => by rw [sessions]) (fun _ _ _ _ => by rw [objects]) ?_
    (fun c _ connects => absurd connects (unconnected c)) (fun _ _ _ _ opens => absurd opens (elsewhere _ _ _ _))
  · intro event member
    rcases List.mem_append.mp member with early | last
    · exact .inl (silent event early)
    · exact .inr (by rw [List.mem_singleton.mp last]; rfl)
  · exact fun n other found' _ => ⟨objects ▸ found', by simp [pc]⟩

/-- A session from `new` leaves the table: its user kicked it, or knows. -/
theorem Conversing.removed (conversing : s.Conversing) (goes : s.Goes action s') {n : Nat} {session : Session}
    (found : s.net.objects (.heap n) = some session) (first : List Event) {socks : List Socket}
    (trace : s'.net.trace = s.net.trace ++ (first ++ socks.map .closed))
    (about : ∀ event ∈ first, event.session = some session.sessionID)
    (told : (conversation true).after session.sessionID (s.net.trace ++ first) = some .absent)
    (sessions : s'.net.sessions = Function.update s.net.sessions session.sessionID none)
    (objects : s'.net.objects = Function.update s.net.objects (.heap n) none) (unconnected : ∀ c, action ≠ .connected c)
    (pc : ∀ m, m ≠ n → (s'.pc = .dropCallBack (.heap m) ↔ s.pc = .dropCallBack (.heap m)))
    (opening : ∀ listener data j size, s'.pc = .openCallBack listener data j size →
      s.pc = .openCallBack listener data j size ∧ j ≠ session.sessionID) : s'.Conversing := by
  have regular := conversing.regular
  have stored := (regular.heap found).1
  have earlier : ∀ m other, s'.net.objects (.heap m) = some other → s.net.objects (.heap m) = some other ∧ m ≠ n := by
    intro m other found'
    rw [objects] at found'
    obtain ⟨before, differ⟩ := update_none_eq_some found'
    exact ⟨before, by simpa using differ⟩
  have unlinked : ∀ c other, s'.Linked c → s'.net.objects (.connector c) = some other →
      other.sessionID ≠ session.sessionID := by
    intro c other link found'
    obtain ⟨before, _⟩ := (goes.linked c other link found').resolve_left (unconnected c)
    rw [objects, Function.update_of_ne (by simp)] at found'
    exact conversing.unlinked found before found'
  have after : s'.Stance session.sessionID .absent := by
    refine ⟨?_, nofun, nofun, ?_, ?_, ?_⟩
    · rw [IocpService.told, trace, ← List.append_assoc, Monitor.after_append_other (about_no_other (silent_sockets _))]
      exact told
    · intro m other found' same
      obtain ⟨before, differ⟩ := earlier m other found'
      have stored' := (regular.heap before).1
      rw [same, stored] at stored'
      cases stored'
      exact absurd rfl differ
    · exact fun c other link found' own => absurd own (unlinked c other link found')
    · exact fun c _ other _ link _ found' _ own _ => absurd own (unlinked c other link found')
  refine conversing.turn goes trace ?_ after (fun j other => by rw [sessions, Function.update_of_ne other]) ?_ ?_
    (fun c _ connects => absurd connects (unconnected c)) (fun _ _ _ _ opens => .inl (opening _ _ _ _ opens))
  · intro event member
    rcases List.mem_append.mp member with early | last
    · exact .inr (about event early)
    · exact .inl (silent_sockets _ event last)
  · intro j p other stored'
    rw [objects, Function.update_of_ne]
    rintro rfl
    obtain ⟨before, found', own⟩ := regular.stored stored'
    cases Option.some.inj (found.symm.trans found')
    exact other own.symm
  · intro m other found' _
    obtain ⟨before, differ⟩ := earlier m other found'
    exact ⟨before, pc m differ⟩

theorem Conversing.kick_connector (conversing : s.Conversing) (goes : s.Goes action s') {c : Nat} {session : Session}
    (found : s.net.objects (.connector c) = some session)
    (stored : s.net.sessions session.sessionID = some (.connector c)) (detached : s'.net = s.net.detached c session)
    (pc : s'.pc = s.pc) (unconnected : ∀ c, action ≠ .connected c)
    (opening : ∀ listener data size, s.pc ≠ .openCallBack listener data session.sessionID size) : s'.Conversing := by
  have regular := conversing.regular
  have heap : ∀ n, s'.net.objects (.heap n) = s.net.objects (.heap n) := fun n => by
    rw [detached, NetService.detached_heap]
  have lost : s'.net.held session.sessionID = 0 := by
    have once : (s.net.detached c session).held session.sessionID +
        (if session.sessionID = session.sessionID then 1 else 0) = s.net.held session.sessionID :=
      regular.sound.detached_held found stored session.sessionID
    have bound : s.net.held session.sessionID ≤ _ := regular.sound.held session.sessionID
    rw [if_pos rfl] at once
    rw [detached]
    split at bound <;> omega
  have trace : s'.net.trace = s.net.trace ++ ([] ++ .kick session.sessionID :: session.sock.toList.map .closed) := by
    rw [detached]
    rfl
  obtain ⟨talk, stance⟩ := conversing.stance session.sessionID
  have before : talk = .absent ∨ talk = .connected := by
    cases talk with
    | absent => exact .inl rfl
    | connected => exact .inr rfl
    | kicked => exact absurd (stance.lost rfl) (NetService.held_of_stored stored)
    | added =>
      obtain ⟨p, other, stored', found', known⟩ := stance.live rfl
      cases stored.symm.trans stored'
      cases Option.some.inj (found.symm.trans found')
      rw [Session.talk, if_pos (regular.connector found)] at known
      cases known
  have connectors : ∀ d other, s'.Linked d → s'.net.objects (.connector d) = some other →
      other.sessionID = session.sessionID → talk = .connected := by
    intro d other link found' own
    obtain ⟨link', old, found'', same⟩ := (goes.linked d other link found').resolve_left (unconnected d)
    rcases before with rfl | connected
    · rcases stance.linked d old link' found'' (same.trans own) with known | known <;> cases known
    · exact connected
  have after : s'.Stance session.sessionID (if talk = .absent then .absent else .kicked) := by
    refine ⟨?_, ?_, fun _ => lost, ?_, ?_, ?_⟩
    · have told : (conversation true).after session.sessionID s.net.trace = some talk := stance.told
      rw [IocpService.told, trace, Monitor.after_one (List.forall_mem_nil _) rfl (about_no_other (silent_sockets _)),
        told]
      rcases before with rfl | rfl <;> rfl
    · rcases before with rfl | rfl <;> exact nofun
    · intro n other found' own
      have stored' := (regular.heap (heap n ▸ found')).1
      rw [own, stored] at stored'
      cases stored'
    · intro d other link found' own
      rw [connectors d other link found' own]
      exact .inr rfl
    · intro d e other other' linkD linkE foundD foundE ownD ownE
      obtain ⟨linkD', oldD, foundD', sameD⟩ := (goes.linked d other linkD foundD).resolve_left (unconnected d)
      obtain ⟨linkE', oldE, foundE', sameE⟩ := (goes.linked e other' linkE foundE).resolve_left (unconnected e)
      exact stance.apart d e oldD oldE linkD' linkE' foundD' foundE' (sameD.trans ownD) (sameE.trans ownE)
  refine conversing.turn goes trace ?_ after ?_ ?_ ?_ (fun c _ connects => absurd connects (unconnected c)) ?_
  · intro event member
    rcases List.mem_cons.mp member with rfl | socket
    · exact .inr rfl
    · exact .inl (silent_sockets _ event socket)
  · intro j other
    rw [detached]
    exact Function.update_of_ne other _ _
  · intro j p other stored'
    rw [detached]
    refine Function.update_of_ne ?_ _ _
    rintro rfl
    obtain ⟨old, found', own⟩ := regular.stored stored'
    cases Option.some.inj (found.symm.trans found')
    exact other own.symm
  · exact fun n other found' _ => ⟨heap n ▸ found', by rw [pc]⟩
  · intro listener data j size opens
    rw [pc] at opens
    refine .inl ⟨opens, ?_⟩
    rintro rfl
    exact opening listener data size opens

/-! ### Runs -/

/-- No event about a session was added to the trace, and sessions stay. -/
def Silently (s s' : NetService) : Prop :=
  s'.sessions = s.sessions ∧ s'.objects = s.objects ∧
    ∃ more, s'.trace = s.trace ++ more ∧ ∀ event ∈ more, event.session = none

theorem Aside.silently (aside : s.Aside s') {net : NetService} (before : Silently net s.net) : Silently net s'.net := by
  obtain ⟨more, after, sockets⟩ := aside.net
  obtain ⟨sessions, objects, first, trace, silent⟩ := before
  refine ⟨by rw [after]; exact sessions, by rw [after]; exact objects, first ++ more, ?_, ?_⟩
  · rw [after, ← List.append_assoc, ← trace]
  · intro event member
    rcases List.mem_append.mp member with early | late
    · exact silent event early
    · obtain ⟨sock, rfl | rfl⟩ := sockets event late <;> rfl

theorem silently_rest {net : NetService} {queSessionID : List SessionID} {mapUDPSessions : BitVec 64 → Option SessionID}
    {allocated : Nat} {epoll : Socket → Option Context} {pc : Pc} {events : List PollEvent} {attempts : List Nat}
    {issued accesses : List SessionID} : Silently net ⟨queSessionID, mapUDPSessions, net.sessions, net.objects,
      allocated, epoll, pc, events, attempts, net.trace, issued, accesses⟩ :=
  ⟨rfl, rfl, [], (List.append_nil _).symm, nofun⟩

theorem Conversing.still (conversing : s.Conversing) (goes : s.Goes action s') (silently : Silently s.net s'.net)
    (unconnected : ∀ c, action ≠ .connected c)
    (pc : s'.pc = s.pc ∨ (∀ p, s'.pc ≠ .dropCallBack p ∧ s.pc ≠ .dropCallBack p) ∧
      ∀ listener data id size, s'.pc ≠ .openCallBack listener data id size) : s'.Conversing := by
  obtain ⟨sessions, objects, more, trace, silent⟩ := silently
  refine conversing.quiet goes trace silent sessions ?_ (fun n => by rw [objects]) unconnected pc
  exact fun id p session _ found => ⟨session, objects ▸ found, rfl⟩

/-- The session of a connector is constructed, or only its ID or flag changes. -/
theorem Conversing.setConnector (conversing : s.Conversing) (goes : s.Goes action s') {c : Nat} {session : Session}
    (sessions : s'.net.sessions = s.net.sessions)
    (objects : s'.net.objects = Function.update s.net.objects (.connector c) (some session))
    (connect : session.sockType = .connect) {more : List Event}
    (trace : s'.net.trace = s.net.trace ++ more) (silent : ∀ event ∈ more, event.session = none)
    (unconnected : ∀ c, action ≠ .connected c)
    (pc : s'.pc = s.pc ∨ (∀ p, s'.pc ≠ .dropCallBack p ∧ s.pc ≠ .dropCallBack p) ∧
      ∀ listener data id size, s'.pc ≠ .openCallBack listener data id size) : s'.Conversing := by
  refine conversing.quiet goes trace silent sessions ?_ ?_ unconnected pc
  · intro id p before stored found
    by_cases same : p = .connector c
    · subst same
      refine ⟨session, by rw [objects, Function.update_self], ?_⟩
      rw [Session.talk, Session.talk, if_pos connect, if_pos (conversing.regular.connector found)]
    · exact ⟨before, by rw [objects, Function.update_of_ne same, found], rfl⟩
  · intro n
    rw [objects, Function.update_of_ne (by simp)]

/-- The ID or the flag of a connector changes. -/
theorem Conversing.renumbered (conversing : s.Conversing) (goes : s.Goes action s') {c : Nat} {session session' : Session}
    (found : s.net.objects (.connector c) = some session) (sessions : s'.net.sessions = s.net.sessions)
    (objects : s'.net.objects = Function.update s.net.objects (.connector c) (some session'))
    (kind : session'.sockType = session.sockType) (trace : s'.net.trace = s.net.trace)
    (unconnected : ∀ c, action ≠ .connected c)
    (pc : s'.pc = s.pc ∨ (∀ p, s'.pc ≠ .dropCallBack p ∧ s.pc ≠ .dropCallBack p) ∧
      ∀ listener data id size, s'.pc ≠ .openCallBack listener data id size) : s'.Conversing := by
  have connect : session'.sockType = .connect := kind.trans (conversing.regular.connector found)
  have trace : s'.net.trace = s.net.trace ++ [] := by rw [trace, List.append_nil]
  exact conversing.setConnector goes sessions objects connect trace (by simp) unconnected pc

theorem Conversing.kickSession (conversing : s.Conversing) {net : NetService} (talking : s.Talking (.kickSession id))
    (goes : s.Goes (.kickSession id) { s with net }) (result : s.net.kickSession id = some net) :
    ({ s with net } : IocpService).Conversing := by
  have opening : ∀ listener data size, s.pc ≠ .openCallBack listener data id size :=
    fun listener data size => talking.2 _ listener data size rfl
  cases conversing.regular.kickSession result with
  | unknown empty => exact conversing.still goes silently_rest nofun (.inl rfl)
  | @heap n session found stored =>
    have unused := talking.1.2 _ n rfl stored
    have undropped : s.pc ≠ .dropCallBack (.heap n) := by
      intro drops
      exact unused (inUse_iff.mpr (.inr (by rw [drops]; rfl)))
    have added : (conversation true).after session.sessionID s.net.trace = some .added :=
      (conversing.added found undropped).told
    refine conversing.removed goes found [.kick session.sessionID] (List.append_assoc ..) (by simp [Event.session]) ?_
      rfl rfl nofun (fun _ _ => Iff.rfl) ?_
    · rw [Monitor.after_snoc rfl, added]
      rfl
    · intro listener data j size opens
      refine ⟨opens, ?_⟩
      rintro rfl
      exact opening listener data size opens
  | connector found stored => exact conversing.kick_connector goes found stored rfl rfl nofun opening

/-- Accepts and receives are posted, after a change that the user is not told of. -/
theorem Conversing.beside (conversing : s.Conversing) {before : IocpService} (goes : s.Goes action s')
    (aside : before.Aside s') (silently : Silently s.net before.net) (unconnected : ∀ c, action ≠ .connected c)
    (pc : before.pc = s.pc ∨ (∀ p, before.pc ≠ .dropCallBack p ∧ s.pc ≠ .dropCallBack p) ∧
      ∀ listener data id size, before.pc ≠ .openCallBack listener data id size) : s'.Conversing :=
  conversing.still goes (aside.silently silently) unconnected (by rw [aside.pc]; exact pc)

/-- The only receive of a connector completes without data. -/
theorem Conversing.closedConnector (conversing : s.Conversing) {c : Nat} {session : Session} (idle : s.pc = .idle)
    (armed : .connector c ∈ s.receives) (found : s.net.objects (.connector c) = some session)
    (goes : s.Goes (.received (.connector c) []) s') (receives : s'.receives = s.receives.erase (.connector c))
    (sessions : s'.net.sessions = s.net.sessions) (objects : s'.net.objects = s.net.objects)
    (trace : s'.net.trace = s.net.trace ++ [.onConnectFail session.sessionID session.socket])
    (pc : s'.pc = .failCallBack) : s'.Conversing := by
  refine conversing.failed goes (.inl armed) found [] trace (by simp) sessions objects (by simp) ?_ (by simp [pc, idle])
    (by simp [pc])
  have once := conversing.once c
  have counted := List.count_pos_iff.mpr armed
  simp only [grasps, idle, reduceCtorEq, or_self, if_false] at once
  simp only [linked_iff, grasps, receives, pc, List.count_erase_self, reduceCtorEq, or_self, if_false]
  omega

/-- Data arrives on a receive. -/
theorem Conversing.received (conversing : s.Conversing) {p : SessionPtr} {session : Session} {buf : List Byte}
    (idle : s.pc = .idle) (armed : p ∈ s.receives) (found : s.net.objects p = some session)
    (goes : s.Goes (.received p buf) s') (sessions : s'.net.sessions = s.net.sessions)
    (objects : s'.net.objects = s.net.objects)
    (trace : s'.net.trace = s.net.trace ++ [.onData session.sessionID session.socket (handed buf) buf.length])
    (pc : s'.pc = .dataCallBack p) : s'.Conversing := by
  have told : ∃ talk, s.Stance session.sessionID talk ∧ (talk.live = true ∨ talk = .kicked) := by
    cases p with
    | heap n => exact ⟨.added, conversing.added found (by simp [idle]), .inl rfl⟩
    | connector c =>
      obtain ⟨talk, stance⟩ := conversing.stance session.sessionID
      refine ⟨talk, stance, ?_⟩
      rcases stance.linked c session (.inl armed) found rfl with rfl | rfl
      · exact .inl rfl
      · exact .inr rfl
  obtain ⟨talk, stance, known⟩ := told
  exact conversing.delivered goes stance known trace sessions objects (by simp) (by simp [pc, idle]) (by simp [pc])

/-- A datagram arrives of a peer that has a session. -/
theorem Conversing.known (conversing : s.Conversing) {listener : Socket} {datagram : Datagram} {posted : Bool}
    (idle : s.pc = .idle) (known : s.net.getUDPSessionID datagram.address ≠ 0)
    (goes : s.Goes (.receivedFrom listener datagram posted) s') (sessions : s'.net.sessions = s.net.sessions)
    (objects : s'.net.objects = s.net.objects)
    (trace : s'.net.trace = s.net.trace ++ [.onData (s.net.getUDPSessionID datagram.address) listener
      (handed datagram.bytes) datagram.bytes.length])
    (pc : s'.pc = .datagramCallBack listener) : s'.Conversing := by
  have regular := conversing.regular
  have peer := (conversing.kept.get known datagram.address).mp rfl
  obtain ⟨n, session, stored, found, _⟩ := regular.peer.mp peer
  obtain ⟨other, found', own⟩ := regular.stored stored
  cases Option.some.inj (found.symm.trans found')
  have added := own ▸ conversing.added found (by simp [idle])
  exact conversing.delivered goes added (.inl rfl) trace sessions objects (by simp) (by simp [pc, idle]) (by simp [pc])

theorem Conversing.dequeued (conversing : s.Conversing) {operation : Operation}
    (goes : s.Goes (.failed operation) s') (result : s.dequeue operation = some s') : s'.Conversing := by
  have silently : Silently s.net s'.net := by
    cases operation <;> simp only [dequeue] at result <;> split at result <;> cases result <;> exact silently_rest
  exact conversing.still goes silently (by simp) (.inl (dequeue_pc result))

/-- The first receive of a connector could not be posted. -/
theorem Conversing.connectRefused (conversing : s.Conversing) {c : Nat} {session : Session} {posted : Bool}
    {next : Option Accepting} (pc : s.pc = .connectCallBack c) (found : s.net.objects (.connector c) = some session)
    (goes : s.Goes (.resume posted next) s') (receives : s'.receives = s.receives)
    (sessions : s'.net.sessions = s.net.sessions) (objects : s'.net.objects = s.net.objects)
    (trace : s'.net.trace = s.net.trace ++
      ([.closed session.socket] ++ [.onConnectFail session.sessionID session.socket]))
    (pc' : s'.pc = .connectFailCallBack c) : s'.Conversing := by
  refine conversing.failed goes (.inr (.inl pc)) found [.closed session.socket] trace (by simp [Event.session]) sessions
    objects (by simp) ?_ (by simp [pc, pc']) (by simp [pc'])
  have once := conversing.once c
  simp only [grasps, pc, true_or, if_true] at once
  simp only [linked_iff, grasps, receives, pc', reduceCtorEq, or_self, if_false]
  omega

/-- The session that was reported as dropped is deleted. -/
theorem Conversing.delSession (conversing : s.Conversing) {p : SessionPtr} {net : NetService} {posted : Bool}
    {next : Option Accepting} (pc : s.pc = .dropCallBack p) (result : s.net.delSession p = some net)
    (goes : s.Goes (.resume posted next) { s with net, pc := .idle }) :
    ({ s with net, pc := .idle } : IocpService).Conversing := by
  obtain ⟨n, session, rfl, found, rfl⟩ := conversing.dropping.removed conversing.regular pc result
  obtain ⟨talk, stance⟩ := conversing.stance session.sessionID
  have absent := stance.heap n session found rfl
  rw [if_pos pc] at absent
  subst absent
  refine conversing.removed goes found [] rfl (by simp) ?_ rfl rfl (by simp) ?_ (by simp)
  · rw [List.append_nil]
    exact stance.told
  · intro m other
    simp [pc, Ne.symm other]

/-- The first datagram of a peer follows its `OnAddConnection`. -/
theorem Conversing.openReturned (conversing : s.Conversing) {listener : Socket} {data : List Byte} {size : Nat}
    {posted : Bool} {next : Option Accepting} (pc : s.pc = .openCallBack listener data id size)
    (goes : s.Goes (.resume posted next) s') (sessions : s'.net.sessions = s.net.sessions)
    (objects : s'.net.objects = s.net.objects)
    (trace : s'.net.trace = s.net.trace ++ [.onData id listener data size])
    (pc' : s'.pc = .datagramCallBack listener) : s'.Conversing := by
  obtain ⟨talk, stance⟩ := conversing.stance id
  obtain rfl : talk = .added := Option.some.inj (stance.told.symm.trans (conversing.opening _ _ _ _ pc))
  exact conversing.delivered goes stance (.inl rfl) trace sessions objects (by simp) (by simp [pc, pc']) (by simp [pc'])

theorem Conversing.step (conversing : s.Conversing) (talking : s.Talking action) (taken : s.step action = some s') :
    s'.Conversing := by
  have goes := conversing.goes talking taken
  have regular := conversing.regular
  cases step_took' regular taken with
  | newConnector free =>
    exact conversing.setConnector goes rfl rfl rfl rfl (by simp [Event.session]) (by simp) (.inl rfl)
  | @addTCPListener listener first rest t added =>
    subst added
    have aside := s.addTCPListener_aside listener first rest
    exact conversing.still goes (aside.silently silently_rest) (by simp) (.inl aside.pc)
  | addUDPListener => exact conversing.beside goes (postReadFrom_aside ..) silently_rest (by simp) (.inl rfl)
  | unnumbered found => exact conversing.renumbered goes found rfl rfl rfl rfl (by simp) (.inl rfl)
  | unposted found front => exact conversing.renumbered goes found rfl rfl rfl rfl (by simp) (.inl rfl)
  | attempted found front => exact conversing.renumbered goes found rfl rfl rfl rfl (by simp) (.inl rfl)
  | kickSession issued result => exact conversing.kickSession talking goes result
  | @unaccepted listener sock _ _ next idle armed =>
    have silently : Silently s.net (s.net.destroySocket sock) := ⟨rfl, rfl, [.closed sock], rfl, by simp [Event.session]⟩
    exact conversing.beside goes (rearm_aside _ listener next) silently (by simp) (.inl rfl)
  | @unassociated listener sock _ _ next id rest idle armed front =>
    have silently : Silently s.net ((s.net.rotated id rest).destroySocket sock) :=
      ⟨rfl, rfl, [.closed sock], rfl, by simp [Event.session]⟩
    exact conversing.beside goes (rearm_aside _ listener next) silently (by simp) (.inl rfl)
  | @accepted listener sock address _ _ id rest idle armed front =>
    let session := acceptedOn sock address id
    have added : session.sockType ≠ .connect := by rintro ⟨⟩
    exact conversing.opened goes idle session front added rfl rfl rfl (by simp) (by simp) (by simp)
  | @closed p session idle armed found heap =>
    cases p with
    | heap n => exact conversing.dropped goes idle found rfl rfl rfl (by simp) rfl
    | connector c => exact absurd (regular.connector found) heap
  | @closedConnector p session idle armed found connect =>
    cases p with
    | heap n => rcases (regular.heap found).2 with kind | kind <;> cases connect.symm.trans kind
    | connector c => exact conversing.closedConnector idle armed found goes rfl rfl rfl rfl rfl
  | received idle armed found bytes => exact conversing.received idle armed found goes rfl rfl rfl rfl
  | @unserved listener _ posted idle armed =>
    exact conversing.beside goes (postReadFrom_aside ..) silently_rest (by simp) (.inl rfl)
  | known idle armed bytes known => exact conversing.known idle known goes rfl rfl rfl rfl
  | @served listener datagram _ id rest idle armed bytes unknown front =>
    let session := peerOn listener datagram.address id
    have added : session.sockType ≠ .connect := by rintro ⟨⟩
    exact conversing.opened goes idle session front added rfl rfl rfl (by simp) (by simp)
      (by rintro _ _ _ _ ⟨⟩; rfl)
  | connected idle trying found => exact conversing.connected goes idle trying found rfl rfl rfl rfl
  | failed idle result => exact conversing.dequeued goes result
  | @acceptReturned posted next listener p _ pc found =>
    exact conversing.beside goes (rearm_aside _ listener next) silently_rest (by simp) (.inr (by simp [pc]))
  | connectReturned pc found => exact conversing.renumbered goes found rfl rfl rfl rfl (by simp) (.inr (by simp [pc]))
  | connectRefused pc found connect =>
    exact conversing.connectRefused pc found goes rfl rfl rfl (List.append_assoc ..) rfl
  | connectFailed pc found => exact conversing.renumbered goes found rfl rfl rfl rfl (by simp) (.inr (by simp [pc]))
  | dataReturned pc found => exact conversing.still goes silently_rest (by simp) (.inr (by simp [pc]))
  | dropped pc result => exact conversing.delSession pc result goes
  | failReturned pc => exact conversing.still goes silently_rest (by simp) (.inr (by simp [pc]))
  | openReturned pc => exact conversing.openReturned pc goes rfl rfl rfl rfl
  | @datagramReturned posted next listener pc =>
    have aside := s.postReadFrom_aside listener posted
    exact conversing.still goes (aside.silently silently_rest) (by simp) (.inr (by simp [pc]))

theorem initSession_conversing : initSession.Conversing where
  toReferenced := initSession_referenced
  kept := NetService.initSession_kept
  stance id := by
    have unlinked : ∀ c, ¬ initSession.Linked c := by simp [Linked, initSession]
    exact ⟨.absent, Monitor.after_nil, by rintro ⟨⟩, by simp, by rintro n session ⟨⟩,
      fun c _ link => absurd link (unlinked c), fun c _ _ _ link => absurd link (unlinked c)⟩
  once c := by simp [grasps, initSession]
  opening := by rintro _ _ _ _ ⟨⟩

/-- What the user was told about an ID fits together: it knows of no session
    that the table has not, it was told of every session from `new` until that
    is dropped, and of a connector in hand it knows that it is connected, unless
    it kicked it. -/
structure Told (s : IocpService) (id : SessionID) (talk : Talk) : Prop where
  after : (conversation true).after id s.net.trace = some talk
  live : talk.live = true →
    ∃ p session, s.net.sessions id = some p ∧ s.net.objects p = some session ∧ session.talk = talk
  heap : ∀ n session, s.net.objects (.heap n) = some session → session.sessionID = id →
    talk = if s.pc = .dropCallBack (.heap n) then .absent else .added
  linked : ∀ c session, s.Linked c → s.net.objects (.connector c) = some session → session.sessionID = id →
    talk = .connected ∨ talk = .kicked

/-- In every run that kicks no session in use, the callbacks about an ID are
    those of one session after another, but for late data of kicked connectors. -/
theorem late_conversations_kept (s : IocpService) (reached : Reachable Talking s) (id : SessionID) :
    ∃ talk, s.Told id talk := by
  have conversing : s.Conversing := by
    refine Transition.Reachable.invariant ?_ ?_ reached
    · rintro _ rfl
      exact initSession_conversing
    · rintro s s' _ conversing ⟨action, talking, taken⟩
      exact conversing.step talking taken
  obtain ⟨talk, stance⟩ := conversing.stance id
  exact ⟨talk, stance.told, stance.live, stance.heap, stance.linked⟩

theorem late_data_told : ∃ s, Reachable Talking s ∧ s.net.trace = [.opened 9, .onConnected 1 9, .kick 1, .closed 9,
    .onData 1 9 (handed [5]) 1] ∧ ∃ talk, s.Told 1 talk := by
  have unkicked : ∀ {s : IocpService} {action : IocpAction}, (∀ id, action ≠ .kickSession id) → s.Adding action →
      s.Talking action := by
    intro s action others adding
    exact ⟨⟨adding, fun id _ kicks => absurd kicks (others id)⟩, fun id _ _ _ kicks => absurd kicks (others id)⟩
  have made : Reachable Talking _ := Reachable.init.act (.newConnector 0 9) (unkicked (by simp) trivial) rfl
  have added := made.act (.addTCPConnector 0 true)
    (unkicked (by simp) fun _ => ⟨by rintro ⟨⟩, by rintro _ ⟨⟩, by simp [Linked, initSession]⟩) rfl
  have connected := added.act (.connected 0) (unkicked (by simp) trivial) rfl
  have returned := connected.act (.resume true none) (unkicked (by simp) trivial) rfl
  have kicked := returned.act (.kickSession 1)
    ⟨⟨trivial, by rintro id n ⟨⟩ ⟨⟩⟩, by rintro id listener data size ⟨⟩ ⟨⟩⟩ rfl
  have received := kicked.act (.received (.connector 0) [5]) (unkicked (by simp) trivial) rfl
  exact ⟨_, received, rfl, late_conversations_kept _ received 1⟩

end IocpService

end LiteServer.Net
