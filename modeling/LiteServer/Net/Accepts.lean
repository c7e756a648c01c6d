import LiteServer.Net.Armed

/-!
The accepts that a listener keeps outstanding on the IOCP backend, and with them
everything that the loop has to keep armed.
-/
namespace LiteServer.Net

/-- The listener that another accept is posted for when the callback returns. -/
def IocpPc.rearms : IocpPc → Option Socket
  | .acceptCallBack listener _ => some listener
  | _ => none

namespace IocpService
variable {s s' : IocpService} {action : IocpAction}

/-- Accepts of a listener that are outstanding or about to be posted, and those
    that could not be. -/
def due (s : IocpService) (listener : Socket) : Nat :=
  s.outstanding listener + s.refused listener + if s.pc.rearms = some listener then 1 else 0

def Balanced (s : IocpService) : Prop := ∀ listener, s.due listener = s.started listener

theorem Balanced.same (balanced : s.Balanced) (accepts : s'.accepts = s.accepts) (refused : s'.refused = s.refused)
    (started : s'.started = s.started) (rearms : s'.pc.rearms = s.pc.rearms) : s'.Balanced := by
  intro listener
  have before := balanced listener
  simpa only [due, outstanding, accepts, refused, started, rearms] using before

/-! ### Posting -/

theorem postAccept_outstanding (s : IocpService) (listener m : Socket) (created : Option Accepting) :
    (s.postAccept listener created).2.outstanding m =
      s.outstanding m + if (s.postAccept listener created).1 = true ∧ listener = m then 1 else 0 := by
  cases created with
  | none => simp [postAccept]
  | some a =>
    by_cases posted : a.posted = true
    · by_cases same : listener = m <;> simp [postAccept, posted, outstanding, same]
    · simp [postAccept, posted, outstanding]

theorem postAccept_record (s : IocpService) (listener : Socket) (created : Option Accepting) :
    (s.postAccept listener created).2.refused = s.refused ∧ (s.postAccept listener created).2.started = s.started := by
  cases created with
  | none => exact ⟨rfl, rfl⟩
  | some a => by_cases posted : a.posted = true <;> simp [postAccept, posted]

/-- Another accept is outstanding, or is counted as refused. -/
theorem rearm_due (s : IocpService) (listener m : Socket) (next : Option Accepting) :
    (s.rearm listener next).due m = s.due m + if listener = m then 1 else 0 := by
  obtain ⟨_, _, pc⟩ := s.postAccept_aside listener next
  obtain ⟨refused, _⟩ := s.postAccept_record listener next
  have posts := s.postAccept_outstanding listener m next
  by_cases ret : (s.postAccept listener next).1 = true
  · simp only [ret, true_and] at posts
    simp only [rearm, ret, if_true, due, posts, refused, pc]
    omega
  · simp only [ret, Bool.false_eq_true, false_and, if_false, Nat.add_zero, outstanding] at posts
    simp only [rearm, ret, Bool.false_eq_true, if_false, due, outstanding, posts, pc, refused]
    by_cases same : listener = m
    · subst same
      simp only [Function.update_self, if_true]
      omega
    · simp [Ne.symm same, same]

theorem rearm_started (s : IocpService) (listener : Socket) (next : Option Accepting) :
    (s.rearm listener next).started = s.started := by
  obtain ⟨_, started⟩ := s.postAccept_record listener next
  unfold rearm
  split
  rename_i ret t posted
  rw [posted] at started
  split <;> exact started

theorem postAccepts_outstanding (listener : Socket) (rest : List (Option Accepting)) (s : IocpService) (m : Socket) :
    let t := rest.foldl (fun s created => (s.postAccept listener created).2) s
    s.outstanding m ≤ t.outstanding m ∧ (listener ≠ m → t.outstanding m = s.outstanding m) ∧ t.refused = s.refused ∧
      t.started = s.started := by
  induction rest generalizing s with
  | nil => simp
  | cons created rest ih =>
    obtain ⟨grown, others, refused, started⟩ := ih (s.postAccept listener created).2
    have posts := s.postAccept_outstanding listener m created
    obtain ⟨refused', started'⟩ := s.postAccept_record listener created
    refine ⟨?_, ?_, refused.trans refused', started.trans started'⟩
    · exact le_trans (posts ▸ Nat.le_add_right _ _) grown
    · intro differ
      simp only [differ, and_false, if_false, Nat.add_zero] at posts
      exact (others differ).trans posts

theorem addTCPListener_outstanding (s : IocpService) (listener m : Socket) (first : Option Accepting)
    (rest : List (Option Accepting)) : let t := (s.addTCPListener listener first rest).2
    s.outstanding m ≤ t.outstanding m ∧ (listener ≠ m → t.outstanding m = s.outstanding m) ∧ t.refused = s.refused ∧
      t.started = s.started := by
  have whole := postAccepts_outstanding listener (first :: rest) s m
  have one := postAccepts_outstanding listener [first] s m
  by_cases ret : (s.postAccept listener first).1 = true
  · simp only [addTCPListener, ret, if_true]
    exact whole
  · simp only [addTCPListener, ret]
    exact one

/-! ### Steps -/

theorem outstanding_erase (t : IocpService) {listener sock : Socket} (armed : (listener, sock) ∈ s.accepts)
    (accepts : t.accepts = s.accepts.erase (listener, sock)) (m : Socket) :
    s.outstanding m = t.outstanding m + if listener = m then 1 else 0 := by
  have moved := ((List.perm_cons_erase armed).map Prod.fst).count_eq m
  rw [outstanding, outstanding, accepts, moved, List.map_cons, List.count_cons]
  simp

/-- The accept that completed is posted again. -/
theorem Balanced.rearm (balanced : s.Balanced) {t : IocpService} {listener : Socket} (next : Option Accepting)
    (started : t.started = s.started) (due : ∀ m, s.due m = t.due m + if listener = m then 1 else 0) :
    (t.rearm listener next).Balanced := by
  intro m
  rw [rearm_due, rearm_started, started, ← due m]
  exact balanced m

theorem Balanced.step (balanced : s.Balanced) (placed : s.Placed) (completing : s.Completing action)
    (taken : s.step action = some s') : s'.Balanced := by
  cases step_took' placed.regular taken with
  | @addTCPListener listener first rest t added =>
    subst added
    have pc := (s.addTCPListener_aside listener first rest).pc
    intro m
    obtain ⟨grown, others, refused, started⟩ := s.addTCPListener_outstanding listener m first rest
    have before := balanced m
    simp only [due, outstanding] at before grown others
    simp only [due, outstanding, pc, refused]
    by_cases same : m = listener
    · subst same
      simp only [Function.update_self]
      omega
    · rw [others (Ne.symm same), Function.update_of_ne same]
      exact before
  | @addUDPListener listener posted => cases posted <;> exact balanced.same rfl rfl rfl rfl
  | @unaccepted listener sock _ _ next idle armed =>
    let closed : IocpService := { s with
      accepts := s.accepts.erase (listener, sock)
      net := s.net.destroySocket sock }
    refine balanced.rearm next rfl fun m => ?_
    have erased := outstanding_erase closed armed rfl m
    simp only [due, erased, closed]
    omega
  | @unassociated listener sock _ _ next id rest idle armed front =>
    let closed : IocpService := { s with
      accepts := s.accepts.erase (listener, sock)
      net := (s.net.rotated id rest).destroySocket sock }
    refine balanced.rearm next rfl fun m => ?_
    have erased := outstanding_erase closed armed rfl m
    simp only [due, erased, closed]
    omega
  | @accepted listener sock address _ _ id rest idle armed front =>
    let taken : IocpService := { s with
      accepts := s.accepts.erase (listener, sock)
      net := (s.net.opened id rest (acceptedOn sock address id)).emit (.onAddConnection id sock address)
      pc := .acceptCallBack listener (.heap s.net.allocated) }
    intro m
    have before := balanced m
    have erased := outstanding_erase taken armed rfl m
    simp only [due, erased, idle, IocpPc.rearms, reduceCtorEq, if_false, Nat.add_zero] at before
    simp only [due, IocpPc.rearms, Option.some.injEq, taken] at before ⊢
    omega
  | @unserved listener datagram posted idle armed => cases posted <;> exact balanced.same rfl rfl rfl rfl
  | @failed operation _ idle result =>
    cases operation with
    | accept listener sock => exact False.elim completing
    | _ =>
      simp only [dequeue] at result
      split at result <;> cases result
      exact balanced.same rfl rfl rfl rfl
  | @acceptReturned posted next listener p session pc found =>
    refine balanced.rearm next rfl fun m => ?_
    simp only [due, outstanding, pc, IocpPc.rearms, Option.some.injEq, reduceCtorEq, if_false]
    rfl
  | @datagramReturned posted next listener pc =>
    cases posted <;> exact balanced.same rfl rfl rfl (by rw [pc]; rfl)
  | newConnector free => exact balanced.same rfl rfl rfl rfl
  | unnumbered found => exact balanced.same rfl rfl rfl rfl
  | unposted found front => exact balanced.same rfl rfl rfl rfl
  | attempted found front => exact balanced.same rfl rfl rfl rfl
  | kickSession issued result => exact balanced.same rfl rfl rfl rfl
  | closed idle => exact balanced.same rfl rfl rfl (by rw [idle]; rfl)
  | closedConnector idle => exact balanced.same rfl rfl rfl (by rw [idle]; rfl)
  | received idle => exact balanced.same rfl rfl rfl (by rw [idle]; rfl)
  | known idle => exact balanced.same rfl rfl rfl (by rw [idle]; rfl)
  | served idle => exact balanced.same rfl rfl rfl (by rw [idle]; rfl)
  | connected idle => exact balanced.same rfl rfl rfl (by rw [idle]; rfl)
  | connectReturned pc => exact balanced.same rfl rfl rfl (by rw [pc]; rfl)
  | connectRefused pc => exact balanced.same rfl rfl rfl (by rw [pc]; rfl)
  | connectFailed pc => exact balanced.same rfl rfl rfl (by rw [pc]; rfl)
  | dataReturned pc => exact balanced.same rfl rfl rfl (by rw [pc]; rfl)
  | dropped pc => exact balanced.same rfl rfl rfl (by rw [pc]; rfl)
  | failReturned pc => exact balanced.same rfl rfl rfl (by rw [pc]; rfl)
  | openReturned pc => exact balanced.same rfl rfl rfl (by rw [pc]; rfl)

theorem initSession_balanced : initSession.Balanced := by
  intro listener
  simp [due, initSession, outstanding, IocpPc.rearms]

theorem working_of_reachable (reached : Reachable Completing s) : s.Working ∧ s.Balanced := by
  refine Transition.Reachable.invariant (P := fun s => s.Working ∧ s.Balanced) ?_ ?_ reached
  · rintro _ rfl
    exact ⟨initSession_working, initSession_balanced⟩
  · rintro s s' _ ⟨working, balanced⟩ ⟨action, completing, taken⟩
    exact ⟨working.step completing taken, balanced.step working.placed completing taken⟩

/-- Every open TCP session has one receive outstanding, and a listener as many
    accepts as it started with if all could be posted again. -/
structure Armed (s : IocpService) : Prop where
  receives : ∀ id, s.net.Open id → ∃ p session, s.net.sessions id = some p ∧ s.net.objects p = some session ∧
    (session.sockType ≠ .udp → s.receives.count p = 1)
  accepts : ∀ listener, s.refused listener = 0 → s.outstanding listener = s.started listener

/-- Between two completions everything is armed. -/
theorem armed_between_completions (s : IocpService) (reached : Reachable Completing s) (idle : s.pc = .idle) :
    s.Armed := by
  obtain ⟨working, balanced⟩ := working_of_reachable reached
  constructor
  · intro id opened
    obtain ⟨p, session, stored, found, armed⟩ := working.reading id opened
    refine ⟨p, session, stored, found, fun tcp => ?_⟩
    simpa [reads, idle, IocpPc.holds] using armed tcp
  · intro listener refused
    simpa [due, idle, IocpPc.rearms, refused] using balanced listener

theorem connection_armed : ∃ s, Reachable Completing s ∧ s.pc = .idle ∧ s.net.Open 1 ∧ s.receives = [.heap 0] ∧
    s.Armed := by
  have listening : Reachable Completing _ :=
    Reachable.init.act (.addTCPListener 3 (some ⟨7, true⟩) (List.replicate 10 none)) trivial rfl
  have accepted := listening.act (.accepted 3 7 ⟨0, 0⟩ true none) trivial rfl
  have returned := accepted.act (.resume true (some ⟨8, true⟩)) (fun _ _ _ _ _ => rfl) rfl
  exact ⟨_, returned, rfl, rfl, rfl, armed_between_completions _ returned rfl⟩

/-- A failed receive and a failed accept are dequeued, and neither is made up for. -/
theorem failed_completions_disarm :
    (¬ ∀ s, Reachable (fun _ _ => True) s → s.pc = .idle → ∀ id, s.net.Open id → ∃ p session,
      s.net.sessions id = some p ∧ s.net.objects p = some session ∧
      (session.sockType ≠ .udp → s.receives.count p = 1)) ∧
    ¬ ∀ s, Reachable (fun _ _ => True) s → s.pc = .idle → ∀ listener, s.refused listener = 0 →
      s.outstanding listener = s.started listener := by
  have listening : Reachable (fun _ _ => True) _ :=
    Reachable.init.act (.addTCPListener 3 (some ⟨7, true⟩) ((List.range' 20 10).map fun sock => some ⟨sock, true⟩))
      trivial rfl
  constructor
  · intro claim
    have accepted := listening.act (.accepted 3 7 ⟨0, 0⟩ true none) trivial rfl
    have returned := accepted.act (.resume true (some ⟨8, true⟩)) trivial rfl
    have failed := returned.act (.failed (.read (.heap 0))) trivial rfl
    obtain ⟨p, session, stored, found, armed⟩ := claim _ failed rfl 1 rfl
    cases (stored : some (SessionPtr.heap 0) = some p)
    cases (found : some (acceptedOn 7 ⟨0, 0⟩ 1) = some session)
    cases armed (by simp)
  · intro claim
    have failed := listening.act (.failed (.accept 3 7)) trivial rfl
    cases claim _ failed rfl 3 rfl

end IocpService

end LiteServer.Net
