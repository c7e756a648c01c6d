import LiteServer.Net.Connects

/-!
How the IOCP backend reports the outcome of a connect, and both do.
-/
namespace LiteServer.Net

namespace IocpService
variable {s s' : IocpService} {a : Attempts} {action : IocpAction}

/-- What a step records of the attempts. An attempt ends with the completion of
    its `ConnectEx`. -/
def attempted (s : IocpService) (a : Attempts) : IocpAction → Attempts
  | .addTCPConnector c posted =>
    match s.addTCPConnector c posted with
    | some (true, t) => a.make (t.net.attemptID c)
    | _ => a
  | .connected c => a.finish (s.net.attemptID c) true
  | .failed (.connect c) => a.finish (s.net.attemptID c) false
  | _ => a

/-- Runs with the outcomes of their attempts. -/
def Attempting (allowed : IocpService → IocpAction → Prop) : IocpService × Attempts → Prop :=
  Transition.Reachable (· = (initSession, .untried)) fun t t' =>
    ∃ action, allowed t.1 action ∧ t.1.step action = some t'.1 ∧ t'.2 = t.1.attempted t.2 action

theorem Attempting.init {allowed : IocpService → IocpAction → Prop} : Attempting allowed (initSession, .untried) :=
  Transition.Reachable.start rfl

theorem Attempting.act {allowed : IocpService → IocpAction → Prop} (reached : Attempting allowed (s, a))
    (action : IocpAction) (allows : allowed s action) (taken : s.step action = some s') :
    Attempting allowed (s', s.attempted a action) :=
  Transition.Reachable.next reached ⟨action, allows, taken, rfl⟩

/-- No attempt fails, and connectors are added in turn. -/
def Succeeding (s : IocpService) (action : IocpAction) : Prop :=
  s.Orderly (fun _ => False) action ∧ ∀ c, action ≠ .failed (.connect c)

theorem addTCPConnector_cases {c : Nat} {posted ok : Bool} {session : Session} (positive : 0 ∉ s.net.queSessionID)
    (found : s.net.objects (.connector c) = some session) (taken : s.addTCPConnector c posted = some (ok, s')) :
    (ok = false ∧ s'.net.attempts = s.net.attempts ∧
      ∃ session', s'.net.objects = Function.update s.net.objects (.connector c) (some session')) ∨
    (ok = true ∧ s'.net.attempts = s.net.attempts ++ [c] ∧
      ∃ session', s'.net.objects = Function.update s.net.objects (.connector c) (some session')) := by
  let t := s.net.setObject (.connector c) { session with alive := false }
  rcases NetService.newSessionID_cases t with ⟨queue, made⟩ | ⟨id, rest, front, made⟩
  · simp only [addTCPConnector, found, Option.bind_eq_bind, Option.bind_some] at taken
    rw [made] at taken
    cases taken
    exact .inl ⟨rfl, rfl, _, rfl⟩
  · have nonzero := NetService.head_ne_zero positive front
    simp only [addTCPConnector, found, Option.bind_eq_bind, Option.bind_some] at taken
    rw [made] at taken
    cases posted with
    | true =>
      simp [nonzero, NetService.setObject, t] at taken
      obtain ⟨rfl, rfl⟩ := taken
      exact .inr ⟨rfl, rfl, _, rfl⟩
    | false =>
      simp [nonzero, NetService.setObject, NetService.freeSessionID, t] at taken
      obtain ⟨rfl, rfl⟩ := taken
      exact .inl ⟨rfl, rfl, _, rfl⟩

theorem addTCPConnector_reported (reported : a.Reported s.net) {c : Nat} {posted ok : Bool} (dropping : s.Dropping)
    (orderly : s.Orderly (fun _ => False) (.addTCPConnector c posted))
    (result : s.addTCPConnector c posted = some (ok, s')) :
    (if ok then a.make (s'.net.attemptID c) else a).Reported s'.net := by
  have taken : s.step (.addTCPConnector c posted) = some s' := by simp [step, result]
  have moves := step_moves reported.regular dropping orderly taken
  obtain ⟨session, found, _⟩ := Option.bind_eq_some_iff.mp result
  obtain ⟨resting, _, _⟩ := orderly (by rw [found]; rfl)
  have ids : ∀ session', s'.net.objects = Function.update s.net.objects (.connector c) (some session') →
      ∀ d ∈ s.net.attempts, s'.net.attemptID d = s.net.attemptID d := by
    intro session' objects d trying
    refine NetService.attemptID_congr ?_
    rw [objects]
    refine Function.update_of_ne ?_ _ _
    rintro ⟨⟩
    exact resting trying
  rcases addTCPConnector_cases reported.regular.positive found result with
    ⟨rfl, attempts, session', objects⟩ | ⟨rfl, attempts, session', objects⟩
  · exact reported.next moves ⟨attempts, ids session' objects⟩
  · exact reported.make moves attempts (ids session' objects)

theorem connected_reported (reported : a.Reported s.net) {c : Nat} (taken : s.step (.connected c) = some s') :
    (a.finish (s.net.attemptID c) true).Reported s'.net := by
  cases step_took' reported.regular taken with
  | connected idle trying found => exact reported.finish found trying ⟨NetService.leaves_rest, rfl⟩ rfl

theorem step_reported (reported : a.Reported s.net) (dropping : s.Dropping) (succeeding : s.Succeeding action)
    (taken : s.step action = some s') : (s.attempted a action).Reported s'.net := by
  obtain ⟨orderly, unfailed⟩ := succeeding
  have moves := step_moves reported.regular dropping orderly taken
  cases action with
  | addTCPConnector c posted =>
    obtain ⟨⟨ok, t⟩, result, rfl⟩ := Option.map_eq_some_iff.mp taken
    have kept := addTCPConnector_reported reported dropping orderly result
    simp only [attempted, result]
    cases ok with
    | true => exact kept
    | false => exact kept
  | connected c => exact connected_reported reported taken
  | failed operation =>
    cases operation with
    | connect c => exact absurd rfl (unfailed c)
    | _ => exact reported.next moves (step_trying reported.regular dropping (by simp) (by simp) (by simp) taken)
  | _ => exact reported.next moves (step_trying reported.regular dropping (by simp) (by simp) (by simp) taken)

theorem reported_of_attempting {t : IocpService × Attempts} (reached : Attempting Succeeding t) :
    t.2.Reported t.1.net ∧ t.1.Dropping := by
  refine Transition.Reachable.invariant (P := fun t => t.2.Reported t.1.net ∧ t.1.Dropping) ?_ ?_ reached
  · rintro _ rfl
    exact ⟨NetService.initSession_reported, initSession_dropping⟩
  · rintro ⟨s, a⟩ ⟨s', a'⟩ _ ⟨reported, dropping⟩ ⟨action, succeeding, taken, rfl⟩
    exact ⟨step_reported reported dropping succeeding taken, dropping.step reported.regular taken⟩

end IocpService

/-- On either backend, as long as no attempt fails, every established connection
    is reported once. -/
theorem connects_reported (epoll : NetService × Attempts) (iocp : IocpService × Attempts)
    (reached : NetService.Attempting NetService.Succeeding epoll)
    (reached' : IocpService.Attempting IocpService.Succeeding iocp) :
    epoll.2.Truthful epoll.1 ∧ iocp.2.Truthful iocp.1.net :=
  ⟨(NetService.reported_of_attempting reached).1.truthful, (IocpService.reported_of_attempting reached').1.truthful⟩

theorem one_connect_reported : ∃ epoll iocp, NetService.Attempting NetService.Succeeding epoll ∧
    IocpService.Attempting IocpService.Succeeding iocp ∧ epoll.2.outcomes 1 = some true ∧
    iocp.2.outcomes 1 = some true ∧ epoll.2.Truthful epoll.1 ∧ iocp.2.Truthful iocp.1.net := by
  have made : NetService.Attempting NetService.Succeeding _ :=
    NetService.Attempting.init.act (.newConnector 0 9) true ⟨nofun, nofun, nofun⟩ rfl
  have added := made.act (.addTCPConnector 0 true true) true ⟨fun _ => ⟨nofun, nofun, nofun⟩, nofun, nofun⟩ rfl
  have polled := added.act (.epollWait [⟨9, .connect 0, false, true⟩]) true ⟨trivial, nofun, nofun⟩ rfl
  have established := polled.act (.dispatch [] .again) true
    ⟨by rintro event rest c ⟨⟩ ⟨⟩ _ _; exact .head _, nofun, fun _ _ _ _ _ => rfl⟩ rfl
  have made' : IocpService.Attempting IocpService.Succeeding _ :=
    IocpService.Attempting.init.act (.newConnector 0 9) ⟨nofun, nofun⟩ rfl
  have added' := made'.act (.addTCPConnector 0 true) ⟨fun _ => ⟨nofun, nofun, nofun⟩, nofun⟩ rfl
  have established' := added'.act (.connected 0) ⟨trivial, nofun⟩ rfl
  exact ⟨_, _, established, established', rfl, rfl, connects_reported _ _ established established'⟩

/-- A connector whose attempt fails: epoll reports it as connected, IOCP not at
    all. -/
theorem failed_connect_misreported :
    (¬ ∀ t, NetService.Attempting (fun s action _ => s.Orderly (fun _ => False) action) t → t.2.Truthful t.1) ∧
    ¬ ∀ t, IocpService.Attempting (fun s action => s.Orderly (fun _ => False) action) t → t.2.Truthful t.1.net := by
  constructor
  · intro claim
    have made : NetService.Attempting (fun s action _ => s.Orderly (fun _ => False) action) _ :=
      NetService.Attempting.init.act (.newConnector 0 9) true nofun rfl
    have added := made.act (.addTCPConnector 0 true true) true (fun _ => ⟨nofun, nofun, nofun⟩) rfl
    have polled := added.act (.epollWait [⟨9, .connect 0, false, true⟩]) true trivial rfl
    have refused := polled.act (.dispatch [] .again) false
      (by rintro event rest c ⟨⟩ ⟨⟩ _ _; exact .head _) rfl
    have returned := refused.act (.resume true) true trivial rfl
    have unconnected := ((claim _ returned).failed 1 (.head _) rfl).1
    cases unconnected
  · intro claim
    have made : IocpService.Attempting (fun s action => s.Orderly (fun _ => False) action) _ :=
      IocpService.Attempting.init.act (.newConnector 0 9) nofun rfl
    have added := made.act (.addTCPConnector 0 true) (fun _ => ⟨nofun, nofun, nofun⟩) rfl
    have refused := added.act (.failed (.connect 0)) trivial rfl
    have reported := ((claim _ refused).failed 1 (.head _) rfl).2
    cases reported

end LiteServer.Net
