import LiteServer.Net.IocpMoves

/-!
Whether the IOCP backend uses a session after its deletion. A session from `new`
is used by its outstanding receive or by the callback made for it, and by one of
them at a time; only `KickSession` deletes it while it is in use.
-/
namespace LiteServer.Net

/-- The session that is read or deleted when a callback returns. -/
def IocpPc.session : IocpPc → Option SessionPtr
  | .acceptCallBack _ p => some p
  | .dataCallBack p => some p
  | .dropCallBack p => some p
  | _ => none

namespace IocpService
variable {s s' : IocpService} {action : IocpAction}

/-- How often the backend will use a session from `new` again. -/
def uses (receives : List SessionPtr) (session : Option SessionPtr) (n : Nat) : Nat :=
  receives.count (.heap n) + if session = some (.heap n) then 1 else 0

def InUse (s : IocpService) (n : Nat) : Prop := 0 < uses s.receives s.pc.session n

theorem inUse_iff {n : Nat} : s.InUse n ↔ .heap n ∈ s.receives ∨ s.pc.session = some (.heap n) := by
  rw [InUse, uses, ← List.count_pos_iff]
  by_cases held : s.pc.session = some (.heap n) <;> simp [held]

/-- A session is in use once at most, and only while it exists. -/
def Counted (s : IocpService) (n : Nat) : Prop :=
  uses s.receives s.pc.session n ≤ if (s.net.objects (.heap n)).isSome then 1 else 0

/-- What is in use exists, and is in use once. -/
structure Referenced (s : IocpService) : Prop extends s.Placed where
  used : ∀ n, s.Counted n
  failing : ∀ c, s.pc = .connectFailCallBack c → (s.net.objects (.connector c)).isSome

/-- Connectors are added while nothing refers to them, and no session is kicked
    that is in use. -/
def Sparing (s : IocpService) (action : IocpAction) : Prop :=
  s.Adding action ∧ ∀ id n, action = .kickSession id → s.net.sessions id = some (.heap n) → ¬ s.InUse n

/-! ### Steps -/

section
variable {receives : List SessionPtr} {session : Option SessionPtr} {p : SessionPtr} {n : Nat}

theorem uses_posted (posted : Bool) :
    uses (if posted then receives ++ [p] else receives) none n ≤ uses receives (some p) n := by
  cases posted with
  | true =>
    simp only [uses, if_true, List.count_append, List.count_singleton, Option.some.injEq, beq_iff_eq]
    by_cases same : p = .heap n <;> simp [same]
  | false => simp [uses]

theorem uses_taken (armed : p ∈ receives) : uses (receives.erase p) (some p) n ≤ uses receives none n := by
  by_cases same : p = .heap n
  · subst same
    have counted := List.count_pos_iff.mpr armed
    simp only [uses, List.count_erase_self, if_true, reduceCtorEq, if_false]
    omega
  · simp [uses, List.count_erase_of_ne (Ne.symm same), same]

theorem uses_erased : uses (receives.erase p) none n ≤ uses receives none n := by
  simp only [uses, reduceCtorEq, if_false, Nat.add_zero]
  exact List.erase_sublist.count_le _

theorem uses_connector (c : Nat) : uses (receives ++ [.connector c]) none n = uses receives none n := by
  simp [uses]

end

/-- A session that stays, and is not used more than before. -/
theorem Referenced.counted (referenced : s.Referenced) {n : Nat}
    (kept : (s.net.objects (.heap n)).isSome → (s'.net.objects (.heap n)).isSome)
    (fewer : uses s'.receives s'.pc.session n ≤ uses s.receives s.pc.session n) : s'.Counted n := by
  have before := fewer.trans (referenced.used n)
  unfold Counted
  split at before
  · rename_i found
    rwa [if_pos (kept found)]
  · exact before.trans (Nat.zero_le _)

theorem Aside.counted (aside : s.Aside s') {n : Nat} (counted : s.Counted n) : s'.Counted n := by
  obtain ⟨more, net, _⟩ := aside.net
  rw [Counted, aside.receives, aside.pc, net]
  exact counted

/-- A session leaves the service that is not in use. -/
theorem Referenced.removed (referenced : s.Referenced) {n m : Nat}
    (removed : m ≠ n → s'.net.objects (.heap m) = s.net.objects (.heap m))
    (unused : uses s'.receives s'.pc.session n = 0)
    (fewer : uses s'.receives s'.pc.session m ≤ uses s.receives s.pc.session m) : s'.Counted m := by
  unfold Counted
  by_cases same : m = n
  · rw [same, unused]
    exact Nat.zero_le _
  · rw [removed same]
    exact fewer.trans (referenced.used m)

/-- A new session may be in use by the callback that announces it. -/
theorem Referenced.opened (referenced : s.Referenced) (idle : s.pc = .idle) {session : Session} {n : Nat}
    (receives : s'.receives = s.receives)
    (objects : s'.net.objects = Function.update s.net.objects (.heap s.net.allocated) (some session))
    (fresh : s'.pc.session = none ∨ s'.pc.session = some (.heap s.net.allocated)) : s'.Counted n := by
  have before := referenced.used n
  rw [Counted, idle] at before
  simp only [uses, IocpPc.session, reduceCtorEq, if_false, Nat.add_zero] at before
  rw [Counted, receives, objects, uses]
  by_cases same : n = s.net.allocated
  · subst same
    rw [referenced.regular.fresh] at before
    rw [Function.update_self, Option.isSome_some, if_pos rfl]
    simp only [Option.isSome_none, Bool.false_eq_true, if_false] at before
    split <;> omega
  · have apart : s'.pc.session ≠ some (.heap n) := by
      rcases fresh with none | new
      · simp [none]
      · simpa [new] using Ne.symm same
    rw [Function.update_of_ne (by simpa using same), if_neg apart]
    exact before

/-- `KickSession` deletes a session from `new` that is not in use. -/
theorem Referenced.kickSession_counted (referenced : s.Referenced) {id : SessionID} {net : NetService}
    (sparing : s.Sparing (.kickSession id)) (result : s.net.kickSession id = some net) (n : Nat) :
    ({ s with net } : IocpService).Counted n := by
  cases referenced.regular.kickSession result with
  | unknown empty => exact referenced.counted (fun found => found) (Nat.le_refl _)
  | @heap m session found stored =>
    have unused := Nat.eq_zero_of_not_pos (sparing.2 _ m rfl stored)
    refine referenced.removed (fun differ => ?_) unused (Nat.le_refl _)
    exact Function.update_of_ne (by simpa using differ) _ _
  | connector found stored => exact referenced.counted (fun found => by simpa using found) (Nat.le_refl _)

/-- A receive that fails is in hand no more. -/
theorem Referenced.dequeue_counted (referenced : s.Referenced) {operation : Operation} (idle : s.pc = .idle)
    (result : s.dequeue operation = some s') (n : Nat) : s'.Counted n := by
  cases operation with
  | read p =>
    simp only [dequeue] at result
    split at result <;> cases result
    exact referenced.counted (fun found => found) (by simp only [idle]; exact uses_erased)
  | _ =>
    simp only [dequeue] at result
    split at result <;> cases result
    exact referenced.used n

/-- The session that the callback about its end was made for had no receive. -/
theorem Referenced.delSession_counted (referenced : s.Referenced) {p : SessionPtr} {net : NetService}
    (pc : s.pc = .dropCallBack p) (result : s.net.delSession p = some net) (n : Nat) :
    ({ s with net, pc := .idle } : IocpService).Counted n := by
  obtain ⟨m, session, rfl, found, rfl⟩ := referenced.dropping.removed referenced.regular pc result
  have once := referenced.used m
  rw [Counted, pc, found] at once
  simp only [uses, IocpPc.session, if_true, Option.isSome_some] at once
  have others : n ≠ m → (s.net.removed (.heap m) session).objects (.heap n) = s.net.objects (.heap n) :=
    fun differ => Function.update_of_ne (by simpa using differ) _ _
  refine referenced.removed others ?_ ?_
  · simp only [uses, IocpPc.session, reduceCtorEq, if_false]
    omega
  · simp [uses, IocpPc.session]

/-- When a callback about a session has returned, its receive may be posted. -/
theorem Referenced.posted_counted (referenced : s.Referenced) {p : SessionPtr} (pc : s.pc.session = some p)
    (posted : Bool) (n : Nat) : ({ s with
      receives := if posted then s.receives ++ [p] else s.receives
      pc := .idle } : IocpService).Counted n :=
  referenced.counted (fun found => found) (by rw [pc]; exact uses_posted posted)

theorem Referenced.step_counted (referenced : s.Referenced) (sparing : s.Sparing action) (taken : s.step action = some s')
    (n : Nat) : s'.Counted n := by
  cases step_took' referenced.regular taken with
  | newConnector free => exact referenced.counted (fun found => by simpa [NetService.emit] using found) (Nat.le_refl _)
  | @addTCPListener listener first rest t added =>
    subst added
    exact (s.addTCPListener_aside listener first rest).counted (referenced.used n)
  | addUDPListener => exact (postReadFrom_aside ..).counted (referenced.used n)
  | unnumbered found => exact referenced.counted (fun found => by simpa using found) (Nat.le_refl _)
  | unposted found front =>
    exact referenced.counted (fun found => by simpa [NetService.rotated] using found) (Nat.le_refl _)
  | attempted found front => exact referenced.counted (fun found => by simpa using found) (Nat.le_refl _)
  | kickSession issued result => exact referenced.kickSession_counted sparing result n
  | @unaccepted listener sock _ _ next idle armed => exact (rearm_aside _ listener next).counted (referenced.used n)
  | @unassociated listener sock _ _ next id rest idle armed front =>
    exact (rearm_aside _ listener next).counted (referenced.used n)
  | accepted idle armed front => exact referenced.opened idle rfl rfl (.inr rfl)
  | closed idle armed found heap =>
    exact referenced.counted (fun found => found) (by rw [idle]; exact uses_taken armed)
  | closedConnector idle armed found connect =>
    exact referenced.counted (fun found => found) (by rw [idle]; exact uses_erased)
  | received idle armed found bytes =>
    exact referenced.counted (fun found => found) (by rw [idle]; exact uses_taken armed)
  | @unserved listener _ posted idle armed => exact (postReadFrom_aside _ listener posted).counted (referenced.used n)
  | known idle armed bytes known =>
    exact referenced.counted (fun found => found) (by rw [idle]; exact Nat.le_refl _)
  | served idle armed bytes unknown front => exact referenced.opened idle rfl rfl (.inl rfl)
  | connected idle trying found =>
    exact referenced.counted (fun found => found) (by rw [idle]; exact Nat.le_refl _)
  | failed idle result => exact referenced.dequeue_counted idle result n
  | @acceptReturned posted next listener p _ pc found =>
    have posts := referenced.posted_counted (by rw [pc]; rfl) posted n
    exact (rearm_aside _ listener next).counted posts
  | connectReturned pc found =>
    exact referenced.counted (fun found => by simpa using found) (by rw [pc]; exact (uses_connector _).le)
  | connectRefused pc found connect =>
    exact referenced.counted (fun found => found) (by rw [pc]; exact Nat.le_refl _)
  | connectFailed pc found =>
    exact referenced.counted (fun found => by simpa using found) (by rw [pc]; exact Nat.le_refl _)
  | dropped pc result => exact referenced.delSession_counted pc result n
  | openReturned pc =>
    exact referenced.counted (fun found => found) (by rw [pc]; exact Nat.le_refl _)
  | @datagramReturned posted next listener pc =>
    have returned : ({ s with pc := .idle } : IocpService).Counted n :=
      referenced.counted (fun found => found) (by rw [pc]; exact Nat.le_refl _)
    cases posted <;> exact returned
  | @dataReturned posted next p session pc found => exact referenced.posted_counted (by rw [pc]; rfl) posted n
  | failReturned pc =>
    exact referenced.counted (fun found => found) (by rw [pc]; exact Nat.le_refl _)

/-- A connector whose receive could not be posted was there before. -/
theorem failing_before (regular : s.net.Regular) (taken : s.step action = some s') {c : Nat}
    (failing : s'.pc = .connectFailCallBack c) :
    s.pc = .connectFailCallBack c ∨ (s.net.objects (.connector c)).isSome := by
  cases step_took' regular taken with
  | connectRefused pc found connect =>
    cases failing
    rw [found]
    exact .inr rfl
  | @addTCPListener listener first rest t added =>
    subst added
    exact .inl ((s.addTCPListener_aside listener first rest).pc.symm.trans failing)
  | addUDPListener => exact .inl ((postReadFrom_aside ..).pc.symm.trans failing)
  | @unaccepted listener sock _ _ next idle armed =>
    exact absurd ((rearm_aside _ listener next).pc.symm.trans failing) (by simp [idle])
  | @unassociated listener sock _ _ next id rest idle armed front =>
    exact absurd ((rearm_aside _ listener next).pc.symm.trans failing) (by simp [idle])
  | @unserved listener _ posted idle armed =>
    exact absurd ((postReadFrom_aside _ listener posted).pc.symm.trans failing) (by simp [idle])
  | @acceptReturned posted next listener p _ pc found =>
    exact absurd ((rearm_aside _ listener next).pc.symm.trans failing) (by simp)
  | failed idle result => exact .inl ((dequeue_pc result).symm.trans failing)
  | newConnector free => exact .inl failing
  | unnumbered found => exact .inl failing
  | unposted found front => exact .inl failing
  | attempted found front => exact .inl failing
  | kickSession issued result => exact .inl failing
  | _ => cases failing

theorem Referenced.step (referenced : s.Referenced) (sparing : s.Sparing action) (taken : s.step action = some s') :
    s'.Referenced := by
  have placed := referenced.toPlaced
  refine ⟨placed.step sparing.1 taken, referenced.step_counted sparing taken, ?_⟩
  intro c failing
  have moves := step_moves placed.regular placed.dropping (placed.orderly sparing.1 taken) taken
  refine moves.invariant (fun _ _ made moved => NetService.Move.made moved made) ?_
  exact (failing_before placed.regular taken failing).elim (referenced.failing c) fun made => made

theorem initSession_referenced : initSession.Referenced where
  toPlaced := initSession_placed
  used n := by simp [Counted, uses, initSession, NetService.initSession, IocpPc.session]
  failing := by simp [initSession]

theorem referenced_of_reachable (reached : Reachable Sparing s) : s.Referenced := by
  refine Transition.Reachable.invariant ?_ ?_ reached
  · rintro _ rfl
    exact initSession_referenced
  · rintro s s' _ referenced ⟨action, sparing, taken⟩
    exact referenced.step sparing taken

/-! ### No use of a deleted session -/

/-- What may happen next: a call of the user, a completion that is outstanding,
    or the return of the callback that is running. -/
def Ready (s : IocpService) : IocpAction → Prop
  | .newConnector c _ => s.net.objects (.connector c) = none
  | .addTCPListener _ _ rest => rest.length = 10
  | .addUDPListener _ _ => True
  | .addTCPConnector c _ => s.net.objects (.connector c) ≠ none
  | .kickSession id => id ∈ s.net.issued
  | .accepted listener sock _ _ _ => s.pc = .idle ∧ (listener, sock) ∈ s.accepts
  | .received p _ => s.pc = .idle ∧ p ∈ s.receives
  | .receivedFrom listener _ _ => s.pc = .idle ∧ listener ∈ s.receivesFrom
  | .connected c => s.pc = .idle ∧ c ∈ s.net.attempts
  | .failed operation => s.pc = .idle ∧ s.dequeue operation ≠ none
  | .resume _ _ => s.pc ≠ .idle

theorem Referenced.found (referenced : s.Referenced) {p : SessionPtr} (used : p ∈ s.receives ∨ s.pc.session = some p) :
    ∃ session, s.net.objects p = some session := by
  cases p with
  | heap n =>
    have inUse := inUse_iff.mpr used
    have bound := referenced.used n
    rw [← Option.isSome_iff_exists]
    by_contra gone
    rw [Counted, if_neg gone] at bound
    exact absurd inUse (Nat.not_lt.mpr bound)
  | connector c =>
    rw [← Option.isSome_iff_exists]
    refine referenced.made c ?_
    rcases used with armed | inside
    · exact .inl armed
    · cases pc : s.pc with
      | acceptCallBack listener p =>
        rw [pc] at inside
        obtain ⟨n, heap⟩ := referenced.dropping.accepted _ _ pc
        cases heap
        cases inside
      | dataCallBack p =>
        rw [pc] at inside
        cases inside
        exact .inr (.inr pc)
      | dropCallBack p =>
        rw [pc] at inside
        obtain ⟨n, heap⟩ := referenced.dropping.dropped _ pc
        cases heap
        cases inside
      | _ =>
        rw [pc] at inside
        cases inside

section
variable {p : SessionPtr} {session : Session}

theorem postRead_defined (found : s.net.objects p = some session) (posted : Bool) :
    s.postRead p posted = some { s with receives := if posted then s.receives ++ [p] else s.receives } := by
  cases posted <;> simp [postRead, Iocp.postRead, found]

theorem onSessionDrop_defined (found : s.net.objects p = some session) (failed : IocpPc) :
    (s.onSessionDrop p failed).isSome := by
  by_cases connect : session.sockType = .connect <;> simp [onSessionDrop, NetService.onSessionDrop, found, connect]

theorem setAlive_defined {c : Nat} (found : s.net.objects (.connector c) = some session) : (s.setAlive c).isSome := by
  simp [setAlive, found]

theorem addTCPConnector_defined {c : Nat} (found : s.net.objects (.connector c) = some session) (posted : Bool) :
    (s.addTCPConnector c posted).isSome := by
  simp only [addTCPConnector, found, Option.bind_eq_bind, Option.bind_some]
  split
  · rfl
  · split <;> rfl

theorem doAccpet_defined (s : IocpService) (listener sock : Socket) (address : SockAddr) (associated : Bool)
    (next : Option Accepting) : (s.doAccpet listener sock address associated next).isSome := by
  simp only [doAccpet]
  split
  · rfl
  · split
    · simp [NetService.addSession, NetService.setObject]
    · rfl

theorem doReadFrom_defined (s : IocpService) (listener : Socket) (datagram : Datagram) (posted : Bool) :
    (s.doReadFrom listener datagram posted).isSome := by
  simp only [doReadFrom]
  split
  · rfl
  · split
    · split
      · rfl
      · simp [NetService.addSession, NetService.setObject]
    · rfl

theorem doRead_defined (found : s.net.objects p = some session) (buf : List Byte) : (s.doRead p buf).isSome := by
  simp only [doRead, found, Option.bind_eq_bind, Option.bind_some]
  split
  · exact onSessionDrop_defined found .failCallBack
  · rfl

theorem connected_defined {c : Nat} (found : s.net.objects (.connector c) = some session) (posted : Bool) :
    (s.connected c posted).isSome := by
  simp only [connected, found, postRead_defined found, Option.bind_eq_bind, Option.bind_some]
  cases posted with
  | true => exact setAlive_defined found
  | false =>
    let closed : IocpService := { s with net := s.net.destroySocket session.socket }
    have found : closed.net.objects (.connector c) = some session := found
    exact onSessionDrop_defined found (.connectFailCallBack c)

theorem kickSession_defined (regular : s.net.Regular) (id : SessionID) : (s.net.kickSession id).isSome := by
  cases stored : s.net.sessions id with
  | none =>
    rw [NetService.kickSession_none stored]
    rfl
  | some p =>
    obtain ⟨session, found, rfl⟩ := regular.stored stored
    cases p with
    | heap n =>
      rw [NetService.kickSession_heap found stored (regular.heap found).2]
      rfl
    | connector c =>
      rw [NetService.kickSession_connector found stored (regular.connector found)]
      rfl

end

theorem Referenced.resume_defined (referenced : s.Referenced) (busy : s.pc ≠ .idle) (posted : Bool)
    (next : Option Accepting) : (s.resume posted next).isSome := by
  cases pc : s.pc with
  | idle => exact absurd pc busy
  | acceptCallBack listener p =>
    obtain ⟨session, found⟩ := referenced.found (.inr (by rw [pc]; rfl))
    simp [resume, pc, postRead_defined found]
  | connectCallBack c =>
    obtain ⟨session, found⟩ := Option.isSome_iff_exists.mp (referenced.made c (.inr (.inl pc)))
    simp only [resume, pc]
    exact connected_defined found posted
  | connectFailCallBack c =>
    obtain ⟨session, found⟩ := Option.isSome_iff_exists.mp (referenced.failing c pc)
    simp only [resume, pc]
    exact setAlive_defined found
  | dataCallBack p =>
    obtain ⟨session, found⟩ := referenced.found (.inr (by rw [pc]; rfl))
    simp [resume, pc, postRead_defined found]
  | dropCallBack p =>
    obtain ⟨session, found⟩ := referenced.found (.inr (by rw [pc]; rfl))
    obtain ⟨n, rfl⟩ := referenced.dropping.dropped p pc
    obtain ⟨stored, kind⟩ := referenced.regular.heap found
    simp [resume, pc, NetService.delSession_eq found stored kind]
  | failCallBack => simp [resume, pc]
  | openCallBack listener data id size => simp [resume, pc]
  | datagramCallBack listener => simp [resume, pc]

/-- Whatever may happen next uses only sessions that exist. -/
theorem Referenced.defined (referenced : s.Referenced) (ready : s.Ready action) : (s.step action).isSome := by
  cases action with
  | newConnector c sock => simp [IocpService.step, show s.net.objects (.connector c) = none from ready]
  | addTCPListener listener first rest => simp [IocpService.step, show rest.length = 10 from ready]
  | addUDPListener listener posted => rfl
  | addTCPConnector c posted =>
    obtain ⟨session, found⟩ := Option.ne_none_iff_exists'.mp ready
    simp only [IocpService.step, Option.isSome_map]
    exact addTCPConnector_defined found posted
  | kickSession id =>
    have issued : s.net.issued.contains id = true := List.contains_iff_mem.mpr ready
    simp only [IocpService.step, issued, if_true, Option.isSome_map]
    exact kickSession_defined referenced.regular id
  | accepted listener sock address associated next =>
    obtain ⟨idle, armed⟩ := ready
    simp only [IocpService.step, idle, dequeue, armed, if_true, Option.bind_some]
    exact doAccpet_defined _ listener sock address associated next
  | received p buf =>
    obtain ⟨idle, armed⟩ := ready
    obtain ⟨session, found⟩ := referenced.found (.inl armed)
    simp only [IocpService.step, idle, dequeue, armed, if_true, Option.bind_some]
    exact doRead_defined (s := { s with receives := s.receives.erase p }) found buf
  | receivedFrom listener datagram posted =>
    obtain ⟨idle, armed⟩ := ready
    simp only [IocpService.step, idle, dequeue, armed, if_true, Option.bind_some]
    exact doReadFrom_defined _ listener datagram posted
  | connected c =>
    obtain ⟨idle, trying⟩ := ready
    obtain ⟨session, found⟩ := referenced.regular.trying trying
    simp [IocpService.step, idle, dequeue, trying, doConnect, found, NetService.addSession, NetService.access]
  | failed operation =>
    obtain ⟨idle, outstanding⟩ := ready
    simp only [IocpService.step, idle, if_true]
    exact Option.isSome_iff_ne_none.mpr outstanding
  | resume posted next => exact referenced.resume_defined ready posted next

theorem ready_of_step (taken : s.step action = some s') : s.Ready action := by
  cases action with
  | newConnector c sock =>
    simp only [step] at taken
    split at taken
    · exact Option.isNone_iff_eq_none.mp ‹_›
    · cases taken
  | addTCPListener listener first rest =>
    simp only [step] at taken
    split at taken
    · assumption
    · cases taken
  | addUDPListener listener posted => trivial
  | addTCPConnector c posted =>
    intro absent
    simp [step, addTCPConnector, absent] at taken
  | kickSession id =>
    simp only [step] at taken
    split at taken
    · exact List.contains_iff_mem.mp ‹_›
    · cases taken
  | failed operation =>
    simp only [step] at taken
    split at taken
    · exact ⟨‹_›, by simp [taken]⟩
    · cases taken
  | resume posted next =>
    intro idle
    simp [step, resume, idle] at taken
  | _ =>
    simp only [step, dequeue] at taken
    split at taken
    · refine ⟨‹_›, ?_⟩
      by_contra absent
      simp [absent] at taken
    · cases taken

/-- In every run that kicks no session in use, a step is undefined only where it
    cannot happen: none uses a session that was deleted. -/
theorem no_dead_session_used (s : IocpService) (reached : Reachable Sparing s) (action : IocpAction) :
    s.step action = none ↔ ¬ s.Ready action := by
  have referenced := referenced_of_reachable reached
  constructor
  · intro undefined ready
    have defined := referenced.defined ready
    rw [undefined] at defined
    cases defined
  · intro unready
    by_contra defined
    obtain ⟨s', taken⟩ := Option.ne_none_iff_exists'.mp defined
    exact unready (ready_of_step taken)

theorem one_connection : ∃ s, Reachable Sparing s ∧ s.receives = [.heap 0] ∧ s.net.sessions 1 = some (.heap 0) ∧
    s.net.issued = [1] := by
  have sparing : ∀ s : IocpService, ∀ action, s.Adding action → (∀ id, action ≠ .kickSession id) → s.Sparing action :=
    fun s action adding unkicked => ⟨adding, fun id n kick => absurd kick (unkicked id)⟩
  have listening : Reachable Sparing _ := Reachable.init.act
    (.addTCPListener 3 (some ⟨7, true⟩) (List.replicate 10 none)) (sparing _ _ trivial (by simp)) rfl
  have accepted := listening.act (.accepted 3 7 ⟨0, 0⟩ true none) (sparing _ _ trivial (by simp)) rfl
  have returned := accepted.act (.resume true none) (sparing _ _ trivial (by simp)) rfl
  exact ⟨_, returned, rfl, rfl, rfl⟩

theorem one_receive_defined : ∃ s, Reachable Sparing s ∧ s.receives = [.heap 0] ∧
    (s.step (.received (.heap 0) [5]) = none ↔ ¬ s.Ready (.received (.heap 0) [5])) := by
  obtain ⟨s, reached, armed, _⟩ := one_connection
  exact ⟨s, reached, armed, no_dead_session_used s reached _⟩

/-! ### A kick of a session in use -/

end IocpService

/-- How many callbacks return until the thread is back in its loop, when every
    receive can be posted. -/
def IocpPc.depth : IocpPc → Nat
  | .idle => 0
  | .openCallBack _ _ _ _ => 2
  | _ => 1

namespace IocpService
variable {s s' : IocpService} {action : IocpAction}

/-- A callback that returns brings no session back and drops no receive. -/
theorem returned (placed : s.Placed) {n : Nat} (gone : s.net.objects (.heap n) = none) (armed : .heap n ∈ s.receives)
    (taken : s.step (.resume true none) = some s') :
    s'.net.objects (.heap n) = none ∧ .heap n ∈ s'.receives ∧ s'.pc.depth < s.pc.depth := by
  cases step_took' placed.regular taken with
  | @acceptReturned _ _ listener p _ pc found =>
    let read : IocpService := { s with receives := s.receives ++ [p], pc := .idle }
    have aside := read.rearm_aside listener none
    obtain ⟨more, net, _⟩ := aside.net
    refine ⟨?_, ?_, ?_⟩
    · exact (congrArg (fun net : NetService => net.objects (.heap n)) net).trans gone
    · exact aside.receives ▸ List.mem_append_left _ armed
    · rw [pc]
      exact aside.pc ▸ Nat.zero_lt_one
  | connectReturned pc found =>
    refine ⟨by simpa using gone, List.mem_append_left _ armed, ?_⟩
    rw [pc]
    exact Nat.zero_lt_one
  | connectFailed pc found =>
    refine ⟨by simpa using gone, armed, ?_⟩
    rw [pc]
    exact Nat.zero_lt_one
  | dropped pc result =>
    obtain ⟨m, session, rfl, found, rfl⟩ := placed.dropping.removed placed.regular pc result
    refine ⟨?_, armed, ?_⟩
    · by_cases same : n = m
      · rw [same]
        exact Function.update_self ..
      · exact (Function.update_of_ne (by simpa using same) _ _).trans gone
    · rw [pc]
      exact Nat.zero_lt_one
  | failReturned pc =>
    refine ⟨gone, armed, ?_⟩
    rw [pc]
    exact Nat.zero_lt_one
  | openReturned pc =>
    refine ⟨gone, armed, ?_⟩
    rw [pc]
    exact Nat.lt_succ_self 1
  | datagramReturned pc =>
    refine ⟨gone, armed, ?_⟩
    rw [pc]
    exact Nat.zero_lt_one
  | dataReturned pc found =>
    refine ⟨gone, List.mem_append_left _ armed, ?_⟩
    rw [pc]
    exact Nat.zero_lt_one

end IocpService

end LiteServer.Net
