import LiteServer.Net.AcceptPool
import LiteServer.Net.Accepts
import LiteServer.Net.IDOrder

/-!
The pools of the listeners under the IOCP backend: what the loop finds in the
buffer of an accept that completed, and how many contexts are allocated.
-/
namespace LiteServer.Net

/-! ### What the steps of the service do to its accepts -/

namespace IocpService
variable {s s' : IocpService} {action : IocpAction} {listener sock : Socket}

theorem postAccept_accepts (s : IocpService) (listener : Socket) (created : Option Accepting) :
    (s.postAccept listener created).2.accepts = s.accepts ++ granted listener created ∧
      ((s.postAccept listener created).1 = true ↔ granted listener created ≠ []) := by
  cases created with
  | none => simp [postAccept, granted]
  | some a => by_cases posted : a.posted = true <;> simp [postAccept, granted, posted]

theorem rearm_accepts (s : IocpService) (listener : Socket) (next : Option Accepting) :
    (s.rearm listener next).accepts = s.accepts ++ granted listener next := by
  rw [← (s.postAccept_accepts listener next).1]
  unfold rearm
  split
  split <;> simp_all

theorem postAccepts_accepts (listener : Socket) (rest : List (Option Accepting)) (s : IocpService) :
    (rest.foldl (fun s created => (s.postAccept listener created).2) s).accepts =
      s.accepts ++ rest.flatMap (granted listener) := by
  induction rest generalizing s with
  | nil => simp
  | cons created rest ih =>
    rw [List.foldl_cons, ih, (s.postAccept_accepts listener created).1, List.flatMap_cons, List.append_assoc]

theorem addTCPListener_accepts (s : IocpService) (listener : Socket) (first : Option Accepting)
    (rest : List (Option Accepting)) : (s.addTCPListener listener first rest).2.accepts =
      s.accepts ++ (AcceptPool.attempts listener first rest).flatMap (granted listener) := by
  obtain ⟨accepts, took⟩ := s.postAccept_accepts listener first
  by_cases empty : granted listener first = []
  · have refused : (s.postAccept listener first).1 = false := Bool.eq_false_iff.mpr fun yes => took.mp yes empty
    simp [addTCPListener, refused, AcceptPool.attempts, empty, accepts]
  · simp only [addTCPListener, took.mpr empty, if_true, postAccepts_accepts, accepts, AcceptPool.attempts, empty, if_false,
      List.flatMap_cons, List.append_assoc]

/-- An accept that completed is no longer outstanding, and another one is after
    its callback, or at once where there is none. -/
theorem step_accepted {address : SockAddr} {associated : Bool} {next : Option Accepting} (numbered : s.net.Numbered)
    (taken : s.step (.accepted listener sock address associated next) = some s') :
    s.pc = .idle ∧ (listener, sock) ∈ s.accepts ∧ s'.started = s.started ∧
      ((∃ p, s'.pc = .acceptCallBack listener p) ∧ s'.accepts = s.accepts.erase (listener, sock) ∨
        s'.pc = .idle ∧ s'.accepts = s.accepts.erase (listener, sock) ++ granted listener next) := by
  cases step_took numbered.queue_positive (fun c session found => (numbered.objects _ session found).2 c rfl) taken with
  | unaccepted idle armed =>
    exact ⟨idle, armed, rearm_started .., .inr ⟨(rearm_aside ..).pc.trans idle, rearm_accepts ..⟩⟩
  | unassociated idle armed front =>
    exact ⟨idle, armed, rearm_started .., .inr ⟨(rearm_aside ..).pc.trans idle, rearm_accepts ..⟩⟩
  | accepted idle armed front => exact ⟨idle, armed, rfl, .inl ⟨⟨_, rfl⟩, rfl⟩⟩

/-- What `AddTCPListener` posts is counted as started. -/
theorem step_listening {first : Option Accepting} {rest : List (Option Accepting)}
    (taken : s.step (.addTCPListener listener first rest) = some s') :
    let operations := (AcceptPool.attempts listener first rest).flatMap (granted listener)
    s'.accepts = s.accepts ++ operations ∧ (∀ m, s'.started m = s.started m + (operations.map Prod.fst).count m) ∧
      s'.pc = s.pc := by
  intro operations
  have accepts := s.addTCPListener_accepts listener first rest
  simp only [step] at taken
  split at taken <;> cases taken
  refine ⟨accepts, ?_, (s.addTCPListener_aside listener first rest).pc⟩
  intro m
  obtain ⟨_, others, _, started⟩ := s.addTCPListener_outstanding listener m first rest
  have counted : (s.addTCPListener listener first rest).2.outstanding m =
      s.outstanding m + (operations.map Prod.fst).count m := by
    rw [outstanding, outstanding, accepts, List.map_append, List.count_append]
  show Function.update s.started listener _ m = _
  by_cases here : m = listener
  · subst here
    rw [Function.update_self, counted, Nat.add_sub_cancel_left]
  · have unchanged := others (Ne.symm here)
    rw [Function.update_of_ne here]
    omega

theorem step_failed_accept (taken : s.step (.failed (.accept listener sock)) = some s') :
    (listener, sock) ∈ s.accepts ∧ s' = { s with accepts := s.accepts.erase (listener, sock) } := by
  simp only [step, dequeue] at taken
  split at taken
  · split at taken <;> cases taken
    exact ⟨‹_›, rfl⟩
  · cases taken

/-- The steps that dequeue an accept or may post one. -/
def TouchesAccepts (s : IocpService) : IocpAction → Prop
  | .addTCPListener _ _ _ => True
  | .accepted _ _ _ _ _ => True
  | .failed (.accept _ _) => True
  | .resume _ _ => s.pc.rearms ≠ none
  | _ => False

theorem step_untouched (numbered : s.net.Numbered) (untouched : ¬ s.TouchesAccepts action)
    (taken : s.step action = some s') :
    s'.accepts = s.accepts ∧ s'.started = s.started ∧ s'.pc.rearms = s.pc.rearms := by
  cases step_took numbered.queue_positive (fun c session found => (numbered.objects _ session found).2 c rfl) taken with
  | addTCPListener => exact absurd trivial untouched
  | unaccepted => exact absurd trivial untouched
  | unassociated => exact absurd trivial untouched
  | accepted => exact absurd trivial untouched
  | @addUDPListener listener posted => cases posted <;> exact ⟨rfl, rfl, rfl⟩
  | @unserved listener datagram posted idle => cases posted <;> exact ⟨rfl, rfl, rfl⟩
  | @failed operation _ idle result =>
    cases operation with
    | accept => exact absurd trivial untouched
    | _ =>
      simp only [dequeue] at result
      split at result <;> cases result
      exact ⟨rfl, rfl, rfl⟩
  | acceptReturned pc => exact absurd (show s.pc.rearms ≠ none by rw [pc]; exact Option.some_ne_none _) untouched
  | @datagramReturned posted next listener pc => cases posted <;> exact ⟨rfl, rfl, by rw [pc]; rfl⟩
  | newConnector => exact ⟨rfl, rfl, rfl⟩
  | unnumbered => exact ⟨rfl, rfl, rfl⟩
  | unposted => exact ⟨rfl, rfl, rfl⟩
  | attempted => exact ⟨rfl, rfl, rfl⟩
  | kickSession => exact ⟨rfl, rfl, rfl⟩
  | closed idle => exact ⟨rfl, rfl, by rw [idle]; rfl⟩
  | closedConnector idle => exact ⟨rfl, rfl, by rw [idle]; rfl⟩
  | received idle => exact ⟨rfl, rfl, by rw [idle]; rfl⟩
  | known idle => exact ⟨rfl, rfl, by rw [idle]; rfl⟩
  | served idle => exact ⟨rfl, rfl, by rw [idle]; rfl⟩
  | connected idle => exact ⟨rfl, rfl, by rw [idle]; rfl⟩
  | connectReturned pc => exact ⟨rfl, rfl, by rw [pc]; rfl⟩
  | connectRefused pc => exact ⟨rfl, rfl, by rw [pc]; rfl⟩
  | connectFailed pc => exact ⟨rfl, rfl, by rw [pc]; rfl⟩
  | dataReturned pc => exact ⟨rfl, rfl, by rw [pc]; rfl⟩
  | dropped pc => exact ⟨rfl, rfl, by rw [pc]; rfl⟩
  | failReturned pc => exact ⟨rfl, rfl, by rw [pc]; rfl⟩
  | openReturned pc => exact ⟨rfl, rfl, by rw [pc]; rfl⟩

theorem step_rearmed {posted : Bool} {next : Option Accepting} (numbered : s.net.Numbered)
    (rearms : s.pc.rearms = some listener) (taken : s.step (.resume posted next) = some s') :
    s'.pc = .idle ∧ s'.started = s.started ∧ s'.accepts = s.accepts ++ granted listener next := by
  cases step_took numbered.queue_positive (fun c session found => (numbered.objects _ session found).2 c rfl) taken with
  | @acceptReturned _ _ l p _ pc found =>
    rw [pc] at rearms
    cases rearms
    exact ⟨(rearm_aside ..).pc, rearm_started .., rearm_accepts ..⟩
  | connectReturned pc => simp [pc, IocpPc.rearms] at rearms
  | connectRefused pc => simp [pc, IocpPc.rearms] at rearms
  | connectFailed pc => simp [pc, IocpPc.rearms] at rearms
  | dataReturned pc => simp [pc, IocpPc.rearms] at rearms
  | dropped pc => simp [pc, IocpPc.rearms] at rearms
  | failReturned pc => simp [pc, IocpPc.rearms] at rearms
  | openReturned pc => simp [pc, IocpPc.rearms] at rearms
  | datagramReturned pc => simp [pc, IocpPc.rearms] at rearms

end IocpService

/-! ### The service and the pools -/

namespace PooledService
variable {s s' : PooledService} {action : PooledAction} {listener : Socket}

/-- What the service does if every accept is dequeued with the listener and the
    socket that it was posted for and the address that the system gave for it. -/
def serves (s : PooledService) : PooledAction → Option IocpService
  | .arrived q _ => if q ∈ s.pool.posted ∧ q.remote = none then some s.service else none
  | .completed q associated next => do
    let address ← q.remote
    if q ∈ s.pool.posted then s.service.step (.accepted q.listener q.sock address associated next) else none
  | .failed q => if q ∈ s.pool.posted then s.service.step (.failed (.accept q.listener q.sock)) else none
  | .other action => if dequeuesAccept action then none else s.service.step action

/-- The accepts of the service are those whose contexts are out; the pools hold
    no more than was needed at once and what was lost. -/
structure Paired (s : PooledService) : Prop where
  numbered : s.service.net.Numbered
  sound : s.pool.Sound
  outstanding : s.service.accepts.Perm (s.pool.posted.map Posted.operation)
  rearms : s.service.pc.rearms = s.pool.completing.map Prod.snd
  load : ∀ m, (s.pool.busy.map Prod.snd).count m ≤ s.service.started m
  grown : ∀ m, s.pool.owners.count m ≤ s.service.started m + 1 + (s.pool.lost.map Prod.snd).count m

theorem initSession_paired : initSession.Paired where
  numbered := NetService.initSession_numbered
  sound := AcceptPool.start_sound
  outstanding := .refl _
  rearms := rfl
  load _ := Nat.zero_le _
  grown _ := Nat.zero_le _

theorem granted_le (listener m : Socket) (created : Option Accepting) :
    ((granted listener created).map Prod.fst).count m ≤ [listener].count m := by
  cases created with
  | none => exact Nat.zero_le _
  | some a => by_cases posted : a.posted = true <;> simp [granted, posted]

theorem erase_outstanding {accepts : List (Socket × Socket)} {posted : List Posted} {q : Posted}
    (outstanding : accepts.Perm (posted.map Posted.operation)) (member : q ∈ posted) :
    (accepts.erase (q.listener, q.sock)).Perm ((posted.erase q).map Posted.operation) := by
  have moved := outstanding.trans ((List.perm_cons_erase member).map Posted.operation)
  have erased := moved.erase (q.listener, q.sock)
  rwa [List.map_cons, Posted.operation, List.erase_cons_head] at erased

theorem erase_count {posted : List Posted} {q : Posted} (member : q ∈ posted) (m : Socket) :
    ((posted.map Posted.operation).map Prod.fst).count m =
      (((posted.erase q).map Posted.operation).map Prod.fst).count m + [q.listener].count m := by
  have moved := ((List.perm_cons_erase member).map Posted.operation).map Prod.fst
  rw [moved.count_eq, List.map_cons, List.map_cons, List.count_cons, List.count_singleton]
  rfl

/-- An accept is posted again and the context goes back to its listener. -/
theorem Paired.finish {service : IocpService} {p : AcceptPool} {context : Nat} {next : Option Accepting}
    (numbered : service.net.Numbered) (sound : p.Sound) (completing : p.completing = some (context, listener))
    (outstanding : service.accepts.Perm (p.posted.map Posted.operation ++ granted listener next))
    (rearms : service.pc.rearms = none) (load : ∀ m, (p.busy.map Prod.snd).count m ≤ service.started m)
    (grown : ∀ m, p.owners.count m ≤ service.started m + 1 + (p.lost.map Prod.snd).count m) :
    ∃ pool, p.finish context next = some pool ∧ Paired ⟨service, pool⟩ := by
  obtain ⟨t, result, posts⟩ := sound.finish completing next
  have busy : ∀ m, (p.busy.map Prod.snd).count m = ((p.posted.map Posted.operation).map Prod.fst).count m +
      [listener].count m := by
    intro m
    rw [AcceptPool.count_busy, completing]
    rfl
  obtain ⟨more, lost⟩ := posts.lost
  refine ⟨_, result, numbered, posts.sound.delIOContext (posts.completing.trans completing), ?_, rearms, ?_, ?_⟩
  · exact posts.posted ▸ outstanding
  · intro m
    have before := load m
    have one := granted_le listener m next
    rw [AcceptPool.count_busy]
    simp only [AcceptPool.delIOContext, posts.posted, List.map_append, List.count_append, Option.toList_none, List.map_nil,
      List.count_nil]
    rw [busy] at before
    omega
  · intro m
    have before := load m
    have grew := grown m
    have one := granted_le listener m next
    have made := posts.made m
    have single : [listener].count m ≤ 1 := List.count_le_length
    rw [busy] at before
    rw [AcceptPool.count_out, AcceptPool.count_busy, posts.posted, posts.completing, completing, lost, List.map_append,
      List.map_append, List.count_append, List.count_append] at made
    simp only [Option.toList_some, List.map_singleton] at made
    simp only [AcceptPool.delIOContext, lost, List.map_append, List.count_append]
    show t.owners.count m ≤ _
    omega

theorem Paired.arrived (paired : s.Paired) {q : Posted} (member : q ∈ s.pool.posted) (waiting : q.remote = none)
    (remote : SockAddr) : ∃ s', s.step (.arrived q remote) = some s' ∧ s'.service = s.service ∧ s'.Paired := by
  obtain ⟨pool, result, sound, owners, operations, keys, completing, lost⟩ := paired.sound.write member remote
  have busy : pool.busy = s.pool.busy := by rw [AcceptPool.busy, AcceptPool.busy, keys, completing]
  refine ⟨⟨s.service, pool⟩, by simp [step, member, waiting, result], rfl, paired.numbered, sound, ?_, ?_, ?_, ?_⟩
  · rw [operations]
    exact paired.outstanding
  · rw [completing]
    exact paired.rearms
  · rw [busy]
    exact paired.load
  · rw [owners, lost]
    exact paired.grown

theorem Paired.completed (paired : s.Paired) {q : Posted} (member : q ∈ s.pool.posted) {address : SockAddr}
    (there : q.remote = some address) {associated : Bool} {next : Option Accepting} {service : IocpService}
    (taken : s.service.step (.accepted q.listener q.sock address associated next) = some service) :
    ∃ s', s.step (.completed q associated next) = some s' ∧ s'.service = service ∧ s'.Paired := by
  obtain ⟨idle, armed, started, outcome⟩ := IocpService.step_accepted paired.numbered taken
  have numbered := (IocpService.step_numbers paired.numbered taken).numbered
  have resting : s.pool.completing = none := by
    have rearms := paired.rearms
    rw [idle] at rearms
    exact Option.map_eq_none_iff.mp rearms.symm
  obtain ⟨old, stored⟩ := paired.sound.given q member
  have found := paired.sound.buffOf_eq stored
  rw [there, Option.getD_some] at found
  let pool : AcceptPool := { s.pool with
    posted := s.pool.posted.erase q
    completing := some (q.context, q.listener) }
  have sound : pool.Sound := paired.sound.dequeued member resting
  have erased := erase_outstanding paired.outstanding member
  have load : ∀ m, (pool.busy.map Prod.snd).count m ≤ service.started m := by
    intro m
    have before := paired.load m
    rw [AcceptPool.count_busy, erase_count member, resting] at before
    rw [AcceptPool.count_busy, started]
    exact before
  have grown : ∀ m, pool.owners.count m ≤ service.started m + 1 + (pool.lost.map Prod.snd).count m := by
    rw [started]
    exact paired.grown
  rcases outcome with ⟨⟨p, inside⟩, accepts⟩ | ⟨outside, accepts⟩
  · refine ⟨⟨service, pool⟩, ?_, rfl, numbered, sound, accepts ▸ erased, by rw [inside]; rfl, load, grown⟩
    simp [step, member, there, found, taken, inside, pool]
  · obtain ⟨pool', result, paired'⟩ := Paired.finish numbered sound rfl (accepts ▸ erased.append_right _)
      (by rw [outside]; rfl) load grown
    have finished : AcceptPool.finish
        { s.pool with posted := s.pool.posted.erase q, completing := some (q.context, q.listener) } q.context next =
          some pool' := result
    refine ⟨⟨service, pool'⟩, ?_, rfl, paired'⟩
    simp [step, member, there, found, taken, outside, finished]

theorem Paired.failed (paired : s.Paired) {q : Posted} (member : q ∈ s.pool.posted) {service : IocpService}
    (taken : s.service.step (.failed (.accept q.listener q.sock)) = some service) :
    ∃ s', s.step (.failed q) = some s' ∧ s'.service = service ∧ s'.Paired := by
  obtain ⟨armed, rfl⟩ := IocpService.step_failed_accept taken
  let pool : AcceptPool := { s.pool with
    posted := s.pool.posted.erase q
    lost := s.pool.lost ++ [(q.context, q.listener)] }
  refine ⟨⟨_, pool⟩, by simp [step, member, taken, pool], rfl, paired.numbered, paired.sound.failed member,
    erase_outstanding paired.outstanding member, paired.rearms, ?_, ?_⟩
  · intro m
    have before := paired.load m
    rw [AcceptPool.count_busy, erase_count member] at before
    show (pool.busy.map Prod.snd).count m ≤ s.service.started m
    rw [AcceptPool.count_busy]
    show (((s.pool.posted.erase q).map Posted.operation).map Prod.fst).count m +
      (s.pool.completing.toList.map Prod.snd).count m ≤ _
    omega
  · intro m
    have before := paired.grown m
    show s.pool.owners.count m ≤ s.service.started m + 1 + ((s.pool.lost ++ [_]).map Prod.snd).count m
    rw [List.map_append, List.count_append]
    omega

theorem Paired.listening (paired : s.Paired) {first : Option Accepting} {rest : List (Option Accepting)}
    {service : IocpService} (taken : s.service.step (.addTCPListener listener first rest) = some service) :
    ∃ s', s.step (.other (.addTCPListener listener first rest)) = some s' ∧ s'.service = service ∧ s'.Paired := by
  have numbered := (IocpService.step_numbers paired.numbered taken).numbered
  obtain ⟨pool, result, posts⟩ := paired.sound.addTCPListener listener first rest
  obtain ⟨same, started, pc⟩ := IocpService.step_listening taken
  generalize (AcceptPool.attempts listener first rest).flatMap (granted listener) = operations at posts same started
  have busy : ∀ m, (pool.busy.map Prod.snd).count m = (s.pool.busy.map Prod.snd).count m + (operations.map Prod.fst).count m := by
    intro m
    rw [AcceptPool.count_busy, AcceptPool.count_busy, posts.posted, posts.completing, List.map_append, List.count_append]
    omega
  obtain ⟨more, lost⟩ := posts.lost
  refine ⟨⟨service, pool⟩, by simp [step, dequeuesAccept, taken, follow, result], rfl, numbered, posts.sound, ?_, ?_, ?_, ?_⟩
  · rw [same, posts.posted]
    exact paired.outstanding.append_right _
  · rw [pc, posts.completing]
    exact paired.rearms
  · intro m
    rw [busy, started]
    exact Nat.add_le_add_right (paired.load m) _
  · intro m
    have load := paired.load m
    have grew := paired.grown m
    have made := posts.made m
    rw [AcceptPool.count_out, busy] at made
    have kept : (pool.lost.map Prod.snd).count m = (s.pool.lost.map Prod.snd).count m + (more.map Prod.snd).count m := by
      rw [lost, List.map_append, List.count_append]
    show pool.owners.count m ≤ service.started m + 1 + (pool.lost.map Prod.snd).count m
    rw [started]
    omega

/-- A callback returns, or the step has nothing to do with accepts. -/
theorem Paired.other (paired : s.Paired) {action : IocpAction} (other : dequeuesAccept action = false)
    {service : IocpService} (taken : s.service.step action = some service) :
    ∃ s', s.step (.other action) = some s' ∧ s'.service = service ∧ s'.Paired := by
  have numbered := (IocpService.step_numbers paired.numbered taken).numbered
  by_cases touches : s.service.TouchesAccepts action
  · cases action with
    | addTCPListener listener first rest => exact paired.listening taken
    | accepted => cases other
    | failed operation =>
      cases operation with
      | accept => cases other
      | _ => cases touches
    | resume posted next =>
      obtain ⟨listener, rearms⟩ := Option.ne_none_iff_exists'.mp touches
      obtain ⟨outside, started, accepts⟩ := IocpService.step_rearmed paired.numbered rearms taken
      rw [paired.rearms, Option.map_eq_some_iff] at rearms
      obtain ⟨⟨context, listener⟩, completing, rfl⟩ := rearms
      have finished : ∃ pool, s.pool.finish context next = some pool ∧ Paired ⟨service, pool⟩ :=
        Paired.finish numbered paired.sound completing (by rw [accepts]; exact paired.outstanding.append_right _)
          (by rw [outside]; rfl) (by rw [started]; exact paired.load) (by rw [started]; exact paired.grown)
      obtain ⟨pool, result, paired'⟩ := finished
      exact ⟨⟨service, pool⟩, by simp [step, dequeuesAccept, taken, follow, completing, result], rfl, paired'⟩
    | _ => cases touches
  · obtain ⟨accepts, started, rearms⟩ := IocpService.step_untouched paired.numbered touches taken
    have follows : follow s.pool action = some s.pool := by
      cases action with
      | addTCPListener => exact absurd trivial touches
      | resume posted next =>
        have none : s.pool.completing = none := by
          have rearms := paired.rearms
          rw [Classical.not_not.mp touches] at rearms
          exact Option.map_eq_none_iff.mp rearms.symm
        simp [follow, none]
      | _ => rfl
    refine ⟨⟨service, s.pool⟩, by simp [step, other, taken, follows], rfl, numbered, paired.sound, ?_, ?_, ?_, ?_⟩
    · rw [accepts]
      exact paired.outstanding
    · rw [rearms]
      exact paired.rearms
    · rw [started]
      exact paired.load
    · rw [started]
      exact paired.grown

theorem Paired.served (paired : s.Paired) {service : IocpService} (served : s.serves action = some service) :
    ∃ s', s.step action = some s' ∧ s'.service = service ∧ s'.Paired := by
  cases action with
  | arrived q remote =>
    simp only [serves] at served
    split at served
    · rename_i ready
      cases served
      exact paired.arrived ready.1 ready.2 remote
    · cases served
  | completed q associated next =>
    obtain ⟨address, there, rest⟩ := Option.bind_eq_some_iff.mp served
    split at rest
    · exact paired.completed ‹_› there rest
    · cases rest
  | failed q =>
    simp only [serves] at served
    split at served
    · exact paired.failed ‹_› served
    · cases served
  | other action =>
    simp only [serves] at served
    split at served
    · cases served
    · exact paired.other (Bool.eq_false_iff.mpr ‹_›) served

theorem Paired.unserved (paired : s.Paired) (unserved : s.serves action = none) : s.step action = none := by
  cases action with
  | arrived q remote =>
    simp only [serves] at unserved
    split at unserved
    · cases unserved
    · rename_i unready
      have refused : q ∉ s.pool.posted ∨ q.remote.isSome := by
        by_contra both
        rw [not_or, Classical.not_not, Bool.not_eq_true, Option.isSome_eq_false_iff, Option.isNone_iff_eq_none] at both
        exact unready both
      simp [step, refused]
  | completed q associated next =>
    cases there : q.remote with
    | none => simp [step, there]
    | some address =>
      by_cases member : q ∈ s.pool.posted
      · obtain ⟨old, stored⟩ := paired.sound.given q member
        have found := paired.sound.buffOf_eq stored
        rw [there, Option.getD_some] at found
        simp only [serves, there, Option.bind_eq_bind, Option.bind_some, if_pos member] at unserved
        simp [step, member, there, found, unserved]
      · simp [step, member]
  | failed q =>
    simp only [serves] at unserved
    split at unserved
    · simp [step, unserved]
    · simp [step, ‹q ∉ s.pool.posted›]
  | other action =>
    simp only [serves] at unserved
    split at unserved
    · simp [step, ‹dequeuesAccept action = true›]
    · simp [step, unserved]

/-- A step of the pools is one of the service. -/
theorem Paired.refines (paired : s.Paired) (action : PooledAction) :
    (s.step action).map PooledService.service = s.serves action := by
  cases result : s.serves action with
  | none => rw [paired.unserved result, Option.map_none]
  | some service =>
    obtain ⟨s', taken, rfl, _⟩ := paired.served result
    rw [taken, Option.map_some]

theorem Paired.step (paired : s.Paired) (taken : s.step action = some s') : s'.Paired := by
  have served := paired.refines action
  rw [taken, Option.map_some] at served
  obtain ⟨t, same, _, paired'⟩ := paired.served served.symm
  cases Option.some.inj (taken.symm.trans same)
  exact paired'

theorem paired_of_reachable (reached : Reachable s) : s.Paired := by
  refine Transition.Reachable.invariant ?_ ?_ reached
  · rintro _ rfl
    exact initSession_paired
  · rintro s s' _ paired ⟨action, taken⟩
    exact paired.step taken

/-! ### Main results -/

/-- Whatever completes, fails, is called and returns in whatever order: the loop
    finds in the buffer of every accept the listener, the socket and the address
    that belong to it, so the service runs as if there were no contexts; and
    every context that was allocated is in one place. -/
theorem contexts_recycled (s : PooledService) (reached : Reachable s) :
    (∀ action, (s.step action).map PooledService.service = s.serves action) ∧
      s.service.accepts.Perm (s.pool.posted.map Posted.operation) ∧
      s.pool.contexts = List.range s.pool.owners.length ∧
      Pools.Accounted s.pool.owners s.pool.queIOContext s.pool.out := by
  have paired := paired_of_reachable reached
  exact ⟨paired.refines, paired.outstanding, paired.sound.contexts_eq, paired.sound.accounted⟩

/-- A listener whose accepts completed twice: the third accept has the context of
    the first, and that of the second is free. -/
theorem accepted_twice : ∃ s, Reachable s ∧ s.pool.posted = [⟨0, 3, 9, none⟩] ∧ s.pool.queIOContext 3 = [1] ∧
    s.pool.completing = none ∧ s.pool.lost = [] ∧ s.service.started 3 = 1 := by
  have listening : Reachable _ :=
    Reachable.init.act (.other (.addTCPListener 3 (some ⟨7, true⟩) (List.replicate 10 none))) rfl
  have arrived := listening.act (.arrived ⟨0, 3, 7, none⟩ ⟨5, 9⟩) rfl
  have accepted := arrived.act (.completed ⟨0, 3, 7, some ⟨5, 9⟩⟩ true none) rfl
  have returned := accepted.act (.other (.resume true (some ⟨8, true⟩))) rfl
  have arrived' := returned.act (.arrived ⟨1, 3, 8, none⟩ ⟨6, 9⟩) rfl
  have accepted' := arrived'.act (.completed ⟨1, 3, 8, some ⟨6, 9⟩⟩ true none) rfl
  have returned' := accepted'.act (.other (.resume true (some ⟨9, true⟩))) rfl
  exact ⟨_, returned', rfl, rfl, rfl, rfl, rfl⟩

theorem one_context_recycled : ∃ s, Reachable s ∧ s.pool.queIOContext 3 = [1] ∧ s.service.accepts.Perm [(3, 9)] ∧
    s.pool.contexts = List.range s.pool.owners.length ∧
    Pools.Accounted s.pool.owners s.pool.queIOContext [(0, 3)] := by
  obtain ⟨s, reached, posted, free, completing, lost, _⟩ := accepted_twice
  obtain ⟨_, outstanding, numbered, accounted⟩ := contexts_recycled s reached
  refine ⟨s, reached, free, by simpa [posted, Posted.operation] using outstanding, numbered, ?_⟩
  simpa [AcceptPool.out, AcceptPool.busy, posted, completing, lost, Posted.key] using accounted

/-- The contexts are those of the listeners, and each listener allocates one more
    than the accepts it started with, and one for each that was lost. -/
theorem contexts_bounded (s : PooledService) (reached : Reachable s) (listener : Socket) :
    s.pool.contexts = List.range s.pool.owners.length ∧
      s.pool.owners.count listener ≤
        s.service.started listener + 1 + (s.pool.lost.map Prod.snd).count listener :=
  ⟨(paired_of_reachable reached).sound.contexts_eq, (paired_of_reachable reached).grown listener⟩

theorem two_contexts_enough : ∃ s, Reachable s ∧ s.pool.posted = [⟨0, 3, 9, none⟩] ∧
    s.pool.contexts = List.range s.pool.owners.length ∧ s.pool.owners.count 3 ≤ 2 := by
  obtain ⟨s, reached, posted, _, _, lost, started⟩ := accepted_twice
  obtain ⟨numbered, bounded⟩ := contexts_bounded s reached 3
  rw [started, lost] at bounded
  exact ⟨s, reached, posted, numbered, bounded⟩

end PooledService

end LiteServer.Net
