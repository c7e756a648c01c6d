import LiteServer.Lib.Pools
import LiteServer.Net.IocpService

/-!
The contexts and buffers of `AcceptEx` that the listeners keep, below the IOCP
backend. The system writes into the buffer of an accept while the loop goes on,
and the loop reads the buffer when the accept is dequeued.
-/
namespace LiteServer.Net

/-- A listener is named by its socket; `buff` is the address that was written last. -/
structure AcceptBuff where
  acceptSocket : Socket
  pListener : Socket
  buff : SockAddr
  deriving DecidableEq, Repr

/-- An `AcceptEx` that the system has, with what it was called with, and the
    address that it wrote when somebody connected. -/
structure Posted where
  context : Nat
  listener : Socket
  sock : Socket
  remote : Option SockAddr
  deriving DecidableEq, Repr

/-- Buffers and contexts by number in the order of their allocation, a context
    as its `Param`, and the two queues of each listener. `completing` is the
    context of the accept whose callback runs, `lost` are those that nothing
    refers to any more, each with its listener. -/
structure AcceptPool where
  acceptBuffs : List AcceptBuff
  contexts : List Nat
  queAcceptBuff : Socket → List Nat
  queIOContext : Socket → List Nat
  posted : List Posted
  completing : Option (Nat × Socket)
  lost : List (Nat × Socket)

/-- What the system was asked for. -/
def Posted.operation (q : Posted) : Socket × Socket := (q.listener, q.sock)

def Posted.key (q : Posted) : Nat × Socket := (q.context, q.listener)

namespace AcceptPool

def start : AcceptPool where
  acceptBuffs := []
  contexts := []
  queAcceptBuff _ := []
  queIOContext _ := []
  posted := []
  completing := none
  lost := []

/-! ### The listener -/

def setSocket (p : AcceptPool) (buff : Nat) (acceptSocket : Socket) : Option AcceptPool := do
  let old ← p.acceptBuffs[buff]?
  return { p with acceptBuffs := p.acceptBuffs.set buff { old with acceptSocket } }

def newAcceptBuff (p : AcceptPool) (listener acceptSocket : Socket) : Option (Nat × AcceptPool) :=
  match p.queAcceptBuff listener with
  | [] => some (p.acceptBuffs.length, { p with acceptBuffs := p.acceptBuffs ++ [⟨acceptSocket, listener, ⟨0, 0⟩⟩] })
  | buff :: rest => do
    let p ← { p with queAcceptBuff := Function.update p.queAcceptBuff listener rest }.setSocket buff acceptSocket
    return (buff, p)

def newIOContext (p : AcceptPool) (listener acceptSocket : Socket) : Option (Nat × AcceptPool) :=
  match p.queIOContext listener with
  | [] => do
    let (buff, p) ← p.newAcceptBuff listener acceptSocket
    return (p.contexts.length, { p with contexts := p.contexts ++ [buff] })
  | context :: rest => do
    let buff ← p.contexts[context]?
    let p ← { p with queIOContext := Function.update p.queIOContext listener rest }.setSocket buff acceptSocket
    return (context, p)

def delIOContext (p : AcceptPool) (listener : Socket) (context : Nat) : AcceptPool :=
  { p with queIOContext := Function.update p.queIOContext listener (p.queIOContext listener ++ [context]) }

/-- The buffer that a context points to. -/
def buffOf (p : AcceptPool) (context : Nat) : Option AcceptBuff := do
  let buff ← p.contexts[context]?
  p.acceptBuffs[buff]?

/-! ### The service -/

def postAccept (p : AcceptPool) (listener : Socket) (created : Option Accepting) : Option (Bool × AcceptPool) :=
  match created with
  | none => some (false, p)
  | some a => do
    let (context, p) ← p.newIOContext listener a.socket
    if a.posted then return (true, { p with posted := p.posted ++ [⟨context, listener, a.socket, none⟩] })
    else return (false, { p with lost := p.lost ++ [(context, listener)] })

def postAccepts (listener : Socket) : (rest : List (Option Accepting)) → AcceptPool → Option AcceptPool
  | [], p => some p
  | created :: rest, p => do
    let (_, p) ← p.postAccept listener created
    postAccepts listener rest p

def addTCPListener (p : AcceptPool) (listener : Socket) (first : Option Accepting) (rest : List (Option Accepting)) :
    Option AcceptPool := do
  let (ret, p) ← p.postAccept listener first
  if ret then postAccepts listener rest p else return p

/-- What the loop does with the context after `DoAccpet`. -/
def finish (p : AcceptPool) (context : Nat) (next : Option Accepting) : Option AcceptPool := do
  let buff ← p.buffOf context
  let (_, p) ← p.postAccept buff.pListener next
  let buff ← p.buffOf context
  return { p with completing := none }.delIOContext buff.pListener context

/-- The system writes into the buffer that the context of an accept points to. -/
def write (p : AcceptPool) (q : Posted) (remote : SockAddr) : Option AcceptPool := do
  let buff ← p.contexts[q.context]?
  let old ← p.acceptBuffs[buff]?
  return { p with
    acceptBuffs := p.acceptBuffs.set buff { old with buff := remote }
    posted := p.posted.map fun other => if other = q then { q with remote := some remote } else other }

end AcceptPool

/-! ### Steps -/

structure PooledService where
  service : IocpService
  pool : AcceptPool

/-- Somebody connects; an accept is dequeued, `failed` where
    `GetQueuedCompletionStatus` returns `FALSE`; any other step of the service. -/
inductive PooledAction where
  | arrived (q : Posted) (remote : SockAddr)
  | completed (q : Posted) (associated : Bool) (next : Option Accepting)
  | failed (q : Posted)
  | other (action : IocpAction)
  deriving DecidableEq, Repr

namespace PooledService

def initSession : PooledService := ⟨IocpService.initSession, AcceptPool.start⟩

/-- What a step that dequeues no accept does to the contexts. -/
def follow (p : AcceptPool) : IocpAction → Option AcceptPool
  | .addTCPListener listener first rest => p.addTCPListener listener first rest
  | .resume _ next =>
    match p.completing with
    | some (context, _) => p.finish context next
    | none => some p
  | _ => some p

def dequeuesAccept : IocpAction → Bool
  | .accepted _ _ _ _ _ => true
  | .failed (.accept _ _) => true
  | _ => false

def step (s : PooledService) : PooledAction → Option PooledService
  | .arrived q remote => do
    if q ∉ s.pool.posted ∨ q.remote.isSome then none
    else return { s with pool := ← s.pool.write q remote }
  | .completed q associated next => do
    if q ∉ s.pool.posted ∨ q.remote.isNone then none
    else
      let buff ← s.pool.buffOf q.context
      let service ← s.service.step (.accepted buff.pListener buff.acceptSocket buff.buff associated next)
      let pool := { s.pool with posted := s.pool.posted.erase q, completing := some (q.context, q.listener) }
      -- Without a callback the loop goes on at once.
      if service.pc = .idle then return ⟨service, ← pool.finish q.context next⟩
      else return ⟨service, pool⟩
  | .failed q => do
    if q ∉ s.pool.posted then none
    else
      let service ← s.service.step (.failed (.accept q.listener q.sock))
      let pool := { s.pool with posted := s.pool.posted.erase q, lost := s.pool.lost ++ [(q.context, q.listener)] }
      return ⟨service, pool⟩
  | .other action => do
    if dequeuesAccept action then none
    else return ⟨← s.service.step action, ← follow s.pool action⟩

def Reachable : PooledService → Prop :=
  Transition.Reachable (· = initSession) fun s s' => ∃ action, s.step action = some s'

theorem Reachable.init : Reachable initSession := Transition.Reachable.start rfl

theorem Reachable.act {s s' : PooledService} (reached : Reachable s) (action : PooledAction)
    (taken : s.step action = some s') : Reachable s' :=
  Transition.Reachable.next reached ⟨action, taken⟩

end PooledService

/-! ### What a pool keeps -/

/-- What a call of `PostAccept` leaves outstanding. -/
def granted (listener : Socket) : (created : Option Accepting) → List (Socket × Socket)
  | some a => if a.posted then [(listener, a.socket)] else []
  | none => []

namespace AcceptPool
variable {p p' : AcceptPool} {listener sock : Socket} {context : Nat}

def owners (p : AcceptPool) : List Socket := p.acceptBuffs.map AcceptBuff.pListener

/-- The contexts of outstanding accepts, and of the one whose callback runs. -/
def busy (p : AcceptPool) : List (Nat × Socket) := p.posted.map Posted.key ++ p.completing.toList

def out (p : AcceptPool) : List (Nat × Socket) := p.busy ++ p.lost

/-- A context has the buffer of its number, every context is in one place, and
    the buffer of an outstanding accept has what it was called with. -/
structure Sound (p : AcceptPool) : Prop where
  numbered : p.contexts = List.range p.acceptBuffs.length
  unused : ∀ listener, p.queAcceptBuff listener = []
  accounted : Pools.Accounted p.owners p.queIOContext p.out
  given : ∀ q ∈ p.posted, ∃ old, p.acceptBuffs[q.context]? = some ⟨q.sock, q.listener, q.remote.getD old⟩

theorem start_sound : start.Sound where
  numbered := rfl
  unused _ := rfl
  accounted := Pools.accounted_nil
  given := by simp [start]

theorem Sound.contexts_eq (sound : p.Sound) : p.contexts = List.range p.owners.length := by
  rw [sound.numbered, owners, List.length_map]

theorem Sound.context_eq (sound : p.Sound) {buff : AcceptBuff} (stored : p.acceptBuffs[context]? = some buff) :
    p.contexts[context]? = some context := by
  rw [sound.numbered, List.getElem?_range (List.getElem?_eq_some_iff.mp stored).1]

theorem Sound.buffOf_eq (sound : p.Sound) {buff : AcceptBuff} (stored : p.acceptBuffs[context]? = some buff) :
    p.buffOf context = some buff := by
  rw [buffOf, sound.context_eq stored]
  exact stored

/-- A context that is out has a buffer of its listener. -/
theorem Sound.owned (sound : p.Sound) (member : (context, listener) ∈ p.out) :
    ∃ buff, p.acceptBuffs[context]? = some buff ∧ buff.pListener = listener := by
  have owner := sound.accounted.owner_of_out member
  rw [owners, List.getElem?_map, Option.map_eq_some_iff] at owner
  exact owner

theorem mem_out {q : Posted} (member : q ∈ p.posted) : q.key ∈ p.out :=
  List.mem_append_left _ (List.mem_append_left _ (List.mem_map_of_mem member))

/-- Buffers stay with their listener. -/
theorem owners_set {buffs : List AcceptBuff} {old new : AcceptBuff} (stored : buffs[context]? = some old)
    (same : new.pListener = old.pListener) :
    (buffs.set context new).map AcceptBuff.pListener = buffs.map AcceptBuff.pListener := by
  obtain ⟨bound, rfl⟩ := List.getElem?_eq_some_iff.mp stored
  have whole := List.set_getElem_self (show context < (buffs.map AcceptBuff.pListener).length by simpa using bound)
  rw [List.getElem_map] at whole
  rw [List.map_set, same, whole]

/-! ### `NewIOContext` -/

/-- A context goes out whose buffer has a new socket, and the other buffers are
    as before; a context is made only where the queue is empty. -/
structure Takes (p p' : AcceptPool) (listener sock : Socket) (context : Nat) : Prop where
  numbered : p'.contexts = List.range p'.acceptBuffs.length
  unused : p'.queAcceptBuff = p.queAcceptBuff
  accounted : ∀ out, out.Perm ((context, listener) :: p.out) → Pools.Accounted p'.owners p'.queIOContext out
  given : ∃ old, p'.acceptBuffs[context]? = some ⟨sock, listener, old⟩
  others : ∀ other ≠ context, ∀ buff, p.acceptBuffs[other]? = some buff → p'.acceptBuffs[other]? = some buff
  owners : p'.owners = p.owners ∨ p'.owners = p.owners ++ [listener] ∧ p.queIOContext listener = []
  out : p'.posted = p.posted ∧ p'.completing = p.completing ∧ p'.lost = p.lost

theorem Sound.newIOContext (sound : p.Sound) (listener sock : Socket) :
    ∃ context p', p.newIOContext listener sock = some (context, p') ∧ Takes p p' listener sock context := by
  cases queue : p.queIOContext listener with
  | nil =>
    let made : AcceptPool := { p with
      acceptBuffs := p.acceptBuffs ++ [⟨sock, listener, ⟨0, 0⟩⟩]
      contexts := p.contexts ++ [p.acceptBuffs.length] }
    refine ⟨p.contexts.length, made, ?_, ?_⟩
    · simp [AcceptPool.newIOContext, queue, newAcceptBuff, sound.unused listener, made]
    · have same : p.contexts.length = p.acceptBuffs.length := by rw [sound.numbered, List.length_range]
      have number : p.owners.length = p.acceptBuffs.length := List.length_map ..
      have more : made.owners = p.owners ++ [listener] := by simp [owners, made]
      rw [same]
      refine ⟨?_, rfl, ?_, ⟨⟨0, 0⟩, List.getElem?_concat_length ..⟩, ?_, .inr ⟨more, queue⟩, rfl, rfl, rfl⟩
      · show p.contexts ++ [p.acceptBuffs.length] = List.range (p.acceptBuffs ++ [_]).length
        rw [sound.numbered, List.length_append, List.length_singleton, List.range_succ]
      · intro out goes
        rw [more]
        exact sound.accounted.made (number.symm ▸ goes)
      · intro other _ buff stored
        rw [List.getElem?_append_left (List.getElem?_eq_some_iff.mp stored).1]
        exact stored
  | cons context rest =>
    have owner := sound.accounted.owner_of_free (queue ▸ List.mem_cons_self ..)
    rw [AcceptPool.owners, List.getElem?_map, Option.map_eq_some_iff] at owner
    obtain ⟨buff, stored, owned⟩ := owner
    have bound := (List.getElem?_eq_some_iff.mp stored).1
    let taken : AcceptPool := { p with
      queIOContext := Function.update p.queIOContext listener rest
      acceptBuffs := p.acceptBuffs.set context { buff with acceptSocket := sock } }
    refine ⟨context, taken, ?_, ?_⟩
    · simp [AcceptPool.newIOContext, queue, sound.context_eq stored, setSocket, stored, taken]
    · have same : taken.owners = p.owners := owners_set stored rfl
      refine ⟨?_, rfl, ?_, ⟨buff.buff, ?_⟩, ?_, .inl same, rfl, rfl, rfl⟩
      · show p.contexts = List.range (p.acceptBuffs.set _ _).length
        rw [List.length_set]
        exact sound.numbered
      · intro out goes
        rw [same]
        exact sound.accounted.taken queue goes
      · rw [List.getElem?_set_self bound, ← owned]
      · intro other differ b before
        rw [List.getElem?_set_ne differ.symm]
        exact before

/-! ### `PostAccept` -/

/-- What calls of `PostAccept` do: they leave accepts outstanding, and make a
    context only where all others of the listener are busy or lost. -/
structure Posts (p p' : AcceptPool) (operations : List (Socket × Socket)) : Prop where
  sound : p'.Sound
  posted : p'.posted.map Posted.operation = p.posted.map Posted.operation ++ operations
  completing : p'.completing = p.completing
  lost : ∃ more, p'.lost = p.lost ++ more
  made : ∀ m, p'.owners.count m ≤ max (p.owners.count m) ((p'.out.map Prod.snd).count m)

theorem Posts.none (sound : p.Sound) : Posts p p [] :=
  ⟨sound, (List.append_nil _).symm, rfl, ⟨[], (List.append_nil _).symm⟩, fun _ => Nat.le_max_left ..⟩

theorem count_busy (p : AcceptPool) (m : Socket) : (p.busy.map Prod.snd).count m =
    ((p.posted.map Posted.operation).map Prod.fst).count m + (p.completing.toList.map Prod.snd).count m := by
  rw [busy, List.map_append, List.count_append, List.map_map, List.map_map]
  rfl

theorem count_out (p : AcceptPool) (m : Socket) :
    (p.out.map Prod.snd).count m = (p.busy.map Prod.snd).count m + (p.lost.map Prod.snd).count m := by
  rw [out, List.map_append, List.count_append]

theorem Posts.grows {operations : List (Socket × Socket)} (posts : Posts p p' operations) (m : Socket) :
    (p.out.map Prod.snd).count m ≤ (p'.out.map Prod.snd).count m := by
  obtain ⟨more, lost⟩ := posts.lost
  rw [count_out, count_out, count_busy, count_busy, posts.posted, posts.completing, lost]
  simp only [List.map_append, List.count_append]
  omega

theorem Posts.trans {p'' : AcceptPool} {first second : List (Socket × Socket)} (posts : Posts p p' first)
    (again : Posts p' p'' second) : Posts p p'' (first ++ second) := by
  refine ⟨again.sound, ?_, again.completing.trans posts.completing, ?_, ?_⟩
  · rw [again.posted, posts.posted, List.append_assoc]
  · obtain ⟨more, lost⟩ := posts.lost
    obtain ⟨more', lost'⟩ := again.lost
    exact ⟨more ++ more', by rw [lost', lost, List.append_assoc]⟩
  · intro m
    have before := posts.made m
    have after := again.made m
    have grown := again.grows m
    omega

/-- A context that went out is where the call put it. -/
theorem Takes.posts (takes : Takes p p' listener sock context) (sound : p.Sound) {p'' : AcceptPool}
    {operations : List (Socket × Socket)} (buffs : p''.acceptBuffs = p'.acceptBuffs) (contexts : p''.contexts = p'.contexts)
    (buffers : p''.queAcceptBuff = p'.queAcceptBuff) (queue : p''.queIOContext = p'.queIOContext)
    (out : p''.out.Perm ((context, listener) :: p.out))
    (given : ∀ q ∈ p''.posted, q ∈ p.posted ∨ q = ⟨context, listener, sock, none⟩)
    (posted : p''.posted.map Posted.operation = p.posted.map Posted.operation ++ operations)
    (completing : p''.completing = p.completing) (lost : ∃ more, p''.lost = p.lost ++ more) :
    Posts p p'' operations := by
  have same : p''.owners = p'.owners := congrArg (List.map AcceptBuff.pListener) buffs
  refine ⟨⟨?_, ?_, ?_, ?_⟩, posted, completing, lost, ?_⟩
  · rw [contexts, buffs]
    exact takes.numbered
  · rw [buffers, takes.unused]
    exact sound.unused
  · rw [same, queue]
    exact takes.accounted _ out
  · intro q member
    rw [buffs]
    rcases given q member with before | rfl
    · obtain ⟨old, stored⟩ := sound.given q before
      refine ⟨old, takes.others q.context ?_ _ stored⟩
      rintro rfl
      have apart := (List.nodup_cons.mp (takes.accounted _ (.refl _)).nodup).1
      exact apart (List.mem_map.mpr ⟨q.key, mem_out before, rfl⟩)
    · exact takes.given
  · intro m
    rw [same]
    rcases takes.owners with kept | ⟨made, empty⟩
    · rw [kept]
      exact Nat.le_max_left ..
    · have away : p.owners.count listener = (p.out.map Prod.snd).count listener := by
        rw [sound.accounted.length, empty, List.length_nil, Nat.zero_add]
      rw [made, (out.map Prod.snd).count_eq, List.map_cons, List.count_append, List.count_singleton, List.count_cons]
      by_cases here : listener = m
      · subst here
        rw [away]
        simp
      · simp [here]

theorem Sound.postAccept (sound : p.Sound) (listener : Socket) (created : Option Accepting) :
    ∃ ret p', p.postAccept listener created = some (ret, p') ∧ Posts p p' (granted listener created) ∧
      (ret = true ↔ granted listener created ≠ []) := by
  cases created with
  | none => exact ⟨false, p, rfl, .none sound, by simp [granted]⟩
  | some a =>
    obtain ⟨context, t, result, takes⟩ := sound.newIOContext listener a.socket
    obtain ⟨posted, completing, lost⟩ := takes.out
    by_cases taken : a.posted = true
    · refine ⟨true, { t with posted := t.posted ++ [⟨context, listener, a.socket, none⟩] }, ?_, ?_, by simp [granted, taken]⟩
      · simp [AcceptPool.postAccept, result, taken]
      · refine takes.posts sound rfl rfl rfl rfl ?_ ?_ ?_ completing ⟨[], by simp [lost]⟩
        · simp only [out, busy, posted, completing, lost, List.map_append, List.map_singleton, Posted.key, List.append_assoc,
            List.singleton_append]
          exact List.perm_middle
        · simp [posted]
        · simp [posted, granted, taken, Posted.operation]
    · refine ⟨false, { t with lost := t.lost ++ [(context, listener)] }, ?_, ?_, by simp [granted, taken]⟩
      · simp [AcceptPool.postAccept, result, taken]
      · refine takes.posts sound rfl rfl rfl rfl ?_ ?_ ?_ completing ⟨[(context, listener)], by simp [lost]⟩
        · simp only [out, busy, posted, completing, lost, ← List.append_assoc]
          exact List.perm_append_singleton ..
        · exact fun q member => .inl (posted ▸ member)
        · simp [posted, granted, taken]

theorem Sound.postAccepts (sound : p.Sound) (listener : Socket) (rest : List (Option Accepting)) :
    ∃ p', AcceptPool.postAccepts listener rest p = some p' ∧ Posts p p' (rest.flatMap (granted listener)) := by
  induction rest generalizing p with
  | nil => exact ⟨p, rfl, .none sound⟩
  | cons created rest ih =>
    obtain ⟨ret, t, result, posts, _⟩ := sound.postAccept listener created
    obtain ⟨p', last, more⟩ := ih posts.sound
    refine ⟨p', ?_, posts.trans more⟩
    simp [AcceptPool.postAccepts, result, last]

/-- The calls of `PostAccept` that `AddTCPListener` makes. -/
def attempts (listener : Socket) (first : Option Accepting) (rest : List (Option Accepting)) : List (Option Accepting) :=
  if granted listener first = [] then [first] else first :: rest

theorem Sound.addTCPListener (sound : p.Sound) (listener : Socket) (first : Option Accepting)
    (rest : List (Option Accepting)) : ∃ p', p.addTCPListener listener first rest = some p' ∧
      Posts p p' ((attempts listener first rest).flatMap (granted listener)) := by
  obtain ⟨ret, t, result, posts, took⟩ := sound.postAccept listener first
  by_cases empty : granted listener first = []
  · have refused : ret = false := Bool.eq_false_iff.mpr fun yes => took.mp yes empty
    refine ⟨t, by simp [AcceptPool.addTCPListener, result, refused], ?_⟩
    rw [attempts, if_pos empty]
    simpa using posts
  · obtain ⟨p', last, more⟩ := posts.sound.postAccepts listener rest
    refine ⟨p', by simp [AcceptPool.addTCPListener, result, took.mpr empty, last], ?_⟩
    rw [attempts, if_neg empty]
    exact posts.trans more

/-! ### The completion of an accept -/

theorem Sound.delIOContext (sound : p.Sound) (completing : p.completing = some (context, listener)) :
    ({ p with completing := none }.delIOContext listener context).Sound := by
  refine ⟨sound.numbered, sound.unused, ?_, sound.given⟩
  refine sound.accounted.returned ?_
  simp only [out, busy, completing, Option.toList_some, List.append_assoc]
  exact List.perm_middle

/-- The context goes back to its listener, after another accept was posted. -/
theorem Sound.finish (sound : p.Sound) (completing : p.completing = some (context, listener)) (next : Option Accepting) :
    ∃ t, p.finish context next = some ({ t with completing := none }.delIOContext listener context) ∧
      Posts p t (granted listener next) := by
  have there : ∀ {p : AcceptPool}, p.Sound → p.completing = some (context, listener) →
      ∃ buff, p.buffOf context = some buff ∧ buff.pListener = listener := by
    intro p sound completing
    have inside : (context, listener) ∈ p.out := by simp [out, busy, completing]
    obtain ⟨buff, stored, owned⟩ := sound.owned inside
    exact ⟨buff, sound.buffOf_eq stored, owned⟩
  obtain ⟨buff, found, owned⟩ := there sound completing
  obtain ⟨ret, t, result, posts, _⟩ := sound.postAccept listener next
  obtain ⟨buff', found', owned'⟩ := there posts.sound (posts.completing.trans completing)
  exact ⟨t, by simp [AcceptPool.finish, found, owned, result, found', owned'], posts⟩

/-- The loop takes an accept that completed. -/
theorem Sound.dequeued (sound : p.Sound) {q : Posted} (member : q ∈ p.posted) (resting : p.completing = none) :
    { p with posted := p.posted.erase q, completing := some (q.context, q.listener) }.Sound := by
  refine ⟨sound.numbered, sound.unused, sound.accounted.perm ?_, fun r inside => sound.given r (List.mem_of_mem_erase inside)⟩
  have moved := (List.perm_cons_erase member).map Posted.key
  simp only [out, busy, resting, Option.toList_some, Option.toList_none, List.append_nil]
  refine .append_right _ ?_
  exact (List.perm_append_singleton ..).trans moved.symm

theorem Sound.failed (sound : p.Sound) {q : Posted} (member : q ∈ p.posted) :
    { p with posted := p.posted.erase q, lost := p.lost ++ [(q.context, q.listener)] }.Sound := by
  refine ⟨sound.numbered, sound.unused, sound.accounted.perm ?_, fun r inside => sound.given r (List.mem_of_mem_erase inside)⟩
  have moved := (List.perm_cons_erase member).map Posted.key
  simp only [out, busy, ← List.append_assoc]
  refine (List.perm_append_singleton ..).trans ?_
  exact .append_right _ (.append_right _ moved.symm)

theorem Sound.distinct (sound : p.Sound) : (p.posted.map Posted.context).Nodup := by
  have once := sound.accounted.nodup
  simp only [out, busy, List.map_append, List.map_map] at once
  exact once.of_append_left.of_append_left

/-- What `write` makes of an outstanding accept. -/
def answered (q : Posted) (remote : SockAddr) (other : Posted) : Posted :=
  if other = q then { q with remote := some remote } else other

theorem answered_same (q : Posted) (remote : SockAddr) :
    Posted.operation ∘ answered q remote = Posted.operation ∧ Posted.key ∘ answered q remote = Posted.key := by
  constructor <;>
  · funext other
    by_cases same : other = q <;> simp [answered, same, Posted.operation, Posted.key]

/-- The system writes the address of an accept, and no buffer of another one changes. -/
theorem Sound.write (sound : p.Sound) {q : Posted} (member : q ∈ p.posted) (remote : SockAddr) :
    ∃ p', p.write q remote = some p' ∧ p'.Sound ∧ p'.owners = p.owners ∧
      p'.posted.map Posted.operation = p.posted.map Posted.operation ∧ p'.posted.map Posted.key = p.posted.map Posted.key ∧
      p'.completing = p.completing ∧ p'.lost = p.lost := by
  obtain ⟨old, stored⟩ := sound.given q member
  have bound := (List.getElem?_eq_some_iff.mp stored).1
  let buff : AcceptBuff := ⟨q.sock, q.listener, remote⟩
  let written : AcceptPool := { p with
    acceptBuffs := p.acceptBuffs.set q.context buff
    posted := p.posted.map (answered q remote) }
  have operations : written.posted.map Posted.operation = p.posted.map Posted.operation := by
    rw [List.map_map, (answered_same q remote).1]
  have keys : written.posted.map Posted.key = p.posted.map Posted.key := by
    rw [List.map_map, (answered_same q remote).2]
  have owned : written.owners = p.owners := owners_set stored rfl
  have out : written.out = p.out := by rw [AcceptPool.out, AcceptPool.out, busy, busy, keys]
  refine ⟨written, ?_, ⟨?_, sound.unused, ?_, ?_⟩, owned, operations, keys, rfl, rfl⟩
  · simp only [AcceptPool.write, sound.context_eq stored, stored, Option.bind_eq_bind, Option.bind_some]
    rfl
  · show p.contexts = List.range (p.acceptBuffs.set _ _).length
    rw [List.length_set]
    exact sound.numbered
  · rw [owned, out]
    exact sound.accounted
  · intro r inside
    obtain ⟨other, before, rfl⟩ := List.mem_map.mp inside
    by_cases same : other = q
    · refine ⟨remote, ?_⟩
      simp [answered, same, written, buff, List.getElem?_set_self bound]
    · obtain ⟨address, unchanged⟩ := sound.given other before
      refine ⟨address, ?_⟩
      have apart : q.context ≠ other.context := fun equal =>
        same (List.inj_on_of_nodup_map sound.distinct before member equal.symm)
      simp only [answered, same, if_false]
      exact (List.getElem?_set_ne apart).trans unchanged

end AcceptPool

end LiteServer.Net
