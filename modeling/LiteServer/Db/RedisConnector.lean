import LiteServer.Lib.Lifetime
import LiteServer.Lib.Transition

/-!
What a connector does with the contexts and replies that hiredis allocates:
`RedisConnector`, and the commands of `RedisConnectorWrap`, which free their
replies. A connector is used until its destructor has run.
-/
namespace LiteServer.Db

/-- What hiredis allocated, by number. -/
inductive Allocation where
  | context (n : Nat)
  | reply (n : Nat)
  deriving DecidableEq, Repr

inductive HiredisEvent where
  | made (a : Allocation)
  | used (a : Allocation)
  | freed (a : Allocation)
  deriving DecidableEq, Repr

/-- `none` is `NULL`. The last three fields only record the run: how many
    contexts and replies were allocated, and what happened to them. -/
structure RedisConnector where
  redisContext : Option Nat
  redisReply : Option Nat
  deleted : Bool
  contexts : Nat
  replies : Nat
  trace : List HiredisEvent

namespace RedisConnector

def new : RedisConnector := ⟨none, none, false, 0, 0, []⟩

def emit (c : RedisConnector) (event : HiredisEvent) : RedisConnector := { c with trace := c.trace ++ [event] }

/-! ### The connector -/

def freeContext (c : RedisConnector) : RedisConnector :=
  match c.redisContext with
  | some n => { c.emit (.freed (.context n)) with redisContext := none }
  | none => c

def freeReply (c : RedisConnector) : RedisConnector :=
  match c.redisReply with
  | some n => { c.emit (.freed (.reply n)) with redisReply := none }
  | none => c

def free (c : RedisConnector) : RedisConnector := c.freeContext.freeReply

/-- `redisConnect` returns `NULL`, or a context with this `err`. -/
def redisConnect (c : RedisConnector) (err : Option Int) : Option (Int × RedisConnector) := do
  let c := c.free
  let n := c.contexts
  let err ← err
  let c := { c.emit (.made (.context n)) with redisContext := some n, contexts := n + 1 }.emit (.used (.context n))
  if err ≠ 0 then return (err, c.free) else return (err, c)

/-- A command, which hiredis may answer with a reply or with `NULL`. -/
def issue (c : RedisConnector) (replied : Bool) : Int × RedisConnector :=
  match c.redisContext with
  | none => (1, c)
  | some context =>
    let c := c.emit (.used (.context context))
    let n := c.replies
    if replied then (0, { c.emit (.made (.reply n)) with redisReply := some n, replies := n + 1 })
    else (1, { c with redisReply := none })

def redisCommand (c : RedisConnector) (replied : Bool) : Int × RedisConnector := c.issue replied

def redisSafeCommand (c : RedisConnector) (replied : Bool) : Int × RedisConnector := c.issue replied

/-! ### The wrapped commands -/

/-- `FillReply` and `freeReplyObject` after a command without an error. -/
def answer : Int × RedisConnector → Option RedisConnector
  | (error, c) =>
    if error ≠ 0 then some c
    else do
      let n ← c.redisReply
      return (c.emit (.used (.reply n))).freeReply

def command (c : RedisConnector) (replied : Bool) : Option RedisConnector := answer (c.redisCommand replied)

/-- `accepted` is whether the table is one that `SafeCommand` makes a command of. -/
def safeCommand (c : RedisConnector) (accepted replied : Bool) : Option RedisConnector :=
  if !accepted then some c else answer (c.redisSafeCommand replied)

/-! ### Steps -/

inductive Call where
  | free
  | connect (err : Option Int)
  | redisCommand (replied : Bool)
  | redisSafeCommand (replied : Bool)
  | command (replied : Bool)
  | safeCommand (accepted replied : Bool)
  | delete
  deriving DecidableEq, Repr

/-- `none` where `NULL` is read, and where the connector is gone. -/
def step (c : RedisConnector) (call : Call) : Option RedisConnector :=
  if c.deleted then none
  else
    match call with
    | .free => some c.free
    | .connect err => (c.redisConnect err).map Prod.snd
    | .redisCommand replied => some (c.redisCommand replied).2
    | .redisSafeCommand replied => some (c.redisSafeCommand replied).2
    | .command replied => c.command replied
    | .safeCommand accepted replied => c.safeCommand accepted replied
    | .delete => some { c.free with deleted := true }

/-- The calls that reach hiredis with a command. -/
def Call.commands : Call → Bool
  | .redisCommand _ => true
  | .redisSafeCommand _ => true
  | .command _ => true
  | .safeCommand accepted _ => accepted
  | _ => false

/-- The commands of the base class, which leave their reply with the connector. -/
def Call.leavesReply : Call → Bool
  | .redisCommand _ => true
  | .redisSafeCommand _ => true
  | _ => false

/-- A command on a connected connector overwrites the reply that is held. -/
def lostBy (c : RedisConnector) (call : Call) : List Allocation :=
  if call.commands && c.redisContext.isSome then c.redisReply.toList.map .reply else []

def lost (steps : List (RedisConnector × Call)) : List Allocation := steps.flatMap fun step => step.1.lostBy step.2

def Runs : List (RedisConnector × Call) → RedisConnector → Prop :=
  Transition.Run (fun c call c' => c.step call = some c') new

/-! ### What is kept -/

/-- Freeing is a use. -/
def allocation : Lifetime.Marks Allocation HiredisEvent where
  opens a event := event = .made a
  closes a event := event = .freed a
  uses a event := event = .used a ∨ event = .freed a

def held (c : RedisConnector) : List Allocation := c.redisContext.toList.map .context ++ c.redisReply.toList.map .reply

/-- The allocations so far. -/
def Made (c : RedisConnector) : Allocation → Prop
  | .context n => n < c.contexts
  | .reply n => n < c.replies

instance (c : RedisConnector) : DecidablePred c.Made
  | .context n => inferInstanceAs (Decidable (n < c.contexts))
  | .reply n => inferInstanceAs (Decidable (n < c.replies))

/-- Every allocation was freed once, is held or was lost, and none is used after
    it was freed. -/
structure Sound (c : RedisConnector) (lost : List Allocation) : Prop where
  respected : allocation.Respected c.trace
  accounted : ∀ a, c.trace.count (.freed a) + c.held.count a + lost.count a = if c.Made a then 1 else 0

variable {c c' : RedisConnector} {lost : List Allocation} {a : Allocation}

theorem closed_freed {trace : List HiredisEvent} (closed : allocation.closed a trace = true) : .freed a ∈ trace := by
  induction trace using List.reverseRecOn with
  | nil => cases closed
  | append_singleton trace event ih =>
    rw [Lifetime.closed_snoc] at closed
    by_cases freed : event = .freed a
    · simp [freed]
    · simp only [allocation, freed, decide_false, Bool.false_or, Bool.and_eq_true] at closed
      exact List.mem_append_left _ (ih closed.1)

/-- What is held was not freed. -/
theorem Sound.open_of_held (sound : Sound c lost) (member : a ∈ c.held) : allocation.closed a c.trace = false := by
  have counted := sound.accounted a
  have here := List.count_pos_iff.mpr member
  by_contra closed
  have freed := List.count_pos_iff.mpr (closed_freed (Bool.not_eq_false _ ▸ closed))
  split at counted <;> omega

theorem new_sound : Sound new [] where
  respected := Lifetime.respected_nil
  accounted a := by cases a <;> simp [new, held, Made]

theorem made_iff (contexts : c'.contexts = c.contexts) (replies : c'.replies = c.replies) : c'.Made a ↔ c.Made a := by
  cases a <;> simp [Made, contexts, replies]

theorem Sound.used (sound : Sound c lost) (member : a ∈ c.held) : Sound (c.emit (.used a)) lost := by
  refine ⟨sound.respected.snoc fun b uses => ?_, fun b => ?_⟩
  · obtain rfl : a = b := by simpa [allocation] using uses
    exact sound.open_of_held member
  · have same : (c.emit (.used a)).Made b ↔ c.Made b := made_iff rfl rfl
    rw [if_congr same rfl rfl, ← sound.accounted b]
    simp [emit, held]

/-- Something that is held is freed. -/
theorem Sound.freed (sound : Sound c lost) (trace : c'.trace = c.trace ++ [.freed a]) (gone : c.held.Perm (a :: c'.held))
    (contexts : c'.contexts = c.contexts) (replies : c'.replies = c.replies) : Sound c' lost := by
  refine ⟨?_, fun b => ?_⟩
  · rw [trace]
    refine sound.respected.snoc fun b uses => ?_
    obtain rfl : a = b := by simpa [allocation] using uses
    exact sound.open_of_held (gone.mem_iff.mpr (List.mem_cons_self ..))
  · rw [if_congr (made_iff contexts replies) rfl rfl, ← sound.accounted b, gone.count_eq, trace, List.count_append,
      List.count_cons]
    by_cases same : a = b <;> simp [same]
    omega

/-- Something that is held is overwritten. -/
theorem Sound.dropped {gone : List Allocation} (sound : Sound c lost) (trace : c'.trace = c.trace)
    (away : c.held.Perm (gone ++ c'.held)) (contexts : c'.contexts = c.contexts) (replies : c'.replies = c.replies) :
    Sound c' (lost ++ gone) := by
  refine ⟨trace ▸ sound.respected, fun b => ?_⟩
  rw [if_congr (made_iff contexts replies) rfl rfl, ← sound.accounted b, away.count_eq, trace, List.count_append,
    List.count_append]
  omega

/-- hiredis allocates the next context or reply. -/
theorem Sound.made (sound : Sound c lost) (trace : c'.trace = c.trace ++ [.made a]) (holds : c'.held.Perm (a :: c.held))
    (fresh : ¬ c.Made a) (made : ∀ b, c'.Made b ↔ c.Made b ∨ b = a) : Sound c' lost := by
  refine ⟨?_, fun b => ?_⟩
  · rw [trace]
    exact sound.respected.extend fun b => by simp [allocation]
  · have before := sound.accounted b
    rw [trace, holds.count_eq, List.count_append, List.count_cons, if_congr (made b) rfl rfl]
    by_cases same : b = a
    · subst same
      rw [if_neg fresh] at before
      simp
      omega
    · simpa [same, Ne.symm same] using before

/-! ### What a call does -/

theorem Sound.freeContext (sound : Sound c lost) :
    Sound c.freeContext lost ∧ c.freeContext.redisContext = none ∧ c.freeContext.redisReply = c.redisReply := by
  cases context : c.redisContext with
  | none => simpa [RedisConnector.freeContext, context] using sound
  | some n =>
    have result : c.freeContext = { c.emit (.freed (.context n)) with redisContext := none } := by
      rw [RedisConnector.freeContext, context]
    rw [result]
    exact ⟨sound.freed rfl (by simp [held, context, emit]) rfl rfl, rfl, rfl⟩

theorem Sound.freeReply (sound : Sound c lost) :
    Sound c.freeReply lost ∧ c.freeReply.redisReply = none ∧ c.freeReply.redisContext = c.redisContext := by
  cases reply : c.redisReply with
  | none => simpa [RedisConnector.freeReply, reply] using sound
  | some n =>
    have result : c.freeReply = { c.emit (.freed (.reply n)) with redisReply := none } := by
      rw [RedisConnector.freeReply, reply]
    rw [result]
    refine ⟨sound.freed rfl ?_ rfl rfl, rfl, rfl⟩
    simp [held, reply, emit]

theorem Sound.free (sound : Sound c lost) : Sound c.free lost ∧ c.free.redisContext = none ∧ c.free.redisReply = none := by
  obtain ⟨first, context, _⟩ := sound.freeContext
  obtain ⟨second, reply, same⟩ := first.freeReply
  exact ⟨second, same.trans context, reply⟩

theorem Sound.redisConnect (sound : Sound c lost) {err : Option Int} {ret : Int}
    (taken : c.redisConnect err = some (ret, c')) : Sound c' lost ∧ c'.redisReply = none := by
  obtain ⟨freed, context, reply⟩ := sound.free
  cases err with
  | none => cases taken
  | some err =>
    let n := c.free.contexts
    let made : RedisConnector := { c.free.emit (.made (.context n)) with redisContext := some n, contexts := n + 1 }
    let read : RedisConnector := made.emit (.used (.context n))
    have sound₂ : Sound made lost := by
      refine freed.made (a := .context n) rfl ?_ (Nat.lt_irrefl n) ?_
      · simp [held, made, emit, context, reply]
      · intro b
        cases b with
        | context m =>
          simp only [Made, made, n, Allocation.context.injEq]
          omega
        | reply m => simp [Made, made, emit]
    have sound₃ : Sound read lost := sound₂.used (by simp [held, made])
    have result : c.redisConnect (some err) = if err ≠ 0 then some (err, read.free) else some (err, read) := rfl
    rw [result] at taken
    split at taken
    · have same : read.free = c' := congrArg Prod.snd (Option.some.inj taken)
      rw [← same]
      exact ⟨sound₃.free.1, sound₃.free.2.2⟩
    · have same : read = c' := congrArg Prod.snd (Option.some.inj taken)
      rw [← same]
      exact ⟨sound₃, reply⟩

/-- A command that reaches hiredis loses the reply that was held. -/
theorem Sound.issue (sound : Sound c lost) (replied : Bool) :
    Sound (c.issue replied).2 (lost ++ if c.redisContext.isSome then c.redisReply.toList.map .reply else []) ∧
      ((c.issue replied).1 = 0 → ∃ n, (c.issue replied).2.redisReply = some n) ∧
      ((c.issue replied).1 ≠ 0 → c.redisReply = none → (c.issue replied).2.redisReply = none) := by
  cases context : c.redisContext with
  | none => simpa [RedisConnector.issue, context] using sound
  | some n =>
    have used := sound.used (a := .context n) (by simp [held, context])
    let gone : List Allocation := c.redisReply.toList.map .reply
    let rest : RedisConnector := { c.emit (.used (.context n)) with redisReply := none }
    have away : (c.emit (.used (.context n))).held.Perm (gone ++ rest.held) := by
      simpa [held, context, emit, gone, rest] using (List.perm_append_singleton ..).symm
    have overwritten : Sound rest (lost ++ gone) := used.dropped rfl away rfl rfl
    cases replied with
    | false =>
      refine ⟨?_, ?_⟩
      · simpa [RedisConnector.issue, context] using overwritten
      · simp [RedisConnector.issue, context]
    | true =>
      let m := c.replies
      let filled : RedisConnector := { rest.emit (.made (.reply m)) with redisReply := some m, replies := m + 1 }
      have made : Sound filled (lost ++ gone) := by
        refine overwritten.made (a := .reply m) rfl ?_ (Nat.lt_irrefl m) ?_
        · simpa [held, filled, emit, rest, context] using List.Perm.swap ..
        · intro b
          cases b with
          | context k => simp [Made, filled, emit]
          | reply k =>
            simp only [Made, filled, m, rest, emit, Allocation.reply.injEq]
            omega
      have result : c.issue true = (0, filled) := by
        rw [RedisConnector.issue, context]
        rfl
      rw [result]
      exact ⟨made, fun _ => ⟨m, rfl⟩, fun failed => absurd rfl failed⟩

theorem Sound.answer {ret : Int} (sound : Sound c lost) (replied : ret = 0 → ∃ n, c.redisReply = some n) :
    ∃ c', RedisConnector.answer (ret, c) = some c' ∧ Sound c' lost ∧ (ret = 0 → c'.redisReply = none) ∧
      (ret ≠ 0 → c' = c) := by
  by_cases failed : ret = 0
  · obtain ⟨n, reply⟩ := replied failed
    have used := sound.used (a := .reply n) (by simp [held, reply])
    obtain ⟨freed, none, _⟩ := used.freeReply
    exact ⟨_, by simp [RedisConnector.answer, failed, reply], freed, fun _ => none, fun differ => absurd failed differ⟩
  · exact ⟨c, by simp [RedisConnector.answer, failed], sound, fun same => absurd same failed, fun _ => rfl⟩

/-! ### Only the destructor ends a connector -/

@[simp] theorem free_deleted (c : RedisConnector) : c.free.deleted = c.deleted := by
  have first : c.freeContext.deleted = c.deleted := by
    unfold freeContext
    split <;> rfl
  have second : c.freeContext.freeReply.deleted = c.freeContext.deleted := by
    unfold freeReply
    split <;> rfl
  exact second.trans first

theorem redisConnect_deleted {err : Option Int} {ret : Int} (taken : c.redisConnect err = some (ret, c')) :
    c'.deleted = c.deleted := by
  obtain ⟨err, rfl, rest⟩ := Option.bind_eq_some_iff.mp taken
  split at rest <;> cases rest <;> simp [emit]

@[simp] theorem issue_deleted (c : RedisConnector) (replied : Bool) : (c.issue replied).2.deleted = c.deleted := by
  unfold RedisConnector.issue
  split
  · rfl
  · cases replied <;> rfl

theorem answer_deleted {ret : Int} (taken : answer (ret, c) = some c') : c'.deleted = c.deleted := by
  simp only [answer] at taken
  split at taken
  · cases taken
    rfl
  · obtain ⟨n, reply, rest⟩ := Option.bind_eq_some_iff.mp taken
    cases rest
    unfold freeReply
    split <;> rfl

/-- A wrapped command frees the reply it gets. -/
theorem Sound.wrapped (sound : Sound c lost) (replied : Bool) : ∃ c', RedisConnector.answer (c.issue replied) = some c' ∧
    Sound c' (lost ++ if c.redisContext.isSome then c.redisReply.toList.map .reply else []) ∧
    (c.redisReply = none → c'.redisReply = none) ∧ c'.deleted = c.deleted := by
  obtain ⟨kept, replies, unanswered⟩ := sound.issue replied
  obtain ⟨c', result, kept', freed, unchanged⟩ := kept.answer replies
  refine ⟨c', result, kept', fun before => ?_, (answer_deleted result).trans (issue_deleted c replied)⟩
  by_cases failed : (c.issue replied).1 = 0
  · exact freed failed
  · rw [unchanged failed]
    exact unanswered failed before

/-! ### Runs -/

/-- A step keeps the books, and no call but a command of the base class leaves a reply. -/
theorem Sound.step (sound : Sound c lost) {call : Call} (taken : c.step call = some c') :
    Sound c' (lost ++ c.lostBy call) ∧ (call.leavesReply = false → c.redisReply = none → c'.redisReply = none) ∧
      (c'.deleted = true → c'.held = []) := by
  simp only [RedisConnector.step] at taken
  split at taken
  · cases taken
  · rename_i alive
    have same : c'.deleted = c.deleted → c'.deleted = true → c'.held = [] := fun same gone => absurd (same ▸ gone) alive
    cases call with
    | free =>
      obtain ⟨freed, context, reply⟩ := sound.free
      cases taken
      exact ⟨by simpa [lostBy, Call.commands] using freed, fun _ _ => reply, fun _ => by simp [held, context, reply]⟩
    | delete =>
      obtain ⟨freed, context, reply⟩ := sound.free
      cases taken
      let gone : RedisConnector := { c.free with deleted := true }
      have kept : Sound gone (lost ++ []) := freed.dropped rfl (.refl _) rfl rfl
      exact ⟨by simpa [lostBy, Call.commands] using kept, fun _ _ => reply, fun _ => by simp [held, context, reply]⟩
    | connect err =>
      obtain ⟨⟨ret, t⟩, result, rfl⟩ := Option.map_eq_some_iff.mp taken
      obtain ⟨kept, reply⟩ := sound.redisConnect result
      exact ⟨by simpa [lostBy, Call.commands] using kept, fun _ _ => reply, same (redisConnect_deleted result)⟩
    | redisCommand replied =>
      cases taken
      exact ⟨(sound.issue replied).1, nofun, same (issue_deleted c replied)⟩
    | redisSafeCommand replied =>
      cases taken
      exact ⟨(sound.issue replied).1, nofun, same (issue_deleted c replied)⟩
    | command replied =>
      obtain ⟨t, result, kept, reply, deleted⟩ := sound.wrapped replied
      cases Option.some.inj (taken.symm.trans result)
      exact ⟨kept, fun _ => reply, same deleted⟩
    | safeCommand accepted replied =>
      cases accepted with
      | false =>
        cases taken
        exact ⟨by simpa [lostBy, Call.commands] using sound, fun _ before => before, same rfl⟩
      | true =>
        obtain ⟨t, result, kept, reply, deleted⟩ := sound.wrapped replied
        cases Option.some.inj (taken.symm.trans result)
        exact ⟨kept, fun _ => reply, same deleted⟩

theorem Runs.start : Runs [] new := Transition.Run.nil

theorem Runs.act {steps : List (RedisConnector × Call)} (run : Runs steps c) (call : Call) (taken : c.step call = some c') :
    Runs (steps ++ [(c, call)]) c' :=
  run.snoc taken

theorem Runs.sound {steps : List (RedisConnector × Call)} (run : Runs steps c) :
    Sound c (RedisConnector.lost steps) ∧ (c.deleted = true → c.held = []) := by
  induction run with
  | nil => exact ⟨new_sound, nofun⟩
  | @snoc steps c c' call _ taken ih =>
    obtain ⟨sound, _, gone⟩ := ih.1.step taken
    refine ⟨?_, gone⟩
    rwa [RedisConnector.lost, List.flatMap_append, List.flatMap_singleton]

/-- The wrap leaves no reply behind, so its calls lose none. -/
theorem Runs.wrapped {steps : List (RedisConnector × Call)} (run : Runs steps c)
    (wraps : ∀ step ∈ steps, step.2.leavesReply = false) : c.redisReply = none ∧ RedisConnector.lost steps = [] := by
  induction run with
  | nil => exact ⟨rfl, rfl⟩
  | @snoc steps c c' call run taken ih =>
    obtain ⟨reply, nothing⟩ := ih fun step member => wraps step (List.mem_append_left _ member)
    obtain ⟨_, kept, _⟩ := (Runs.sound run).1.step taken
    refine ⟨kept (wraps (c, call) (by simp)) reply, ?_⟩
    rw [RedisConnector.lost] at nothing
    rw [RedisConnector.lost, List.flatMap_append, List.flatMap_singleton, nothing]
    simp [lostBy, reply]

/-- The only call that cannot go on is one for which `redisConnect` returns `NULL`. -/
theorem step_defined (alive : c.deleted = false) (call : Call) : c.step call = none ↔ call = .connect none := by
  have answered : ∀ replied, answer (c.issue replied) ≠ none := by
    intro replied
    cases context : c.redisContext <;> cases replied <;> simp [answer, RedisConnector.issue, context, emit]
  cases call with
  | connect err =>
    cases err with
    | none => simp [step, alive, redisConnect]
    | some err => by_cases failed : err = 0 <;> simp [step, alive, redisConnect, failed]
  | command replied => simpa [step, alive, command, redisCommand] using answered replied
  | safeCommand accepted replied =>
    cases accepted with
    | false => simp [step, alive, safeCommand]
    | true => simpa [step, alive, safeCommand, redisSafeCommand] using answered replied
  | _ => simp [step, alive]

/-- What a connector does with what hiredis allocates, whatever is called and
    whatever hiredis answers: nothing is used or freed after it was freed, and
    every context and reply was freed once, is held, or was a reply that a
    command overwrote; the calls of the wrap overwrite none, and a destroyed
    connector holds nothing. -/
theorem allocations_freed_once (steps : List (RedisConnector × Call)) (c : RedisConnector) (run : Runs steps c) :
    allocation.Respected c.trace ∧
      (∀ a, c.trace.count (.freed a) + c.held.count a + (RedisConnector.lost steps).count a = if c.Made a then 1 else 0) ∧
      ((∀ step ∈ steps, step.2.leavesReply = false) → RedisConnector.lost steps = []) ∧
      (c.deleted = true → c.held = []) ∧
      (c.deleted = false → ∀ call, c.step call = none ↔ call = .connect none) := by
  obtain ⟨sound, gone⟩ := run.sound
  exact ⟨sound.respected, sound.accounted, fun wraps => (run.wrapped wraps).2, gone, fun alive => step_defined alive⟩

/-- A command of the base class leaves its reply, and the wrapped one after it loses that. -/
theorem one_reply_left : ∃ steps c, Runs steps c ∧ c.deleted = true ∧ RedisConnector.lost steps = [.reply 0] := by
  have connected := Runs.start.act (.connect (some 0)) rfl
  have left := connected.act (.redisCommand true) rfl
  have answered := left.act (.command true) rfl
  have deleted := answered.act .delete rfl
  exact ⟨_, _, deleted, rfl, rfl⟩

theorem one_reply_lost : ∃ steps c, Runs steps c ∧ RedisConnector.lost steps = [.reply 0] ∧
    allocation.Respected c.trace ∧ ∀ a, c.trace.count (.freed a) + [.reply 0].count a = if c.Made a then 1 else 0 := by
  obtain ⟨steps, c, run, deleted, lost⟩ := one_reply_left
  obtain ⟨respected, accounted, _, holds, _⟩ := allocations_freed_once steps c run
  refine ⟨steps, c, run, lost, respected, fun a => ?_⟩
  simpa [holds deleted, lost] using accounted a

end RedisConnector

end LiteServer.Db
