import LiteServer.Db.BinarySafeRedis

/-!
The calls of `redis.lua`, one after another. Over a connection that may be lost
they send what they were given and return what they got. Against a server that
does what is documented of its commands, those for strings read and write a map:
a `GET` of a missing key raises, and an `MGET` loses the value of its first key
and reads a missing one as the empty string. A script that goes on after a call
that raises has caught the error.
-/
namespace LiteServer.Db
open LiteServer.Lua

/-! ### What a script sends -/

section
variable (after : Traversal Int) (lengthFirst : Bool) (fuel : Nat) (L : LuaState Int) (redis : Value Int)

/-- What becomes of a command: the server replies, or the connection is lost,
    before it has all of the command or after. -/
inductive Delivery where
  | answered (reply : RedisReply)
  | lost (arrived : Bool)

def Delivery.reply? : Delivery → Option RedisReply
  | answered reply => some reply
  | lost _ => none

def Delivery.arrived : Delivery → Bool
  | answered _ => true
  | lost arrived => arrived

/-- A connector and what the server received. A context of hiredis that had an
    error (`err`) writes nothing more, and no later command has a reply. -/
structure Link where
  wrap : RedisConnectorWrap
  err : Bool
  received : List (List (List UInt8))

/-- A call whose command, if there is one, is delivered in this way. -/
def Link.call (link : Link) (api : Api) (delivery : Delivery) : Option (Answer × Link) := do
  let reply := if link.err then none else delivery.reply?
  let (answer, wrap) ← api.call after lengthFirst fuel link.wrap reply L redis
  let sent := wrap.commands.drop link.wrap.commands.length
  if link.err || sent.isEmpty then return (answer, { link with wrap := wrap })
  else return (answer, ⟨wrap, delivery.reply?.isNone, link.received ++ if delivery.arrived then sent else []⟩)

def calls : List (Api × Delivery) → Link → Option (List Answer × Link)
  | [], link => some ([], link)
  | (api, delivery) :: rest, link => do
    let (answer, link) ← link.call after lengthFirst fuel L redis api delivery
    let (answers, link) ← calls rest link
    return (answer :: answers, link)

/-- Calls one after another, where the server replies to what was sent. -/
inductive Session {Database : Type} (serve : Database → List (List UInt8) → RedisReply × Database) :
    RedisConnectorWrap → Database → List Api → List Answer → RedisConnectorWrap → Database → Prop
  | done {wrap db} : Session serve wrap db [] [] wrap db
  | call {wrap db api answer sent reply wrap₁ db₁ apis answers wrap₂ db₂} :
      api.call after lengthFirst fuel wrap (some reply) L redis = some (answer, wrap₁) →
      wrap₁.commands = wrap.commands ++ [sent] → serve db sent = (reply, db₁) →
      Session serve wrap₁ db₁ apis answers wrap₂ db₂ → Session serve wrap db (api :: apis) (answer :: answers) wrap₂ db₂

end

/-- Whether a call is sent. -/
def Api.short (api : Api) : Bool := api.command.1.length ≤ MAX_REDIS_ARGS

def Api.sent (api : Api) : List (List UInt8) := api.command.1.map LuaString.bytes

/-- Whether the connection is lost at a call. -/
def losesLink (c : Api × Delivery) : Bool := c.1.short && c.2.reply?.isNone

/-- The calls before the connection is lost. -/
def answeredCalls (made : List (Api × Delivery)) : List (Api × Delivery) := made.takeWhile fun c => !losesLink c

/-- The table of the call at which the connection is lost, if it arrives. -/
def lastArrived (made : List (Api × Delivery)) : List (List (List UInt8)) :=
  match made.dropWhile fun c => !losesLink c with
  | c :: _ => if c.2.arrived then [c.1.sent] else []
  | [] => []

section
variable {after : Traversal Int} {lengthFirst : Bool} {fuel : Nat} {L : LuaState Int} {redis : Value Int} {link : Link}
  {api : Api} {delivery : Delivery}

/-- What a call on a connection without an error returns and sends. -/
theorem Link.call_correct (ascending : Ascending after) (lengthFirst : Bool) (L : LuaState Int) (redis : Value Int)
    (connected : link.wrap.connected) (unbroken : link.err = false) (enough : api.command.1.length + 3 ≤ fuel)
    (small : ∀ rep ∈ delivery.reply?, rep.element.length ≤ 2 ^ 53 ∧ rep.element.length ≤ fuel) :
    ∃ link', link.call after lengthFirst fuel L redis api delivery =
        some (if api.short then api.command.2.answer? delivery.reply? else .failed, link') ∧
      link'.wrap.connected ∧ link'.err = losesLink (api, delivery) ∧
      link'.received = link.received ++ if api.short && delivery.arrived then [api.sent] else [] := by
  obtain ⟨answer, wrap, called, connected', sent⟩ :=
    api_call_correct ascending lengthFirst api link.wrap delivery.reply? L redis enough small
  rw [Link.call, unbroken]
  simp only [Bool.false_eq_true, if_false, called, Option.bind_eq_bind, Option.bind_some, Bool.false_or]
  by_cases short : api.short = true
  · rw [if_pos ⟨connected, of_decide_eq_true short⟩] at sent
    obtain ⟨rfl, commands⟩ := sent
    rw [commands, List.drop_left]
    refine ⟨_, by rw [if_neg (by simp), if_pos short]; rfl, connected' ▸ connected, ?_, ?_⟩
    · simp [losesLink, short]
    · simp only [short, Bool.true_and]
      rfl
  · rw [if_neg fun both => short (decide_eq_true both.2)] at sent
    obtain ⟨rfl, commands⟩ := sent
    rw [commands, List.drop_length]
    refine ⟨_, by rw [if_pos (by simp), if_neg short]; rfl, connected' ▸ connected, ?_, ?_⟩
    · simp [losesLink, short]
    · simp [short]

/-- After an error of the connection a call returns `false`, and nothing arrives. -/
theorem Link.call_broken (ascending : Ascending after) (lengthFirst : Bool) (L : LuaState Int) (redis : Value Int)
    (connected : link.wrap.connected) (broken : link.err = true) (delivery : Delivery) (enough : api.command.1.length + 3 ≤ fuel) :
    ∃ link', link.call after lengthFirst fuel L redis api delivery = some (.failed, link') ∧
      link'.wrap.connected ∧ link'.err = true ∧ link'.received = link.received := by
  obtain ⟨answer, wrap, called, connected', sent⟩ :=
    api_call_correct ascending lengthFirst api link.wrap none L redis enough nofun
  have failed : answer = .failed := by
    split at sent
    · exact sent.1
    · exact sent.1
  rw [Link.call, broken]
  simp only [if_true, called, failed, Option.bind_eq_bind, Option.bind_some, Bool.true_or]
  exact ⟨_, rfl, connected' ▸ connected, rfl, rfl⟩

theorem calls_broken (ascending : Ascending after) (lengthFirst : Bool) (L : LuaState Int) (redis : Value Int)
    (connected : link.wrap.connected) (broken : link.err = true) (made : List (Api × Delivery))
    (enough : ∀ c ∈ made, c.1.command.1.length + 3 ≤ fuel) :
    ∃ link', calls after lengthFirst fuel L redis made link = some (List.replicate made.length .failed, link') ∧
      link'.wrap.connected ∧ link'.received = link.received := by
  induction made generalizing link with
  | nil => exact ⟨link, rfl, connected, rfl⟩
  | cons c made ih =>
    obtain ⟨api, delivery⟩ := c
    obtain ⟨first, rest⟩ := List.forall_mem_cons.mp enough
    obtain ⟨link₁, called, connected₁, broken₁, same₁⟩ :=
      Link.call_broken ascending lengthFirst L redis connected broken delivery first
    obtain ⟨link₂, later, connected₂, same₂⟩ := ih connected₁ broken₁ rest
    refine ⟨link₂, ?_, connected₂, same₂.trans same₁⟩
    rw [calls, called]
    simp only [Option.bind_eq_bind, Option.bind_some, later]
    rfl

/-- Until the connection is lost, the server gets the strings of the calls, in
    their order and byte for byte, but for the calls with too many, and each call
    returns the answer of its reply. From then on all calls return `false`, and
    only the table of the first of them may still have arrived. -/
theorem calls_correct (ascending : Ascending after) (lengthFirst : Bool) (L : LuaState Int) (redis : Value Int)
    (connected : link.wrap.connected) (unbroken : link.err = false) (made : List (Api × Delivery))
    (enough : ∀ c ∈ made, c.1.command.1.length + 3 ≤ fuel)
    (small : ∀ c ∈ made, ∀ rep ∈ c.2.reply?, rep.element.length ≤ 2 ^ 53 ∧ rep.element.length ≤ fuel) :
    ∃ link', calls after lengthFirst fuel L redis made link =
        some ((answeredCalls made).map (fun c => if c.1.short then c.1.command.2.answer? c.2.reply? else .failed) ++
          List.replicate (made.length - (answeredCalls made).length) .failed, link') ∧
      link'.wrap.connected ∧
      link'.received = link.received ++ ((answeredCalls made).filter fun c => c.1.short).map (fun c => c.1.sent) ++
        lastArrived made := by
  induction made generalizing link with
  | nil => exact ⟨link, rfl, connected, by simp [answeredCalls, lastArrived]⟩
  | cons c made ih =>
    obtain ⟨api, delivery⟩ := c
    obtain ⟨first, rest⟩ := List.forall_mem_cons.mp enough
    obtain ⟨firstSmall, restSmall⟩ := List.forall_mem_cons.mp small
    obtain ⟨link₁, called, connected₁, err₁, received₁⟩ :=
      Link.call_correct ascending lengthFirst L redis connected unbroken first firstSmall
    rw [calls, called]
    simp only [Option.bind_eq_bind, Option.bind_some]
    by_cases loses : losesLink (api, delivery) = true
    · -- The connection is lost here.
      obtain ⟨short, unanswered⟩ := Bool.and_eq_true_iff.mp loses
      have gone : delivery.reply? = none := Option.isNone_iff_eq_none.mp unanswered
      obtain ⟨link₂, later, connected₂, received₂⟩ :=
        calls_broken ascending lengthFirst L redis connected₁ (err₁.trans loses) made rest
      have none_before : answeredCalls ((api, delivery) :: made) = [] := by simp [answeredCalls, loses]
      have last : lastArrived ((api, delivery) :: made) = if delivery.arrived then [api.sent] else [] := by
        simp [lastArrived, loses]
      refine ⟨link₂, ?_, connected₂, ?_⟩
      · rw [later, none_before, gone]
        simp [Reading.answer?, List.replicate_succ]
      · rw [received₂, received₁, none_before, last, short]
        simp
    · obtain ⟨link₂, later, connected₂, received₂⟩ := ih connected₁ (err₁.trans (Bool.not_eq_true _ ▸ loses)) rest restSmall
      have one_more : answeredCalls ((api, delivery) :: made) = (api, delivery) :: answeredCalls made := by
        simp [answeredCalls, loses]
      have last : lastArrived ((api, delivery) :: made) = lastArrived made := by simp [lastArrived, loses]
      have arrives : api.short = true → delivery.arrived = true := by
        intro short
        cases delivery with
        | answered reply => rfl
        | lost arrived => exact absurd (by simp [losesLink, short, Delivery.reply?]) loses
      refine ⟨link₂, ?_, connected₂, ?_⟩
      · rw [later, one_more]
        simp
      · rw [received₂, received₁, one_more, last, List.filter_cons]
        by_cases short : api.short = true
        · simp [short, arrives short]
        · simp [short]

end

def connectedWrap : RedisConnectorWrap := ⟨true, fun _ => none, fun _ => 0, []⟩

/-- A list, whose first element is lost, a missing key, and two calls of which
    only the first arrives. -/
def listThenFailure : List (Api × Delivery) :=
  [(.KEYS (literal "*"), .answered (.mk 2 0 [] [.mk 1 0 [97] [], .mk 1 0 [98] []])),
    (.GET (literal "a"), .answered (.mk 4 0 [] [])), (.DEL (literal "b"), .lost true), (.DEL (literal "c"), .lost true)]

theorem list_then_failure : ∃ link', calls arrayOrder true 8 ⟨[], fun _ => .nil, fun _ => none⟩ .nil listThenFailure
      ⟨connectedWrap, false, []⟩ =
        some ((answeredCalls listThenFailure).map
            (fun c => if c.1.short then c.1.command.2.answer? c.2.reply? else .failed) ++
          List.replicate (listThenFailure.length - (answeredCalls listThenFailure).length) .failed, link') ∧
      link'.wrap.connected ∧
      link'.received = [] ++ ((answeredCalls listThenFailure).filter fun c => c.1.short).map (fun c => c.1.sent) ++
        lastArrived listThenFailure := by
  refine calls_correct arrayOrder_ascending true _ _ rfl rfl listThenFailure (by decide) ?_
  intro c member rep same
  simp only [listThenFailure, List.mem_cons, List.not_mem_nil, or_false] at member
  rcases member with rfl | rfl | rfl | rfl
  · obtain rfl := Option.some.inj same
    exact ⟨by decide, by decide⟩
  · obtain rfl := Option.some.inj same
    exact ⟨by decide, by decide⟩
  · cases same
  · cases same

/-! ### Documented commands -/

abbrev Contents := List UInt8 → Option (List UInt8)

namespace RedisReply

def status (s : List UInt8) : RedisReply := .mk 5 0 s []
def string (s : List UInt8) : RedisReply := .mk 1 0 s []
def nil : RedisReply := .mk 4 0 [] []
def count (n : Nat) : RedisReply := .mk 3 (BitVec.ofNat 64 n) [] []
def array (element : List RedisReply) : RedisReply := .mk 2 0 [] element
def error (s : List UInt8) : RedisReply := .mk 6 0 s []

end RedisReply

/-- One key after another is deleted, and those are counted that there were. -/
def deleteKeys : List (List UInt8) → Contents → Nat × Contents
  | [], m => (0, m)
  | key :: keys, m =>
    let (n, m') := deleteKeys keys (Function.update m key none)
    (if (m key).isSome then n + 1 else n, m')

def setKeys (list : List (List UInt8 × List UInt8)) (m : Contents) : Contents :=
  list.foldl (fun m v => Function.update m v.1 (some v.2)) m

/-- What the server does with the commands for strings; `contents` is the map that it has. -/
structure Documented {Database : Type} (serve : Database → List (List UInt8) → RedisReply × Database)
    (contents : Database → Contents) : Prop where
  set : ∀ db key value, (serve db [ascii "SET", key, value]).1 = .status (ascii "OK") ∧
    contents (serve db [ascii "SET", key, value]).2 = Function.update (contents db) key (some value)
  get : ∀ db key, (serve db [ascii "GET", key]).1 = ((contents db key).map RedisReply.string).getD .nil ∧
    contents (serve db [ascii "GET", key]).2 = contents db
  exists_ : ∀ db key, (serve db [ascii "EXISTS", key]).1 = .count (if (contents db key).isSome then 1 else 0) ∧
    contents (serve db [ascii "EXISTS", key]).2 = contents db
  del : ∀ db keys, keys ≠ [] → (serve db (ascii "DEL" :: keys)).1 = .count (deleteKeys keys (contents db)).1 ∧
    contents (serve db (ascii "DEL" :: keys)).2 = (deleteKeys keys (contents db)).2
  mset : ∀ db list, list ≠ [] → (serve db (ascii "MSET" :: list.flatMap fun v => [v.1, v.2])).1 = .status (ascii "OK") ∧
    contents (serve db (ascii "MSET" :: list.flatMap fun v => [v.1, v.2])).2 = setKeys list (contents db)
  mget : ∀ db keys, keys ≠ [] → (serve db (ascii "MGET" :: keys)).1 =
      .array (keys.map fun key => ((contents db key).map RedisReply.string).getD .nil) ∧
    contents (serve db (ascii "MGET" :: keys)).2 = contents db
  arguments : ∀ db, ∀ name ∈ ["DEL", "MSET", "MGET"], (∃ text, (serve db [ascii name]).1 = .error text) ∧
    contents (serve db [ascii name]).2 = contents db

/-! ### The map -/

inductive MapCall where
  | SET (Key Value : LuaString)
  | GET (Key : LuaString)
  | EXISTS (Key : LuaString)
  | DEL (Key : LuaString)
  | DELMUTI (Keys : List LuaString)
  | MSET (DataList : List (LuaString × LuaString))
  | MGET (Keys : List LuaString)

namespace MapCall

def api : MapCall → Api
  | SET Key Value => .SET Key Value
  | GET Key => .GET Key
  | EXISTS Key => .EXISTS Key
  | DEL Key => .DEL Key
  | DELMUTI Keys => .DELMUTI Keys
  | MSET DataList => .MSET DataList
  | MGET Keys => .MGET Keys

/-- What a call returns, and what becomes of the map. -/
def apply (m : Contents) : MapCall → Answer × Contents
  | SET Key Value => (.returned (.boolean true), Function.update m Key.bytes (some Value.bytes))
  | GET Key => (((m Key.bytes).map fun value => .returned (.string value)).getD .raised, m)
  | EXISTS Key => (.returned (.boolean (m Key.bytes).isSome), m)
  | DEL Key => (.returned (.boolean (m Key.bytes).isSome), Function.update m Key.bytes none)
  | DELMUTI [] => (.raised, m)
  | DELMUTI Keys =>
    let (n, m) := deleteKeys (Keys.map LuaString.bytes) m
    (.returned (.number n), m)
  | MSET [] => (.raised, m)
  | MSET DataList => (.returned (.boolean true), setKeys (DataList.map fun v => (v.1.bytes, v.2.bytes)) m)
  | MGET [] => (.raised, m)
  | MGET (_ :: Keys) => (.returned (.table (array (Keys.map fun key => .string ((m key.bytes).getD [])))), m)

def applyAll : List MapCall → Contents → List Answer × Contents
  | [], m => ([], m)
  | c :: cs, m =>
    let (answer, m) := apply m c
    let (answers, m) := applyAll cs m
    (answer :: answers, m)

end MapCall

section
variable {Database : Type} {serve : Database → List (List UInt8) → RedisReply × Database} {contents : Database → Contents}

theorem deleteKeys_le (keys : List (List UInt8)) (m : Contents) : (deleteKeys keys m).1 ≤ keys.length := by
  induction keys generalizing m with
  | nil => exact Nat.le_refl 0
  | cons key keys ih =>
    have rest := ih (Function.update m key none)
    rw [List.length_cons]
    show (if (m key).isSome then _ else _) ≤ _
    split <;> omega

theorem nearest_count {n : Nat} (small : n ≤ MAX_REDIS_ARGS) : nearest 53 (BitVec.ofNat 64 n).toInt = n := by
  have bound : n ≤ 1024 := small
  have size : (BitVec.ofNat 64 n).toNat = n := by
    rw [BitVec.toNat_ofNat]
    omega
  rw [BitVec.toInt_eq_toNat_of_lt (by omega), size, nearest_of_lt (by omega)]

theorem answer_status (s : List UInt8) : Reading.bool.answer (.status s) = .returned (.boolean true) := rfl

theorem answer_found (v : Option (List UInt8)) :
    Reading.string.answer ((v.map RedisReply.string).getD .nil) = (v.map fun value => .returned (.string value)).getD .raised := by
  cases v <;> rfl

theorem answer_flag (b : Bool) : Reading.bool.answer (.count (if b then 1 else 0)) = .returned (.boolean b) := by
  have one := nearest_count (n := 1) (by decide)
  have zero := nearest_count (n := 0) (by decide)
  cases b with
  | true =>
    show Ending.returned (Value.boolean (false || true && decide (nearest 53 (BitVec.ofNat 64 1).toInt = 1))) = _
    rw [one]
    rfl
  | false =>
    show Ending.returned (Value.boolean (false || true && decide (nearest 53 (BitVec.ofNat 64 0).toInt = 1))) = _
    rw [zero]
    rfl

theorem answer_count {n : Nat} (small : n ≤ MAX_REDIS_ARGS) : Reading.integer.answer (.count n) = .returned (.number n) := by
  show Ending.returned (Value.number (nearest 53 (BitVec.ofNat 64 n).toInt)) = _
  rw [nearest_count small]

theorem answer_error (reading : Reading) (text : List UInt8) : reading.answer (.error text) = .raised := rfl

/-- The value of the first key is lost. -/
theorem answer_values (first : List UInt8) (Keys : List LuaString) (m : Contents) :
    Reading.list.answer (.array ((first :: Keys.map LuaString.bytes).map fun key =>
      ((m key).map RedisReply.string).getD .nil)) =
      .returned (.table (array (Keys.map fun key => .string ((m key.bytes).getD [])))) := by
  have value : ∀ v : Option (List UInt8), ((v.map RedisReply.string).getD .nil).str = v.getD [] := fun v => by
    cases v <;> rfl
  show Ending.returned (Value.table (array (((Keys.map LuaString.bytes).map _).map _))) = _
  rw [List.map_map, List.map_map]
  congr 4
  funext key
  exact congrArg Value.string (value (m key.bytes))

theorem pairs_bytes (list : List (LuaString × LuaString)) : (pairs list).map LuaString.bytes =
    (list.map fun v => (v.1.bytes, v.2.bytes)).flatMap fun v => [v.1, v.2] := by
  induction list with
  | nil => rfl
  | cons v list ih =>
    show v.1.bytes :: v.2.bytes :: (pairs list).map LuaString.bytes = v.1.bytes :: v.2.bytes :: _
    rw [ih]
    rfl

/-- One call reads and writes the map, whatever is in it. -/
theorem serve_correct (documented : Documented serve contents) (c : MapCall) (short : c.api.short) (db : Database) :
    c.api.command.2.answer (serve db c.api.sent).1 = (c.apply (contents db)).1 ∧
      contents (serve db c.api.sent).2 = (c.apply (contents db)).2 := by
  cases c with
  | SET Key Value =>
    obtain ⟨reply, written⟩ := documented.set db Key.bytes Value.bytes
    exact ⟨(congrArg _ reply).trans (answer_status _), written⟩
  | GET Key =>
    obtain ⟨reply, kept⟩ := documented.get db Key.bytes
    exact ⟨(congrArg _ reply).trans (answer_found _), kept⟩
  | EXISTS Key =>
    obtain ⟨reply, kept⟩ := documented.exists_ db Key.bytes
    exact ⟨(congrArg _ reply).trans (answer_flag _), kept⟩
  | DEL Key =>
    obtain ⟨reply, written⟩ := documented.del db [Key.bytes] (List.cons_ne_nil _ _)
    exact ⟨(congrArg _ reply).trans (answer_flag _), written⟩
  | DELMUTI Keys =>
    cases Keys with
    | nil =>
      obtain ⟨⟨text, reply⟩, kept⟩ := documented.arguments db "DEL" (by decide)
      exact ⟨(congrArg _ reply).trans (answer_error _ text), kept⟩
    | cons Key Keys =>
      obtain ⟨reply, written⟩ := documented.del db ((Key :: Keys).map LuaString.bytes) (List.cons_ne_nil _ _)
      refine ⟨(congrArg _ reply).trans (answer_count ?_), written⟩
      have few : ((Key :: Keys).length + 1) ≤ MAX_REDIS_ARGS := of_decide_eq_true short
      have counted := deleteKeys_le ((Key :: Keys).map LuaString.bytes) (contents db)
      rw [List.length_map] at counted
      omega
  | MSET DataList =>
    cases DataList with
    | nil =>
      obtain ⟨⟨text, reply⟩, kept⟩ := documented.arguments db "MSET" (by decide)
      exact ⟨(congrArg _ reply).trans (answer_error _ text), kept⟩
    | cons v DataList =>
      obtain ⟨reply, written⟩ := documented.mset db ((v :: DataList).map fun v => (v.1.bytes, v.2.bytes)) (List.cons_ne_nil _ _)
      rw [← pairs_bytes] at reply written
      exact ⟨(congrArg _ reply).trans (answer_status _), written⟩
  | MGET Keys =>
    cases Keys with
    | nil =>
      obtain ⟨⟨text, reply⟩, kept⟩ := documented.arguments db "MGET" (by decide)
      exact ⟨(congrArg _ reply).trans (answer_error _ text), kept⟩
    | cons Key Keys =>
      obtain ⟨reply, kept⟩ := documented.mget db ((Key :: Keys).map LuaString.bytes) (List.cons_ne_nil _ _)
      exact ⟨(congrArg _ reply).trans (answer_values Key.bytes Keys (contents db)), kept⟩

/-! ### Sessions -/

variable {after : Traversal Int} {lengthFirst : Bool} {fuel : Nat} {L : LuaState Int} {redis : Value Int}
  {wrap wrap' : RedisConnectorWrap} {db db' : Database} {cs : List MapCall}

/-- A list in a reply is no longer than the table that was sent. -/
theorem serve_small (documented : Documented serve contents) (c : MapCall) (db : Database) :
    (serve db c.api.sent).1.element.length ≤ c.api.command.1.length := by
  have plain : ∀ {reply : RedisReply} {n : Nat}, reply.element = [] → reply.element.length ≤ n := fun empty => by
    rw [empty]
    exact Nat.zero_le _
  cases c with
  | SET Key Value => exact plain (congrArg RedisReply.element (documented.set db Key.bytes Value.bytes).1)
  | GET Key =>
    refine plain ((congrArg RedisReply.element (documented.get db Key.bytes).1).trans ?_)
    cases contents db Key.bytes <;> rfl
  | EXISTS Key => exact plain (congrArg RedisReply.element (documented.exists_ db Key.bytes).1)
  | DEL Key => exact plain (congrArg RedisReply.element (documented.del db [Key.bytes] (List.cons_ne_nil _ _)).1)
  | DELMUTI Keys =>
    cases Keys with
    | nil =>
      obtain ⟨text, reply⟩ := (documented.arguments db "DEL" (by decide)).1
      exact plain (congrArg RedisReply.element reply)
    | cons Key Keys =>
      exact plain (congrArg RedisReply.element (documented.del db ((Key :: Keys).map LuaString.bytes) (List.cons_ne_nil _ _)).1)
  | MSET DataList =>
    cases DataList with
    | nil =>
      obtain ⟨text, reply⟩ := (documented.arguments db "MSET" (by decide)).1
      exact plain (congrArg RedisReply.element reply)
    | cons v DataList =>
      have reply := (documented.mset db ((v :: DataList).map fun v => (v.1.bytes, v.2.bytes)) (List.cons_ne_nil _ _)).1
      rw [← pairs_bytes] at reply
      exact plain (congrArg RedisReply.element reply)
  | MGET Keys =>
    cases Keys with
    | nil =>
      obtain ⟨text, reply⟩ := (documented.arguments db "MGET" (by decide)).1
      exact plain (congrArg RedisReply.element reply)
    | cons Key Keys =>
      have reply := (documented.mget db ((Key :: Keys).map LuaString.bytes) (List.cons_ne_nil _ _)).1
      refine (congrArg (fun rep => rep.element.length) reply).trans_le ?_
      show (((Key :: Keys).map LuaString.bytes).map _).length ≤ _
      rw [List.length_map, List.length_map]
      exact Nat.le_succ _

/-- What one call sends, whatever the server replies. -/
theorem call_sent (ascending : Ascending after) (lengthFirst : Bool) (L : LuaState Int) (redis : Value Int)
    (connected : wrap.connected) (c : MapCall) (short : c.api.short) (enough : c.api.command.1.length + 3 ≤ fuel)
    (reply : RedisReply) (small : reply.element.length ≤ c.api.command.1.length) :
    ∃ wrap', c.api.call after lengthFirst fuel wrap (some reply) L redis = some (c.api.command.2.answer reply, wrap') ∧
      wrap'.connected ∧ wrap'.commands = wrap.commands ++ [c.api.sent] := by
  have few : c.api.command.1.length ≤ 1024 := of_decide_eq_true short
  have fits : ∀ rep ∈ some reply, rep.element.length ≤ 2 ^ 53 ∧ rep.element.length ≤ fuel := by
    intro rep same
    obtain rfl := Option.some.inj same
    omega
  obtain ⟨answer, wrap', called, connected', sent⟩ := api_call_correct ascending lengthFirst c.api wrap (some reply) L redis enough fits
  rw [if_pos ⟨connected, few⟩] at sent
  obtain ⟨rfl, commands⟩ := sent
  exact ⟨wrap', called, connected' ▸ connected, commands⟩

/-- The reply has no part in what is sent. -/
theorem call_commands (ascending : Ascending after) (connected : wrap.connected) {api : Api} (short : api.short)
    (enough : api.command.1.length + 3 ≤ fuel) {reply : Option RedisReply} {answer : Answer}
    (called : api.call after lengthFirst fuel wrap reply L redis = some (answer, wrap')) :
    wrap'.commands = wrap.commands ++ [api.sent] := by
  have few : api.sent.length ≤ MAX_REDIS_ARGS := by
    rw [Api.sent, List.length_map]
    exact of_decide_eq_true short
  obtain ⟨run, issued, sent⟩ := issue_connected reply
    { L with stack := [.table (array (api.command.1.map LuaString.pair)), redis] } few connected
  rw [Api.call, command_issue ascending enough] at called
  obtain ⟨run', issued', called⟩ := Option.bind_eq_some_iff.mp called
  obtain rfl := Option.some.inj (issued.symm.trans issued')
  obtain ⟨answer', read, same⟩ := Option.bind_eq_some_iff.mp called
  obtain ⟨rfl, rfl⟩ := Prod.mk.inj (Option.some.inj same)
  exact sent.commands

theorem session_exists (documented : Documented serve contents) (ascending : Ascending after) (lengthFirst : Bool)
    (L : LuaState Int) (redis : Value Int) (connected : wrap.connected) (short : ∀ c ∈ cs, c.api.short)
    (enough : ∀ c ∈ cs, c.api.command.1.length + 3 ≤ fuel) (db : Database) :
    ∃ answers wrap' db', Session after lengthFirst fuel L redis serve wrap db (cs.map MapCall.api) answers wrap' db' := by
  induction cs generalizing wrap db with
  | nil => exact ⟨[], wrap, db, .done⟩
  | cons c cs ih =>
    obtain ⟨first, rest⟩ := List.forall_mem_cons.mp enough
    obtain ⟨firstShort, restShort⟩ := List.forall_mem_cons.mp short
    obtain ⟨wrap₁, called, connected₁, sent⟩ := call_sent ascending lengthFirst L redis connected c firstShort first
      (serve db c.api.sent).1 (serve_small documented c db)
    obtain ⟨answers, wrap', db', later⟩ := ih connected₁ restShort rest (serve db c.api.sent).2
    exact ⟨_, wrap', db', .call called sent rfl later⟩

theorem session_correct (documented : Documented serve contents) (ascending : Ascending after)
    (connected : wrap.connected) (short : ∀ c ∈ cs, c.api.short) (enough : ∀ c ∈ cs, c.api.command.1.length + 3 ≤ fuel)
    {answers : List Answer}
    (session : Session after lengthFirst fuel L redis serve wrap db (cs.map MapCall.api) answers wrap' db') :
    answers = (MapCall.applyAll cs (contents db)).1 ∧ contents db' = (MapCall.applyAll cs (contents db)).2 := by
  induction cs generalizing wrap db answers with
  | nil =>
    cases session
    exact ⟨rfl, rfl⟩
  | cons c cs ih =>
    obtain ⟨first, rest⟩ := List.forall_mem_cons.mp enough
    obtain ⟨firstShort, restShort⟩ := List.forall_mem_cons.mp short
    cases session with
    | @call _ _ _ answer sent reply wrap₁ db₁ _ answers _ _ called commands served later =>
      have commands' := call_commands ascending connected firstShort first called
      obtain rfl : sent = c.api.sent :=
        (List.cons.inj (List.append_cancel_left (commands.symm.trans commands'))).1
      obtain rfl : (serve db c.api.sent).1 = reply := congrArg Prod.fst served
      obtain rfl : (serve db c.api.sent).2 = db₁ := congrArg Prod.snd served
      obtain ⟨wrap₂, called', connected₂, -⟩ := call_sent ascending lengthFirst L redis connected c firstShort first
        (serve db c.api.sent).1 (serve_small documented c db)
      obtain ⟨rfl, rfl⟩ := Prod.mk.inj (Option.some.inj (called.symm.trans called'))
      obtain ⟨answered, written⟩ := serve_correct documented c firstShort db
      obtain ⟨rfl, rest'⟩ := ih connected₂ restShort rest later
      rw [written] at rest' ⊢
      rw [answered]
      exact ⟨rfl, rest'⟩

/-- A script with a connection, whatever it calls, is answered as if it worked on a
    map, and that is the map that the server has in the end. -/
theorem session_refines_map (documented : Documented serve contents) (ascending : Ascending after) (lengthFirst : Bool)
    (L : LuaState Int) (redis : Value Int) (connected : wrap.connected) (cs : List MapCall)
    (short : ∀ c ∈ cs, c.api.short) (enough : ∀ c ∈ cs, c.api.command.1.length + 3 ≤ fuel) (db : Database) :
    (∃ answers wrap' db', Session after lengthFirst fuel L redis serve wrap db (cs.map MapCall.api) answers wrap' db') ∧
      ∀ answers wrap' db', Session after lengthFirst fuel L redis serve wrap db (cs.map MapCall.api) answers wrap' db' →
        answers = (MapCall.applyAll cs (contents db)).1 ∧ contents db' = (MapCall.applyAll cs (contents db)).2 :=
  ⟨session_exists documented ascending lengthFirst L redis connected short enough db,
    fun _ _ _ session => session_correct documented ascending connected short enough session⟩

end

/-! ### A server that is a map -/

def pairUp : List (List UInt8) → List (List UInt8 × List UInt8)
  | key :: value :: rest => (key, value) :: pairUp rest
  | _ => []

def mapServer (m : Contents) : (command : List (List UInt8)) → RedisReply × Contents
  | [] => (.error [], m)
  | [_] => (.error (ascii "ERR wrong number of arguments"), m)
  | name :: key :: args =>
    if name = ascii "SET" then (.status (ascii "OK"), Function.update m key args.head?)
    else if name = ascii "GET" then (((m key).map RedisReply.string).getD .nil, m)
    else if name = ascii "EXISTS" then (.count (if (m key).isSome then 1 else 0), m)
    else if name = ascii "DEL" then (.count (deleteKeys (key :: args) m).1, (deleteKeys (key :: args) m).2)
    else if name = ascii "MSET" then (.status (ascii "OK"), setKeys (pairUp (key :: args)) m)
    else if name = ascii "MGET" then (.array ((key :: args).map fun key => ((m key).map RedisReply.string).getD .nil), m)
    else (.error (ascii "ERR unknown command"), m)

theorem pairUp_flatMap (list : List (List UInt8 × List UInt8)) : pairUp (list.flatMap fun v => [v.1, v.2]) = list := by
  induction list with
  | nil => rfl
  | cons v list ih =>
    show (v.1, v.2) :: pairUp (list.flatMap fun v => [v.1, v.2]) = _
    rw [ih]

theorem mapServer_documented : Documented mapServer id where
  set _ _ _ := ⟨rfl, rfl⟩
  get _ _ := ⟨rfl, rfl⟩
  exists_ _ _ := ⟨rfl, rfl⟩
  del db keys some_keys := by
    cases keys with
    | nil => exact absurd rfl some_keys
    | cons key keys => exact ⟨rfl, rfl⟩
  mset db list some_pairs := by
    cases list with
    | nil => exact absurd rfl some_pairs
    | cons v list => exact ⟨rfl, congrArg (fun list => setKeys list db) (pairUp_flatMap (v :: list))⟩
  mget db keys some_keys := by
    cases keys with
    | nil => exact absurd rfl some_keys
    | cons key keys => exact ⟨rfl, rfl⟩
  arguments db name member := ⟨⟨_, rfl⟩, rfl⟩

/-- Two keys are written, and read by one `MGET`. -/
def twoKeys : List MapCall :=
  [.SET (literal "a") (literal "1"), .SET (literal "b") (literal "2"), .MGET [literal "a", literal "b"], .GET (literal "c")]

theorem two_keys_session :
    (∃ answers wrap' db', Session arrayOrder true 8 ⟨[], fun _ => .nil, fun _ => none⟩ .nil mapServer connectedWrap
      (fun _ => none) (twoKeys.map MapCall.api) answers wrap' db') ∧
    ∀ answers wrap' db', Session arrayOrder true 8 ⟨[], fun _ => .nil, fun _ => none⟩ .nil mapServer connectedWrap
      (fun _ => none) (twoKeys.map MapCall.api) answers wrap' db' →
        answers = (MapCall.applyAll twoKeys fun _ => none).1 ∧ id db' = (MapCall.applyAll twoKeys fun _ => none).2 :=
  session_refines_map mapServer_documented arrayOrder_ascending true _ _ rfl twoKeys (by decide) (by decide) _

end LiteServer.Db
