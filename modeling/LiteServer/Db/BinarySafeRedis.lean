import LiteServer.Db.SafeCommand

/-!
The class `BinarySafeRedis` of `redis.lua`: each call sends a table of strings
and reads the reply in one of four ways. What `tostring` makes of a number is
given as the string, and a table of strings or of pairs as a list. A reply that
is nil or an error makes a call raise, as `err` is defined nowhere.
-/
namespace LiteServer.Db
open LiteServer.Lua

def ascii (s : String) : List UInt8 := s.toList.map fun c => UInt8.ofNat c.toNat

/-- A literal of the script. -/
def literal (s : String) (short : (ascii s).length < 2 ^ 31 := by decide) : LuaString := ⟨ascii s, short⟩

/-! ### Reading a reply -/

abbrev Answer := Ending (Value Int)

/-- How a reply is read: `_CommandBool`, `_CommandString`, `_CommandInteger` or `_CommandList`. -/
inductive Reading where
  | bool
  | string
  | integer
  | list
  deriving DecidableEq, Repr

def commandBool (rep : Value Int) : Option Answer :=
  checked rep do
    let type ← number? (← index rep REDIS_REPLY_INDEX_TYPE)
    let value := decide (type = REDIS_REPLY_TYPE_STATUS)
    let value ← if type = REDIS_REPLY_TYPE_INTEGER then do
        let n ← index rep REDIS_REPLY_INDEX_INT
        pure (decide (number? n = some 1))
      else pure value
    return .boolean value

/-- `_CommandString` and `_CommandInteger` return a field of the reply. -/
def commandField (field : Int) (rep : Value Int) : Option Answer := checked rep (index rep field)

def Reading.read (fuel : Nat) : Reading → (rep : Value Int) → Option Answer
  | .bool, rep => commandBool rep
  | .string, rep => commandField REDIS_REPLY_INDEX_STRDATA rep
  | .integer, rep => commandField REDIS_REPLY_INDEX_INT rep
  | .list, rep => do
    match ← commandList fuel rep with
    | .failed => return .failed
    | .returned values => return .returned (.table (array values))
    | .raised => return .raised

/-! ### The calls -/

inductive Api where
  | Select (DBIndex : LuaString)
  | Ping (Str : LuaString)
  | Auth (Pwd : LuaString)
  | EXISTS (Key : LuaString)
  | DEL (Key : LuaString)
  | DELMUTI (Keys : List LuaString)
  | KEYS (Pattern : LuaString)
  | TTL (Key : LuaString)
  | EXPIRE (Key seconds : LuaString)
  | GET (Key : LuaString)
  | SET (Key Value : LuaString)
  | MGET (Keys : List LuaString)
  | MSET (DataList : List (LuaString × LuaString))
  | INCR (Key : LuaString)
  | RPUSH (Key : LuaString) (Values : List LuaString)
  | LLEN (Key : LuaString)
  | LRANGE (Key Start End : LuaString)
  | LREM (Key Value : LuaString)
  | HDEL (Key : LuaString) (FiledsList : List LuaString)
  | HGETALL (Key : LuaString)
  | HGET (Key Filed : LuaString)
  | HSET (Key Filed Value : LuaString)
  | HMGET (Key : LuaString) (FiledsList : List LuaString)
  | HMSET (Key : LuaString) (FVList : List (LuaString × LuaString))
  | HLEN (Key : LuaString)
  | HKEYS (Key : LuaString)
  | HINCRBY (Key Filed Incr : LuaString)
  | HEXISTS (Key Filed : LuaString)
  | HVALS (Key : LuaString)
  | SADD (Key : LuaString) (Values : List LuaString)
  | SMEMBERS (Key : LuaString)
  | SREM (Key : LuaString) (Values : List LuaString)
  | SISMEMBER (Key Value : LuaString)
  | ZADD (Key : LuaString) (FVList : List (LuaString × LuaString))
  | ZINCRBY (Key Incr Filed : LuaString)
  | ZREM (Key : LuaString) (FiledsList : List LuaString)
  | ZRANGE (Key Start End : LuaString)
  | ZRANGEWITHSCORE (Key Start End : LuaString)
  | ZREVRANGE (Key Start End : LuaString)
  | ZRERANGEWITHSCORE (Key Start End : LuaString)
  | ZREVRANGEBYSCORE (Key StartScore EndScore : LuaString)
  | ZRANGEBYSCORE (Key StartScore EndScore : LuaString)
  | ZCOUNT (Key StartScore EndScore : LuaString)
  | ZCARD (Key : LuaString)
  | ZRANK (Key Filed : LuaString)
  | ZREVRANK (Key Filed : LuaString)
  | ZSCORE (Key Filed : LuaString)

def pairs (FVList : List (LuaString × LuaString)) : List LuaString := FVList.flatMap fun v => [v.1, v.2]

/-- The table that is sent, and how the reply is read. `HMSET` sends an `HMGET`. -/
def Api.command : Api → List LuaString × Reading
  | .Select DBIndex => ([literal "SELECT", DBIndex], .bool)
  | .Ping Str => ([literal "PING", Str], .string)
  | .Auth Pwd => ([literal "AUTH", Pwd], .bool)
  | .EXISTS Key => ([literal "EXISTS", Key], .bool)
  | .DEL Key => ([literal "DEL", Key], .bool)
  | .DELMUTI Keys => (literal "DEL" :: Keys, .integer)
  | .KEYS Pattern => ([literal "KEYS", Pattern], .list)
  | .TTL Key => ([literal "TTL", Key], .integer)
  | .EXPIRE Key seconds => ([literal "EXPIRE", Key, seconds], .bool)
  | .GET Key => ([literal "GET", Key], .string)
  | .SET Key Value => ([literal "SET", Key, Value], .bool)
  | .MGET Keys => (literal "MGET" :: Keys, .list)
  | .MSET DataList => (literal "MSET" :: pairs DataList, .bool)
  | .INCR Key => ([literal "INCR", Key], .integer)
  | .RPUSH Key Values => (literal "RPUSH" :: Key :: Values, .integer)
  | .LLEN Key => ([literal "LLEN", Key], .integer)
  | .LRANGE Key Start End => ([literal "LRANGE", Key, Start, End], .list)
  | .LREM Key Value => ([literal "LREM", Key, literal "0", Value], .bool)
  | .HDEL Key FiledsList => (literal "HDEL" :: Key :: FiledsList, .integer)
  | .HGETALL Key => ([literal "HGETALL", Key], .list)
  | .HGET Key Filed => ([literal "HGET", Key, Filed], .string)
  | .HSET Key Filed Value => ([literal "HSET", Key, Filed, Value], .bool)
  | .HMGET Key FiledsList => (literal "HMGET" :: Key :: FiledsList, .list)
  | .HMSET Key FVList => (literal "HMGET" :: Key :: pairs FVList, .bool)
  | .HLEN Key => ([literal "HLEN", Key], .integer)
  | .HKEYS Key => ([literal "HKEYS", Key], .list)
  | .HINCRBY Key Filed Incr => ([literal "HINCRBY", Key, Filed, Incr], .integer)
  | .HEXISTS Key Filed => ([literal "HEXISTS", Key, Filed], .bool)
  | .HVALS Key => ([literal "HVALS", Key], .list)
  | .SADD Key Values => (literal "SADD" :: Key :: Values, .integer)
  | .SMEMBERS Key => ([literal "SMEMBERS", Key], .list)
  | .SREM Key Values => (literal "SREM" :: Key :: Values, .integer)
  | .SISMEMBER Key Value => ([literal "SISMEMBER", Key, Value], .integer)
  | .ZADD Key FVList => (literal "ZADD" :: Key :: pairs FVList, .integer)
  | .ZINCRBY Key Incr Filed => ([literal "ZINCRBY", Key, Incr, Filed], .string)
  | .ZREM Key FiledsList => (literal "ZREM" :: Key :: FiledsList, .integer)
  | .ZRANGE Key Start End => ([literal "ZRANGE", Key, Start, End], .list)
  | .ZRANGEWITHSCORE Key Start End => ([literal "ZRANGE", Key, Start, End, literal "WITHSCORES"], .list)
  | .ZREVRANGE Key Start End => ([literal "ZREVRANGE", Key, Start, End], .list)
  | .ZRERANGEWITHSCORE Key Start End => ([literal "ZREVRANGE", Key, Start, End, literal "WITHSCORES"], .list)
  | .ZREVRANGEBYSCORE Key StartScore EndScore => ([literal "ZREVRANGEBYSCORE", Key, StartScore, EndScore], .list)
  | .ZRANGEBYSCORE Key StartScore EndScore => ([literal "ZRANGEBYSCORE", Key, StartScore, EndScore], .list)
  | .ZCOUNT Key StartScore EndScore => ([literal "ZCOUNT", Key, StartScore, EndScore], .integer)
  | .ZCARD Key => ([literal "ZCARD", Key], .integer)
  | .ZRANK Key Filed => ([literal "ZRANK", Key, Filed], .integer)
  | .ZREVRANK Key Filed => ([literal "ZREVRANK", Key, Filed], .integer)
  | .ZSCORE Key Filed => ([literal "ZSCORE", Key, Filed], .string)

/-- What `SafeCommand` returns to the script. -/
def SafeCommandRun.result (run : SafeCommandRun) : Value Int :=
  if run.results = 1 then run.L.stack.head?.getD .nil else .nil

/-- A call of the class; `reply` is what the server answers, `none` where the connection failed. -/
def Api.call (after : Traversal Int) (lengthFirst : Bool) (fuel : Nat) (wrap : RedisConnectorWrap)
    (reply : Option RedisReply) (L : LuaState Int) (redis : Value Int) (api : Api) : Option (Answer × RedisConnectorWrap) := do
  let run ← Db.command after lengthFirst fuel wrap reply L redis (.table (array (api.command.1.map LuaString.value)))
  let answer ← api.command.2.read fuel run.result
  return (answer, run.wrap)

/-! ### What a reply is read as -/

namespace RedisReply

def type : RedisReply → BitVec 32
  | mk type _ _ _ => type

def integer : RedisReply → BitVec 64
  | mk _ integer _ _ => integer

def str : RedisReply → List UInt8
  | mk _ _ str _ => str

def element : RedisReply → List RedisReply
  | mk _ _ _ element => element

/-- A string, an array, an integer or a status; neither nil nor an error. -/
def accepted (reply : RedisReply) : Bool := reply.type = 1 || reply.type = 2 || reply.type = 3 || reply.type = 5

end RedisReply

/-- The value of a reply; a list has the strings of all elements but the first. -/
def Reading.value (reply : RedisReply) : Reading → Value Int
  | .bool => .boolean (reply.type = 5 || reply.type = 3 && nearest 53 reply.integer.toInt = 1)
  | .string => .string reply.str
  | .integer => .number (nearest 53 reply.integer.toInt)
  | .list => .table (array ((reply.element.drop 1).map fun element => .string element.str))

def Reading.answer (reading : Reading) (reply : RedisReply) : Answer :=
  if reply.accepted then .returned (reading.value reply) else .raised

/-- Without a reply a call returns `false`. -/
def Reading.answer? (reading : Reading) : (reply : Option RedisReply) → Answer
  | none => .failed
  | some reply => reading.answer reply

section
variable {fuel : Nat} {reply : RedisReply} {element : List RedisReply}

/-- The indices of the elements are doubles, so that each has its own place. -/
theorem elementFields_get {fields : Key Int → Value Int} {i : Nat} (small : i + element.length ≤ 2 ^ 53) (k : Nat) :
    elementFields fields i element (.number k) =
      if i ≤ k ∧ k < i + element.length then (element[k - i]?.map replyTable).getD .nil else fields (.number k) := by
  induction element generalizing fields i with
  | nil => rw [elementFields, if_neg (by rw [List.length_nil]; omega)]
  | cons reply element ih =>
    rw [List.length_cons] at small
    have exact_index : nearest 53 i = i := nearest_of_lt (by omega)
    rw [elementFields, ih (by omega), exact_index, List.length_cons]
    by_cases first : k = i
    · subst first
      rw [if_neg (by omega), if_pos (by omega), Nat.sub_self, Function.update_self]
      rfl
    · by_cases later : i + 1 ≤ k ∧ k < i + 1 + element.length
      · rw [if_pos later, if_pos (by omega), show k - i = k - (i + 1) + 1 by omega, List.getElem?_cons_succ]
      · rw [if_neg later, if_neg (by omega), Function.update_of_ne]
        simpa using fun same : (k : Int) = i => first (Int.ofNat.inj same)

theorem replyTable_ne_nil (reply : RedisReply) : replyTable reply ≠ .nil := by
  cases reply
  rw [replyTable]
  exact nofun

/-- `ipairs` begins behind the element at index 0. -/
theorem ipairs_elements (small : element.length ≤ 2 ^ 53) {j : Nat} (inside : j ≤ element.length)
    (enough : element.length < j + fuel) :
    ipairs (.table (elementFields (fun _ => .nil) 0 element)) fuel j = some ((element.drop j).map replyTable) := by
  have found : ∀ k : Nat, index (.table (elementFields (fun _ => .nil) 0 element)) k =
      some ((element[k]?.map replyTable).getD .nil) := by
    intro k
    rw [index, elementFields_get (by omega)]
    by_cases here : k < element.length
    · rw [if_pos (by omega), Nat.sub_zero]
    · rw [if_neg (by omega), List.getElem?_eq_none (by omega)]
      rfl
  induction fuel generalizing j with
  | zero => omega
  | succ fuel ih =>
    by_cases last : j = element.length
    · subst last
      rw [ipairs, found, List.getElem?_eq_none (Nat.le_refl _), List.drop_length]
      rfl
    · have here : j < element.length := by omega
      have value := found j
      rw [List.getElem?_eq_getElem here] at value
      have rest : ipairs (.table (elementFields (fun _ => .nil) 0 element)) fuel ((j : Int) + 1) =
          some ((element.drop (j + 1)).map replyTable) := ih (j := j + 1) (by omega) (by omega)
      rw [ipairs_succ value (replyTable_ne_nil _), rest, List.drop_eq_getElem_cons here]
      rfl

theorem listed_elements (small : reply.element.length ≤ 2 ^ 53) (enough : reply.element.length ≤ fuel) :
    listed fuel (replyTable reply) = some ((reply.element.drop 1).map replyTable) := by
  obtain ⟨type, integer, str, element⟩ := reply
  rw [listed_replyTable, RedisReply.element]
  rw [RedisReply.element] at small enough
  by_cases some_elements : element.length > 0
  · rw [if_pos some_elements]
    exact ipairs_elements (j := 1) small some_elements (by omega)
  · rw [if_neg some_elements, List.drop_eq_nil_of_le (by omega)]
    rfl

theorem index_str (reply : RedisReply) : index (replyTable reply) REDIS_REPLY_INDEX_STRDATA = some (.string reply.str) := by
  cases reply
  rw [replyTable]
  rfl

theorem index_integer (reply : RedisReply) :
    index (replyTable reply) REDIS_REPLY_INDEX_INT = some (.number (nearest 53 reply.integer.toInt)) := by
  cases reply
  rw [replyTable]
  rfl

/-- The type of a reply is a double. -/
theorem index_type (reply : RedisReply) : index (replyTable reply) REDIS_REPLY_INDEX_TYPE = some (.number reply.type.toInt) := by
  have below := BitVec.toInt_lt (x := reply.type)
  have above := BitVec.le_toInt reply.type
  have type_exact : nearest 53 reply.type.toInt = reply.type.toInt := nearest_of_lt (by omega)
  have field : index (replyTable reply) REDIS_REPLY_INDEX_TYPE = some (.number (nearest 53 reply.type.toInt)) := by
    cases reply
    rw [replyTable]
    rfl
  rw [field, type_exact]

theorem toInt_five (type : BitVec 32) : type.toInt = REDIS_REPLY_TYPE_STATUS ↔ type = 5 := BitVec.toInt_inj (y := 5)

theorem toInt_three (type : BitVec 32) : type.toInt = REDIS_REPLY_TYPE_INTEGER ↔ type = 3 := BitVec.toInt_inj (y := 3)

theorem checkReply_replyTable (reply : RedisReply) :
    checkReply (replyTable reply) = if reply.accepted then .returned () else .raised := by
  have one : reply.type.toInt = REDIS_REPLY_TYPE_STRING ↔ reply.type = 1 := BitVec.toInt_inj (y := 1)
  have two : reply.type.toInt = REDIS_REPLY_TYPE_ARRAY ↔ reply.type = 2 := BitVec.toInt_inj (y := 2)
  rw [checkReply, index_type, RedisReply.accepted]
  simp only [one, two, toInt_three, toInt_five, Bool.or_eq_true, decide_eq_true_eq, or_assoc]

theorem checked_accepted {α : Type} {value : Option α} (ok : reply.accepted = true) :
    checked (replyTable reply) value = value.map .returned := by
  rw [checked, checkReply_replyTable, if_pos ok]

theorem checked_raised {α : Type} {value : Option α} (ok : ¬ reply.accepted = true) :
    checked (replyTable reply) value = some .raised := by
  rw [checked, checkReply_replyTable, if_neg ok]

theorem mapM_str (replies : List RedisReply) :
    (replies.map replyTable).mapM (fun v => index v REDIS_REPLY_INDEX_STRDATA) = some (replies.map fun reply => .string reply.str) := by
  induction replies with
  | nil => rfl
  | cons reply replies ih =>
    rw [List.map_cons, List.mapM_cons, index_str, ih]
    rfl

/-- The script reads a reply as its `answer`. -/
theorem read_replyTable (reading : Reading) (small : reply.element.length ≤ 2 ^ 53) (enough : reply.element.length ≤ fuel) :
    reading.read fuel (replyTable reply) = some (reading.answer reply) := by
  by_cases ok : reply.accepted = true
  · rw [Reading.answer, if_pos ok]
    cases reading with
    | bool =>
      rw [Reading.read, commandBool, checked_accepted ok, index_type, index_integer]
      simp only [number?, Option.bind_eq_bind, Option.bind_some, toInt_three, toInt_five, Reading.value]
      by_cases isInteger : reply.type = 3
      · have noStatus : ¬ reply.type = 5 := by
          rw [isInteger]
          decide
        rw [if_pos isInteger, decide_eq_false noStatus, decide_eq_true isInteger]
        simp
      · rw [if_neg isInteger, decide_eq_false isInteger]
        simp
    | string =>
      rw [Reading.read, commandField, checked_accepted ok, index_str]
      rfl
    | integer =>
      rw [Reading.read, commandField, checked_accepted ok, index_integer]
      rfl
    | list =>
      rw [Reading.read, commandList, checked_accepted ok, listed_elements small enough]
      simp only [Option.bind_eq_bind, Option.bind_some, mapM_str]
      rfl
  · rw [Reading.answer, if_neg ok]
    cases reading with
    | bool => rw [Reading.read, commandBool, checked_raised ok]
    | string => rw [Reading.read, commandField, checked_raised ok]
    | integer => rw [Reading.read, commandField, checked_raised ok]
    | list =>
      rw [Reading.read, commandList, checked_raised ok]
      rfl

end

/-! ### A call -/

section
variable {after : Traversal Int} {lengthFirst : Bool} {strings : List LuaString} {L : LuaState Int} {redis : Value Int}
  {fuel : Nat} {wrap : RedisConnectorWrap} {reply : Option RedisReply} {api : Api}

/-- `Command` comes to the strings of its table. -/
theorem command_issue (ascending : Ascending after) (enough : strings.length + 3 ≤ fuel) :
    command after lengthFirst fuel wrap reply L redis (.table (array (strings.map LuaString.value))) =
      issue wrap reply (strings.map LuaString.bytes)
        { L with stack := [.table (array (strings.map LuaString.pair)), redis] } := by
  let entry : LuaState Int := { L with stack := [.table (array (strings.map LuaString.pair)), redis] }
  have collected : collect after lengthFirst entry.gettop fuel [] (entry.push .nil) =
      some (.strings (strings.map LuaString.bytes) entry) := by
    have split : entry.stack = .table (array (strings.map LuaString.pair)) :: [redis] := rfl
    obtain ⟨more, rfl⟩ := Nat.exists_eq_add_of_le enough
    rw [Nat.add_right_comm]
    exact collect_pairs ascending split strings [] rfl more
  rw [command, newArg_strings (by omega)]
  show safeCommand after lengthFirst fuel wrap reply entry = _
  have top : Lib.IndexedStack.get entry.stack entry.gettop = some (.table (array (strings.map LuaString.pair))) := rfl
  rw [safeCommand, top]
  show (collect after lengthFirst entry.gettop fuel [] (entry.push .nil)).bind _ = _
  rw [collected]
  rfl

/-- What was sent, and what the script has of the reply. -/
structure Issued (wrap : RedisConnectorWrap) (reply : Option RedisReply) (sent : List (List (List UInt8)))
    (run : SafeCommandRun) : Prop where
  result : run.result = (reply.map replyTable).getD .nil
  connected : run.wrap.connected = wrap.connected
  commands : run.wrap.commands = wrap.commands ++ sent

theorem issue_connected (reply : Option RedisReply) (L : LuaState Int) {strargs : List (List UInt8)}
    (short : strargs.length ≤ MAX_REDIS_ARGS) (connected : wrap.connected) :
    ∃ run, issue wrap reply strargs L = some run ∧ Issued wrap reply [strargs] run := by
  obtain ⟨wrap', set, filled⟩ := RedisConnectorWrap.fillArgs_total_correct wrap strargs.length
    (show 0 + strargs.length ≤ MAX_REDIS_ARGS by omega)
  have sent := RedisConnectorWrap.redisSafeCommand_correct filled connected reply
  rw [issue, if_neg (Nat.not_lt.mpr short), set]
  simp only [Option.bind_eq_bind, Option.bind_some, sent]
  cases reply with
  | none => exact ⟨_, rfl, rfl, filled.connected, rfl⟩
  | some reply =>
    simp only [fillReply_total_correct, Option.bind_some]
    exact ⟨_, rfl, rfl, filled.connected, rfl⟩

theorem issue_refused (reply : Option RedisReply) (L : LuaState Int) {strargs : List (List UInt8)}
    (refused : ¬ (wrap.connected ∧ strargs.length ≤ MAX_REDIS_ARGS)) :
    ∃ run, issue wrap reply strargs L = some run ∧ Issued wrap none [] run := by
  by_cases long : strargs.length > MAX_REDIS_ARGS
  · exact ⟨_, if_pos long, rfl, rfl, (List.append_nil _).symm⟩
  · have unconnected : ¬ wrap.connected := fun connected => refused ⟨connected, Nat.not_lt.mp long⟩
    obtain ⟨wrap', set, filled⟩ := RedisConnectorWrap.fillArgs_total_correct wrap strargs.length
      (show 0 + strargs.length ≤ MAX_REDIS_ARGS by omega)
    have unsent : wrap'.redisSafeCommand strargs strargs.length reply = some (none, wrap') := by
      rw [RedisConnectorWrap.redisSafeCommand, filled.connected, if_pos (by simp [unconnected])]
    rw [issue, if_neg long, set]
    simp only [Option.bind_eq_bind, Option.bind_some, unsent]
    exact ⟨_, rfl, rfl, filled.connected, filled.commands.trans (List.append_nil _).symm⟩

theorem read_result {run : SafeCommandRun} {sent : List (List (List UInt8))} (issued : Issued wrap reply sent run)
    (reading : Reading) (small : ∀ rep ∈ reply, rep.element.length ≤ 2 ^ 53 ∧ rep.element.length ≤ fuel) :
    reading.read fuel run.result = some (reading.answer? reply) := by
  rw [issued.result]
  cases reply with
  | none => cases reading <;> rfl
  | some rep => exact read_replyTable reading (small rep rfl).1 (small rep rfl).2

/-- A call sends its strings as they are and returns the answer of the reply. A
    connector without a connection and a table of more than `MAX_REDIS_ARGS`
    strings send nothing, and the call returns `false`. -/
theorem api_call_correct (ascending : Ascending after) (lengthFirst : Bool) (api : Api) (wrap : RedisConnectorWrap)
    (reply : Option RedisReply) (L : LuaState Int) (redis : Value Int) (enough : api.command.1.length + 3 ≤ fuel)
    (small : ∀ rep ∈ reply, rep.element.length ≤ 2 ^ 53 ∧ rep.element.length ≤ fuel) :
    ∃ answer wrap', api.call after lengthFirst fuel wrap reply L redis = some (answer, wrap') ∧
      wrap'.connected = wrap.connected ∧
      if wrap.connected ∧ api.command.1.length ≤ MAX_REDIS_ARGS then
        answer = api.command.2.answer? reply ∧ wrap'.commands = wrap.commands ++ [api.command.1.map LuaString.bytes]
      else answer = .failed ∧ wrap'.commands = wrap.commands := by
  let entry : LuaState Int := { L with stack := [.table (array (api.command.1.map LuaString.pair)), redis] }
  have called : ∀ run answer, issue wrap reply (api.command.1.map LuaString.bytes) entry = some run →
      api.command.2.read fuel run.result = some answer →
      api.call after lengthFirst fuel wrap reply L redis = some (answer, run.wrap) := by
    intro run answer issued read
    rw [Api.call, command_issue ascending enough, issued]
    simp only [Option.bind_eq_bind, Option.bind_some, read]
    rfl
  by_cases goes : wrap.connected ∧ api.command.1.length ≤ MAX_REDIS_ARGS
  · have few : (api.command.1.map LuaString.bytes).length ≤ MAX_REDIS_ARGS := by
      rw [List.length_map]
      exact goes.2
    obtain ⟨run, issued, sent⟩ := issue_connected reply entry few goes.1
    refine ⟨_, _, called run _ issued (read_result sent _ small), sent.connected, ?_⟩
    rw [if_pos goes]
    exact ⟨rfl, sent.commands⟩
  · have refused : ¬ (wrap.connected ∧ (api.command.1.map LuaString.bytes).length ≤ MAX_REDIS_ARGS) := by
      rw [List.length_map]
      exact goes
    obtain ⟨run, issued, sent⟩ := issue_refused reply entry refused
    refine ⟨_, _, called run _ issued (read_result sent _ nofun), sent.connected, ?_⟩
    rw [if_neg goes]
    exact ⟨rfl, sent.commands.trans (List.append_nil _)⟩

end

end LiteServer.Db
