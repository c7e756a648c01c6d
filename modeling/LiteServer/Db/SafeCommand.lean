import LiteServer.Db.RoundTrip
import LiteServer.Lua.Arrays

/-!
How a command gets from Lua to Redis: `BinarySafeRedis:Command`, which pairs
every string with its length, and `RedisConnectorWrap::SafeCommand`, which
collects the strings from the pairs. `none` stands for an access that is not
defined, and for too little fuel.
-/
namespace LiteServer.Db
open LiteServer.Lua LiteServer.Lib

def MAX_REDIS_ARGS : Nat := 1024

/-! ### The strings -/

/-- `len` bytes of the memory of a string, which ends with a NUL. -/
def bytesOf (s : List UInt8) (len : Nat) : Option (List UInt8) :=
  if len ≤ s.length + 1 then some ((s ++ [0]).take len) else none

/-- `strargs[index].data()`, taken while `strargs` had `size` strings: its
    strings may move whenever it grows. -/
structure DataPtr where
  size : Nat
  index : Nat
  deriving DecidableEq, Repr

def readData (strargs : List (List UInt8)) (data : DataPtr) (len : Nat) : Option (List UInt8) := do
  guard (data.size = strargs.length)
  let s ← strargs[data.index]?
  bytesOf s len

/-- `m_pRedisContext` is not `NULL` where it is `connected`. `commands` only
    records what `redisCommandArgv` was called with. -/
structure RedisConnectorWrap where
  connected : Bool
  args : Nat → Option DataPtr
  argLen : Nat → Nat
  commands : List (List (List UInt8))

namespace RedisConnectorWrap

/-- The loop over the cells of `m_Args` and `m_ArgLen`. -/
def fillArgs (wrap : RedisConnectorWrap) (size : Nat) (i : Nat) : (strargs : List (List UInt8)) → Option RedisConnectorWrap
  | [] => some wrap
  | s :: strargs =>
    if i < MAX_REDIS_ARGS then
      fillArgs { wrap with
        args := Function.update wrap.args i (some ⟨size, i⟩)
        argLen := Function.update wrap.argLen i s.length } size (i + 1) strargs
    else none

/-- `redisCommandArgv` reads every argument; `reply` is what it returns. -/
def redisSafeCommand (wrap : RedisConnectorWrap) (strargs : List (List UInt8)) (argc : Nat) (reply : Option RedisReply) :
    Option (Option RedisReply × RedisConnectorWrap) :=
  if !wrap.connected then some (none, wrap)
  else do
    let command ← (List.range argc).mapM fun i => do readData strargs (← wrap.args i) (wrap.argLen i)
    return (reply, { wrap with commands := wrap.commands ++ [command] })

end RedisConnectorWrap

/-! ### `SafeCommand` -/

/-- How a loop over a table ends: with the stack cleared, or with the strings. -/
inductive Collected where
  | stopped (L : LuaState Int)
  | strings (strargs : List (List UInt8)) (L : LuaState Int)

/-- The inner loop. `lengthFirst` tells whether `strlenth` is read before
    `lua_tolstring` sets it, as the arguments of `param` have no order. -/
def collectParam (after : Traversal Int) (lengthFirst : Bool) (subindex : Int) :
    (fuel : Nat) → (cur_index strlenth : Nat) → (strargs : List (List UInt8)) → LuaState Int → Option Collected
  | 0, _, _, _, _ => none
  | fuel + 1, cur_index, strlenth, strargs, L => do
    let (found, L) ← L.next after subindex
    if !found then return .strings strargs L
    else
      let v ← L.stack.head?
      match cur_index, v with
      | 0, .number n => collectParam after lengthFirst subindex fuel 1 (BitVec.ofInt 64 n).toNat strargs (← L.pop 1)
      | 0, _ => return .stopped L.clear
      | 1, .string s => do
        let param ← bytesOf s (if lengthFirst then strlenth else s.length)
        collectParam after lengthFirst subindex fuel 2 s.length (strargs ++ [param]) (← L.pop 1)
      | 1, _ => return .stopped L.clear
      | cur_index, _ => collectParam after lengthFirst subindex fuel (cur_index + 1) strlenth strargs (← L.pop 1)

/-- The loop over the table that is passed. -/
def collect (after : Traversal Int) (lengthFirst : Bool) (top : Int) :
    (fuel : Nat) → (strargs : List (List UInt8)) → LuaState Int → Option Collected
  | 0, _, _ => none
  | fuel + 1, strargs, L => do
    let (found, L) ← L.next after top
    if !found then return .strings strargs L
    else
      match ← L.stack.head? with
      | .table _ =>
        match ← collectParam after lengthFirst L.gettop fuel 0 0 strargs (L.push .nil) with
        | .stopped L => return .stopped L
        | .strings strargs L => collect after lengthFirst top fuel strargs (← L.pop 1)
      | _ => return .stopped L.clear

/-- A call that returned `results` values; `filling` is the stack that
    `FillReply` started with, if it was called. -/
structure SafeCommandRun where
  results : Nat
  filling : Option (LuaState Int)
  L : LuaState Int
  wrap : RedisConnectorWrap

/-- `SafeCommand` from the test of `strargs.size()` on. -/
def issue (wrap : RedisConnectorWrap) (reply : Option RedisReply) (strargs : List (List UInt8)) (L : LuaState Int) :
    Option SafeCommandRun :=
  if strargs.length > MAX_REDIS_ARGS then some ⟨0, none, L.clear, wrap⟩
  else do
    let wrap ← wrap.fillArgs strargs.length 0 strargs
    let (reply, wrap) ← wrap.redisSafeCommand strargs strargs.length reply
    match reply with
    | none => return ⟨0, none, L, wrap⟩
    | some reply => do
      let filled ← fillReply L reply
      return ⟨1, some L, filled, wrap⟩

def safeCommand (after : Traversal Int) (lengthFirst : Bool) (fuel : Nat) (wrap : RedisConnectorWrap)
    (reply : Option RedisReply) (L : LuaState Int) : Option SafeCommandRun :=
  match IndexedStack.get L.stack L.gettop with
  | some (.table _) => do
    match ← collect after lengthFirst L.gettop fuel [] (L.push .nil) with
    | .stopped L => return ⟨0, none, L, wrap⟩
    | .strings strargs L => issue wrap reply strargs L
  | _ => some ⟨0, none, L, wrap⟩

/-! ### `Command` -/

/-- What the loop of `Command` inserts for a value; `string.len` takes numbers too. -/
def lengthPair (v : Value Int) : Option (Value Int) := do
  let s ← v.tostring
  return .table (array [.number (LuaNumber.ofInteger s.length), v])

/-- The table that `Command` passes on. -/
def newArg (fuel : Nat) (args : Value Int) : Option (Key Int → Value Int) := do
  let values ← ipairs args fuel 1
  values.foldlM (fun new_arg v => do tableInsert fuel new_arg (← lengthPair v)) fun _ => .nil

/-- `BinarySafeRedis:Command` with the userdata `redis`, which has a `SafeCommand`. -/
def command (after : Traversal Int) (lengthFirst : Bool) (fuel : Nat) (wrap : RedisConnectorWrap)
    (reply : Option RedisReply) (L : LuaState Int) (redis args : Value Int) : Option SafeCommandRun := do
  let new_arg ← newArg fuel args
  safeCommand after lengthFirst fuel wrap reply { L with stack := [.table new_arg, redis] }

/-! ### Strings go through -/

/-- The strings of Lua, which have no more than `2 ^ 31` bytes. -/
structure LuaString where
  bytes : List UInt8
  short : bytes.length < 2 ^ 31

namespace LuaString

def value (s : LuaString) : Value Int := .string s.bytes
def pair (s : LuaString) : Value Int := .table (array [.number s.bytes.length, s.value])

end LuaString

section
variable {after : Traversal Int} {strings : List LuaString} {L : LuaState Int} {below : List (Value Int)} {fuel : Nat}

theorem bytesOf_length (s : List UInt8) : bytesOf s s.length = some s := by
  rw [bytesOf, if_pos (Nat.le_succ _), List.take_left]

theorem lengthPair_value (s : LuaString) : lengthPair s.value = some s.pair := by
  have exact_length : nearest 53 s.bytes.length = s.bytes.length := nearest_of_lt (by have := s.short; omega)
  show some (Value.table (array [.number (nearest 53 s.bytes.length), s.value])) = _
  rw [exact_length]
  rfl

theorem ipairs_array {values : List (Value Int)} (present : ∀ v ∈ values, v ≠ .nil) {i : Nat}
    (inside : i ≤ values.length) (enough : values.length < i + fuel) :
    ipairs (.table (array values)) fuel (i + 1 : Nat) = some (values.drop i) := by
  induction fuel generalizing i with
  | zero => omega
  | succ fuel ih =>
    by_cases last : values.length ≤ i
    · have found : index (.table (array values)) (i + 1 : Nat) = some .nil := by
        rw [index, array_succ, List.getElem?_eq_none last]
        rfl
      rw [ipairs, found, List.drop_eq_nil_of_le last]
      rfl
    · have here : i < values.length := by omega
      have found : index (.table (array values)) (i + 1 : Nat) = some values[i] := by
        rw [index, array_succ, List.getElem?_eq_getElem here]
        rfl
      have rest : ipairs (.table (array values)) fuel ((i + 1 : Nat) + 1) = some (values.drop (i + 1)) :=
        ih (by omega) (by omega)
      rw [ipairs_succ found (present _ (List.getElem_mem here)), rest, List.drop_eq_getElem_cons here]
      rfl

theorem value_present (strings : List LuaString) : ∀ v ∈ strings.map LuaString.value, v ≠ .nil := by
  intro v member
  obtain ⟨s, -, rfl⟩ := List.mem_map.mp member
  nofun

theorem pair_present (strings : List LuaString) : ∀ v ∈ strings.map LuaString.pair, v ≠ .nil := by
  intro v member
  obtain ⟨s, -, rfl⟩ := List.mem_map.mp member
  nofun

theorem newArg_strings (enough : strings.length < fuel) :
    newArg fuel (.table (array (strings.map LuaString.value))) = some (array (strings.map LuaString.pair)) := by
  have values : ipairs (.table (array (strings.map LuaString.value))) fuel 1 = some (strings.map LuaString.value) :=
    ipairs_array (value_present strings) (Nat.zero_le _) (by rw [List.length_map]; omega)
  have inserted : ∀ rest done, done ++ rest = strings →
      (rest.map LuaString.value).foldlM (fun new_arg v => do tableInsert fuel new_arg (← lengthPair v))
        (array (done.map LuaString.pair)) = some (array (strings.map LuaString.pair)) := by
    intro rest
    induction rest with
    | nil =>
      intro done all
      rw [← all, List.append_nil]
      rfl
    | cons s rest ih =>
      intro done all
      have short : (done.map LuaString.pair).length < fuel := by
        rw [List.length_map]
        rw [← all, List.length_append] at enough
        omega
      have next := ih (done ++ [s]) (by rw [← all, List.append_assoc]; rfl)
      rw [List.map_append] at next
      simp only [List.map_cons, List.foldlM_cons, lengthPair_value, Option.bind_eq_bind, Option.bind_some,
        tableInsert_array (pair_present done) short]
      exact next
  have empty : (fun _ => .nil : Key Int → Value Int) = array [] := by
    funext key
    cases key with
    | string s => rfl
    | number n => simp [array]
  simp only [newArg, values, Option.bind_eq_bind, Option.bind_some]
  rw [empty]
  exact inserted strings [] rfl

/-! The rounds of the inner loop over a pair. -/

variable {M : LuaState Int} {lengthFirst : Bool} {subindex : Int} {strargs : List (List UInt8)} {strlenth : Nat}

theorem collectParam_number {n : Int} (found : L.next after subindex = some (true, M.push (.number n))) :
    collectParam after lengthFirst subindex (fuel + 1) 0 strlenth strargs L =
      collectParam after lengthFirst subindex fuel 1 (BitVec.ofInt 64 n).toNat strargs M := by
  rw [collectParam, found]
  show ((M.push (.number n)).pop 1).bind _ = _
  rw [LuaState.pop_push]
  rfl

theorem collectParam_string {s : List UInt8} (found : L.next after subindex = some (true, M.push (.string s)))
    (length : strlenth = s.length) :
    collectParam after lengthFirst subindex (fuel + 1) 1 strlenth strargs L =
      collectParam after lengthFirst subindex fuel 2 s.length (strargs ++ [s]) M := by
  have param : bytesOf s (if lengthFirst then strlenth else s.length) = some s := by
    rw [length, ite_self, bytesOf_length]
  rw [collectParam, found]
  show (bytesOf s (if lengthFirst then strlenth else s.length)).bind _ = _
  rw [param]
  show ((M.push (.string s)).pop 1).bind _ = _
  rw [LuaState.pop_push]
  rfl

theorem collectParam_end {cur_index : Nat} (found : L.next after subindex = some (false, M)) :
    collectParam after lengthFirst subindex (fuel + 1) cur_index strlenth strargs L = some (.strings strargs M) := by
  rw [collectParam, found]
  rfl

/-- The inner loop takes the string of a pair. -/
theorem collectParam_pair (ascending : Ascending after) {s : LuaString} (split : L.stack = s.pair :: below) :
    collectParam after lengthFirst L.gettop (fuel + 3) 0 0 strargs (L.push .nil) =
      some (.strings (strargs ++ [s.bytes]) L) := by
  have size : L.gettop = below.length + 1 := by rw [LuaState.gettop, split, List.length_cons]
  have present : ∀ v ∈ ([.number s.bytes.length, s.value] : List (Value Int)), v ≠ .nil := by
    intro v member
    rcases List.mem_pair.mp member with rfl | rfl <;> nofun
  have table : L.stack = [] ++ .table (array [.number s.bytes.length, s.value]) :: below := split
  have exact_length : (BitVec.ofInt 64 s.bytes.length).toNat = s.bytes.length := by
    have short := s.short
    rw [BitVec.toNat_ofInt]
    omega
  rw [size]
  calc
    _ = collectParam after lengthFirst (below.length + 1 : Nat) (fuel + 2) 1 _ strargs (L.push (passed 1)) :=
      collectParam_number (next_array ascending present (i := 0) (Nat.zero_le _) table)
    _ = collectParam after lengthFirst (below.length + 1 : Nat) (fuel + 1) 2 _ (strargs ++ [s.bytes]) (L.push (passed 2)) :=
      collectParam_string (next_array ascending present (i := 1) (Nat.le_succ 1) table) exact_length
    _ = some (.strings (strargs ++ [s.bytes]) L) :=
      collectParam_end (next_array ascending present (i := 2) (Nat.le_refl 2) table)

theorem collect_pair {M : LuaState Int} {s : LuaString} {top : Int} (ascending : Ascending after)
    (found : L.next after top = some (true, M.push s.pair)) :
    collect after lengthFirst top (fuel + 4) strargs L =
      collect after lengthFirst top (fuel + 3) (strargs ++ [s.bytes]) M := by
  have inner : collectParam after lengthFirst (M.push s.pair).gettop (fuel + 3) 0 0 strargs ((M.push s.pair).push .nil) =
      some (.strings (strargs ++ [s.bytes]) (M.push s.pair)) := collectParam_pair ascending rfl
  rw [collect, found]
  show (collectParam after lengthFirst (M.push s.pair).gettop (fuel + 3) 0 0 strargs ((M.push s.pair).push .nil)).bind _ = _
  rw [inner, Option.bind_some]
  simp only [LuaState.pop_push, Option.bind_eq_bind, Option.bind_some]

/-- The strings are collected in order, and the stack is as it was. -/
theorem collect_pairs (ascending : Ascending after) (split : L.stack = .table (array (strings.map LuaString.pair)) :: below) :
    ∀ rest done, done ++ rest = strings → ∀ fuel, collect after lengthFirst L.gettop (rest.length + fuel + 3)
      (done.map LuaString.bytes) (L.push (passed done.length)) = some (.strings (strings.map LuaString.bytes) L) := by
  have size : (L.gettop : Int) = (below.length + 1 : Nat) := by rw [LuaState.gettop, split, List.length_cons]
  have table : L.stack = [] ++ .table (array (strings.map LuaString.pair)) :: below := split
  intro rest
  induction rest with
  | nil =>
    intro done all fuel
    rw [List.append_nil] at all
    subst all
    have last := next_array ascending (pair_present done) (i := done.length) (by rw [List.length_map]) table
    rw [List.getElem?_eq_none (by rw [List.length_map]), ← size] at last
    rw [List.length_nil, Nat.zero_add, collect, last]
    rfl
  | cons s rest ih =>
    intro done all fuel
    have inside : done.length ≤ (strings.map LuaString.pair).length := by
      rw [← all, List.length_map, List.length_append]
      omega
    have here := next_array ascending (pair_present strings) inside table
    have found : (strings.map LuaString.pair)[done.length]? = some s.pair := by
      rw [← all, List.map_append, List.getElem?_append_right (by rw [List.length_map]), List.length_map, Nat.sub_self]
      rfl
    rw [found, ← size] at here
    have next := ih (done ++ [s]) (by rw [← all, List.append_assoc]; rfl) fuel
    rw [List.map_append, List.length_append] at next
    rw [List.length_cons, show rest.length + 1 + fuel + 3 = rest.length + fuel + 4 by omega, collect_pair ascending here]
    exact next

end

/-! ### What is sent -/

theorem mapM_range {α : Type} {f : Nat → Option α} {xs : List α} (each : ∀ i (inside : i < xs.length), f i = some xs[i]) :
    (List.range xs.length).mapM f = some xs := by
  induction xs using List.reverseRecOn with
  | nil => rfl
  | append_singleton xs x ih =>
    have before : (List.range xs.length).mapM f = some xs := by
      refine ih fun i inside => ?_
      rw [each i (by rw [List.length_append]; omega), List.getElem_append_left inside]
    have last := each xs.length (by rw [List.length_append, List.length_singleton]; omega)
    rw [List.getElem_concat_length rfl] at last
    rw [List.length_append, List.length_singleton, List.range_succ, List.mapM_append, before]
    simp [last]

namespace RedisConnectorWrap
variable {wrap : RedisConnectorWrap} {strargs : List (List UInt8)}

/-- What the loop over the two arrays leaves: the new cells, and the rest as it was. -/
structure Filled (wrap wrap' : RedisConnectorWrap) (size i : Nat) (strargs : List (List UInt8)) : Prop where
  connected : wrap'.connected = wrap.connected
  commands : wrap'.commands = wrap.commands
  cells : ∀ j (inside : j < strargs.length),
    wrap'.args (i + j) = some ⟨size, i + j⟩ ∧ wrap'.argLen (i + j) = strargs[j].length
  below : ∀ j < i, wrap'.args j = wrap.args j ∧ wrap'.argLen j = wrap.argLen j

theorem fillArgs_total_correct (wrap : RedisConnectorWrap) (size : Nat) {i : Nat}
    (fits : i + strargs.length ≤ MAX_REDIS_ARGS) :
    ∃ wrap', wrap.fillArgs size i strargs = some wrap' ∧ Filled wrap wrap' size i strargs := by
  induction strargs generalizing wrap i with
  | nil => exact ⟨wrap, rfl, rfl, rfl, fun j inside => absurd inside j.not_lt_zero, fun _ _ => ⟨rfl, rfl⟩⟩
  | cons s strargs ih =>
    rw [List.length_cons] at fits
    obtain ⟨wrap', filled, rest⟩ := ih { wrap with
      args := Function.update wrap.args i (some ⟨size, i⟩)
      argLen := Function.update wrap.argLen i s.length } (i := i + 1) (by omega)
    refine ⟨wrap', ?_, rest.connected, rest.commands, ?_, ?_⟩
    · rw [fillArgs, if_pos (by omega), filled]
    · intro j inside
      cases j with
      | zero =>
        obtain ⟨args, argLen⟩ := rest.below i (Nat.lt_succ_self i)
        exact ⟨args.trans (Function.update_self ..), argLen.trans (Function.update_self ..)⟩
      | succ j =>
        have cell := rest.cells j (Nat.lt_of_succ_lt_succ inside)
        rw [Nat.add_assoc, Nat.add_comm 1] at cell
        exact cell
    · intro j under
      obtain ⟨args, argLen⟩ := rest.below j (by omega)
      exact ⟨args.trans (Function.update_of_ne (by omega) ..), argLen.trans (Function.update_of_ne (by omega) ..)⟩

/-- Pointers taken from a vector that no longer grows are read as its strings. -/
theorem redisSafeCommand_correct {wrap' : RedisConnectorWrap} (filled : Filled wrap wrap' strargs.length 0 strargs)
    (connected : wrap.connected) (reply : Option RedisReply) :
    wrap'.redisSafeCommand strargs strargs.length reply =
      some (reply, { wrap' with commands := wrap.commands ++ [strargs] }) := by
  have command : ((List.range strargs.length).mapM fun i => do
      readData strargs (← wrap'.args i) (wrap'.argLen i)) = some strargs := by
    refine mapM_range fun i inside => ?_
    obtain ⟨args, argLen⟩ := filled.cells i inside
    rw [Nat.zero_add] at args argLen
    rw [args, argLen]
    simp [readData, List.getElem?_eq_getElem inside, bytesOf_length]
  have linked : ¬ (!wrap'.connected) = true := by simp [filled.connected, connected]
  rw [redisSafeCommand, if_neg linked, command, filled.commands]
  rfl

end RedisConnectorWrap

/-! ### The whole way -/

section
variable {after : Traversal Int} {lengthFirst : Bool} {strings : List LuaString} {L : LuaState Int}
  {below : List (Value Int)} {fuel : Nat} {wrap : RedisConnectorWrap} {reply : Option RedisReply}

/-- What `SafeCommand` did with the strings of a table on top of the stack `L`. -/
structure Encodes (strings : List (List UInt8)) (wrap : RedisConnectorWrap) (reply : Option RedisReply) (L : LuaState Int)
    (run : SafeCommandRun) : Prop where
  issued : strings.length ≤ MAX_REDIS_ARGS → wrap.connected → run.wrap.commands = wrap.commands ++ [strings]
  unconnected : ¬ wrap.connected → run.wrap.commands = wrap.commands
  long : MAX_REDIS_ARGS < strings.length → run.wrap = wrap
  filling : run.filling =
    if strings.length ≤ MAX_REDIS_ARGS ∧ wrap.connected then reply.map fun _ => L else none

theorem issue_sent {strargs : List (List UInt8)} (short : ¬ strargs.length > MAX_REDIS_ARGS) (connected : wrap.connected)
    (reply : Option RedisReply) (L : LuaState Int) :
    ∃ run, issue wrap reply strargs L = some run ∧ run.wrap.commands = wrap.commands ++ [strargs] ∧
      run.filling = reply.map fun _ => L := by
  obtain ⟨wrap', set, filled⟩ := RedisConnectorWrap.fillArgs_total_correct wrap strargs.length
    (show 0 + strargs.length ≤ MAX_REDIS_ARGS by omega)
  have sent := RedisConnectorWrap.redisSafeCommand_correct filled connected reply
  rw [issue, if_neg short, set]
  simp only [Option.bind_eq_bind, Option.bind_some, sent]
  cases reply with
  | none => exact ⟨_, rfl, rfl, rfl⟩
  | some reply =>
    simp only [fillReply_total_correct, Option.bind_some]
    exact ⟨_, rfl, rfl, rfl⟩

theorem issue_unsent {strargs : List (List UInt8)} (short : ¬ strargs.length > MAX_REDIS_ARGS)
    (unconnected : ¬ wrap.connected) (reply : Option RedisReply) (L : LuaState Int) :
    ∃ run, issue wrap reply strargs L = some run ∧ run.wrap.commands = wrap.commands ∧ run.filling = none := by
  obtain ⟨wrap', set, filled⟩ := RedisConnectorWrap.fillArgs_total_correct wrap strargs.length
    (show 0 + strargs.length ≤ MAX_REDIS_ARGS by omega)
  have unsent : wrap'.redisSafeCommand strargs strargs.length reply = some (none, wrap') := by
    rw [RedisConnectorWrap.redisSafeCommand, filled.connected, if_pos (by simp [unconnected])]
  rw [issue, if_neg short, set]
  simp only [Option.bind_eq_bind, Option.bind_some, unsent]
  exact ⟨_, rfl, filled.commands, rfl⟩

theorem issue_encodes (wrap : RedisConnectorWrap) (reply : Option RedisReply) (strargs : List (List UInt8))
    (L : LuaState Int) : ∃ run, issue wrap reply strargs L = some run ∧ Encodes strargs wrap reply L run := by
  by_cases long : strargs.length > MAX_REDIS_ARGS
  · refine ⟨_, if_pos long, ?_⟩
    constructor
    · exact fun short => absurd long (Nat.not_lt.mpr short)
    · exact fun _ => rfl
    · exact fun _ => rfl
    · rw [if_neg fun both => Nat.not_lt.mpr both.1 long]
  · by_cases connected : wrap.connected
    · obtain ⟨run, issued, commands, filling⟩ := issue_sent long connected reply L
      refine ⟨run, issued, fun _ _ => commands, fun not => absurd connected not, fun far => absurd far long, ?_⟩
      rw [filling, if_pos ⟨Nat.not_lt.mp long, connected⟩]
    · obtain ⟨run, issued, commands, filling⟩ := issue_unsent long connected reply L
      refine ⟨run, issued, fun _ on => absurd on connected, fun _ => commands, fun far => absurd far long, ?_⟩
      rw [filling, if_neg fun both => connected both.2]

theorem safeCommand_encodes (ascending : Ascending after) (lengthFirst : Bool) (wrap : RedisConnectorWrap)
    (reply : Option RedisReply)
    (split : L.stack = .table (array (strings.map LuaString.pair)) :: below) (enough : strings.length + 3 ≤ fuel) :
    ∃ run, safeCommand after lengthFirst fuel wrap reply L = some run ∧
      Encodes (strings.map LuaString.bytes) wrap reply L run := by
  have table : IndexedStack.get L.stack L.gettop = some (.table (array (strings.map LuaString.pair))) := by
    rw [LuaState.gettop, split, List.length_cons]
    exact (IndexedStack.get_over : IndexedStack.get ([] ++ _ :: below) (below.length + 1 : Nat) = _)
  have collected : collect after lengthFirst L.gettop fuel [] (L.push .nil) =
      some (.strings (strings.map LuaString.bytes) L) := by
    obtain ⟨more, rfl⟩ := Nat.exists_eq_add_of_le enough
    rw [Nat.add_right_comm]
    exact collect_pairs ascending split strings [] rfl more
  have issued : safeCommand after lengthFirst fuel wrap reply L = issue wrap reply (strings.map LuaString.bytes) L := by
    rw [safeCommand, table]
    dsimp only
    rw [collected]
    rfl
  rw [issued]
  exact issue_encodes wrap reply _ L

theorem command_correct (ascending : Ascending after) (lengthFirst : Bool) (strings : List LuaString)
    (wrap : RedisConnectorWrap) (reply : Option RedisReply) (L : LuaState Int) (redis : Value Int) (enough : strings.length + 3 ≤ fuel) :
    ∃ entry run, entry.gettop = 2 ∧
      command after lengthFirst fuel wrap reply L redis (.table (array (strings.map LuaString.value))) = some run ∧
      Encodes (strings.map LuaString.bytes) wrap reply entry run := by
  let entry : LuaState Int := { L with stack := [.table (array (strings.map LuaString.pair)), redis] }
  obtain ⟨run, called, encodes⟩ := safeCommand_encodes (L := entry) ascending lengthFirst wrap reply rfl enough
  refine ⟨entry, run, rfl, ?_, encodes⟩
  rw [command, newArg_strings (by omega)]
  exact called

/-- While the connector is connected, the strings are sent as they are, if they
    are no more than `MAX_REDIS_ARGS`; otherwise the arrays stay as they were. -/
theorem command_binary_safe (ascending : Ascending after) (lengthFirst : Bool) (strings : List LuaString)
    (wrap : RedisConnectorWrap) (reply : Option RedisReply) (L : LuaState Int) (redis : Value Int)
    (enough : strings.length + 3 ≤ fuel) :
    ∃ run, command after lengthFirst fuel wrap reply L redis (.table (array (strings.map LuaString.value))) = some run ∧
      (wrap.connected → strings.length ≤ MAX_REDIS_ARGS →
        run.wrap.commands = wrap.commands ++ [strings.map LuaString.bytes]) ∧
      (¬ wrap.connected → run.wrap.commands = wrap.commands) ∧
      (MAX_REDIS_ARGS < strings.length → run.wrap = wrap) ∧
      (run.filling.isSome ↔ wrap.connected ∧ strings.length ≤ MAX_REDIS_ARGS ∧ reply.isSome) ∧
      ∀ M, run.filling = some M → M.gettop = 2 := by
  obtain ⟨entry, run, height, called, encodes⟩ := command_correct ascending lengthFirst strings wrap reply L redis enough
  refine ⟨run, called, fun connected short => encodes.issued (by simpa using short) connected, encodes.unconnected,
    fun long => encodes.long (by simpa using long), ?_, ?_⟩
  · rw [encodes.filling, List.length_map]
    split
    · simp [*]
    · simp
      tauto
  · intro M filling
    rw [encodes.filling] at filling
    split at filling
    · cases reply with
      | none => cases filling
      | some reply =>
        obtain rfl := Option.some.inj filling
        exact height
    · cases filling

end

/-- A command with a NUL and a percent sign in it. -/
theorem ping_sent : ∃ run, command arrayOrder true 5 ⟨true, fun _ => none, fun _ => 0, []⟩ none
      ⟨[], fun _ => .nil, fun _ => none⟩ (.userdata 0 .nil)
      (.table (array [.string [80, 73, 78, 71], .string [0, 37]])) = some run ∧
    run.wrap.commands = [[[80, 73, 78, 71], [0, 37]]] := by
  obtain ⟨run, called, sent, _⟩ := command_binary_safe arrayOrder_ascending true
    [⟨[80, 73, 78, 71], by decide⟩, ⟨[0, 37], by decide⟩] ⟨true, fun _ => none, fun _ => 0, []⟩ none
    ⟨[], fun _ => .nil, fun _ => none⟩ (.userdata 0 .nil) (show 2 + 3 ≤ 5 by decide)
  exact ⟨run, called, sent rfl (by decide)⟩

theorem unconnected_not_sent : ¬ ∀ after, Ascending after → ∀ lengthFirst fuel wrap reply L redis,
    ∀ strings : List LuaString, strings.length + 3 ≤ fuel → strings.length ≤ MAX_REDIS_ARGS →
      ∃ run, command after lengthFirst fuel wrap reply L redis (.table (array (strings.map LuaString.value))) = some run ∧
        run.wrap.commands = wrap.commands ++ [strings.map LuaString.bytes] := by
  intro sends
  let wrap : RedisConnectorWrap := ⟨false, fun _ => none, fun _ => 0, []⟩
  let ping : LuaString := ⟨[80, 73, 78, 71], by decide⟩
  obtain ⟨run, called, sent⟩ := sends arrayOrder arrayOrder_ascending true 4 wrap none ⟨[], fun _ => .nil, fun _ => none⟩
    .nil [ping] (by decide) (by decide)
  obtain ⟨entry, run', height, called', encodes⟩ := command_correct arrayOrder_ascending true [ping] wrap none
    ⟨[], fun _ => .nil, fun _ => none⟩ .nil (show 1 + 3 ≤ 4 by decide)
  obtain rfl := Option.some.inj (called.symm.trans called')
  rw [encodes.unconnected Bool.false_ne_true] at sent
  cases sent

end LiteServer.Db
