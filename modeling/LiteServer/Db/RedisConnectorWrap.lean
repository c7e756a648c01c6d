import LiteServer.Lua.Doubles

/-!
How a Redis reply gets to Lua: `RedisConnectorWrap::FillReply` of `engine/db`,
and the script that reads what it built. The numbers in a reply are whole, and
`size_t` and `lua_Integer` have the 64 bits that they have in a 64-bit build.
-/
namespace LiteServer.Db
open LiteServer.Lua

/-- A `redisReply`; `len` and `elements` are the lengths of the two lists. -/
inductive RedisReply where
  | mk (type : BitVec 32) (integer : BitVec 64) (str : List UInt8) (element : List RedisReply)

def pushinteger (L : LuaState Int) (n : Int) : LuaState Int := L.push (.number (LuaNumber.ofInteger n))

mutual

def fillReply (L : LuaState Int) : RedisReply → Option (LuaState Int)
  | .mk type integer str element => do
    let L := L.push (.table fun _ => .nil)
    let L ← (pushinteger (pushinteger L 1) type.toInt).settable (-3)
    let L ← (pushinteger (pushinteger L 2) integer.toInt).settable (-3)
    let L ← (pushinteger (pushinteger L 3) str.length).settable (-3)
    let L ← ((pushinteger L 4).push (.string str)).settable (-3)
    let L ← (pushinteger (pushinteger L 5) element.length).settable (-3)
    let L := pushinteger L 6
    let L ← if element.length > 0 then fillElements (L.push (.table fun _ => .nil)) 0 element else some (L.push .nil)
    L.settable (-3)

/-- The loop of `FillReply` from the `i`-th element. -/
def fillElements (L : LuaState Int) (i : Nat) : List RedisReply → Option (LuaState Int)
  | [] => some L
  | reply :: element => do
    let L := pushinteger L i
    let L ← fillReply L reply
    let L ← L.settable (-3)
    fillElements L (i + 1) element

end

/-! ### The script -/

def REDIS_REPLY_TYPE_STRING : Int := 1
def REDIS_REPLY_TYPE_ARRAY : Int := 2
def REDIS_REPLY_TYPE_INTEGER : Int := 3
def REDIS_REPLY_TYPE_STATUS : Int := 5

def REDIS_REPLY_INDEX_TYPE : Int := 1
def REDIS_REPLY_INDEX_INT : Int := 2
def REDIS_REPLY_INDEX_STRLEN : Int := 3
def REDIS_REPLY_INDEX_STRDATA : Int := 4
def REDIS_REPLY_INDEX_VALNUM : Int := 5
def REDIS_REPLY_INDEX_VALLIST : Int := 6

/-- `rep[i]`, an error where `rep` is no table. -/
def index (rep : Value Int) (i : Int) : Option (Value Int) :=
  match rep with
  | .table fields => some (fields (.number i))
  | _ => none

def number? : Value Int → Option Int
  | .number n => some n
  | _ => none

def string? : Value Int → Option (List UInt8)
  | .string s => some s
  | _ => none

/-- What `ipairs` goes through from `i`; `none` while the fuel is too little. -/
def ipairs (list : Value Int) : (fuel : Nat) → (i : Int) → Option (List (Value Int))
  | 0, _ => none
  | fuel + 1, i => do
    match ← index list i with
    | .nil => return []
    | v => do
      let values ← ipairs list fuel (i + 1)
      return v :: values

/-- The values in the list of a reply, if it has one. -/
def listed (fuel : Nat) (rep : Value Int) : Option (List (Value Int)) := do
  match ← index rep REDIS_REPLY_INDEX_VALLIST with
  | .nil => some []
  | list => ipairs list fuel 1

/-- A reply as the script has it. -/
inductive LuaReply where
  | mk (type integer len : Int) (str : List UInt8) (valnum : Int) (vallist : List LuaReply)

def readReply : (fuel : Nat) → (rep : Value Int) → Option LuaReply
  | 0, _ => none
  | fuel + 1, rep => do
    let type ← number? (← index rep REDIS_REPLY_INDEX_TYPE)
    let integer ← number? (← index rep REDIS_REPLY_INDEX_INT)
    let len ← number? (← index rep REDIS_REPLY_INDEX_STRLEN)
    let str ← string? (← index rep REDIS_REPLY_INDEX_STRDATA)
    let valnum ← number? (← index rep REDIS_REPLY_INDEX_VALNUM)
    let values ← listed fuel rep
    let vallist ← values.mapM (readReply fuel)
    return .mk type integer len str valnum vallist

/-- How a call of the script ends: with `false`, with `true` and a value, or with an error. -/
inductive Ending (α : Type) where
  | failed
  | returned (value : α)
  | raised
  deriving DecidableEq, Repr

/-- For a nil and an error the script calls `err`, which is defined nowhere. -/
def checkReply (rep : Value Int) : Ending Unit :=
  match index rep REDIS_REPLY_INDEX_TYPE with
  | none | some .nil | some (.boolean false) => .failed
  | some (.number type) =>
    if type = REDIS_REPLY_TYPE_STRING ∨ type = REDIS_REPLY_TYPE_ARRAY ∨ type = REDIS_REPLY_TYPE_INTEGER ∨
      type = REDIS_REPLY_TYPE_STATUS then .returned () else .raised
  | some _ => .raised

/-- What is read of a reply that passes `_CheckReply`. -/
def checked {α : Type} (rep : Value Int) (value : Option α) : Option (Ending α) :=
  match checkReply rep with
  | .failed => some .failed
  | .returned () => value.map .returned
  | .raised => some .raised

/-- The strings of a list. -/
def commandList (fuel : Nat) (rep : Value Int) : Option (Ending (List (Value Int))) :=
  checked rep do
    let values ← listed fuel rep
    values.mapM fun v => index v REDIS_REPLY_INDEX_STRDATA

end LiteServer.Db
