import LiteServer.Lua.LuaUtil
import LiteServer.Lua.Doubles

/-!
What `LuaUtil::Call` has put on the stack when it gets to `lua_pcall`.
-/
namespace LiteServer.Lua.LuaUtil
open LiteServer.Lib

variable {Num : Type} [LuaNumber Num]

/-! ### Signatures -/

def argumentPart (sig : List Char) : List Char := sig.takeWhile (· ≠ '>')

def resultPart (sig : List Char) : List Char := (sig.dropWhile (· ≠ '>')).tail

def IsArgument (c : Char) : Prop := c ∈ ['f', 'd', 'i', 'b', 's', 'p', 'w']

instance (c : Char) : Decidable (IsArgument c) := inferInstanceAs (Decidable (c ∈ _))

/-- What Lua gets for an argument, when the argument matches its character. -/
def converted (L : LuaState Num) : Char → Arg Num → Option (Value Num)
  | 'f', .double d => some (.number d)
  | 'd', .double d => some (.number d)
  | 'i', .int i => some (.number (LuaNumber.ofInteger i.toInt))
  | 'b', .int i => some (.boolean (i ≠ 0))
  | 's', .string s => some (s.elim .nil .string)
  | 'p', .pointer p => some (.lightuserdata p)
  | 'w', .wrap pData => some (.userdata pData.address ((L.registry pData.m_strWrapName).elim .nil .table))
  | _, _ => none

/-- The values of a matching argument list. -/
def convertedAll (L : LuaState Num) : List Char → List (Arg Num) → Option (List (Value Num))
  | [], [] => some []
  | c :: part, arg :: args => do
    let v ← converted L c arg
    let values ← convertedAll L part args
    return v :: values
  | _, _ => none

theorem pushArgument_converted {L : LuaState Num} {c : Char} {arg : Arg Num} {v : Value Num}
    (matching : converted L c arg = some v) (vl : List (Arg Num)) : pushArgument L c (arg :: vl) = some (L.push v, vl) := by
  unfold converted at matching
  split at matching <;> cases matching
  case h_5 s => cases s <;> rfl
  case h_7 pData =>
    simp only [pushArgument, LuaState.getmetatable, LuaState.newuserdata, LuaState.push]
    cases L.registry pData.m_strWrapName <;> rfl
  all_goals rfl

theorem pushArgument_ignored (L : LuaState Num) {c : Char} (unrecognised : ¬IsArgument c) (vl : List (Arg Num)) :
    pushArgument L c vl = some (L, vl) := by
  simp only [IsArgument, List.mem_cons, List.not_mem_nil, or_false, not_or] at unrecognised
  unfold pushArgument
  split <;> simp_all

theorem convertedAll_cons {L : LuaState Num} {c : Char} {part : List Char} {args : List (Arg Num)}
    {values : List (Value Num)} (matching : convertedAll L (c :: part) args = some values) :
    ∃ arg rest v others, args = arg :: rest ∧ values = v :: others ∧ converted L c arg = some v ∧
      convertedAll L part rest = some others := by
  cases args with
  | nil => cases matching
  | cons arg rest =>
    simp only [convertedAll, Option.bind_eq_bind, Option.bind_eq_some_iff] at matching
    obtain ⟨v, first, others, following, same⟩ := matching
    cases same
    exact ⟨arg, rest, v, others, rfl, rfl, first, following⟩

theorem converted_recognised {L : LuaState Num} {c : Char} {arg : Arg Num} {v : Value Num}
    (matching : converted L c arg = some v) : IsArgument c := by
  unfold converted at matching
  split at matching <;> first | decide | cases matching

theorem convertedAll_recognised {L : LuaState Num} {part : List Char} {args : List (Arg Num)} {values : List (Value Num)}
    (matching : convertedAll L part args = some values) :
    part.filter (IsArgument ·) = part ∧ values.length = part.length := by
  induction part generalizing args values with
  | nil =>
    cases args with
    | nil => cases matching; exact ⟨rfl, rfl⟩
    | cons arg args => cases matching
  | cons c part ih =>
    obtain ⟨arg, rest, v, others, rfl, rfl, first, following⟩ := convertedAll_cons matching
    obtain ⟨recognised, counted⟩ := ih following
    rw [List.filter_cons_of_pos (by simpa using converted_recognised first), recognised]
    exact ⟨rfl, by rw [List.length_cons, List.length_cons, counted]⟩

/-- A pushed value does not change what later arguments become. -/
theorem convertedAll_push (L : LuaState Num) (v : Value Num) (part : List Char) (args : List (Arg Num)) :
    convertedAll (L.push v) part args = convertedAll L part args := by
  induction part generalizing args with
  | nil => cases args <;> rfl
  | cons c part ih =>
    cases args with
    | nil => rfl
    | cons arg args => simp only [convertedAll, ih]; rfl

/-- The loop pushes the recognised arguments, and counts all characters. -/
theorem pushArguments_total_correct (L : LuaState Num) (sig : List Char) (narg : Nat) (args vl : List (Arg Num))
    {values : List (Value Num)} (matching : convertedAll L ((argumentPart sig).filter (IsArgument ·)) args = some values) :
    pushArguments L sig narg (args ++ vl) =
      some ({ L with stack := values.reverse ++ L.stack }, narg + (argumentPart sig).length, resultPart sig, vl) := by
  induction sig generalizing L narg args values with
  | nil =>
    cases args with
    | nil => cases matching; rfl
    | cons arg args => cases matching
  | cons c sig ih =>
    by_cases separator : c = '>'
    · subst separator
      cases args with
      | nil => cases matching; rfl
      | cons arg args => cases matching
    · have part : argumentPart (c :: sig) = c :: argumentPart sig := by simp [argumentPart, separator]
      have after : resultPart (c :: sig) = resultPart sig := by simp [resultPart, separator]
      have counted : narg + (c :: argumentPart sig).length = narg + 1 + (argumentPart sig).length := by
        rw [List.length_cons]; omega
      rw [part] at matching
      rw [pushArguments, if_neg separator, part, after, counted]
      by_cases recognised : IsArgument c
      · rw [List.filter_cons_of_pos (by simpa using recognised)] at matching
        obtain ⟨arg, rest, v, others, rfl, rfl, first, following⟩ := convertedAll_cons matching
        rw [← convertedAll_push L v] at following
        rw [List.cons_append, pushArgument_converted first, Option.bind_eq_bind, Option.bind_some]
        refine (ih (L.push v) (narg + 1) rest following).trans ?_
        rw [List.reverse_cons, List.append_assoc]
        rfl
      · rw [List.filter_cons_of_neg (by simpa using recognised)] at matching
        rw [pushArgument_ignored L recognised, Option.bind_eq_bind, Option.bind_some]
        exact ih L (narg + 1) args matching

/-! ### The handler -/

def handler (L : LuaState Num) : Option (Value Num) :=
  let traceback := L.globals "__ERR_TRACKBACK__"
  if traceback.isfunction then some traceback else none

omit [LuaNumber Num] in
/-- The handler goes right below the function. -/
theorem insertTraceback_correct {L : LuaState Num} {passed below : List (Value Num)} {func : Value Num}
    (split : L.stack = passed.reverse ++ func :: below) :
    ∃ L' traceback, insertTraceback L (-(passed.length + 1)) = some (L', traceback) ∧
      L'.stack = passed.reverse ++ func :: ((handler L).toList ++ below) ∧
      L'.errorHandler traceback = some (handler L) ∧ (traceback = 0 ↔ handler L = none) := by
  simp only [insertTraceback, LuaState.getglobal, LuaState.isfunction_push, handler]
  by_cases present : (L.globals "__ERR_TRACKBACK__").isfunction
  · have place : (-(passed.length + 1) - 1 : Int) = IndexedStack.under (passed.reverse ++ [func]) := by
      rw [IndexedStack.under, List.length_append, List.length_reverse, List.length_singleton]
      omega
    have inserted : (L.push (L.globals "__ERR_TRACKBACK__")).insert (IndexedStack.under (passed.reverse ++ [func])) =
        some { L with stack := (passed.reverse ++ [func]) ++ L.globals "__ERR_TRACKBACK__" :: below } := by
      have whole : L.stack = (passed.reverse ++ [func]) ++ below := by rw [split, List.append_assoc]; rfl
      simp only [LuaState.insert, LuaState.push, whole, IndexedStack.insert_under]
      rfl
    have nonzero : IndexedStack.under (passed.reverse ++ [func]) ≠ 0 := by rw [IndexedStack.under]; omega
    simp only [present, Bool.not_true, Bool.false_eq_true, if_false, if_true, place, inserted]
    refine ⟨_, _, rfl, by simp, ?_, by simp [nonzero]⟩
    rw [LuaState.errorHandler, if_neg nonzero, IndexedStack.get_under]
    rfl
  · simp only [present, Bool.not_false, if_true, Bool.false_eq_true, if_false, LuaState.pop_push]
    exact ⟨L, 0, rfl, split, rfl, by simp⟩

omit [LuaNumber Num] in
theorem insertTraceback_deep {L L' : LuaState Num} {narg : Nat} {traceback : Int} (deep : L.stack.length ≤ narg)
    (inserted : insertTraceback L (-(narg + 1)) = some (L', traceback)) : L' = L := by
  simp only [insertTraceback, LuaState.getglobal, LuaState.isfunction_push] at inserted
  by_cases present : (L.globals "__ERR_TRACKBACK__").isfunction
  · have above : (L.push (L.globals "__ERR_TRACKBACK__")).stack.length < (-(narg + 1) - 1 : Int).natAbs := by
      rw [LuaState.push, List.length_cons]
      omega
    simp only [present, Bool.not_true, Bool.false_eq_true, if_false, LuaState.insert,
      IndexedStack.insert_above (by omega) above] at inserted
    cases inserted
  · simp only [present, Bool.not_false, if_true, LuaState.pop_push] at inserted
    cases inserted
    rfl

/-! ### The call -/

/-- A call that is to leave `below`, and then to retrieve its results. -/
structure Ready (L : LuaState Num) (sig : List Char) (below : List (Value Num)) (vl : List (Arg Num)) (made : Issued Num) :
    Prop where
  below : made.below = (handler L).toList ++ below
  traceback : made.traceback = 0 ↔ handler L = none
  nres : made.request.nres = (resultPart sig).length
  sig : made.sig = resultPart sig
  vl : made.vl = vl

theorem issue_total_correct {L : LuaState Num} {sig : List Char} {args : List (Arg Num)} {values : List (Value Num)}
    (matching : convertedAll L ((argumentPart sig).filter (IsArgument ·)) args = some values)
    {passed below : List (Value Num)} {func : Value Num} (split : values.reverse ++ L.stack = passed.reverse ++ func :: below)
    (counted : passed.length = (argumentPart sig).length) (vl : List (Arg Num)) :
    ∃ made, issue L sig (args ++ vl) = some made ∧
      made.request = ⟨func, passed, (resultPart sig).length, handler L⟩ ∧ Ready L sig below vl made := by
  have pushed := pushArguments_total_correct L sig 0 args vl matching
  rw [Nat.zero_add, ← counted] at pushed
  obtain ⟨L', traceback, inserted, stack, handled, absent⟩ :=
    insertTraceback_correct (L := { L with stack := values.reverse ++ L.stack }) split
  have requested := LuaState.request_correct stack handled (resultPart sig).length
  refine ⟨⟨L', traceback, ⟨func, passed, (resultPart sig).length, handler L⟩, (handler L).toList ++ below, resultPart sig, vl⟩,
    ?_, rfl, rfl, absent, rfl, rfl, rfl⟩
  simp only [issue, pushed, inserted, requested, Option.bind_eq_bind, Option.bind_some]
  rfl

theorem issue_deep {L : LuaState Num} {sig : List Char} {args : List (Arg Num)} {values : List (Value Num)}
    (matching : convertedAll L ((argumentPart sig).filter (IsArgument ·)) args = some values)
    (deep : values.length + L.stack.length ≤ (argumentPart sig).length) (vl : List (Arg Num)) :
    issue L sig (args ++ vl) = none := by
  have pushed := pushArguments_total_correct L sig 0 args vl matching
  rw [Nat.zero_add] at pushed
  rw [issue, pushed]
  cases inserted : insertTraceback { L with stack := values.reverse ++ L.stack } (-((argumentPart sig).length + 1)) with
  | none => simp only [inserted, Option.bind_eq_bind, Option.bind_some, Option.bind_none]
  | some result =>
    have low : (values.reverse ++ L.stack).length ≤ (argumentPart sig).length := by simpa using deep
    have same : result.1 = { L with stack := values.reverse ++ L.stack } := insertTraceback_deep low inserted
    have refused := LuaState.request_of_le (L := { L with stack := values.reverse ++ L.stack }) low (resultPart sig).length
    simp only [inserted, same, refused, Option.bind_eq_bind, Option.bind_some, Option.bind_none]

theorem call_callable {L : LuaState Num} {func : String} (callable : (L.globals func).isfunction) (sig : List Char)
    (vl : List (Arg Num)) (run : Pcall Num → Outcome Num) (memory : Memory Num) :
    call run memory L func sig vl = (issue (L.getglobal func) sig vl).bind fun made => finish (run made.request) memory L.gettop made := by
  simp only [call, LuaState.getglobal, LuaState.isfunction_push, callable, Bool.not_true, Bool.false_eq_true, if_false]
  rfl

theorem convertedAll_getglobal {L : LuaState Num} {part : List Char} {args : List (Arg Num)} {values : List (Value Num)}
    (matching : convertedAll L part args = some values) (func : String) :
    convertedAll (L.getglobal func) (part.filter (IsArgument ·)) args = some values := by
  rw [(convertedAll_recognised matching).1, LuaState.getglobal, convertedAll_push, matching]

/-- A call passes the converted arguments to the global, and the handler with
    them, and goes on with what this request comes to. -/
theorem call_issues (L : LuaState Num) (func : String) (sig : List Char) (args vl : List (Arg Num))
    (values : List (Value Num)) (callable : (L.globals func).isfunction)
    (matching : convertedAll L (argumentPart sig) args = some values) :
    ∃ made : Issued Num, made.request = ⟨L.globals func, values, (resultPart sig).length, handler L⟩ ∧
      ∀ run memory, call run memory L func sig (args ++ vl) =
        finish (run ⟨L.globals func, values, (resultPart sig).length, handler L⟩) memory L.gettop made := by
  have counted := (convertedAll_recognised matching).2
  obtain ⟨made, issued, request, -⟩ := issue_total_correct (convertedAll_getglobal matching func) rfl counted vl
  refine ⟨made, request, ?_⟩
  intro run memory
  rw [call_callable callable, issued]
  exact congrArg (fun request => finish (run request) memory L.gettop made) request

/-- One value on the stack, a handler, and a function under every other name. -/
def caller : LuaState Int :=
  ⟨[.nil], fun name => if name = "__ERR_TRACKBACK__" then .function 9 else .function 1, fun _ => some fun _ => .nil⟩

theorem mixed_call_issues :
    ∃ made : Issued Int,
      made.request = ⟨.function 1, [.number 2, .string [97], .userdata 64 (.table fun _ => .nil)], 1, some (.function 9)⟩ ∧
      ∀ run memory, call run memory caller "TestCallLua" ['i', 's', 'w', '>', 'i']
        [.int 2, .string (some [97]), .wrap ⟨64, "LuaObj"⟩, .result 0] =
          finish (run ⟨.function 1, [.number 2, .string [97], .userdata 64 (.table fun _ => .nil)], 1, some (.function 9)⟩)
            memory caller.gettop made :=
  call_issues caller "TestCallLua" ['i', 's', 'w', '>', 'i'] [.int 2, .string (some [97]), .wrap ⟨64, "LuaObj"⟩] [.result 0]
    [.number 2, .string [97], .userdata 64 (.table fun _ => .nil)] rfl rfl

end LiteServer.Lua.LuaUtil
