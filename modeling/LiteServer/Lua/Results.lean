import LiteServer.Lua.Arguments

/-!
What `LuaUtil::Call` stores through the result pointers, and the stack it
leaves. The loop over the results goes up by one index and pops one value each
time, so that it reads the first result every time.
-/
namespace LiteServer.Lua.LuaUtil
open LiteServer.Lib

variable {Num : Type} [LuaNumber Num]

/-! ### The loop over the results -/

def IsResult (c : Char) : Prop := c ∈ ['b', 'f', 'd', 'i', 's']

instance (c : Char) : Decidable (IsResult c) := inferInstanceAs (Decidable (c ∈ _))

/-- What the first result has become once it was read for `cs`. -/
def seen (first : Value Num) (cs : List Char) : Value Num := if 's' ∈ cs then first.converted else first

/-- The memory after all of `cs` were read from one value. -/
def storedAll (first : Value Num) : List Char → List Nat → Memory Num → Memory Num
  | [], _, memory => memory
  | c :: cs, pointers, memory =>
    match result first c with
    | none => storedAll first cs pointers memory
    | some stored =>
      storedAll (seen first [c]) cs pointers.tail (pointers.head?.elim memory fun p => Function.update memory p (some stored))

theorem result_eq_none (v : Value Num) (c : Char) : result v c = none ↔ ¬IsResult c := by
  unfold result
  split <;> simp_all [IsResult]

theorem retrieveResult_ignored {L : LuaState Num} {above below : List (Value Num)} {first : Value Num}
    (split : L.stack = above ++ first :: below) {c : Char} (nothing : result first c = none) (memory : Memory Num)
    (vl : List (Arg Num)) :
    retrieveResult memory L c (IndexedStack.under above) vl = some (memory, L, vl) := by
  simp only [retrieveResult, split, IndexedStack.get_under, Option.bind_eq_bind, Option.bind_some, nothing]

theorem retrieveResult_stored {L : LuaState Num} {above below : List (Value Num)} {first : Value Num}
    (split : L.stack = above ++ first :: below) {c : Char} {stored : Stored Num} (some_stored : result first c = some stored)
    (memory : Memory Num) (p : Nat) (vl : List (Arg Num)) :
    retrieveResult memory L c (IndexedStack.under above) (.result p :: vl) =
      some (Function.update memory p (some stored), { L with stack := above ++ seen first [c] :: below }, vl) := by
  simp only [retrieveResult, split, IndexedStack.get_under, Option.bind_eq_bind, Option.bind_some, some_stored]
  by_cases string : c = 's'
  · subst string
    simp only [if_true, LuaState.tolstring, split, IndexedStack.get_under, IndexedStack.set_under, Option.bind_eq_bind,
      Option.bind_some]
    rfl
  · have same : seen first [c] = first := if_neg (by simpa using Ne.symm string)
    simp only [if_neg string, same, ← split]
    rfl

/-- The loop pops as many values as there are characters, the one it reads last. -/
theorem retrieve_total_correct {L : LuaState Num} {above below : List (Value Num)} {first : Value Num}
    (split : L.stack = above ++ first :: below) {sig : List Char} (counted : sig.length = above.length + 1)
    {pointers : List Nat} (matching : pointers.length = (sig.filter (IsResult ·)).length) (memory : Memory Num) :
    retrieve memory L sig (IndexedStack.under above) (pointers.map .result) =
      some (storedAll first sig pointers memory, { L with stack := below }) := by
  induction sig generalizing L above first pointers memory with
  | nil => simp at counted
  | cons c sig ih =>
    have next (first' : Value Num) (memory' : Memory Num) (pointers' : List Nat)
        (matching' : pointers'.length = (sig.filter (IsResult ·)).length) :
        ((({ L with stack := above ++ first' :: below } : LuaState Num).pop 1).bind fun L =>
          retrieve memory' L sig (IndexedStack.under above + 1) (pointers'.map .result)) =
        some (storedAll first' sig pointers' memory', { L with stack := below }) := by
      cases above with
      | nil =>
        have done : sig = [] := List.length_eq_zero_iff.mp (by simpa using counted)
        subst done
        rw [List.nil_append, LuaState.pop_cons]
        rfl
      | cons v above =>
        have up : IndexedStack.under (v :: above) + 1 = IndexedStack.under above := by
          simp only [IndexedStack.under, List.length_cons]
          omega
        rw [List.cons_append, LuaState.pop_cons, up]
        exact ih (L := { L with stack := above ++ first' :: below }) rfl (by simpa using counted) matching' memory'
    cases stored : result first c with
    | none =>
      have kept := next first memory pointers (by
        rw [matching, List.filter_cons_of_neg (by simpa using (result_eq_none first c).mp stored)])
      rw [← split] at kept
      rw [retrieve, retrieveResult_ignored split stored, storedAll]
      simp only [stored]
      exact kept
    | some stored' =>
      have recognised : IsResult c := by
        by_contra other
        rw [(result_eq_none first c).mpr other] at stored
        cases stored
      rw [List.filter_cons_of_pos (by simpa using recognised)] at matching
      cases pointers with
      | nil => cases matching
      | cons p pointers =>
        rw [List.map_cons, retrieve, retrieveResult_stored split stored, storedAll]
        simp only [stored]
        exact next (seen first [c]) _ pointers (by simpa using matching)

theorem seen_append (v : Value Num) (cs ds : List Char) : seen v (cs ++ ds) = seen (seen v cs) ds := by
  have once : v.converted.converted = v.converted := by cases v <;> rfl
  simp only [seen, List.mem_append]
  by_cases before : 's' ∈ cs <;> by_cases after : 's' ∈ ds <;> simp [before, after, once]

theorem storedAll_cons {first : Value Num} {c : Char} {stored : Stored Num} (some_stored : result first c = some stored)
    (cs : List Char) (p : Nat) (pointers : List Nat) (memory : Memory Num) :
    storedAll first (c :: cs) (p :: pointers) memory =
      storedAll (seen first [c]) cs pointers (Function.update memory p (some stored)) := by
  rw [storedAll, some_stored]
  rfl

theorem result_isSome (v : Value Num) {c : Char} (valid : IsResult c) : ∃ stored, result v c = some stored := by
  rw [← Option.isSome_iff_exists, ← Option.ne_none_iff_isSome, ne_eq, result_eq_none, not_not]
  exact valid

/-- Only what the pointers point to is written. -/
theorem storedAll_frame {cs : List Char} (valid : ∀ c ∈ cs, IsResult c) (first : Value Num) {pointers : List Nat}
    (counted : pointers.length = cs.length) (memory : Memory Num) {q : Nat} (other : q ∉ pointers) :
    storedAll first cs pointers memory q = memory q := by
  induction cs generalizing first pointers memory with
  | nil => rfl
  | cons c cs ih =>
    obtain ⟨stored, some_stored⟩ := result_isSome first (valid c (List.mem_cons_self ..))
    cases pointers with
    | nil => cases counted
    | cons p pointers =>
      rw [List.mem_cons, not_or] at other
      rw [storedAll_cons some_stored, ih (fun d member => valid d (List.mem_cons_of_mem c member)) _ (by simpa using counted) _
        other.2, Function.update_of_ne other.1]

/-- Each pointer gets the first result, as its own type. -/
theorem storedAll_apply {cs : List Char} (valid : ∀ c ∈ cs, IsResult c) (first : Value Num) {pointers : List Nat}
    (counted : pointers.length = cs.length) (distinct : pointers.Nodup) (memory : Memory Num) {i p : Nat} {c : Char}
    (pointer : pointers[i]? = some p) (character : cs[i]? = some c) :
    storedAll first cs pointers memory p = result (seen first (cs.take i)) c := by
  induction cs generalizing first pointers memory i with
  | nil => cases character
  | cons d cs ih =>
    obtain ⟨stored, some_stored⟩ := result_isSome first (valid d (List.mem_cons_self ..))
    have validRest (c : Char) (member : c ∈ cs) : IsResult c := valid c (List.mem_cons_of_mem d member)
    cases pointers with
    | nil => cases counted
    | cons q pointers =>
      have countedRest : pointers.length = cs.length := by simpa using counted
      rw [List.nodup_cons] at distinct
      rw [storedAll_cons some_stored]
      cases i with
      | zero =>
        cases pointer
        cases character
        rw [storedAll_frame validRest _ countedRest _ distinct.1, Function.update_self]
        exact some_stored.symm
      | succ i =>
        rw [ih validRest _ countedRest distinct.2 _ pointer character, ← seen_append, List.take_succ_cons]
        rfl

/-! ### The end of the call -/

/-- Nothing is retrieved where nothing is expected. -/
theorem retrieve_stack {L : LuaState Num} {results below : List (Value Num)} (split : L.stack = results.reverse ++ below)
    {sig : List Char} (counted : sig.length = results.length) {pointers : List Nat}
    (matching : pointers.length = (sig.filter (IsResult ·)).length) (memory : Memory Num) :
    retrieve memory L sig (-results.length) (pointers.map .result) =
      some (results.head?.elim memory fun first => storedAll first sig pointers memory, { L with stack := below }) := by
  cases results with
  | nil =>
    have done : sig = [] := List.length_eq_zero_iff.mp counted
    have whole : below = L.stack := split.symm
    subst done whole
    rfl
  | cons first others =>
    have index : (-(first :: others).length : Int) = IndexedStack.under others.reverse := by
      simp only [IndexedStack.under, List.length_cons, List.length_reverse]
      omega
    rw [List.reverse_cons, List.append_assoc] at split
    rw [index]
    exact retrieve_total_correct split (by simpa using counted) matching memory

omit [LuaNumber Num] in
theorem Ready.unhandled {L : LuaState Num} {sig : List Char} {below : List (Value Num)} {vl : List (Arg Num)}
    {made : Issued Num} (ready : Ready L sig below vl made) (handled : handler L = none) :
    made.traceback = 0 ∧ made.below = below :=
  ⟨ready.traceback.mpr handled, by rw [ready.below, handled]; rfl⟩

omit [LuaNumber Num] in
/-- The handler lies over what the call is to leave. -/
theorem Ready.handled {L : LuaState Num} {sig : List Char} {below : List (Value Num)} {vl : List (Arg Num)}
    {made : Issued Num} (ready : Ready L sig below vl made) {traceback : Value Num} (handled : handler L = some traceback) :
    made.traceback ≠ 0 ∧ made.below = traceback :: below := by
  constructor
  · rw [ne_eq, ready.traceback, handled]
    simp
  · rw [ready.below, handled]
    rfl

/-- What is left of the stack, with the handler gone, is popped as often as the
    stack was high at the beginning. -/
theorem finish_returned {L : LuaState Num} {sig : List Char} {below : List (Value Num)} {pointers : List Nat}
    {made : Issued Num} (ready : Ready L sig below (pointers.map .result) made)
    (matching : pointers.length = ((resultPart sig).filter (IsResult ·)).length) (results : List (Value Num))
    (memory : Memory Num) (top : Nat) :
    finish (.returned results) memory top made =
      (({ made.L with stack := below } : LuaState Num).pop top).bind fun L =>
        some (.returned 0, (LuaState.adjusted (resultPart sig).length results).head?.elim memory fun first =>
          storedAll first (resultPart sig) pointers memory, L) := by
  have size := LuaState.adjusted_length (resultPart sig).length results
  have retrieved := retrieve_stack (L := { made.L with
    stack := (LuaState.adjusted (resultPart sig).length results).reverse ++ made.below }) rfl size.symm matching memory
  rw [size] at retrieved
  simp only [finish, ready.nres, ready.sig, ready.vl, retrieved, Option.bind_eq_bind, Option.bind_some]
  cases handled : handler L with
  | none =>
    obtain ⟨zero, kept⟩ := ready.unhandled handled
    simp only [zero, kept, ne_eq, not_true_eq_false, if_false]
    rfl
  | some traceback =>
    obtain ⟨nonzero, kept⟩ := ready.handled handled
    simp only [nonzero, kept, ne_eq, not_false_eq_true, if_true, LuaState.pop_cons]
    rfl

theorem finish_failed {L : LuaState Num} {sig : List Char} {below : List (Value Num)} {vl : List (Arg Num)}
    {made : Issued Num} (ready : Ready L sig below vl made) (error : Value Num) (memory : Memory Num) (top : Nat) :
    finish (.failed error) memory top made = some (.returned 2, memory, { made.L with stack := below }) := by
  simp only [finish]
  cases handled : handler L with
  | none =>
    obtain ⟨zero, kept⟩ := ready.unhandled handled
    rw [if_pos zero, kept]
    rfl
  | some traceback =>
    obtain ⟨nonzero, kept⟩ := ready.handled handled
    have popped : ({ made.L with stack := error :: traceback :: below } : LuaState Num).pop 2 =
        some { made.L with stack := below } := LuaState.pop_append (show _ = [error, traceback] ++ below from rfl)
    rw [if_neg nonzero, kept, popped]
    rfl

/-! ### What the caller gets -/

/-- The results are where they are meant to go. -/
def Delivered (memory : Memory Num) (pointers : List Nat) (cs : List Char) (results : List (Value Num)) : Prop :=
  ∀ (i p : Nat) c r, pointers[i]? = some p → cs[i]? = some c → results[i]? = some r → memory p = result r c

/-- Read as the types of the others, the first result gives what they give. -/
def FirstSuffices (cs : List Char) (results : List (Value Num)) : Prop :=
  ∀ (i : Nat) c r first, cs[i]? = some c → results[i]? = some r → results.head? = some first →
    result (seen first (cs.take i)) c = result r c

theorem FirstSuffices.of_single {cs : List Char} {results : List (Value Num)} (single : results.length ≤ 1) :
    FirstSuffices cs results := by
  intro i c r first character value head
  have zero : i = 0 := by
    have inside := (List.getElem?_eq_some_iff.mp value).1
    omega
  subst zero
  rw [← List.head?_eq_getElem?, head] at value
  cases value
  rfl

theorem results_delivered_iff (L : LuaState Num) (func : String) (sig : List Char) (args : List (Arg Num))
    (values : List (Value Num)) (callable : (L.globals func).isfunction)
    (matching : convertedAll L (argumentPart sig) args = some values) (valid : ∀ c ∈ resultPart sig, IsResult c)
    (pointers : List Nat) (counted : pointers.length = (resultPart sig).length) (distinct : pointers.Nodup)
    (run : Pcall Num → Outcome Num) (results : List (Value Num)) (returned_all : results.length = (resultPart sig).length)
    (returned : run ⟨L.globals func, values, (resultPart sig).length, handler L⟩ = .returned results) (memory : Memory Num) :
    (∃ memory' L', call run memory L func sig (args ++ pointers.map .result) = some (.returned 0, memory', L') ∧
      Delivered memory' pointers (resultPart sig) results) ↔ FirstSuffices (resultPart sig) results := by
  have counted_values := (convertedAll_recognised matching).2
  obtain ⟨made, issued, request, ready⟩ :=
    issue_total_correct (convertedAll_getglobal matching func) rfl counted_values (pointers.map .result)
  have all : (resultPart sig).filter (IsResult ·) = resultPart sig := List.filter_eq_self.mpr (by simpa using valid)
  have outcome : run made.request = .returned results := (congrArg run request).trans returned
  have finished := finish_returned ready (by rw [all, counted]) results memory L.gettop
  rw [← returned_all, LuaState.adjusted_self, LuaState.gettop, LuaState.pop_all, Option.bind_some] at finished
  have delivered : Delivered (results.head?.elim memory fun first => storedAll first (resultPart sig) pointers memory) pointers
      (resultPart sig) results ↔ FirstSuffices (resultPart sig) results := by
    cases results with
    | nil => simp [Delivered, FirstSuffices]
    | cons first others =>
      have stored {i p : Nat} {c : Char} := storedAll_apply valid first counted distinct memory (i := i) (p := p) (c := c)
      constructor
      · intro holds i c r first' character value head
        cases head
        have inside : i < pointers.length := by
          rw [counted]
          exact (List.getElem?_eq_some_iff.mp character).1
        have pointer : pointers[i]? = some pointers[i] := List.getElem?_eq_getElem inside
        rw [← stored pointer character]
        exact holds i pointers[i] c r pointer character value
      · intro enough i p c r pointer character value
        exact (stored pointer character).trans (enough i c r first character value rfl)
  rw [call_callable callable, issued, Option.bind_some, outcome, LuaState.gettop, finished, ← delivered]
  constructor
  · rintro ⟨memory', L', ended, holds⟩
    cases ended
    exact holds
  · intro holds
    exact ⟨_, _, rfl, holds⟩

theorem single_result_delivered :
    ∃ memory' L', call (fun _ => .returned [.number 5]) (fun _ => none) caller "TestCallLua" ['i', 'i', '>', 'i']
        [.int 2, .int 1, .result 0] = some (.returned 0, memory', L') ∧ Delivered memory' [0] ['i'] [Value.number (5 : Int)] :=
  (results_delivered_iff caller "TestCallLua" ['i', 'i', '>', 'i'] [.int 2, .int 1] [.number 2, .number 1] rfl rfl
    (by simp [resultPart, IsResult]) [0] rfl (by decide) (fun _ => .returned [.number 5]) [.number 5] rfl rfl (fun _ => none)).mpr
    (FirstSuffices.of_single (by decide))

theorem second_result_lost :
    ¬∃ memory' L', call (fun _ => .returned [.number 1, .number 2]) (fun _ => none) caller "TestCallLua" ['>', 'i', 'i']
        [.result 0, .result 1] = some (.returned 0, memory', L') ∧
      Delivered memory' [0, 1] ['i', 'i'] [Value.number (1 : Int), .number 2] := by
  rintro ⟨memory', L', ended, holds⟩
  have stored : (call (fun _ => .returned [.number 1, .number 2]) (fun _ => none) caller "TestCallLua" ['>', 'i', 'i']
    [.result 0, .result 1]).map (fun outcome => outcome.2.1 1) = some (some (.int 1)) := rfl
  rw [ended] at stored
  have first : some (Stored.int (BitVec.ofInt 32 2)) = some (Stored.int 1) :=
    (holds 1 1 'i' (.number 2) rfl rfl rfl).symm.trans (Option.some.inj stored)
  injection first with first
  injection first with same
  exact absurd same (by decide)

/-! ### The stack that is left -/

def Preserved (run : Pcall Num → Outcome Num) (memory : Memory Num) (L : LuaState Num) (func : String) (sig : List Char)
    (vl : List (Arg Num)) : Prop :=
  ∃ code memory' L', call run memory L func sig vl = some (.returned code, memory', L') ∧ L'.stack = L.stack

theorem call_uncallable {L : LuaState Num} {func : String} (uncallable : ¬(L.globals func).isfunction) (sig : List Char)
    (vl : List (Arg Num)) (run : Pcall Num → Outcome Num) (memory : Memory Num) :
    call run memory L func sig vl =
      some (.returned 1, memory, { L with stack := (L.globals func :: L.stack).drop L.stack.length }) := by
  have popped : (L.push (L.globals func)).pop L.stack.length =
      some { L with stack := (L.globals func :: L.stack).drop L.stack.length } := by
    have enough : L.stack.length ≤ (L.globals func :: L.stack).length := by simp
    rw [LuaState.pop, IndexedStack.pop, LuaState.push, if_pos enough]
    rfl
  simp only [call, LuaState.getglobal, LuaState.gettop, LuaState.isfunction_push, uncallable, Bool.not_false, if_true, popped]
  rfl

/-- As many of the caller's values are taken as there were unrecognised characters. -/
theorem issue_cases {L : LuaState Num} {func : String} {sig : List Char} {args : List (Arg Num)} {values : List (Value Num)}
    (matching : convertedAll L ((argumentPart sig).filter (IsArgument ·)) args = some values) (vl : List (Arg Num)) {u : Nat}
    (unrecognised : values.length + u = (argumentPart sig).length) :
    (L.stack.length < u ∧ issue (L.getglobal func) sig (args ++ vl) = none) ∨
      u ≤ L.stack.length ∧ ∃ made, issue (L.getglobal func) sig (args ++ vl) = some made ∧
        Ready (L.getglobal func) sig (L.stack.drop u) vl made ∧
        (u = 0 → made.request = ⟨L.globals func, values, (resultPart sig).length, handler L⟩) := by
  rw [← convertedAll_push L (L.globals func)] at matching
  cases u with
  | zero =>
    obtain ⟨made, issued, request, ready⟩ :=
      issue_total_correct (L := L.getglobal func) matching rfl unrecognised vl
    exact Or.inr ⟨Nat.zero_le _, made, issued, ready, fun _ => request⟩
  | succ k =>
    by_cases shallow : k + 1 ≤ L.stack.length
    · have split : values.reverse ++ (L.getglobal func).stack =
          ((values.reverse ++ L.globals func :: L.stack.take k).reverse).reverse ++ L.stack[k] :: L.stack.drop (k + 1) := by
        rw [List.reverse_reverse, List.append_assoc, List.cons_append, ← List.drop_eq_getElem_cons, List.take_append_drop]
        rfl
      have counted : (values.reverse ++ L.globals func :: L.stack.take k).reverse.length = (argumentPart sig).length := by
        simp only [List.length_reverse, List.length_append, List.length_cons, List.length_take]
        omega
      obtain ⟨made, issued, -, ready⟩ := issue_total_correct (L := L.getglobal func) matching split counted vl
      exact Or.inr ⟨shallow, made, issued, ready, fun zero => by omega⟩
    · have deep : values.length + (L.getglobal func).stack.length ≤ (argumentPart sig).length := by
        rw [LuaState.getglobal, LuaState.push, List.length_cons]
        omega
      exact Or.inl ⟨by omega, issue_deep (L := L.getglobal func) matching deep vl⟩

/-- As many values are popped as there were before the global was pushed. -/
theorem uncallable_preserves_iff {L : LuaState Num} {func : String} (uncallable : ¬(L.globals func).isfunction)
    (sig : List Char) (vl : List (Arg Num)) (run : Pcall Num → Outcome Num) (memory : Memory Num) :
    Preserved run memory L func sig vl ↔ L.stack.length = 1 := by
  have ended := call_uncallable uncallable sig vl run memory
  constructor
  · rintro ⟨code, memory', L', other, kept⟩
    rw [ended] at other
    cases other
    have height := congrArg List.length kept
    rw [List.length_drop, List.length_cons] at height
    omega
  · intro single
    refine ⟨1, memory, _, ended, ?_⟩
    rw [single]
    rfl

theorem callable_preserves_iff {L : LuaState Num} {func : String} (callable : (L.globals func).isfunction) {sig : List Char}
    {args : List (Arg Num)} {values : List (Value Num)}
    (matching : convertedAll L ((argumentPart sig).filter (IsArgument ·)) args = some values) {u : Nat}
    (unrecognised : values.length + u = (argumentPart sig).length) {pointers : List Nat}
    (counted : pointers.length = ((resultPart sig).filter (IsResult ·)).length) {run : Pcall Num → Outcome Num}
    (returns : ∀ request errid stack, run request ≠ .thrown errid stack) (memory : Memory Num) :
    Preserved run memory L func sig (args ++ pointers.map .result) ↔
      u = 0 ∧ ((∃ error, run ⟨L.globals func, values, (resultPart sig).length, handler L⟩ = .failed error) ∨ L.stack = []) := by
  rw [Preserved, call_callable callable]
  rcases issue_cases matching (pointers.map .result) unrecognised with ⟨deep, issued⟩ | ⟨shallow, made, issued, ready, request⟩
  · rw [issued]
    constructor
    · rintro ⟨_, _, _, ended, -⟩
      cases ended
    · rintro ⟨zero, -⟩
      omega
  · rw [issued, Option.bind_some]
    cases outcome : run made.request with
    | thrown errid stack => exact absurd outcome (returns _ errid stack)
    | failed error =>
      rw [finish_failed ready error]
      constructor
      · rintro ⟨_, _, _, ended, kept⟩
        cases ended
        have height := congrArg List.length kept
        rw [List.length_drop] at height
        have zero : u = 0 := by omega
        exact ⟨zero, Or.inl ⟨error, request zero ▸ outcome⟩⟩
      · rintro ⟨rfl, -⟩
        exact ⟨2, memory, _, rfl, rfl⟩
    | returned results =>
      rw [finish_returned ready counted results]
      by_cases zero : u = 0
      · subst zero
        rw [LuaState.gettop, List.drop_zero, LuaState.pop_all, Option.bind_some]
        constructor
        · rintro ⟨_, _, _, ended, kept⟩
          cases ended
          exact ⟨rfl, Or.inr kept.symm⟩
        · rintro ⟨-, ⟨error, failed⟩ | empty⟩
          · rw [request rfl, failed] at outcome
            cases outcome
          · exact ⟨0, _, _, rfl, empty.symm⟩
      · have lower : (L.stack.drop u).length < L.gettop := by
          rw [List.length_drop, LuaState.gettop]
          omega
        rw [LuaState.pop_of_lt lower, Option.bind_none]
        constructor
        · rintro ⟨_, _, _, ended, -⟩
          cases ended
        · rintro ⟨is_zero, -⟩
          exact absurd is_zero zero

theorem preserves_stack_iff (L : LuaState Num) (func : String) (sig : List Char) (args : List (Arg Num))
    (values : List (Value Num)) (matching : convertedAll L ((argumentPart sig).filter (IsArgument ·)) args = some values)
    (pointers : List Nat) (counted : pointers.length = ((resultPart sig).filter (IsResult ·)).length)
    (run : Pcall Num → Outcome Num) (returns : ∀ request errid stack, run request ≠ .thrown errid stack) (memory : Memory Num) :
    Preserved run memory L func sig (args ++ pointers.map .result) ↔
      (¬(L.globals func).isfunction ∧ L.stack.length = 1) ∨
      ((L.globals func).isfunction ∧ (∀ c ∈ argumentPart sig, IsArgument c) ∧
        ((∃ error, run ⟨L.globals func, values, (resultPart sig).length, handler L⟩ = .failed error) ∨ L.stack = [])) := by
  by_cases callable : (L.globals func).isfunction
  · have pushed := (convertedAll_recognised matching).2
    have fewer := List.length_filter_le (fun c => decide (IsArgument c)) (argumentPart sig)
    obtain ⟨u, unrecognised⟩ : ∃ u, values.length + u = (argumentPart sig).length := ⟨_, Nat.add_sub_cancel' (pushed ▸ fewer)⟩
    have all : (∀ c ∈ argumentPart sig, IsArgument c) ↔ u = 0 := by
      have same := List.length_filter_eq_length_iff (p := fun c => decide (IsArgument c)) (l := argumentPart sig)
      simp only [decide_eq_true_eq] at same
      rw [← same]
      omega
    rw [callable_preserves_iff callable matching unrecognised counted returns, all]
    constructor
    · exact fun holds => Or.inr ⟨callable, holds⟩
    · rintro (⟨absent, -⟩ | ⟨-, holds⟩)
      · exact absurd callable absent
      · exact holds
  · rw [uncallable_preserves_iff callable]
    constructor
    · exact fun single => Or.inl ⟨callable, single⟩
    · rintro (⟨-, single⟩ | ⟨function, -⟩)
      · exact single
      · exact absurd function callable

theorem failed_call_preserves : Preserved (fun _ => .failed (.string [33])) (fun _ => none) caller "TestCallLua" ['i', '>', 'i']
    [.int 2, .result 0] :=
  (preserves_stack_iff caller "TestCallLua" ['i', '>', 'i'] [.int 2] [.number 2] rfl [0] rfl
    (fun _ => .failed (.string [33])) (by rintro _ _ _ ⟨⟩) (fun _ => none)).mpr
    (Or.inr ⟨rfl, by simp [argumentPart, IsArgument], Or.inl ⟨.string [33], rfl⟩⟩)

theorem successful_call_clears :
    ¬Preserved (fun _ => .returned []) (fun _ => none) caller "TestCallLua" ['i'] [.int 2] := by
  rintro ⟨code, memory', L', ended, kept⟩
  have cleared : (call (fun _ => .returned []) (fun _ => none) caller "TestCallLua" ['i'] [.int 2]).map
    (fun outcome => outcome.2.2.stack) = some [] := rfl
  rw [ended, Option.map_some, kept] at cleared
  cases cleared

end LiteServer.Lua.LuaUtil
