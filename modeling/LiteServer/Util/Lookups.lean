import LiteServer.Lib.LinkedList
import LiteServer.Lib.Transition
import LiteServer.Util.HeldIDs

/-!
The chains and the count of a `HashIDGenerator` after any calls. As `Insert`
takes the first node every time, a second bucket in use shares it, and a second
insertion into one bucket links it to itself.
-/
namespace LiteServer.Util
open LinkedList HashIDGenerator

/-! ### Chains -/

/-- The nodes that a lookup in a bucket goes through. -/
def HashIDGenerator.ChainOf (gen : HashIDGenerator) (hash : Nat) (nodes : List Nat) : Prop :=
  Chain (fun i => some (gen.pIDList i)) HashIDNode.next (gen.pHash hash) nodes

/-- Every chain ends and meets no node twice, no two share one, and lookups end. -/
structure LookupsEnd (gen : HashIDGenerator) : Prop where
  finite : ∀ hash, ∃ nodes, gen.ChainOf hash nodes ∧ nodes.Nodup
  apart : ∀ hash other nodes others, hash ≠ other → gen.ChainOf hash nodes → gen.ChainOf other others →
    nodes.Disjoint others
  find : ∀ id, ∃ fuel index, gen.find fuel id = some index
  remove : ∀ id, ∃ fuel answer, gen.remove fuel id = some answer

section
variable {gen gen' : HashIDGenerator} {id : ID} {max : Nat} {used : Option Nat} {op : Op} {ops : List Op}

theorem findLoop_ends {p : Option Nat} {nodes : List Nat}
    (chain : Chain (fun i => some (gen.pIDList i)) HashIDNode.next p nodes) :
    ∃ index, gen.findLoop id nodes.length p = some index := by
  induction nodes generalizing p with
  | nil =>
    cases chain
    exact ⟨-1, rfl⟩
  | cons node rest ih =>
    obtain ⟨rfl, cell, found, more⟩ := chain
    cases Option.some.inj found
    rw [List.length_cons, findLoop]
    split
    · exact ⟨node, rfl⟩
    · exact ih more

theorem removeLoop_ends (id : ID) {node : Nat} {rest : List Nat}
    (chain : Chain (fun i => some (gen.pIDList i)) HashIDNode.next (gen.pIDList node).next rest) :
    ∃ answer, gen.removeLoop id (rest.length + 1) node = some answer := by
  induction rest generalizing node with
  | nil =>
    rw [chain_nil] at chain
    exact ⟨(-1, gen), by rw [removeLoop, chain]⟩
  | cons cur rest ih =>
    obtain ⟨next, cell, found, more⟩ := chain
    cases Option.some.inj found
    rw [removeLoop, next]
    by_cases own : (gen.pIDList cur).id = id
    · exact ⟨_, if_pos own⟩
    · obtain ⟨answer, ended⟩ := ih more
      exact ⟨answer, (if_neg own).trans ended⟩

/-- With all chains finite and apart, the loops of `Find` and `Remove` end. -/
theorem lookupsEnd_of_chains (finite : ∀ hash, ∃ nodes, gen.ChainOf hash nodes ∧ nodes.Nodup)
    (apart : ∀ hash other nodes others, hash ≠ other → gen.ChainOf hash nodes → gen.ChainOf other others →
      nodes.Disjoint others) : LookupsEnd gen where
  finite := finite
  apart := apart
  find id := by
    obtain ⟨nodes, chain, _⟩ := finite (gen.hash id)
    exact ⟨nodes.length, findLoop_ends chain⟩
  remove id := by
    obtain ⟨nodes, chain, _⟩ := finite (gen.hash id)
    unfold ChainOf at chain
    cases start : gen.pHash (gen.hash id) with
    | none => exact ⟨0, (-1, gen), by simp [remove, start]⟩
    | some node =>
      rw [start] at chain
      obtain ⟨cell, rest, _, found, more⟩ := chain_some chain
      cases Option.some.inj found
      by_cases own : (gen.pIDList node).id = id
      · exact ⟨0, _, by simp only [remove, start, if_pos own]; rfl⟩
      · obtain ⟨answer, ended⟩ := removeLoop_ends id more
        exact ⟨rest.length + 1, answer, by simp only [remove, start, if_neg own, ended]⟩

/-! ### One bucket in use -/

/-- At most one bucket is in use, and the first node ends its chain. -/
structure Uses (max : Nat) (used : Option Nat) (gen : HashIDGenerator) : Prop where
  capacity : gen.nCapacity = max
  hash : ∀ id, gen.hash id = bucket max id
  node : gen.pIDList 0 = ⟨-1, none⟩
  chains : ∀ hash, gen.pHash hash = if used = some hash then some 0 else none

theorem Uses.lookupsEnd (uses : Uses max used gen) : LookupsEnd gen := by
  have chain : ∀ hash, gen.ChainOf hash (if used = some hash then [0] else []) := by
    intro hash
    unfold ChainOf
    rw [uses.chains]
    split
    · exact ⟨rfl, _, rfl, congrArg HashIDNode.next uses.node⟩
    · rfl
  refine lookupsEnd_of_chains ?_ ?_
  · intro hash
    refine ⟨_, chain hash, ?_⟩
    split <;> simp
  · intro hash other nodes others differ first second
    rw [chain_unique first (chain hash), chain_unique second (chain other)]
    split
    · rename_i own
      rw [if_neg (by rw [own]; simpa using differ)]
      exact List.disjoint_nil_right _
    · exact List.disjoint_nil_left _

theorem Uses.insert (uses : Uses max used gen) (positive : 1 ≤ max) (id : ID) : ∃ gen', gen.insert id = some (true, gen') ∧
    gen'.nCapacity = max ∧ (∀ other, gen'.hash other = bucket max other) ∧
    gen'.pIDList 0 = ⟨-1, if used = some (bucket max id) then some 0 else none⟩ ∧
    gen'.pHash = Function.update gen.pHash (bucket max id) (some 0) := by
  have first := first_free uses.capacity positive (by rw [uses.node])
  have hashed : ({ gen with nCount := gen.nCount + 1 } : HashIDGenerator).hash id = bucket max id := uses.hash id
  by_cases again : used = some (bucket max id)
  · refine ⟨{ gen with
      nCount := gen.nCount + 1
      pIDList := Function.update gen.pIDList 0 ⟨-1, some 0⟩
      pHash := Function.update gen.pHash (bucket max id) (some 0) }, ?_, uses.capacity, uses.hash, ?_, rfl⟩
    · simp only [HashIDGenerator.insert, first, Option.bind_eq_bind, Option.bind_some, uses.node, hashed, uses.chains (bucket max id),
        if_pos again]
      rfl
    · rw [if_pos again]
      rfl
  · refine ⟨{ gen with
      nCount := gen.nCount + 1
      pHash := Function.update gen.pHash (bucket max id) (some 0) }, ?_, uses.capacity, uses.hash, ?_, rfl⟩
    · simp only [HashIDGenerator.insert, first, Option.bind_eq_bind, Option.bind_some, uses.node, hashed, uses.chains (bucket max id),
        if_neg again]
      rfl
    · rw [if_neg again]
      exact uses.node

/-- The first bucket that is used. -/
theorem Uses.insert_first (uses : Uses max none gen) (positive : 1 ≤ max) (id : ID) :
    ∃ gen', gen.insert id = some (true, gen') ∧ Uses max (some (bucket max id)) gen' := by
  obtain ⟨gen', inserted, capacity, hash, node, heads⟩ := uses.insert positive id
  refine ⟨gen', inserted, capacity, hash, node, fun other => ?_⟩
  rw [heads, Function.update_apply, uses.chains]
  by_cases own : other = bucket max id
  · simp [own]
  · simp [own, Ne.symm own]

/-- A node linked to itself is on no finite chain. -/
theorem chain_endless {p : Option Nat} {nodes : List Nat} (looped : (gen.pIDList 0).next = some 0)
    (chain : Chain (fun i => some (gen.pIDList i)) HashIDNode.next p nodes) : p ≠ some 0 := by
  induction nodes generalizing p with
  | nil =>
    cases chain
    simp
  | cons node rest ih =>
    obtain ⟨rfl, cell, found, more⟩ := chain
    cases Option.some.inj found
    rintro ⟨⟩
    exact ih more looped

/-- An insertion while a bucket is in use links the first node to itself, or
    puts it on a second chain. -/
theorem Uses.insert_again {hash : Nat} (uses : Uses max (some hash) gen) (positive : 1 ≤ max) (id : ID) :
    ∃ gen', gen.insert id = some (true, gen') ∧ ¬ LookupsEnd gen' := by
  obtain ⟨gen', inserted, _, _, node, heads⟩ := uses.insert positive id
  refine ⟨gen', inserted, fun ends => ?_⟩
  obtain ⟨nodes, chain, _⟩ := ends.finite (bucket max id)
  have start : gen'.pHash (bucket max id) = some 0 := by rw [heads, Function.update_self]
  by_cases same : hash = bucket max id
  · rw [same, if_pos rfl] at node
    exact chain_endless (congrArg HashIDNode.next node) chain start
  · have before : gen'.pHash hash = some 0 := by
      rw [heads, Function.update_of_ne same, uses.chains, if_pos rfl]
    obtain ⟨others, other, _⟩ := ends.finite hash
    have apart := ends.apart _ _ _ _ same other chain
    unfold ChainOf at chain other
    rw [start] at chain
    rw [before] at other
    obtain ⟨_, rest, rfl, _⟩ := chain_some chain
    obtain ⟨_, rest', rfl, _⟩ := chain_some other
    exact apart List.mem_cons_self List.mem_cons_self

/-- `Remove` finds nothing but an ID of -1, which it takes the node for. -/
theorem Uses.remove (uses : Uses max used gen) {fuel : Nat} {answer : Int × HashIDGenerator}
    (removed : gen.remove fuel id = some answer) :
    Uses max (if id = -1 ∧ used = some (bucket max (-1)) then none else used) answer.2 := by
  simp only [HashIDGenerator.remove] at removed
  rw [uses.hash, uses.chains] at removed
  by_cases there : used = some (bucket max id)
  · rw [if_pos there] at removed
    simp only [uses.node] at removed
    by_cases free : id = -1
    · rw [if_pos free.symm] at removed
      cases Option.some.inj removed
      subst free
      rw [if_pos ⟨rfl, there⟩]
      refine ⟨uses.capacity, uses.hash, rfl, fun other => ?_⟩
      refine (Function.update_apply ..).trans ?_
      rw [uses.chains, there]
      by_cases own : other = bucket max (-1)
      · rw [if_pos own]
        simp
      · rw [if_neg own, if_neg fun same => own (Option.some.inj same).symm]
        simp
    · rw [if_neg (Ne.symm free)] at removed
      cases fuel with
      | zero => cases removed
      | succ fuel =>
        rw [removeLoop, uses.node] at removed
        cases Option.some.inj removed
        rw [if_neg fun both => free both.1]
        exact uses
  · rw [if_neg there] at removed
    cases Option.some.inj removed
    rw [if_neg ?_]
    · exact uses
    · rintro ⟨rfl, same⟩
      exact there same

theorem Uses.removes (uses : Uses max used gen) (id : ID) : ∃ answer, gen.remove 1 id = some answer := by
  simp only [HashIDGenerator.remove]
  rw [uses.hash, uses.chains]
  by_cases there : used = some (bucket max id)
  · rw [if_pos there]
    by_cases free : (-1 : ID) = id
    · exact ⟨_, by simp only [uses.node, if_pos free]; rfl⟩
    · exact ⟨(-1, gen), by simp only [uses.node, if_neg free, removeLoop]⟩
  · rw [if_neg there]
    exact ⟨_, rfl⟩

end

/-! ### Sequences of calls -/

/-- No ID is inserted while a bucket is in use: only once, and again after one
    in the bucket of -1 was removed as -1. -/
def Sparse (max : Nat) : Option Nat → List Op → Prop
  | _, [] => True
  | used, .insert id :: ops => used = none ∧ Sparse max (some (bucket max id)) ops
  | used, .remove id :: ops => Sparse max (if id = -1 ∧ used = some (bucket max (-1)) then none else used) ops
  | used, .find _ :: ops => Sparse max used ops

instance (max : Nat) : (used : Option Nat) → (ops : List Op) → Decidable (Sparse max used ops)
  | _, [] => .isTrue trivial
  | _, .insert id :: ops =>
    have := instDecidableSparse max (some (bucket max id)) ops
    inferInstanceAs (Decidable (_ ∧ _))
  | used, .remove id :: ops =>
    instDecidableSparse max (if id = -1 ∧ used = some (bucket max (-1)) then none else used) ops
  | used, .find _ :: ops => instDecidableSparse max used ops

/-- A call with the rounds that its loop may take. -/
def HashIDGenerator.apply (gen : HashIDGenerator) (made : Nat × Op) : Option HashIDGenerator :=
  (gen.call made.1 made.2).map Prod.snd

/-- `P` holds of every state that the calls reach, whatever rounds they take. -/
def Throughout (P : HashIDGenerator → Prop) (gen : HashIDGenerator) (ops : List Op) : Prop :=
  ∀ made : List (Nat × Op), made.map Prod.snd = ops → Transition.Throughout HashIDGenerator.apply P gen made

section
variable {P : HashIDGenerator → Prop} {gen gen' : HashIDGenerator} {max : Nat} {used : Option Nat} {op : Op} {ops : List Op}

theorem Throughout.first (holds : Throughout P gen ops) : P gen :=
  (holds (ops.map fun op => (0, op)) (by simp)).first

theorem Throughout.next (holds : Throughout P gen (op :: ops)) {fuel : Nat} {answer : Answer}
    (called : gen.call fuel op = some (answer, gen')) : Throughout P gen' ops := by
  rintro made rfl
  have applied : gen.apply (fuel, op) = some gen' := by rw [HashIDGenerator.apply, called, Option.map_some]
  exact (holds ((fuel, op) :: made) rfl).2 gen' applied

theorem throughout_cons (now : P gen)
    (later : ∀ fuel answer gen', gen.call fuel op = some (answer, gen') → Throughout P gen' ops) :
    Throughout P gen (op :: ops) := by
  intro made same
  cases made with
  | nil => cases same
  | cons first made =>
    obtain ⟨rfl, rfl⟩ := List.cons.inj same
    refine ⟨now, fun gen' applied => ?_⟩
    obtain ⟨⟨answer, _⟩, called, rfl⟩ := Option.map_eq_some_iff.mp applied
    exact later first.1 answer _ called made rfl

theorem throughout_nil (now : P gen) : Throughout P gen [] := by
  intro made same
  obtain rfl := List.map_eq_nil_iff.mp same
  exact now

theorem Uses.throughout (uses : Uses max used gen) (positive : 1 ≤ max) (sparse : Sparse max used ops) :
    Throughout LookupsEnd gen ops := by
  induction ops generalizing gen used with
  | nil => exact throughout_nil uses.lookupsEnd
  | cons op ops ih =>
    refine throughout_cons uses.lookupsEnd fun fuel answer gen' called => ?_
    cases op with
    | insert id =>
      obtain ⟨rfl, sparse⟩ := sparse
      obtain ⟨gen'', inserted, uses'⟩ := uses.insert_first positive id
      simp only [call, inserted, Option.map_some, Option.some.injEq, Prod.mk.injEq] at called
      exact ih (called.2 ▸ uses') sparse
    | remove id =>
      obtain ⟨answer, removed, done⟩ := Option.map_eq_some_iff.mp called
      cases done
      exact ih (uses.remove removed) sparse
    | find id =>
      obtain ⟨index, _, done⟩ := Option.map_eq_some_iff.mp called
      cases done
      exact ih uses sparse

theorem Uses.sparse (uses : Uses max used gen) (positive : 1 ≤ max) (ends : Throughout LookupsEnd gen ops) :
    Sparse max used ops := by
  induction ops generalizing gen used with
  | nil => trivial
  | cons op ops ih =>
    cases op with
    | insert id =>
      cases used with
      | none =>
        obtain ⟨gen', inserted, uses'⟩ := uses.insert_first positive id
        have called : gen.call 1 (.insert id) = some (.inserted true, gen') := by simp [call, inserted]
        exact ⟨rfl, ih uses' (ends.next called)⟩
      | some hash =>
        obtain ⟨gen', inserted, broken⟩ := uses.insert_again positive id
        have called : gen.call 1 (.insert id) = some (.inserted true, gen') := by simp [call, inserted]
        exact absurd (ends.next called).first broken
    | remove id =>
      obtain ⟨answer, removed⟩ := uses.removes id
      have called : gen.call 1 (.remove id) = some (.removed answer.1, answer.2) := by simp [call, removed]
      exact ih (uses.remove removed) (ends.next called)
    | find id =>
      obtain ⟨fuel, index, found⟩ := uses.lookupsEnd.find id
      have called : gen.call fuel (.find id) = some (.found index, gen) := by simp [call, found]
      exact ih uses (ends.next called)

end

theorem new_uses {max : Nat} {gen : HashIDGenerator} (created : HashIDGenerator.new max = some gen) : Uses max none gen := by
  have fresh := new_total_correct max
  rw [created] at fresh
  by_cases small : max ≤ 2 ^ 30
  · rw [if_pos small] at fresh
    obtain ⟨_, ⟨⟩, holds⟩ := fresh
    exact ⟨holds.capacity, holds.hash, holds.node, holds.chains⟩
  · rw [if_neg small] at fresh
    cases fresh

/-- Lookups end in every state that the calls reach exactly when they use one
    bucket at a time. -/
theorem lookups_end_iff (max : Nat) (positive : 1 ≤ max) (gen : HashIDGenerator)
    (created : HashIDGenerator.new max = some gen) (ops : List Op) :
    Throughout LookupsEnd gen ops ↔ Sparse max none ops :=
  ⟨(new_uses created).sparse positive, (new_uses created).throughout positive⟩

theorem removed_id_inserted_again : ∃ gen, HashIDGenerator.new 4 = some gen ∧
    Throughout LookupsEnd gen [.insert 15, .remove 3, .remove (-1), .insert 7] :=
  ⟨_, rfl, (lookups_end_iff 4 (by decide) _ rfl _).mpr (by decide)⟩

theorem equal_ids_never_found : ∃ gen, HashIDGenerator.new 1 = some gen ∧
    ¬ Throughout LookupsEnd gen [.insert 0, .insert 0] := by
  obtain ⟨gen, created⟩ : ∃ gen, HashIDGenerator.new 1 = some gen := ⟨_, rfl⟩
  refine ⟨gen, created, fun ends => ?_⟩
  exact absurd ((new_uses created).sparse (by decide) ends) (by decide)

/-! ### The count -/

/-- The slots that are in use. -/
def HashIDGenerator.slotsInUse (gen : HashIDGenerator) : Nat :=
  (List.range gen.nCapacity).countP fun i => (gen.pIDList i).id ≠ -1

/-- The count is that of the slots in use, a full generator has no free slot, and
    refuses every ID. -/
structure Accounts (gen : HashIDGenerator) : Prop where
  count : gen.nCount = gen.slotsInUse
  bound : gen.nCount ≤ gen.nCapacity
  full : gen.isFull ↔ ∀ i < gen.nCapacity, (gen.pIDList i).id ≠ -1
  refuses : gen.isFull → ∀ id : ID, 0 ≤ id.toInt → gen.insert id = some (false, gen)

/-- As the constructor leaves it. -/
structure Fresh (max : Nat) (gen : HashIDGenerator) : Prop where
  capacity : gen.nCapacity = max
  count : gen.nCount = 0
  free : ∀ i, gen.pIDList i = ⟨-1, none⟩
  empty : ∀ hash, gen.pHash hash = none

section
variable {gen gen' : HashIDGenerator} {max : Nat} {ops : List Op}

theorem new_fresh (created : HashIDGenerator.new max = some gen) : Fresh max gen := by
  obtain ⟨upCap, _, made⟩ := Option.bind_eq_some_iff.mp created
  cases Option.some.inj made
  constructor <;> simp

theorem Fresh.accounts (fresh : Fresh max gen) (positive : 1 ≤ max) : Accounts gen := by
  have unused : gen.slotsInUse = 0 := by simp [slotsInUse, fresh.free]
  have room : gen.isFull = false := by
    simp only [isFull, fresh.count, fresh.capacity, decide_eq_false_iff_not]
    omega
  refine ⟨by rw [fresh.count, unused]; rfl, by rw [fresh.count]; omega, ?_, ?_⟩
  · rw [room]
    simp only [Bool.false_eq_true, false_iff, not_forall]
    exact ⟨0, by rw [fresh.capacity]; omega, by simp [fresh.free]⟩
  · simp [room]

/-- Without a slot the generator is full, and `Insert` reads through `NULL`. -/
theorem Fresh.positive (fresh : Fresh max gen) (accounts : Accounts gen) : 1 ≤ max := by
  by_contra none
  have zero : gen.nCapacity = 0 := by
    rw [fresh.capacity]
    omega
  have refused := accounts.refuses (by simp [isFull, fresh.count, zero]) 0 (by decide)
  simp [HashIDGenerator.insert, zero] at refused

/-- A slot was counted that is not in use. -/
theorem Fresh.insert_unaccounted (fresh : Fresh max gen) (positive : 1 ≤ max) (id : ID) :
    ∃ gen', gen.insert id = some (true, gen') ∧ ¬ Accounts gen' := by
  have first := first_free fresh.capacity positive (by rw [fresh.free])
  have inserted : gen.insert id = some (true, { gen with
      nCount := gen.nCount + 1
      pHash := Function.update gen.pHash (gen.hash id) (some 0) }) := by
    rw [HashIDGenerator.insert, first]
    simp only [Option.bind_eq_bind, Option.bind_some, fresh.free, fresh.empty]
    rfl
  refine ⟨_, inserted, fun accounts => ?_⟩
  have count := accounts.count
  simp [slotsInUse, fresh.free, fresh.count] at count

theorem Fresh.remove (fresh : Fresh max gen) (fuel : Nat) (id : ID) : gen.remove fuel id = some (-1, gen) := by
  simp only [HashIDGenerator.remove, fresh.empty]

theorem Fresh.throughout (fresh : Fresh max gen) (positive : 1 ≤ max) (untouched : ∀ id, Op.insert id ∉ ops) :
    Throughout Accounts gen ops := by
  induction ops with
  | nil => exact throughout_nil (fresh.accounts positive)
  | cons op ops ih =>
    have rest := ih fun id member => untouched id (List.mem_cons_of_mem _ member)
    refine throughout_cons (fresh.accounts positive) fun fuel answer gen' called => ?_
    cases op with
    | insert id => exact absurd List.mem_cons_self (untouched id)
    | remove id =>
      simp only [call, fresh.remove, Option.map_some, Option.some.injEq, Prod.mk.injEq] at called
      exact called.2 ▸ rest
    | find id =>
      obtain ⟨index, _, done⟩ := Option.map_eq_some_iff.mp called
      cases done
      exact rest

theorem Fresh.untouched (fresh : Fresh max gen) (positive : 1 ≤ max) (accounts : Throughout Accounts gen ops) :
    ∀ id, Op.insert id ∉ ops := by
  induction ops with
  | nil => simp
  | cons op ops ih =>
    have rest : Throughout Accounts gen ops ∧ ∀ id, op ≠ .insert id := by
      cases op with
      | insert id =>
        obtain ⟨gen', inserted, broken⟩ := fresh.insert_unaccounted positive id
        have called : gen.call 1 (.insert id) = some (.inserted true, gen') := by simp [call, inserted]
        exact absurd (accounts.next called).first broken
      | remove id =>
        have called : gen.call 1 (.remove id) = some (.removed (-1), gen) := by simp [call, fresh.remove]
        exact ⟨accounts.next called, by simp⟩
      | find id =>
        have called : gen.call 1 (.find id) = some (.found (-1), gen) := by
          simp [call, HashIDGenerator.find, fresh.empty, findLoop]
        exact ⟨accounts.next called, by simp⟩
    intro id member
    rcases List.mem_cons.mp member with same | later
    · exact rest.2 id same.symm
    · exact ih rest.1 id later

end

/-- The generator accounts for its slots as long as there are some and no ID was
    ever inserted. -/
theorem accounts_iff (max : Nat) (gen : HashIDGenerator) (created : HashIDGenerator.new max = some gen) (ops : List Op) :
    Throughout Accounts gen ops ↔ 1 ≤ max ∧ ∀ id, Op.insert id ∉ ops := by
  have fresh := new_fresh created
  constructor
  · intro accounts
    have positive := fresh.positive accounts.first
    exact ⟨positive, fresh.untouched positive accounts⟩
  · rintro ⟨positive, untouched⟩
    exact fresh.throughout positive untouched

theorem absent_id_accounted : ∃ gen, HashIDGenerator.new 1 = some gen ∧ Throughout Accounts gen [.remove 3] :=
  ⟨_, rfl, (accounts_iff 1 _ rfl _).mpr ⟨by decide, by simp⟩⟩

theorem inserted_id_unaccounted : ∃ gen, HashIDGenerator.new 1 = some gen ∧ ¬ Throughout Accounts gen [.insert 0] := by
  obtain ⟨gen, created⟩ : ∃ gen, HashIDGenerator.new 1 = some gen := ⟨_, rfl⟩
  refine ⟨gen, created, fun accounts => ?_⟩
  exact (new_fresh created).untouched (by decide) accounts 0 (by simp)

end LiteServer.Util
