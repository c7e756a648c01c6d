import LiteServer.Lib.LinkedList
import LiteServer.Timer.Placement

/-!
The pointers implement the sequences: in a state where every list runs from its
head to its tail through distinct nodes, `Link`, `AddNode`, `MoveList` and
`TimerShift` are defined, do on the sequences what `Slots` says, and leave the
contents of every node and the links of every node outside the wheel alone.
-/
namespace LiteServer.Timer
open LinkedList

/-- The tail pointer of a list that holds `xs`. -/
def tailOf (list : ListRef) (xs : List Addr) : NodePtr :=
  match xs.getLast? with
  | none => .head list
  | some last => .node last

/-- The lists of `t` hold the nodes of `S`, every node once. -/
structure Linked (t : WheelTimer) (S : Slots Addr) : Prop where
  chain : ∀ list, Chain t.nodes.lookup TimerNode.next (t.lists list).head (S list)
  tail : ∀ list, (t.lists list).tail = tailOf list (S list)
  support : ∀ list, S list ≠ [] → list.Indexed
  once : S.pending.Nodup

/-- What relinking never changes in a node. -/
def TimerNode.data (node : TimerNode) : BitVec 32 × CallBack := (node.expire, node.callBack)

/-- Only links of touched nodes and links of the lists differ. -/
structure Relinked (t t' : WheelTimer) (touched : List Addr) : Prop where
  time : t'.uTime = t.uTime
  data : ∀ a, (t'.nodes.lookup a).map TimerNode.data = (t.nodes.lookup a).map TimerNode.data
  frame : ∀ a, a ∉ touched → t'.nodes.lookup a = t.nodes.lookup a

def expireOf (t : WheelTimer) (a : Addr) : BitVec 32 := ((t.nodes.lookup a).map TimerNode.expire).getD 0
def callBackOf (t : WheelTimer) (a : Addr) : Option CallBack := (t.nodes.lookup a).map TimerNode.callBack

theorem Relinked.refl (t : WheelTimer) (touched : List Addr) : Relinked t t touched :=
  ⟨rfl, fun _ => rfl, fun _ _ => rfl⟩

theorem Relinked.trans {t t' t'' : WheelTimer} {first second touched : List Addr} (one : Relinked t t' first)
    (two : Relinked t' t'' second) (inFirst : ∀ a ∈ first, a ∈ touched) (inSecond : ∀ a ∈ second, a ∈ touched) :
    Relinked t t'' touched := by
  refine ⟨two.time.trans one.time, fun a => (two.data a).trans (one.data a), ?_⟩
  intro a outside
  rw [two.frame a (fun member => outside (inSecond a member)), one.frame a (fun member => outside (inFirst a member))]

theorem expireOf_congr {t t' : WheelTimer}
    (data : ∀ a, (t'.nodes.lookup a).map TimerNode.data = (t.nodes.lookup a).map TimerNode.data) :
    expireOf t' = expireOf t := by
  funext a
  have first := congrArg (Option.map Prod.fst) (data a)
  rw [Option.map_map, Option.map_map] at first
  exact congrArg (fun e => e.getD 0) first

theorem callBackOf_congr {t t' : WheelTimer}
    (data : ∀ a, (t'.nodes.lookup a).map TimerNode.data = (t.nodes.lookup a).map TimerNode.data) :
    callBackOf t' = callBackOf t := by
  funext a
  have second := congrArg (Option.map Prod.snd) (data a)
  rwa [Option.map_map, Option.map_map] at second

theorem linked_new (uTime : BitVec 32) : Linked (.new uTime) fun _ => [] :=
  ⟨fun _ => rfl, fun _ => rfl, fun _ held => absurd rfl held, by simp [Slots.pending, List.flatMap]⟩

/-! ### Link -/

private theorem link_empty {t : WheelTimer} {list : ListRef} {node : Addr} {cell : TimerNode} (inside : list.Indexed)
    (tail : (t.lists list).tail = .head list) (found : t.nodes.lookup node = some cell) :
    link t list node = some { t with
      nodes := t.nodes.insert node { cell with next := none }
      lists := Function.update t.lists list ⟨some node, .node node⟩ } := by
  simp [link, inside, tail, setNext, found]

private theorem link_after {t : WheelTimer} {list : ListRef} {node last : Addr} {cell lastCell : TimerNode}
    (inside : list.Indexed) (tail : (t.lists list).tail = .node last) (differ : last ≠ node)
    (found : t.nodes.lookup node = some cell) (foundLast : t.nodes.lookup last = some lastCell) :
    link t list node = some { t with
      nodes := (t.nodes.insert last { lastCell with next := some node }).insert node { cell with next := none }
      lists := Function.update t.lists list ⟨(t.lists list).head, .node node⟩ } := by
  simp [link, inside, tail, setNext, foundLast, AList.lookup_insert_ne differ.symm, found]

private theorem push_tail {t : WheelTimer} {S : Slots Addr} (linked : Linked t S) (list : ListRef) (node : Addr)
    (head : Option Addr) (other : ListRef) :
    (Function.update t.lists list ⟨head, .node node⟩ other).tail = tailOf other (S.push list node other) := by
  by_cases same : other = list
  · subst same; simp [Slots.push, tailOf]
  · simpa [Slots.push, same] using linked.tail other

/-- A node is given another link. -/
private theorem relinked_insert {t : WheelTimer} {node : Addr} {cell cell' : TimerNode}
    (found : t.nodes.lookup node = some cell) (data : cell'.data = cell.data) (lists : ListRef → TimerLinkList)
    {touched : List Addr} (member : node ∈ touched) :
    Relinked t { t with nodes := t.nodes.insert node cell', lists } touched := by
  refine ⟨rfl, fun a => ?_, fun a away => AList.lookup_insert_ne ?_⟩
  · by_cases same : a = node
    · subst same
      simp [found, data]
    · rw [AList.lookup_insert_ne same]
  · rintro rfl
    exact away member

/-- The list that ended at `last` goes on to `node`; the other lists hold neither. -/
private theorem link_after_chain {t : WheelTimer} {S : Slots Addr} (linked : Linked t S) {list : ListRef}
    {node last : Addr} {before : List Addr} (split : S list = before ++ [last]) (outside : ∀ other, node ∉ S other)
    (cell lastCell : TimerNode) (other : ListRef) :
    Chain ((t.nodes.insert last { lastCell with next := some node }).insert node { cell with next := none }).lookup
      TimerNode.next (Function.update t.lists list ⟨(t.lists list).head, .node node⟩ other).head (S.push list node other) := by
  have lastIn : last ∈ S list := by simp [split]
  have differ : last ≠ node := by rintro rfl; exact outside list lastIn
  have distinct := list_nodup linked.support linked.once list
  by_cases same : other = list
  · subst same
    simp only [Slots.push, Function.update_self, split, List.append_assoc, List.cons_append, List.nil_append]
    rw [split, List.nodup_append] at distinct
    have apart : last ∉ before := fun member => distinct.2.2 last member last (by simp) rfl
    have whole := linked.chain other
    rw [split] at whole
    refine chain_snoc whole apart ?_
      (by rw [AList.lookup_insert_ne differ]; exact AList.lookup_insert _) rfl (AList.lookup_insert _) rfl
    intro a member
    have aNode : a ≠ node := by rintro rfl; exact outside other (by simp [split, member])
    have aLast : a ≠ last := by rintro rfl; exact apart member
    rw [AList.lookup_insert_ne aNode, AList.lookup_insert_ne aLast]
  · simp only [Slots.push, Function.update_of_ne same]
    refine chain_congr ?_ (linked.chain other)
    intro a member
    have aNode : a ≠ node := by rintro rfl; exact outside other member
    have aLast : a ≠ last := by
      rintro rfl
      exact same (same_list linked.support linked.once member lastIn)
    rw [AList.lookup_insert_ne aNode, AList.lookup_insert_ne aLast]

/-- `Link` puts an allocated node that no list holds at the end of the list. -/
theorem link_total_correct {t : WheelTimer} {S : Slots Addr} (linked : Linked t S) {list : ListRef}
    (inside : list.Indexed) {node : Addr} {cell : TimerNode} (found : t.nodes.lookup node = some cell)
    (fresh : node ∉ S.pending) :
    ∃ t', link t list node = some t' ∧ Linked t' (S.push list node) ∧ Relinked t t' (node :: S.pending) := by
  have mem := mem_pending linked.support
  have once : (S.push list node).pending.Nodup :=
    (push_pending S inside node).nodup_iff.mpr (List.nodup_cons.mpr ⟨fresh, linked.once⟩)
  have support := push_support linked.support inside node
  have outside : ∀ other, node ∉ S other := fun other member => fresh ((mem node).mpr ⟨other, member⟩)
  rcases List.eq_nil_or_concat (S list) with empty | ⟨before, last, split⟩
  · have tail : (t.lists list).tail = .head list := by rw [linked.tail, empty]; rfl
    refine ⟨_, link_empty inside tail found, ⟨?_, push_tail linked list node _, support, once⟩,
      relinked_insert found (by rfl) _ (List.mem_cons_self ..)⟩
    intro other
    by_cases same : other = list
    · subst same
      simp [Slots.push, empty, chain_cons]
    · simp only [Slots.push, Function.update_of_ne same]
      refine chain_congr ?_ (linked.chain other)
      intro a member
      rw [AList.lookup_insert_ne (by rintro rfl; exact outside other member)]
  · rw [List.concat_eq_append] at split
    have lastIn : last ∈ S list := by simp [split]
    have differ : last ≠ node := by rintro rfl; exact outside list lastIn
    have tail : (t.lists list).tail = .node last := by simp [linked.tail, split, tailOf]
    obtain ⟨lastCell, foundLast⟩ := chain_allocated (linked.chain list) lastIn
    have lastPending : last ∈ node :: S.pending := List.mem_cons_of_mem _ ((mem last).mpr ⟨list, lastIn⟩)
    have onward : Relinked t { t with nodes := t.nodes.insert last { lastCell with next := some node } } (node :: S.pending) :=
      relinked_insert foundLast (by rfl) t.lists lastPending
    have still : (t.nodes.insert last { lastCell with next := some node }).lookup node = some cell := by
      rw [AList.lookup_insert_ne differ.symm, found]
    refine ⟨_, link_after inside tail differ found foundLast,
      ⟨link_after_chain linked split outside cell lastCell, push_tail linked list node _, support, once⟩, ?_⟩
    exact onward.trans (relinked_insert (t := { t with nodes := t.nodes.insert last { lastCell with next := some node } })
      still (by rfl) _ (List.mem_cons_self ..)) (fun _ member => member) fun _ member => member

theorem addNode_total_correct {t : WheelTimer} {S : Slots Addr} (linked : Linked t S) {node : Addr}
    {cell : TimerNode} (found : t.nodes.lookup node = some cell) (fresh : node ∉ S.pending) :
    ∃ t', addNode t node = some t' ∧ Linked t' (S.file (expireOf t) t.uTime node) ∧
      Relinked t t' (node :: S.pending) := by
  have expire : expireOf t node = cell.expire := by simp [expireOf, found]
  simp only [addNode, found, Slots.file, expire]
  exact link_total_correct linked (listFor_indexed _ _) found fresh

/-! ### MoveList -/

theorem file_pending (expire : Addr → BitVec 32) (uTime : BitVec 32) (S : Slots Addr) (a : Addr) :
    (S.file expire uTime a).pending.Perm (a :: S.pending) :=
  push_pending S (listFor_indexed _ _) a

private theorem moveNodes_total (fuel : Nat) (t : WheelTimer) (S : Slots Addr) (p : Option Addr) (xs : List Addr)
    (linked : Linked t S) (chain : Chain t.nodes.lookup TimerNode.next p xs) (distinct : xs.Nodup)
    (detached : ∀ a ∈ xs, a ∉ S.pending) (enough : xs.length ≤ fuel) :
    ∃ t', moveNodes fuel t p = some t' ∧ Linked t' (xs.foldl (Slots.file (expireOf t) t.uTime) S) ∧
      Relinked t t' (xs ++ S.pending) := by
  induction xs generalizing fuel t S p with
  | nil =>
    rw [chain_nil] at chain
    subst chain
    cases fuel <;> exact ⟨t, rfl, linked, Relinked.refl t _⟩
  | cons a rest ih =>
    obtain ⟨rfl, cell, found, more⟩ := chain
    obtain ⟨apart, distinctRest⟩ := List.nodup_cons.mp distinct
    cases fuel with
    | zero => simp at enough
    | succ fuel =>
      obtain ⟨t1, filed, linked1, relinked1⟩ := addNode_total_correct linked found (detached a (by simp))
      have pending1 := file_pending (expireOf t) t.uTime S a
      -- The nodes still to move are in no list, so filing `a` left their links alone.
      have away : ∀ b ∈ rest, b ∉ a :: S.pending := by
        intro b member inside
        rcases List.mem_cons.mp inside with rfl | held
        · exact apart member
        · exact detached b (by simp [member]) held
      have more1 : Chain t1.nodes.lookup TimerNode.next cell.next rest :=
        chain_congr (fun b member => by rw [relinked1.frame b (away b member)]) more
      obtain ⟨t', moved, linked', relinked'⟩ := ih fuel t1 _ cell.next linked1 more1 distinctRest
        (fun b member held => away b member (pending1.mem_iff.mp held)) (by simpa using enough)
      refine ⟨t', by simp [moveNodes, found, filed, moved], ?_, ?_⟩
      · rwa [expireOf_congr relinked1.data, relinked1.time] at linked'
      · refine relinked1.trans relinked' ?_ ?_
        · intro b member
          simp only [List.cons_append, List.mem_cons, List.mem_append] at member ⊢
          tauto
        · intro b member
          rw [List.mem_append, pending1.mem_iff] at member
          simp only [List.cons_append, List.mem_cons, List.mem_append] at member ⊢
          tauto

/-- `ClearLink` detaches the whole list. -/
theorem clearLink_total_correct {t : WheelTimer} {S : Slots Addr} (linked : Linked t S) {list : ListRef}
    (inside : list.Indexed) :
    ∃ t', clearLink t list = some ((t.lists list).head, t') ∧ Linked t' (S.clear list) ∧ t'.nodes = t.nodes ∧
      t'.uTime = t.uTime ∧ ∀ a ∈ S list, a ∉ (S.clear list).pending := by
  have split := clear_pending S inside
  have once := split.nodup_iff.mp linked.once
  refine ⟨{ t with lists := Function.update t.lists list ⟨none, .head list⟩ }, by rw [clearLink, if_pos inside],
    ⟨?_, ?_, clear_support linked.support list, ?_⟩, rfl, rfl, ?_⟩
  · intro other
    by_cases same : other = list
    · subst same; simp [Slots.clear]
    · simpa [Slots.clear, same] using linked.chain other
  · intro other
    by_cases same : other = list
    · subst same; simp [Slots.clear, tailOf]
    · simpa [Slots.clear, same] using linked.tail other
  · exact once.of_append_right
  · intro a member held
    exact (List.nodup_append.mp once).2.2 a member a held rfl

/-- `MoveList` files every node of the list again, in list order. -/
theorem moveList_total_correct {t : WheelTimer} {S : Slots Addr} (linked : Linked t S) {level index : Nat}
    (inside : (ListRef.wheel level index).Indexed) :
    ∃ t', moveList t level index = some t' ∧ Linked t' (S.cascade (expireOf t) t.uTime (.wheel level index)) ∧
      Relinked t t' S.pending := by
  obtain ⟨t1, cleared, linked1, nodes1, time1, detached⟩ := clearLink_total_correct linked inside
  have chain := linked.chain (.wheel level index)
  have distinct := list_nodup linked.support linked.once (.wheel level index)
  have enough := chain_length_le chain distinct
  rw [← nodes1] at chain enough
  obtain ⟨t', moved, linked', relinked'⟩ := moveNodes_total _ t1 _ _ _ linked1 chain distinct detached enough
  have same : expireOf t1 = expireOf t := expireOf_congr fun a => by rw [nodes1]
  refine ⟨t', by simp [moveList, cleared, moved], ?_, ?_⟩
  · rwa [same, time1] at linked'
  · have split := clear_pending S inside
    refine ⟨relinked'.time.trans time1, fun a => by rw [relinked'.data a, nodes1], ?_⟩
    intro a outside
    rw [relinked'.frame a (fun member => outside (split.mem_iff.mpr member)), nodes1]

/-! ### TimerShift -/

theorem shiftLevels_calls (fuel : Nat) (t : WheelTimer) (c mask time : BitVec 32) (level : Nat) :
    shiftLevels fuel t c mask time level =
      (shiftCalls fuel c mask time level).bind fun calls => calls.foldlM (fun t call => moveList t call.1 call.2) t := by
  induction fuel generalizing t mask time level with
  | zero => rfl
  | succ fuel ih =>
    rw [shiftLevels, shiftCalls]
    split
    · simp only [ih]
      cases shiftCalls fuel c (mask <<< timeLevelShift) (time >>> timeLevelShift) (level + 1) with
      | none => split <;> simp
      | some calls => split <;> simp
    · rfl

private theorem shiftLevels_eq (t : WheelTimer) (c : BitVec 32) (running : c ≠ 0) :
    shiftLevels 5 t c (BitVec.ofNat 32 timeNear) (c >>> timeNearShift) 0 =
      match cascadeOf c with
      | none => some t
      | some (level, index) => moveList t level index := by
  rw [shiftLevels_calls, shiftCalls_eq c running 0, Option.bind_some]
  cases cascadeOf c with
  | none => rfl
  | some place => exact bind_pure _

/-- The sequences after the clock has become `curTime`. -/
def Slots.shift {α : Type*} (expire : α → BitVec 32) (curTime : BitVec 32) (S : Slots α) : Slots α :=
  match cascadeOf curTime with
  | none => S
  | some (level, index) => S.cascade expire curTime (.wheel level index)

/-- `TimerShift` advances the clock by one and cascades exactly the list that
    `cascadeOf` names. -/
theorem timerShift_eq (t : WheelTimer) :
    timerShift t =
      match cascadeOf (t.uTime + 1) with
      | none => some { t with uTime := t.uTime + 1 }
      | some (level, index) => moveList { t with uTime := t.uTime + 1 } level index := by
  unfold timerShift
  by_cases zero : t.uTime + 1 = 0
  · simp only [zero]
    rfl
  · rw [if_neg (by simpa using zero)]
    exact shiftLevels_eq { t with uTime := t.uTime + 1 } (t.uTime + 1) zero

/-- The bits of a clock value that index the lists of a level. -/
def levelDigit (curTime : BitVec 32) (level : Nat) : BitVec 32 :=
  (curTime >>> (timeNearShift + level * timeLevelShift)) &&& timeLevelMask

/-- Which lists move at a clock value: none until `mNear` has turned once, and
    then the list of the lowest level whose digit is not zero. -/
structure Cascades (curTime : BitVec 32) (calls : List (Nat × Nat)) : Prop where
  wrapped : curTime = 0 → calls = [(3, 0)]
  within : curTime &&& timeNearMask ≠ 0 → calls = []
  round : curTime ≠ 0 → curTime &&& timeNearMask = 0 → ∃ level, level ≤ 3 ∧
    calls = [(level, (levelDigit curTime level).toNat)] ∧ levelDigit curTime level ≠ 0 ∧
    (levelDigit curTime level).toNat ≤ 63 ∧ ∀ lower < level, levelDigit curTime lower = 0

theorem levelDigit_toNat (curTime : BitVec 32) (level : Nat) :
    (levelDigit curTime level).toNat = curTime.toNat / 2 ^ (8 + level * 6) % 2 ^ 6 :=
  Masks.shift_mask_toNat curTime timeLevelMask (8 + level * 6) 6 (by decide)

theorem levelDigit_eq_zero {curTime : BitVec 32} {level : Nat} :
    levelDigit curTime level = 0 ↔ curTime.toNat / 2 ^ (8 + level * 6) % 2 ^ 6 = 0 := by
  rw [← levelDigit_toNat, BitVec.toNat_eq]
  rfl

theorem nearMask_eq_zero {curTime : BitVec 32} : curTime &&& timeNearMask = 0 ↔ curTime.toNat % 2 ^ 8 = 0 := by
  rw [← Masks.and_mask_toNat curTime timeNearMask 8 (by decide), BitVec.toNat_eq]
  rfl

theorem cascadeOf_cascades (curTime : BitVec 32) : Cascades curTime (cascadeOf curTime).toList where
  wrapped zero := by rw [zero]; rfl
  within some := by
    have low : curTime.toNat % 2 ^ 8 ≠ 0 := mt nearMask_eq_zero.mpr some
    have running : curTime.toNat ≠ 0 := by omega
    simp only [cascadeOf]
    rw [if_neg running, if_pos low]
    rfl
  round running low := by
    have low : ¬ curTime.toNat % 2 ^ 8 ≠ 0 := not_not.mpr (nearMask_eq_zero.mp low)
    have running : curTime.toNat ≠ 0 := fun zero => running (BitVec.eq_of_toNat_eq zero)
    have bound := curTime.isLt
    simp only [cascadeOf, levelDigit_toNat, ne_eq, levelDigit_eq_zero]
    rw [if_neg running, if_neg low]
    by_cases first : curTime.toNat / 2 ^ 8 % 2 ^ 6 ≠ 0
    · rw [if_pos first]
      exact ⟨0, by decide, rfl, first, by omega, fun lower below => absurd below lower.not_lt_zero⟩
    · rw [if_neg first]
      by_cases second : curTime.toNat / 2 ^ 14 % 2 ^ 6 ≠ 0
      · rw [if_pos second]
        refine ⟨1, by decide, rfl, second, by omega, fun lower below => ?_⟩
        obtain rfl : lower = 0 := by omega
        exact not_not.mp first
      · rw [if_neg second]
        by_cases third : curTime.toNat / 2 ^ 20 % 2 ^ 6 ≠ 0
        · rw [if_pos third]
          refine ⟨2, by decide, rfl, third, by omega, fun lower below => ?_⟩
          obtain rfl | rfl : lower = 0 ∨ lower = 1 := by omega
          · exact not_not.mp first
          · exact not_not.mp second
        · rw [if_neg third]
          refine ⟨3, by decide, rfl, by omega, by omega, fun lower below => ?_⟩
          obtain rfl | rfl | rfl : lower = 0 ∨ lower = 1 ∨ lower = 2 := by omega
          · exact not_not.mp first
          · exact not_not.mp second
          · exact not_not.mp third

/-- However long the loop may run, it ends, and it moves exactly one list or none. -/
theorem timerShift_cascades (t : WheelTimer) : ∃ calls, Cascades (t.uTime + 1) calls ∧
    timerShift t = calls.foldlM (fun t call => moveList t call.1 call.2) { t with uTime := t.uTime + 1 } ∧
    (t.uTime + 1 ≠ 0 → ∀ fuel, 5 ≤ fuel →
      shiftCalls fuel (t.uTime + 1) (BitVec.ofNat 32 timeNear) ((t.uTime + 1) >>> timeNearShift) 0 = some calls) := by
  refine ⟨(cascadeOf (t.uTime + 1)).toList, cascadeOf_cascades _, ?_, fun running fuel enough => ?_⟩
  · rw [timerShift_eq]
    cases cascadeOf (t.uTime + 1) with
    | none => rfl
    | some place => exact (bind_pure _).symm
  · obtain ⟨more, rfl⟩ := Nat.exists_eq_add_of_le' enough
    exact shiftCalls_eq _ running more

theorem timerShift_total_correct {t : WheelTimer} {S : Slots Addr} (linked : Linked t S) :
    ∃ t', timerShift t = some t' ∧ Linked t' (S.shift (expireOf t) (t.uTime + 1)) ∧
      Relinked { t with uTime := t.uTime + 1 } t' S.pending := by
  have advanced : Linked { t with uTime := t.uTime + 1 } S := ⟨linked.chain, linked.tail, linked.support, linked.once⟩
  rw [timerShift_eq]
  unfold Slots.shift
  cases cascaded : cascadeOf (t.uTime + 1) with
  | none => exact ⟨_, rfl, advanced, Relinked.refl _ _⟩
  | some place =>
    obtain ⟨level, index⟩ := place
    exact moveList_total_correct advanced (cascadeOf_indexed cascaded)

end LiteServer.Timer
