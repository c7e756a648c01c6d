import LiteServer.Lib.Guarded
import LiteServer.Net.RingBufferSpsc
import LiteServer.Thread.AtomSpinLock
import Mathlib.Data.Finset.Card
import Mathlib.Data.Finset.Range

/-!
`RingBuffer` and `RingBufferDN` between any number of threads. A call holds the
lock from its first access to its last; every load or store of an index is a step,
and so is every byte of a `memcpy`. The answers are nevertheless those of a queue
that the calls were made on one after another.
-/
namespace LiteServer.Net
open Ring Relation

/-- Where a call is that holds the lock: before its first access, between its
    loads, at a transfer, between its stores, or before it gives the lock back.
    `m_uIn` and `m_uOut` are loaded anew wherever the source names them. -/
inductive Inside where
  | entered (call : Call)
  | writeLoadOut (data : Nat → Byte) (len inpos : BufferSize)
  | writeLoadOff (data : Nat → Byte) (len : BufferSize)
  | write (transfer : Transfer)
  | writeStoreIn (transfer : Transfer) (inpos : BufferSize)
  | readLoadOut (data : Nat → Byte) (len inpos : BufferSize)
  | readLoadOff (data : Nat → Byte) (len : BufferSize)
  | read (transfer : Transfer)
  | readStoreOut (transfer : Transfer) (outpos : BufferSize)
  | resetStoreIn
  | resetOutStore (inpos : BufferSize)
  | done (answer : Answer)

namespace LockedRing
variable {Lock : Type}

/-- An access of a call. -/
inductive Access : Inside × LockedRing Lock → Inside × LockedRing Lock → Prop
  | writeData {ring} (data : Nat → Byte) (len : BufferSize) :
      Access (.entered (.writeData data len), ring) (.writeLoadOut data len ring.uIn, ring)
  | writeLoadOut {ring} (data : Nat → Byte) (len inpos : BufferSize) :
      Access (.writeLoadOut data len inpos, ring)
        (.writeLoadOff data (stdMin (ring.uSize - inpos + ring.uOut) len), ring)
  | writeLoadOff {ring} (data : Nat → Byte) (len : BufferSize) :
      Access (.writeLoadOff data len, ring) (.write ⟨data, len, ring.uIn, ∅⟩, ring)
  | writeCopy {ring} (t : Transfer) (i : Nat) : t.Ready ring.uSize i →
      Access (.write t, ring) (.write { t with copied := insert i t.copied },
        { ring with pBuffer := Function.update ring.pBuffer (t.cell ring.uSize i) (t.data i) })
  | writeLoadIn {ring} (t : Transfer) : t.Finished → Access (.write t, ring) (.writeStoreIn t ring.uIn, ring)
  | writeStoreIn {ring} (t : Transfer) (inpos : BufferSize) :
      Access (.writeStoreIn t inpos, ring) (.done (.wrote t.len.toNat), { ring with uIn := inpos + t.len })
  | readData {ring} (data : Nat → Byte) (len : BufferSize) :
      Access (.entered (.readData data len), ring) (.readLoadOut data len ring.uIn, ring)
  | readLoadOut {ring} (data : Nat → Byte) (len inpos : BufferSize) :
      Access (.readLoadOut data len inpos, ring) (.readLoadOff data (stdMin (inpos - ring.uOut) len), ring)
  | readLoadOff {ring} (data : Nat → Byte) (len : BufferSize) :
      Access (.readLoadOff data len, ring) (.read ⟨data, len, ring.uOut, ∅⟩, ring)
  | readCopy {ring} (t : Transfer) (i : Nat) : t.Ready ring.uSize i →
      Access (.read t, ring) (.read { t with
        data := Function.update t.data i (ring.pBuffer (t.cell ring.uSize i))
        copied := insert i t.copied }, ring)
  | readLoadEnd {ring} (t : Transfer) : t.Finished → Access (.read t, ring) (.readStoreOut t ring.uOut, ring)
  | readStoreOut {ring} (t : Transfer) (outpos : BufferSize) :
      Access (.readStoreOut t outpos, ring)
        (.done (.read t.len.toNat t.data), { ring with uOut := outpos + t.len })
  | resetOut {ring} : Access (.entered .resetOut, ring) (.resetOutStore ring.uIn, ring)
  | resetOutStore {ring} (inpos : BufferSize) :
      Access (.resetOutStore inpos, ring) (.done .done, { ring with uOut := inpos })
  | reset {ring} : Access (.entered .reset, ring) (.resetStoreIn, { ring with uOut := 0 })
  | resetStoreIn {ring} : Access (.resetStoreIn, ring) (.done .done, { ring with uIn := 0 })

/-- What a call does between `Lock` and `Unlock`. -/
def body (Lock : Type) : Guarded.Body (LockedRing Lock) Call Inside Answer where
  enter := .entered
  access := Access
  leave inside answer := inside = .done answer

end LockedRing

/-- The cells that the next byte of a transfer may be in. -/
def Inside.touches (size : BufferSize) : Inside → Set Nat
  | .write t => {cell | ∃ i, t.Ready size i ∧ cell = t.cell size i}
  | .read t => {cell | ∃ i, t.Ready size i ∧ cell = t.cell size i}
  | _ => ∅

/-! ### Transfers -/

namespace Transfer
variable {t : Transfer} {size : BufferSize} {start i : Nat}

/-- A byte of a transfer has the cell of its position. -/
theorem cell_eq (valid : Size size) (pos : t.pos = BitVec.ofNat 8 start) (short : t.len.toNat ≤ size.toNat)
    (inside : i < t.len.toNat) : t.cell size i = (start + i) % size.toNat := by
  have moves : RingBufferSpsc.Moves t start fun _ => True := ⟨pos, by omega, fun _ _ _ => trivial⟩
  exact moves.cell valid short inside

/-- Some byte is next as long as one is left. -/
theorem ready_of_unfinished (size : BufferSize) (unfinished : ¬ t.Finished) : ∃ i, t.Ready size i := by
  by_cases first : ∃ j < (t.copy1 size).toNat, j < t.len.toNat ∧ j ∉ t.copied
  · obtain ⟨j, before, inside, fresh⟩ := first
    exact ⟨j, inside, fresh, .inl before⟩
  · simp only [Finished, not_forall] at unfinished
    obtain ⟨i, inside, fresh⟩ := unfinished
    refine ⟨i, inside, fresh, .inr fun j before => ?_⟩
    have short : (t.copy1 size).toNat ≤ t.len.toNat := by
      rw [copy1, stdMin_toNat]
      exact Nat.min_le_left ..
    by_contra missing
    exact first ⟨j, before, by omega, missing⟩

/-- How many bytes are left. -/
def remaining (t : Transfer) : Nat := (Finset.range t.len.toNat \ t.copied).card

theorem remaining_lt (ready : t.Ready size i) : (Finset.range t.len.toNat \ insert i t.copied).card < t.remaining := by
  refine Finset.card_lt_card ((Finset.ssubset_iff_of_subset ?_).mpr ⟨i, ?_, ?_⟩)
  · exact Finset.sdiff_subset_sdiff (Finset.Subset.refl _) (Finset.subset_insert i _)
  · exact Finset.mem_sdiff.mpr ⟨Finset.mem_range.mpr ready.1, ready.2.1⟩
  · simp

end Transfer

theorem queueRun_snoc (capacity : Nat) (queue : List Byte) (calls : List Call) (call : Call) :
    queueRun capacity queue (calls ++ [call]) =
      let (answers, queue) := queueRun capacity queue calls
      let (answer, queue) := queueCall capacity queue call
      (answers ++ [answer], queue) := by
  induction calls generalizing queue with
  | nil => rfl
  | cons first calls ih => simp [queueRun, ih]

/-! ### A call alone -/

namespace LockedRing
variable {Lock : Type} {ring : LockedRing Lock} {lo hi : Nat} {queue : List Byte}

/-- What `WriteData` leaves in the cells. -/
theorem Holds.writeData_eq (holds : ring.Holds lo hi queue) (data : Nat → Byte) (len : BufferSize) :
    let n := stdMin (ring.uSize - ring.uIn + ring.uOut) len
    ∃ buffer, ring.writeData data len = some (n, { ring with pBuffer := buffer, uIn := ring.uIn + n }) ∧
      n.toNat ≤ ring.uSize.toNat ∧ (∀ i < n.toNat, buffer ((hi + i) % ring.uSize.toNat) = data i) ∧
      ∀ cell, (∀ i < n.toNat, cell ≠ (hi + i) % ring.uSize.toNat) → buffer cell = ring.pBuffer cell := by
  intro n
  have short : n.toNat ≤ ring.uSize.toNat := by
    have room : (ring.uSize - ring.uIn + ring.uOut).toNat = _ := holds.getAvail_toNat
    rw [stdMin_toNat, room]
    omega
  obtain ⟨off, first, second, inTail, inHead⟩ := holds.pieces holds.uIn (Nat.le_refl hi) short
  let off' := ring.uIn &&& (ring.uSize - 1)
  let copy1 := stdMin n (ring.uSize - off')
  let buffer := copy (copy ring.pBuffer off'.toNat data 0 copy1.toNat) 0 data copy1.toNat (n - copy1).toNat
  refine ⟨buffer, ?_, short, ?_⟩
  · simp only [LockedRing.writeData, memcpyIn]
    rw [if_pos inTail]
    simp only [Option.bind_eq_bind, Option.bind_some]
    rw [if_pos (by simpa using inHead)]
    rfl
  · simp only [buffer, off', copy1, off, first, second]
    exact copy_in_split short

/-- What `ReadData` leaves at `data`. -/
theorem Holds.readData_eq (holds : ring.Holds lo hi queue) (data : Nat → Byte) (len : BufferSize) :
    let n := stdMin (ring.uIn - ring.uOut) len
    ∃ data', ring.readData data len = some (n, data', { ring with uOut := ring.uOut + n }) ∧
      n.toNat ≤ ring.uSize.toNat ∧ (∀ i < n.toNat, data' i = ring.pBuffer ((lo + i) % ring.uSize.toNat)) ∧
      ∀ i, n.toNat ≤ i → data' i = data i := by
  intro n
  have short : n.toNat ≤ ring.uSize.toNat := by
    have unread : (ring.uIn - ring.uOut).toNat = _ := holds.getLen_toNat
    have fits := holds.fits
    rw [stdMin_toNat, unread, holds.length]
    omega
  obtain ⟨off, first, second, inTail, inHead⟩ := holds.pieces holds.uOut holds.ordered short
  let off' := ring.uOut &&& (ring.uSize - 1)
  let copy1 := stdMin n (ring.uSize - off')
  let data' := copy (copy data 0 ring.pBuffer off'.toNat copy1.toNat) copy1.toNat ring.pBuffer 0 (n - copy1).toNat
  refine ⟨data', ?_, short, ?_⟩
  · simp only [LockedRing.readData, memcpyOut]
    rw [if_pos inTail]
    simp only [Option.bind_eq_bind, Option.bind_some]
    rw [if_pos (by simpa using inHead)]
    rfl
  · simp only [data', off', copy1, off, first, second]
    exact copy_out_split short

/-- The cells while `WriteData` copies: the bytes copied are in their cells, and
    the cells of no byte are as they were. -/
structure Storing (ring : LockedRing Lock) (hi : Nat) (t : Transfer) (buffer : Nat → Byte) : Prop where
  copied : ∀ i < t.len.toNat, i ∈ t.copied → buffer ((hi + i) % ring.uSize.toNat) = t.data i
  others : ∀ cell, (∀ i < t.len.toNat, cell ≠ (hi + i) % ring.uSize.toNat) → buffer cell = ring.pBuffer cell

/-- The memory at `data` while `ReadData` copies into it. -/
structure Fetching (ring : LockedRing Lock) (lo : Nat) (t : Transfer) (data : Nat → Byte) : Prop where
  copied : ∀ i < t.len.toNat, i ∈ t.copied → t.data i = ring.pBuffer ((lo + i) % ring.uSize.toNat)
  others : ∀ i, t.len.toNat ≤ i → t.data i = data i

/-- Where a call is that found `ring` when it got the lock. -/
def Under (ring : LockedRing Lock) (lo hi : Nat) (call : Call) : Inside × LockedRing Lock → Prop
  | (.entered begun, now) => begun = call ∧ now = ring
  | (.writeLoadOut data len inpos, now) => call = .writeData data len ∧ inpos = ring.uIn ∧ now = ring
  | (.writeLoadOff data short, now) => ∃ len, call = .writeData data len ∧
      short = stdMin (ring.uSize - ring.uIn + ring.uOut) len ∧ now = ring
  | (.write t, now) => ∃ len buffer, call = .writeData t.data len ∧ t.pos = ring.uIn ∧
      t.len = stdMin (ring.uSize - ring.uIn + ring.uOut) len ∧ now = { ring with pBuffer := buffer } ∧
      ring.Storing hi t buffer
  | (.writeStoreIn t inpos, now) => ∃ len buffer, call = .writeData t.data len ∧ t.Finished ∧ inpos = ring.uIn ∧
      t.len = stdMin (ring.uSize - ring.uIn + ring.uOut) len ∧ now = { ring with pBuffer := buffer } ∧
      ring.Storing hi t buffer
  | (.readLoadOut data len inpos, now) => call = .readData data len ∧ inpos = ring.uIn ∧ now = ring
  | (.readLoadOff data short, now) => ∃ len, call = .readData data len ∧
      short = stdMin (ring.uIn - ring.uOut) len ∧ now = ring
  | (.read t, now) => ∃ data len, call = .readData data len ∧ t.pos = ring.uOut ∧
      t.len = stdMin (ring.uIn - ring.uOut) len ∧ now = ring ∧ ring.Fetching lo t data
  | (.readStoreOut t outpos, now) => ∃ data len, call = .readData data len ∧ t.Finished ∧ outpos = ring.uOut ∧
      t.len = stdMin (ring.uIn - ring.uOut) len ∧ now = ring ∧ ring.Fetching lo t data
  | (.resetStoreIn, now) => call = .reset ∧ now = { ring with uOut := 0 }
  | (.resetOutStore inpos, now) => call = .resetOut ∧ inpos = ring.uIn ∧ now = ring
  | (.done answer, now) => ring.call call = some (answer, now)

theorem Storing.copy {t : Transfer} {buffer : Nat → Byte} (storing : ring.Storing hi t buffer)
    (short : t.len.toNat ≤ ring.uSize.toNat) {i : Nat} (inside : i < t.len.toNat) :
    ring.Storing hi { t with copied := insert i t.copied }
      (Function.update buffer ((hi + i) % ring.uSize.toNat) (t.data i)) where
  copied j other member := by
    by_cases same : j = i
    · rw [same, Function.update_self]
    · refine (Function.update_of_ne (fun clash => same ?_) _ _).trans
        (storing.copied j other ((Finset.mem_insert.mp member).resolve_left same))
      have := show j < t.len.toNat from other
      have := cell_injective (by omega) (by omega) clash
      omega
  others cell untouched := by
    rw [Function.update_of_ne (untouched i inside)]
    exact storing.others cell untouched

theorem Fetching.copy {t : Transfer} {data : Nat → Byte} (fetching : ring.Fetching lo t data) {i : Nat}
    (inside : i < t.len.toNat) :
    ring.Fetching lo { t with
      data := Function.update t.data i (ring.pBuffer ((lo + i) % ring.uSize.toNat))
      copied := insert i t.copied } data where
  copied j other member := by
    show Function.update t.data i _ j = _
    by_cases same : j = i
    · rw [same, Function.update_self]
    · rw [Function.update_of_ne same]
      exact fetching.copied j other ((Finset.mem_insert.mp member).resolve_left same)
  others j outside := by
    have outside : t.len.toNat ≤ j := outside
    show Function.update t.data i _ j = _
    rw [Function.update_of_ne (by omega)]
    exact fetching.others j outside

/-- The bytes may be copied in any order: what is in the cells at the end is what
    the two `memcpy` put there. -/
theorem Storing.finish {t : Transfer} {buffer : Nat → Byte} {len : BufferSize} (holds : ring.Holds lo hi queue)
    (storing : ring.Storing hi t buffer) (finished : t.Finished)
    (length : t.len = stdMin (ring.uSize - ring.uIn + ring.uOut) len) :
    ring.call (.writeData t.data len) =
      some (.wrote t.len.toNat, { ring with pBuffer := buffer, uIn := ring.uIn + t.len }) := by
  obtain ⟨buffer', written, short, copied, others⟩ := holds.writeData_eq t.data len
  rw [← length] at written copied others
  have same : buffer = buffer' := by
    funext cell
    by_cases touched : ∃ i < t.len.toNat, cell = (hi + i) % ring.uSize.toNat
    · obtain ⟨i, inside, rfl⟩ := touched
      rw [storing.copied i inside (finished i inside), copied i inside]
    · have untouched : ∀ i < t.len.toNat, cell ≠ (hi + i) % ring.uSize.toNat :=
        fun i inside same => touched ⟨i, inside, same⟩
      rw [storing.others cell untouched, others cell untouched]
  rw [LockedRing.call, written, same]
  rfl

theorem Fetching.finish {t : Transfer} {data : Nat → Byte} {len : BufferSize} (holds : ring.Holds lo hi queue)
    (fetching : ring.Fetching lo t data) (finished : t.Finished) (length : t.len = stdMin (ring.uIn - ring.uOut) len) :
    ring.call (.readData data len) = some (.read t.len.toNat t.data, { ring with uOut := ring.uOut + t.len }) := by
  obtain ⟨data', read, short, copied, others⟩ := holds.readData_eq data len
  rw [← length] at read copied others
  have same : t.data = data' := by
    funext i
    by_cases inside : i < t.len.toNat
    · rw [fetching.copied i inside (finished i inside), copied i inside]
    · rw [fetching.others i (by omega), others i (by omega)]
  rw [LockedRing.call, read, same]
  rfl

/-- The lengths that the loads give are no more than the cells. -/
theorem Holds.short (holds : ring.Holds lo hi queue) (len : BufferSize) :
    (stdMin (ring.uSize - ring.uIn + ring.uOut) len).toNat ≤ ring.uSize.toNat ∧
      (stdMin (ring.uIn - ring.uOut) len).toNat ≤ ring.uSize.toNat := by
  obtain ⟨_, _, room, _⟩ := holds.writeData_eq (fun _ => 0) len
  obtain ⟨_, _, unread, _⟩ := holds.readData_eq (fun _ => 0) len
  exact ⟨room, unread⟩

theorem Under.access {call : Call} {here next : Inside × LockedRing Lock} (holds : ring.Holds lo hi queue)
    (under : ring.Under lo hi call here) (accessed : Access here next) : ring.Under lo hi call next := by
  cases accessed with
  | writeData data len =>
    obtain ⟨rfl, rfl⟩ := under
    exact ⟨rfl, rfl, rfl⟩
  | writeLoadOut data len inpos =>
    obtain ⟨rfl, rfl, rfl⟩ := under
    exact ⟨len, rfl, rfl, rfl⟩
  | writeLoadOff data short =>
    obtain ⟨len, rfl, rfl, rfl⟩ := under
    exact ⟨len, _, rfl, rfl, rfl, rfl, fun _ _ member => absurd member (Finset.notMem_empty _), fun _ _ => rfl⟩
  | writeCopy t i ready =>
    obtain ⟨len, buffer, rfl, pos, length, rfl, storing⟩ := under
    have short : t.len.toNat ≤ ring.uSize.toNat := length ▸ (holds.short len).1
    have cell : t.cell ring.uSize i = _ := Transfer.cell_eq holds.size (pos.trans holds.uIn) short ready.1
    refine ⟨len, _, rfl, pos, length, rfl, ?_⟩
    show ring.Storing hi _ (Function.update buffer (t.cell ring.uSize i) (t.data i))
    rw [cell]
    exact storing.copy short ready.1
  | writeLoadIn t finished =>
    obtain ⟨len, buffer, rfl, -, length, rfl, storing⟩ := under
    exact ⟨len, buffer, rfl, finished, rfl, length, rfl, storing⟩
  | writeStoreIn t inpos =>
    obtain ⟨len, buffer, rfl, finished, rfl, length, rfl, storing⟩ := under
    exact storing.finish holds finished length
  | readData data len =>
    obtain ⟨rfl, rfl⟩ := under
    exact ⟨rfl, rfl, rfl⟩
  | readLoadOut data len inpos =>
    obtain ⟨rfl, rfl, rfl⟩ := under
    exact ⟨len, rfl, rfl, rfl⟩
  | readLoadOff data short =>
    obtain ⟨len, rfl, rfl, rfl⟩ := under
    exact ⟨data, len, rfl, rfl, rfl, rfl, fun _ _ member => absurd member (Finset.notMem_empty _), fun _ _ => rfl⟩
  | @readCopy now t i ready =>
    obtain ⟨data, len, rfl, pos, length, rfl, fetching⟩ := under
    have short : t.len.toNat ≤ now.uSize.toNat := length ▸ (holds.short len).2
    have cell : t.cell now.uSize i = _ := Transfer.cell_eq holds.size (pos.trans holds.uOut) short ready.1
    refine ⟨data, len, rfl, pos, length, rfl, ?_⟩
    rw [cell]
    exact fetching.copy ready.1
  | readLoadEnd t finished =>
    obtain ⟨data, len, rfl, -, length, rfl, fetching⟩ := under
    exact ⟨data, len, rfl, finished, rfl, length, rfl, fetching⟩
  | readStoreOut t outpos =>
    obtain ⟨data, len, rfl, finished, rfl, length, rfl, fetching⟩ := under
    exact fetching.finish holds finished length
  | resetOut =>
    obtain ⟨rfl, rfl⟩ := under
    exact ⟨rfl, rfl, rfl⟩
  | resetOutStore inpos =>
    obtain ⟨rfl, rfl, rfl⟩ := under
    rfl
  | reset =>
    obtain ⟨rfl, rfl⟩ := under
    exact ⟨rfl, rfl⟩
  | resetStoreIn =>
    obtain ⟨rfl, rfl⟩ := under
    rfl

theorem Under.accesses {call : Call} {here next : Inside × LockedRing Lock} (holds : ring.Holds lo hi queue)
    (under : ring.Under lo hi call here) (run : ReflTransGen Access here next) : ring.Under lo hi call next := by
  induction run with
  | refl => exact under
  | tail _ accessed ih => exact ih.access holds accessed

/-- Access by access a call does what it does in one step. -/
theorem alone_call {call : Call} {answer : Answer} {ring' : LockedRing Lock} (holds : ring.Holds lo hi queue)
    (alone : (body Lock).Alone call answer ring ring') : ring.call call = some (answer, ring') := by
  obtain ⟨_, run, rfl⟩ := alone
  exact Under.accesses holds (show ring.Under lo hi call (.entered call, ring) from ⟨rfl, rfl⟩) run

/-! ### Calls end -/

theorem write_ends (t : Transfer) (ring : LockedRing Lock) :
    ∃ answer ring', ReflTransGen Access (.write t, ring) (.done answer, ring') := by
  induction left : t.remaining using Nat.strong_induction_on generalizing t ring with
  | _ n ih =>
    by_cases finished : t.Finished
    · exact ⟨_, _, .head (.writeLoadIn t finished) (.single (.writeStoreIn t ring.uIn))⟩
    · obtain ⟨i, ready⟩ := Transfer.ready_of_unfinished ring.uSize finished
      have first : Access (.write t, ring) _ := .writeCopy t i ready
      have fewer := left ▸ Transfer.remaining_lt ready
      obtain ⟨answer, ring', rest⟩ := ih _ fewer { t with copied := insert i t.copied } _ rfl
      exact ⟨answer, ring', .head first rest⟩

theorem read_ends (t : Transfer) (ring : LockedRing Lock) :
    ∃ answer ring', ReflTransGen Access (.read t, ring) (.done answer, ring') := by
  induction left : t.remaining using Nat.strong_induction_on generalizing t with
  | _ n ih =>
    by_cases finished : t.Finished
    · exact ⟨_, _, .head (.readLoadEnd t finished) (.single (.readStoreOut t ring.uOut))⟩
    · obtain ⟨i, ready⟩ := Transfer.ready_of_unfinished ring.uSize finished
      have first : Access (.read t, ring) _ := .readCopy t i ready
      have fewer := left ▸ Transfer.remaining_lt ready
      obtain ⟨answer, ring', rest⟩ := ih _ fewer { t with
        data := Function.update t.data i (ring.pBuffer (t.cell ring.uSize i))
        copied := insert i t.copied } rfl
      exact ⟨answer, ring', .head first rest⟩

theorem writeLoadOut_ends (data : Nat → Byte) (len inpos : BufferSize) (ring : LockedRing Lock) :
    ∃ answer ring', ReflTransGen Access (.writeLoadOut data len inpos, ring) (.done answer, ring') := by
  let short := stdMin (ring.uSize - inpos + ring.uOut) len
  obtain ⟨answer, ring', rest⟩ := write_ends ⟨data, short, ring.uIn, ∅⟩ ring
  exact ⟨answer, ring', .head (.writeLoadOut data len inpos) (.head (.writeLoadOff data short) rest)⟩

theorem readLoadOut_ends (data : Nat → Byte) (len inpos : BufferSize) (ring : LockedRing Lock) :
    ∃ answer ring', ReflTransGen Access (.readLoadOut data len inpos, ring) (.done answer, ring') := by
  let short := stdMin (inpos - ring.uOut) len
  obtain ⟨answer, ring', rest⟩ := read_ends ⟨data, short, ring.uOut, ∅⟩ ring
  exact ⟨answer, ring', .head (.readLoadOut data len inpos) (.head (.readLoadOff data short) rest)⟩

theorem inside_ends (inside : Inside) (ring : LockedRing Lock) :
    ∃ answer ring', ReflTransGen Access (inside, ring) (.done answer, ring') := by
  cases inside with
  | entered call =>
    cases call with
    | writeData data len =>
      obtain ⟨answer, ring', rest⟩ := writeLoadOut_ends data len ring.uIn ring
      exact ⟨answer, ring', .head (.writeData data len) rest⟩
    | readData data len =>
      obtain ⟨answer, ring', rest⟩ := readLoadOut_ends data len ring.uIn ring
      exact ⟨answer, ring', .head (.readData data len) rest⟩
    | resetOut => exact ⟨_, _, .head .resetOut (.single (.resetOutStore ring.uIn))⟩
    | reset => exact ⟨_, _, .head .reset (.single .resetStoreIn)⟩
  | writeLoadOut data len inpos => exact writeLoadOut_ends data len inpos ring
  | writeLoadOff data len =>
    obtain ⟨answer, ring', rest⟩ := write_ends ⟨data, len, ring.uIn, ∅⟩ ring
    exact ⟨answer, ring', .head (.writeLoadOff data len) rest⟩
  | write t => exact write_ends t ring
  | writeStoreIn t inpos => exact ⟨_, _, .single (.writeStoreIn t inpos)⟩
  | readLoadOut data len inpos => exact readLoadOut_ends data len inpos ring
  | readLoadOff data len =>
    obtain ⟨answer, ring', rest⟩ := read_ends ⟨data, len, ring.uOut, ∅⟩ ring
    exact ⟨answer, ring', .head (.readLoadOff data len) rest⟩
  | read t => exact read_ends t ring
  | readStoreOut t outpos => exact ⟨_, _, .single (.readStoreOut t outpos)⟩
  | resetStoreIn => exact ⟨_, _, .single .resetStoreIn⟩
  | resetOutStore inpos => exact ⟨_, _, .single (.resetOutStore inpos)⟩
  | done answer => exact ⟨answer, ring, .refl⟩

theorem body_ends : (body Lock).Ends := by
  intro call ring inside ring' _
  obtain ⟨answer, ring'', rest⟩ := inside_ends inside ring'
  exact ⟨_, ring'', answer, rest, rfl⟩

/-! ### Threads -/

/-- What a ring buffer between threads does: the calls that returned answered as
    those of a queue do one after another, no call is at a cell that is none of
    its own, and every call can return. -/
structure Serves {Thread : Type*} [DecidableEq Thread] (lock : Locking.Lock Bool) (size : BufferSize)
    (s : Guarded.Threads Bool (LockedRing Lock) Call Inside Answer Thread) : Prop where
  exclusive : Locking.Exclusive s.kinds
  answers : s.returned.map Prod.snd = (queueRun (roundUpPowOfTwo size).toNat [] (s.returned.map Prod.fst)).1
  reports : (∀ t call l, s.place t ≠ .critical call l) →
    s.object.Reports (queueRun (roundUpPowOfTwo size).toNat [] (s.returned.map Prod.fst)).2
  cells : ∀ t call l, s.place t = .critical call l → ∀ cell ∈ l.touches s.object.uSize, cell < s.object.uSize.toNat
  returns : ∀ t, s.place t ≠ .outside →
    ∃ s', ReflTransGen (Guarded.Step lock (body Lock)) s s' ∧ s'.place t = .outside

variable {size : BufferSize} {junk : Nat → Byte}

/-- Calls one after another leave the ring with what the queue has. -/
theorem serial_holds {done : List (Call × Answer)} (serial : (body Lock).Serial (new size junk) done ring) :
    (∃ lo hi, ring.Holds lo hi (queueRun (roundUpPowOfTwo size).toNat [] (done.map Prod.fst)).2) ∧
      ring.uSize = roundUpPowOfTwo size ∧
      done.map Prod.snd = (queueRun (roundUpPowOfTwo size).toNat [] (done.map Prod.fst)).1 := by
  induction serial with
  | nil => exact ⟨⟨0, 0, new_holds size junk⟩, rfl, rfl⟩
  | @snoc done before after call answer _ last ih =>
    obtain ⟨⟨lo, hi, holds⟩, capacity, answers⟩ := ih
    obtain ⟨ring', lo', hi', called, same, holds'⟩ := call_total_correct holds call
    obtain ⟨rfl, rfl⟩ := Prod.mk.inj (Option.some.inj ((alone_call holds last).symm.trans called))
    rw [capacity] at same holds'
    rw [List.map_append, List.map_append, List.map_cons, List.map_nil, List.map_cons, List.map_nil, queueRun_snoc]
    refine ⟨⟨lo', hi', holds'⟩, same, ?_⟩
    rw [answers, capacity]

theorem Under.touches {lo hi : Nat} {queue : List Byte} {call : Call} {inside : Inside} {now : LockedRing Lock}
    (holds : ring.Holds lo hi queue) (under : ring.Under lo hi call (inside, now)) {cell : Nat}
    (touched : cell ∈ inside.touches now.uSize) : cell < now.uSize.toNat := by
  cases inside with
  | write t =>
    obtain ⟨len, buffer, rfl, pos, length, rfl, -⟩ := under
    obtain ⟨i, ready, rfl⟩ := touched
    have short : t.len.toNat ≤ ring.uSize.toNat := length ▸ (holds.short len).1
    have cell : t.cell ring.uSize i = _ := Transfer.cell_eq holds.size (pos.trans holds.uIn) short ready.1
    have := ready.1
    rw [cell]
    exact Nat.mod_lt _ (by omega)
  | read t =>
    obtain ⟨data, len, rfl, pos, length, rfl, -⟩ := under
    obtain ⟨i, ready, rfl⟩ := touched
    have short : t.len.toNat ≤ now.uSize.toNat := length ▸ (holds.short len).2
    have cell : t.cell now.uSize i = _ := Transfer.cell_eq holds.size (pos.trans holds.uOut) short ready.1
    have := ready.1
    rw [cell]
    exact Nat.mod_lt _ (by omega)
  | _ => cases touched

theorem serves_of_reachable {Thread : Type*} [DecidableEq Thread] {lock : Locking.Lock Bool} {free : Bool → Prop}
    (fresh : free lock.start) (takes : Locking.Takes free lock.lock) (frees : ∀ flag, free (lock.unlock flag))
    {s : Guarded.Threads Bool (LockedRing Lock) Call Inside Answer Thread}
    (reached : Guarded.Reachable lock (body Lock) (new size junk) s) : Serves lock size s := by
  have linear := reached.linear fresh takes frees
  obtain ⟨ring, serial, nobody, somebody⟩ := linear.serial
  obtain ⟨⟨lo, hi, holds⟩, _, answers⟩ := serial_holds serial
  refine ⟨linear.held.exclusive, answers, fun none => ?_, fun t call l inside cell touched => ?_, fun t inside => ?_⟩
  · rw [nobody none]
    exact holds.reports
  · have under : ring.Under lo hi call (l, s.object) :=
      Under.accesses holds (show ring.Under lo hi call (.entered call, ring) from ⟨rfl, rfl⟩) (somebody t call l inside)
    exact under.touches holds touched
  · exact linear.returns takes frees body_ends inside

end LockedRing

/-- Any number of threads may call either ring buffer at any time. -/
theorem locked_rings_linearizable {Thread : Type*} [DecidableEq Thread] (size : BufferSize) (junk : Nat → Byte) :
    (∀ s : Guarded.Threads Bool RingBuffer Call Inside Answer Thread,
      Guarded.Reachable LiteServer.Thread.AtomSpinLock (LockedRing.body AtomSpinLock) (LockedRing.new size junk) s →
      LockedRing.Serves LiteServer.Thread.AtomSpinLock size s) ∧
    ∀ s : Guarded.Threads Bool RingBufferDN Call Inside Answer Thread,
      Guarded.Reachable LiteServer.Thread.SpinLock (LockedRing.body SpinLock) (LockedRing.new size junk) s →
      LockedRing.Serves LiteServer.Thread.SpinLock size s := by
  constructor
  · intro s
    have clear : LiteServer.Thread.Free LiteServer.Thread.AtomSpinLock.start := rfl
    exact LockedRing.serves_of_reachable clear LiteServer.Thread.AtomSpinLock.takes LiteServer.Thread.AtomSpinLock.frees
  · intro s
    have clear : LiteServer.Thread.Free LiteServer.Thread.SpinLock.start := rfl
    exact LockedRing.serves_of_reachable clear LiteServer.Thread.SpinLock.takes.1 fun _ => rfl

/-- While a thread writes, another one waits for the lock to read. -/
theorem waiting_reader_returns : ∃ s : Guarded.Threads Bool RingBuffer Call Inside Answer Bool,
    s.place true = .locking (.readData (fun _ => 0) 1) ∧
    ∃ s', ReflTransGen (Guarded.Step LiteServer.Thread.AtomSpinLock (LockedRing.body AtomSpinLock)) s s' ∧
      s'.place true = .outside := by
  have start : Guarded.Reachable LiteServer.Thread.AtomSpinLock (LockedRing.body AtomSpinLock)
      (LockedRing.new 4 fun _ => 0) (Guarded.Threads.start _ _ : Guarded.Threads _ _ _ _ _ Bool) := .start rfl
  have called := start.next (.call false (.writeData (fun _ => 7) 1) rfl)
  have entered := called.next (.enter false (.writeData (fun _ => 7) 1) true rfl rfl)
  have second := entered.next (.call true (.readData (fun _ => 0) 1) rfl)
  have waiting := second.next (.wait true (.readData (fun _ => 0) 1) true rfl rfl)
  exact ⟨_, rfl, ((locked_rings_linearizable 4 fun _ => 0).1 _ waiting).returns true nofun⟩

end LiteServer.Net
