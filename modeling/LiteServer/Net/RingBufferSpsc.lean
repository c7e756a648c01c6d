import LiteServer.Lib.Transition
import LiteServer.Net.RingBuffer
import Mathlib.Data.Finset.Insert

/-!
`RingBufferSpsc` between one thread that calls `WriteData` and one that calls
`ReadData` and `ResetOut`. Every atomic load or store of an index is a step,
and so is every byte of a `memcpy`, which may copy its bytes in any order; the
indices a thread has loaded stay as they were while the other thread goes on.
-/
namespace LiteServer.Net
open Ring

/-- The two `memcpy` of a call with the index `pos` it loaded. Byte `i` of the
    transfer is byte `i` of `data`; `copied` are the bytes done so far. -/
structure Transfer where
  data : Nat → Byte
  len : BufferSize
  pos : BufferSize
  copied : Finset Nat

namespace Transfer

def off (t : Transfer) (size : BufferSize) : BufferSize := t.pos &&& (size - 1)
def copy1 (t : Transfer) (size : BufferSize) : BufferSize := stdMin t.len (size - t.off size)

/-- The cell of a byte: the first `memcpy` starts at `off`, the second at the
    start of the buffer. -/
def cell (t : Transfer) (size : BufferSize) (i : Nat) : Nat :=
  if i < (t.copy1 size).toNat then (t.off size).toNat + i else i - (t.copy1 size).toNat

/-- A byte that may be copied next. The second `memcpy` waits for the first. -/
def Ready (t : Transfer) (size : BufferSize) (i : Nat) : Prop :=
  i < t.len.toNat ∧ i ∉ t.copied ∧ (i < (t.copy1 size).toNat ∨ ∀ j < (t.copy1 size).toNat, j ∈ t.copied)

def Finished (t : Transfer) : Prop := ∀ i < t.len.toNat, i ∈ t.copied

def bytes (t : Transfer) : List Byte := (List.range t.len.toNat).map t.data

end Transfer

/-- Where the writing thread is: outside `WriteData`, before its load of
    `m_uOut`, or between that load and its store of `m_uIn`. -/
inductive Writer where
  | idle
  | loadOut (data : Nat → Byte) (len inpos : BufferSize)
  | copy (transfer : Transfer)

/-- Where the reading thread is; the last two are inside `ResetOut`. -/
inductive Reader where
  | idle
  | loadIn (data : Nat → Byte) (len outpos : BufferSize)
  | copy (transfer : Transfer)
  | resetLoadIn (outpos : BufferSize)
  | resetStore (inpos : BufferSize)

/-- `accepted` and `consumed` only record the run: the bytes `WriteData` has
    published, and those `ReadData` returned or `ResetOut` discarded. -/
structure RingBufferSpsc where
  uSize : BufferSize
  pBuffer : Nat → Byte
  uIn : BufferSize
  uOut : BufferSize
  writer : Writer
  reader : Reader
  accepted : List Byte
  consumed : List Byte

namespace RingBufferSpsc

def new (size : BufferSize) (junk : Nat → Byte) : RingBufferSpsc :=
  ⟨roundUpPowOfTwo size, junk, 0, 0, .idle, .idle, [], []⟩

def isEmpty (s : RingBufferSpsc) : Bool := s.uIn == s.uOut
def isFull (s : RingBufferSpsc) : Bool := s.uSize == s.uIn - s.uOut

/-- The record of the run begins again with an empty buffer. -/
def reset (s : RingBufferSpsc) : RingBufferSpsc := { s with uIn := 0, uOut := 0, accepted := [], consumed := [] }

/-- The cells of the unread bytes, oldest first. -/
def unreadCells (s : RingBufferSpsc) : List Nat :=
  (List.range (s.uIn - s.uOut).toNat).map fun i => ((s.uOut + BitVec.ofNat 8 i) &&& (s.uSize - 1)).toNat
def unread (s : RingBufferSpsc) : List Byte := s.unreadCells.map s.pBuffer

/-- What `WriteData` does after both loads. -/
def beginWrite (s : RingBufferSpsc) (data : Nat → Byte) (len inpos outpos : BufferSize) : Writer :=
  let len := stdMin (s.uSize - inpos + outpos) len
  if len == 0 then .idle else .copy ⟨data, len, inpos, ∅⟩

/-- What `ReadData` does after both loads. -/
def beginRead (data : Nat → Byte) (len outpos inpos : BufferSize) : Reader :=
  let len := stdMin (inpos - outpos) len
  if len == 0 then .idle else .copy ⟨data, len, outpos, ∅⟩

inductive Step : RingBufferSpsc → RingBufferSpsc → Prop where
  | writeData {s} (data : Nat → Byte) (len : BufferSize) : s.writer = .idle →
      Step s { s with writer := .loadOut data len s.uIn }
  | writeLoadOut {s} (data : Nat → Byte) (len inpos : BufferSize) : s.writer = .loadOut data len inpos →
      Step s { s with writer := s.beginWrite data len inpos s.uOut }
  | writeCopy {s} (t : Transfer) (i : Nat) : s.writer = .copy t → t.Ready s.uSize i →
      Step s { s with
        pBuffer := Function.update s.pBuffer (t.cell s.uSize i) (t.data i)
        writer := .copy { t with copied := insert i t.copied } }
  | writeStoreIn {s} (t : Transfer) : s.writer = .copy t → t.Finished →
      Step s { s with uIn := t.pos + t.len, writer := .idle, accepted := s.accepted ++ t.bytes }
  | readData {s} (data : Nat → Byte) (len : BufferSize) : s.reader = .idle →
      Step s { s with reader := .loadIn data len s.uOut }
  | readLoadIn {s} (data : Nat → Byte) (len outpos : BufferSize) : s.reader = .loadIn data len outpos →
      Step s { s with reader := beginRead data len outpos s.uIn }
  | readCopy {s} (t : Transfer) (i : Nat) : s.reader = .copy t → t.Ready s.uSize i →
      Step s { s with reader := .copy { t with
        data := Function.update t.data i (s.pBuffer (t.cell s.uSize i))
        copied := insert i t.copied } }
  | readStoreOut {s} (t : Transfer) : s.reader = .copy t → t.Finished →
      Step s { s with uOut := t.pos + t.len, reader := .idle, consumed := s.consumed ++ t.bytes }
  | resetOut {s} : s.reader = .idle → Step s { s with reader := .resetLoadIn s.uOut }
  | resetLoadIn {s} (outpos : BufferSize) : s.reader = .resetLoadIn outpos →
      Step s { s with reader := .resetStore s.uIn }
  | resetStore {s} (inpos : BufferSize) : s.reader = .resetStore inpos →
      Step s { s with
        uOut := inpos
        reader := .idle
        consumed := s.consumed ++ s.unread.take (inpos - s.uOut).toNat }

/-- The states of a buffer constructed with `size`, whatever its cells held. -/
def Reachable (size : BufferSize) : RingBufferSpsc → Prop :=
  Transition.Reachable (fun s => ∃ junk, s = new size junk) Step

/-! ### The invariant -/

/-- A transfer of the positions from `start` on; the bytes done so far satisfy
    `done`. -/
structure Moves (t : Transfer) (start : Nat) (done : Nat → Prop) : Prop where
  pos : t.pos = BitVec.ofNat 8 start
  positive : 0 < t.len.toNat
  done : ∀ i < t.len.toNat, i ∈ t.copied → done i

/-- What the writing thread relies on; the reading thread only makes room. -/
def WriterSound (s : RingBufferSpsc) : Prop :=
  match s.writer with
  | .idle => True
  | .loadOut _ _ inpos => inpos = s.uIn
  | .copy t => Moves t s.accepted.length (fun i => s.pBuffer ((s.accepted.length + i) % s.uSize.toNat) = t.data i) ∧
      s.accepted.length + t.len.toNat ≤ s.consumed.length + s.uSize.toNat

/-- What the reading thread relies on; the writing thread only appends. -/
def ReaderSound (s : RingBufferSpsc) : Prop :=
  match s.reader with
  | .idle => True
  | .loadIn _ _ outpos => outpos = s.uOut
  | .copy t => Moves t s.consumed.length (fun i => s.accepted[s.consumed.length + i]? = some (t.data i)) ∧
      s.consumed.length + t.len.toNat ≤ s.accepted.length
  | .resetLoadIn _ => True
  | .resetStore inpos => ∃ k, inpos = BitVec.ofNat 8 (s.consumed.length + k) ∧
      s.consumed.length + k ≤ s.accepted.length

structure Sound (s : RingBufferSpsc) : Prop where
  size : Size s.uSize
  uIn : s.uIn = BitVec.ofNat 8 s.accepted.length
  uOut : s.uOut = BitVec.ofNat 8 s.consumed.length
  fits : s.accepted.length ≤ s.consumed.length + s.uSize.toNat
  none : s.uSize = 0 → s.accepted.length = 0
  stream : s.accepted = s.consumed ++ window s.pBuffer s.uSize.toNat s.consumed.length s.accepted.length
  writer : WriterSound s
  reader : ReaderSound s

variable {s s' : RingBufferSpsc}

theorem Sound.ordered (sound : Sound s) : s.consumed.length ≤ s.accepted.length := by
  have lengths := congrArg List.length sound.stream
  simp only [List.length_append, window_length] at lengths
  omega

/-- The room that the loads of `WriteData` see. -/
theorem Sound.avail_toNat (sound : Sound s) :
    (s.uSize - s.uIn + s.uOut).toNat = s.uSize.toNat - (s.accepted.length - s.consumed.length) := by
  have ordered := sound.ordered
  have bound := sound.size.le
  have fits := sound.fits
  rw [sound.uIn, sound.uOut, BitVec.toNat_add, BitVec.toNat_sub, BitVec.toNat_ofNat, BitVec.toNat_ofNat]
  omega

/-- What is between the indices is the window of the positions not consumed. -/
theorem Sound.unread_eq (sound : Sound s) :
    s.unreadCells = (List.range' s.consumed.length (s.accepted.length - s.consumed.length)).map (· % s.uSize.toNat) ∧
      s.unread = window s.pBuffer s.uSize.toNat s.consumed.length s.accepted.length := by
  have ordered := sound.ordered
  have bound := sound.size.le
  have fits := sound.fits
  have distance : (s.uIn - s.uOut).toNat = s.accepted.length - s.consumed.length := by
    rw [sound.uIn, sound.uOut, distance_toNat ordered (by omega)]
  have cells : s.unreadCells =
      (List.range' s.consumed.length (s.accepted.length - s.consumed.length)).map (· % s.uSize.toNat) := by
    rw [unreadCells, distance, List.range'_eq_map_range, List.map_map]
    apply List.map_congr_left
    intro i inside
    have set : s.uSize ≠ 0 := fun empty => by
      have := sound.none empty
      have := List.mem_range.mp inside
      omega
    refine sound.size.cell set ?_
    rw [sound.uOut]
    apply BitVec.eq_of_toNat_eq
    simp
  refine ⟨cells, ?_⟩
  rw [unread, cells, window, List.map_map]
  rfl

theorem Sound.accepted_getElem? (sound : Sound s) {i : Nat} (inside : s.consumed.length + i < s.accepted.length) :
    s.accepted[s.consumed.length + i]? = some (s.pBuffer ((s.consumed.length + i) % s.uSize.toNat)) := by
  have found := congrArg (fun bytes => bytes[s.consumed.length + i]?) sound.stream
  simp only [List.getElem?_append_right (Nat.le_add_right s.consumed.length i), Nat.add_sub_cancel_left] at found
  rw [found, List.getElem?_eq_getElem (by rw [window_length]; omega), window_getElem]

/-- Each byte of a transfer of at most `m_uSize` bytes has the cell of its position. -/
theorem Moves.cell {t : Transfer} {start : Nat} {done : Nat → Prop} {size : BufferSize} (moves : Moves t start done)
    (valid : Size size) (short : t.len.toNat ≤ size.toNat) {i : Nat} (inside : i < t.len.toNat) :
    t.cell size i = (start + i) % size.toNat := by
  have set : size ≠ 0 := by
    rintro rfl
    simp only [BitVec.ofNat_eq_ofNat, BitVec.toNat_ofNat] at short
    omega
  have bound := valid.le
  have off : (t.off size).toNat = start % size.toNat := valid.cell set moves.pos
  have below := Nat.mod_lt start (show 0 < size.toNat by omega)
  have first : (t.copy1 size).toNat = min t.len.toNat (size.toNat - start % size.toNat) := by
    rw [Transfer.copy1, stdMin_toNat, BitVec.toNat_sub, off]
    omega
  rw [Transfer.cell, first, off, cell_split (by omega)]
  split_ifs <;> omega

/-! ### What a step keeps -/

theorem new_sound (size : BufferSize) (junk : Nat → Byte) : Sound (new size junk) where
  size := roundUpPowOfTwo_size size
  uIn := rfl
  uOut := rfl
  fits := Nat.zero_le _
  none := fun _ => rfl
  stream := by simp [new]
  writer := trivial
  reader := trivial

/-- The loads of `WriteData` see room for what it will copy. -/
theorem Sound.beginWrite (sound : Sound s) (data : Nat → Byte) (len : BufferSize) :
    WriterSound { s with writer := s.beginWrite data len s.uIn s.uOut } := by
  have ordered := sound.ordered
  have fits := sound.fits
  let n := stdMin (s.uSize - s.uIn + s.uOut) len
  have room : n.toNat ≤ s.uSize.toNat - (s.accepted.length - s.consumed.length) := by
    rw [stdMin_toNat, sound.avail_toNat]
    omega
  by_cases zero : n == 0
  · have begun : s.beginWrite data len s.uIn s.uOut = .idle := if_pos zero
    rw [begun]
    trivial
  · have positive : 0 < n.toNat := Nat.pos_of_ne_zero fun nothing => zero (beq_iff_eq.mpr (BitVec.eq_of_toNat_eq nothing))
    have begun : s.beginWrite data len s.uIn s.uOut = .copy ⟨data, n, s.uIn, ∅⟩ := if_neg zero
    rw [begun]
    refine ⟨⟨sound.uIn, positive, fun i _ member => absurd member (Finset.notMem_empty i)⟩, ?_⟩
    show s.accepted.length + n.toNat ≤ s.consumed.length + s.uSize.toNat
    omega

/-- The loads of `ReadData` see the bytes it will copy. -/
theorem Sound.beginRead (sound : Sound s) (data : Nat → Byte) (len : BufferSize) :
    ReaderSound { s with reader := RingBufferSpsc.beginRead data len s.uOut s.uIn } := by
  have ordered := sound.ordered
  have bound := sound.size.le
  have fits := sound.fits
  let n := stdMin (s.uIn - s.uOut) len
  have unread : n.toNat ≤ s.accepted.length - s.consumed.length := by
    rw [stdMin_toNat, sound.uIn, sound.uOut, distance_toNat ordered (by omega)]
    omega
  by_cases zero : n == 0
  · have begun : RingBufferSpsc.beginRead data len s.uOut s.uIn = .idle := if_pos zero
    rw [begun]
    trivial
  · have positive : 0 < n.toNat := Nat.pos_of_ne_zero fun nothing => zero (beq_iff_eq.mpr (BitVec.eq_of_toNat_eq nothing))
    have begun : RingBufferSpsc.beginRead data len s.uOut s.uIn = .copy ⟨data, n, s.uOut, ∅⟩ := if_neg zero
    rw [begun]
    refine ⟨⟨sound.uOut, positive, fun i _ member => absurd member (Finset.notMem_empty i)⟩, ?_⟩
    show s.consumed.length + n.toNat ≤ s.accepted.length
    omega

/-- A byte stored by `WriteData` hits no unread position. -/
theorem Sound.writeCopy (sound : Sound s) {t : Transfer} {i : Nat} (writing : s.writer = .copy t)
    (ready : t.Ready s.uSize i) : Sound { s with
      pBuffer := Function.update s.pBuffer (t.cell s.uSize i) (t.data i)
      writer := .copy { t with copied := insert i t.copied } } := by
  have writer := sound.writer
  rw [WriterSound, writing] at writer
  obtain ⟨moves, room⟩ := writer
  have ordered := sound.ordered
  have fits := sound.fits
  have cell := moves.cell sound.size (by omega) ready.1
  exact { sound with
    stream := by
      refine sound.stream.trans (congrArg _ (window_congr ?_).symm)
      intro j first second
      refine Function.update_of_ne ?_ _ _
      intro same
      rw [cell] at same
      have := cell_injective (by omega) (by have := ready.1; omega) same
      omega
    writer := by
      refine ⟨⟨moves.pos, moves.positive, ?_⟩, room⟩
      intro j inside member
      have inside : j < t.len.toNat := inside
      show Function.update s.pBuffer (t.cell s.uSize i) (t.data i) ((s.accepted.length + j) % s.uSize.toNat) = t.data j
      rw [cell]
      by_cases same : j = i
      · rw [same, Function.update_self]
      · have earlier := moves.done j inside ((Finset.mem_insert.mp member).resolve_left same)
        refine (Function.update_of_ne (fun clash => same ?_) _ _).trans earlier
        have := ready.1
        have := cell_injective (by omega) (by omega) clash
        omega }

/-- A byte fetched by `ReadData` is the one accepted at its position. -/
theorem Sound.readCopy (sound : Sound s) {t : Transfer} {i : Nat} (reading : s.reader = .copy t)
    (ready : t.Ready s.uSize i) : Sound { s with
      reader := .copy { t with
        data := Function.update t.data i (s.pBuffer (t.cell s.uSize i))
        copied := insert i t.copied } } := by
  have reader := sound.reader
  rw [ReaderSound, reading] at reader
  obtain ⟨moves, unread⟩ := reader
  have fits := sound.fits
  have cell := moves.cell sound.size (by omega) ready.1
  refine { sound with reader := ⟨⟨moves.pos, moves.positive, ?_⟩, unread⟩ }
  intro j inside member
  show s.accepted[s.consumed.length + j]? = some (Function.update t.data i _ j)
  by_cases same : j = i
  · rw [same, Function.update_self, cell]
    exact sound.accepted_getElem? (by have := ready.1; omega)
  · rw [Function.update_of_ne same]
    exact moves.done j inside ((Finset.mem_insert.mp member).resolve_left same)

/-- Publishing `m_uIn` appends the bytes of the transfer. -/
theorem Sound.writeStoreIn (sound : Sound s) {t : Transfer} (writing : s.writer = .copy t) (finished : t.Finished) :
    Sound { s with uIn := t.pos + t.len, writer := .idle, accepted := s.accepted ++ t.bytes } := by
  have writer := sound.writer
  rw [WriterSound, writing] at writer
  obtain ⟨moves, room⟩ := writer
  have length : (s.accepted ++ t.bytes).length = s.accepted.length + t.len.toNat := by simp [Transfer.bytes]
  have stored : window s.pBuffer s.uSize.toNat s.accepted.length (s.accepted.length + t.len.toNat) = t.bytes :=
    window_eq_map fun i inside => moves.done i inside (finished i inside)
  exact { sound with
    uIn := by
      show t.pos + t.len = BitVec.ofNat 8 (s.accepted ++ t.bytes).length
      rw [length, moves.pos]
      apply BitVec.eq_of_toNat_eq
      simp [BitVec.toNat_add]
    fits := length ▸ room
    none := fun empty => by
      have size : s.uSize.toNat = 0 := congrArg BitVec.toNat (show s.uSize = 0 from empty)
      have zero := sound.none empty
      have ordered := sound.ordered
      have positive := moves.positive
      omega
    stream := by
      show s.accepted ++ t.bytes = s.consumed ++ window _ _ _ (s.accepted ++ t.bytes).length
      rw [length, ← window_append sound.ordered (Nat.le_add_right _ _), stored, ← List.append_assoc, ← sound.stream]
    writer := trivial
    reader := by
      have reader := sound.reader
      unfold ReaderSound at reader ⊢
      cases reading : s.reader with
      | idle => trivial
      | loadIn data len outpos => simpa only [reading] using reader
      | copy u =>
        simp only [reading] at reader ⊢
        obtain ⟨reads, unread⟩ := reader
        refine ⟨⟨reads.pos, reads.positive, ?_⟩, length ▸ by omega⟩
        intro i inside member
        rw [List.getElem?_append_left (by omega)]
        exact reads.done i inside member
      | resetLoadIn outpos => trivial
      | resetStore inpos =>
        simp only [reading] at reader ⊢
        obtain ⟨k, counts, below⟩ := reader
        exact ⟨k, counts, length ▸ by omega⟩ }

/-- Moving `m_uOut` past the next `k` unread bytes consumes them. -/
theorem Sound.advance (sound : Sound s) {k : Nat} (below : s.consumed.length + k ≤ s.accepted.length)
    {outpos : BufferSize} (counts : outpos = BitVec.ofNat 8 (s.consumed.length + k)) {bytes : List Byte}
    (oldest : bytes = window s.pBuffer s.uSize.toNat s.consumed.length (s.consumed.length + k)) :
    Sound { s with uOut := outpos, reader := .idle, consumed := s.consumed ++ bytes } := by
  have length : (s.consumed ++ bytes).length = s.consumed.length + k := by
    rw [oldest, List.length_append, window_length]
    omega
  have fits := sound.fits
  exact { sound with
    uOut := by
      show outpos = BitVec.ofNat 8 (s.consumed ++ bytes).length
      rw [length, counts]
    fits := by
      show s.accepted.length ≤ (s.consumed ++ bytes).length + s.uSize.toNat
      rw [length]
      omega
    stream := by
      show s.accepted = s.consumed ++ bytes ++ window _ _ (s.consumed ++ bytes).length _
      rw [length, List.append_assoc, oldest, window_append (Nat.le_add_right _ _) below]
      exact sound.stream
    writer := by
      have writer := sound.writer
      unfold WriterSound at writer ⊢
      cases writing : s.writer with
      | idle => trivial
      | loadOut data len inpos => simpa only [writing] using writer
      | copy t =>
        simp only [writing] at writer ⊢
        refine ⟨writer.1, ?_⟩
        have room := writer.2
        rw [length]
        omega
    reader := trivial }

theorem Sound.readStoreOut (sound : Sound s) {t : Transfer} (reading : s.reader = .copy t) (finished : t.Finished) :
    Sound { s with uOut := t.pos + t.len, reader := .idle, consumed := s.consumed ++ t.bytes } := by
  have reader := sound.reader
  rw [ReaderSound, reading] at reader
  obtain ⟨moves, unread⟩ := reader
  refine sound.advance unread ?_ (window_eq_map ?_).symm
  · rw [moves.pos]
    apply BitVec.eq_of_toNat_eq
    simp [BitVec.toNat_add]
  · intro i inside
    have accepted := moves.done i inside (finished i inside)
    rw [sound.accepted_getElem? (by omega)] at accepted
    exact Option.some.inj accepted

theorem Sound.resetStore (sound : Sound s) {inpos : BufferSize} (resetting : s.reader = .resetStore inpos) :
    Sound { s with
      uOut := inpos
      reader := .idle
      consumed := s.consumed ++ s.unread.take (inpos - s.uOut).toNat } := by
  have reader := sound.reader
  rw [ReaderSound, resetting] at reader
  obtain ⟨k, counts, below⟩ := reader
  have bound := sound.size.le
  have fits := sound.fits
  refine sound.advance below counts ?_
  rw [counts, sound.uOut, distance_toNat (Nat.le_add_right _ _) (by omega), Nat.add_sub_cancel_left, sound.unread_eq.2]
  exact window_take below

theorem Step.sound (taken : Step s s') (sound : Sound s) : Sound s' := by
  cases taken with
  | writeData data len idle => exact { sound with writer := rfl }
  | writeLoadOut data len inpos loading =>
    have writer := sound.writer
    rw [WriterSound, loading] at writer
    rw [writer]
    exact { sound with writer := sound.beginWrite data len }
  | writeCopy t i writing ready => exact sound.writeCopy writing ready
  | writeStoreIn t writing finished => exact sound.writeStoreIn writing finished
  | readData data len idle => exact { sound with reader := rfl }
  | readLoadIn data len outpos loading =>
    have reader := sound.reader
    rw [ReaderSound, loading] at reader
    rw [reader]
    exact { sound with reader := sound.beginRead data len }
  | readCopy t i reading ready => exact sound.readCopy reading ready
  | readStoreOut t reading finished => exact sound.readStoreOut reading finished
  | resetOut idle => exact { sound with reader := trivial }
  | resetLoadIn outpos loading =>
    have whole : s.consumed.length + (s.accepted.length - s.consumed.length) = s.accepted.length := by
      have := sound.ordered
      omega
    refine { sound with reader := ⟨s.accepted.length - s.consumed.length, ?_, whole.le⟩ }
    exact sound.uIn.trans (congrArg _ whole.symm)
  | resetStore inpos resetting => exact sound.resetStore resetting

theorem sound_of_reachable {size : BufferSize} (reached : Reachable size s) : Sound s := by
  refine Transition.Reachable.invariant ?_ (fun _ _ _ sound taken => taken.sound sound) reached
  rintro _ ⟨junk, rfl⟩
  exact new_sound size junk

/-! ### The queue -/

/-- The cells a step of the writing thread may store to. -/
def stores (s : RingBufferSpsc) : Set Nat :=
  match s.writer with
  | .copy t => {cell | ∃ i, t.Ready s.uSize i ∧ cell = t.cell s.uSize i}
  | _ => ∅

/-- The cells that a `ReadData` in progress still has to copy. -/
def fetches (s : RingBufferSpsc) : Set Nat :=
  match s.reader with
  | .copy t => {cell | ∃ i < t.len.toNat, i ∉ t.copied ∧ cell = t.cell s.uSize i}
  | _ => ∅

/-- What the reader loads is unread. -/
theorem Sound.fetched (sound : Sound s) {cell : Nat} (fetched : cell ∈ s.fetches) :
    cell ∈ s.unreadCells ∧ cell < s.uSize.toNat := by
  have reader := sound.reader
  have ordered := sound.ordered
  have fits := sound.fits
  obtain ⟨cells, _⟩ := sound.unread_eq
  unfold RingBufferSpsc.fetches at fetched
  unfold ReaderSound at reader
  split at fetched
  · rename_i t reading
    simp only [reading] at reader
    obtain ⟨i, inside, _, rfl⟩ := fetched
    obtain ⟨moves, below⟩ := reader
    have place := moves.cell sound.size (by omega) inside
    rw [place, cells]
    refine ⟨List.mem_map.mpr ⟨s.consumed.length + i, ?_, rfl⟩, Nat.mod_lt _ (by omega)⟩
    rw [List.mem_range'_1]
    omega
  · simp at fetched

/-- What the writer stores to is not unread. -/
theorem Sound.stored (sound : Sound s) {cell : Nat} (stored : cell ∈ s.stores) :
    cell < s.uSize.toNat ∧ cell ∉ s.unreadCells := by
  have writer := sound.writer
  have ordered := sound.ordered
  have fits := sound.fits
  obtain ⟨cells, _⟩ := sound.unread_eq
  unfold RingBufferSpsc.stores at stored
  unfold WriterSound at writer
  split at stored
  · rename_i t writing
    simp only [writing] at writer
    obtain ⟨i, ready, rfl⟩ := stored
    obtain ⟨moves, room⟩ := writer
    have inside := ready.1
    have place := moves.cell sound.size (by omega) inside
    rw [place]
    refine ⟨Nat.mod_lt _ (by omega), ?_⟩
    rw [cells]
    intro member
    obtain ⟨j, unread, same⟩ := List.mem_map.mp member
    rw [List.mem_range'_1] at unread
    have := cell_injective (by omega) (by omega) same
    omega
  · simp at stored

/-- A finished copy has the first unread bytes. -/
theorem Sound.copied (sound : Sound s) {t : Transfer} (reading : s.reader = .copy t) (finished : t.Finished) :
    t.bytes = s.unread.take t.len.toNat := by
  have reader := sound.reader
  obtain ⟨_, unread⟩ := sound.unread_eq
  rw [ReaderSound, reading] at reader
  obtain ⟨moves, below⟩ := reader
  rw [unread, window_take below]
  refine (window_eq_map ?_).symm
  intro i inside
  have accepted := moves.done i inside (finished i inside)
  rw [sound.accepted_getElem? (by omega)] at accepted
  exact Option.some.inj accepted

theorem unread_length (s : RingBufferSpsc) : s.unread.length = (s.uIn - s.uOut).toNat := by
  rw [unread, unreadCells, List.length_map, List.length_map, List.length_range]

/-- The amount that `WriteData` settles on with its load of `m_uOut`. -/
theorem Sound.putting (sound : Sound s) {data : Nat → Byte} {len inpos : BufferSize} (loading : s.writer = .loadOut data len inpos) :
    ∃ n : BufferSize, n.toNat = min (s.uSize.toNat - s.unread.length) len.toNat ∧
      s.beginWrite data len inpos s.uOut = if n == 0 then .idle else .copy ⟨data, n, inpos, ∅⟩ := by
  have writer := sound.writer
  rw [WriterSound, loading] at writer
  have ordered := sound.ordered
  have bound := sound.size.le
  have fits := sound.fits
  have unread : s.unread.length = s.accepted.length - s.consumed.length := by
    rw [unread_length, sound.uIn, sound.uOut, distance_toNat ordered (by omega)]
  refine ⟨stdMin (s.uSize - inpos + s.uOut) len, ?_, rfl⟩
  rw [stdMin_toNat, show inpos = s.uIn from writer, sound.avail_toNat, unread]

/-- The amount that `ReadData` settles on with its load of `m_uIn`. -/
theorem Sound.taking (sound : Sound s) {data : Nat → Byte} {len outpos : BufferSize} (loading : s.reader = .loadIn data len outpos) :
    ∃ n : BufferSize, n.toNat = min s.unread.length len.toNat ∧
      RingBufferSpsc.beginRead data len outpos s.uIn = if n == 0 then .idle else .copy ⟨data, n, outpos, ∅⟩ := by
  have reader := sound.reader
  rw [ReaderSound, loading] at reader
  refine ⟨stdMin (s.uIn - outpos) len, ?_, rfl⟩
  rw [stdMin_toNat, show outpos = s.uOut from reader, unread_length]

/-- What was accepted is what was consumed and what is unread, a call settles on
    as many bytes as are asked for and there is room for or are unread, a
    `ReadData` about to return has fetched the next unread bytes, and no byte is
    stored to a cell that is unread or still to be copied, or outside the buffer. -/
structure Fifo (s : RingBufferSpsc) : Prop where
  stream : s.accepted = s.consumed ++ s.unread
  putting : ∀ data len inpos, s.writer = .loadOut data len inpos →
    ∃ n : BufferSize, n.toNat = min (s.uSize.toNat - s.unread.length) len.toNat ∧
      s.beginWrite data len inpos s.uOut = if n == 0 then .idle else .copy ⟨data, n, inpos, ∅⟩
  taking : ∀ data len outpos, s.reader = .loadIn data len outpos →
    ∃ n : BufferSize, n.toNat = min s.unread.length len.toNat ∧
      beginRead data len outpos s.uIn = if n == 0 then .idle else .copy ⟨data, n, outpos, ∅⟩
  readData : ∀ t, s.reader = .copy t → t.Finished → t.bytes = s.unread.take t.len.toNat
  stores : ∀ cell ∈ s.stores, cell < s.uSize.toNat ∧ cell ∉ s.unreadCells ∧ cell ∉ s.fetches
  fetches : ∀ cell ∈ s.fetches, cell < s.uSize.toNat

theorem spsc_fifo (size : BufferSize) (s : RingBufferSpsc) (reached : Reachable size s) : Fifo s := by
  have sound := sound_of_reachable reached
  obtain ⟨_, unread⟩ := sound.unread_eq
  constructor
  · exact unread ▸ sound.stream
  · exact fun _ _ _ => sound.putting
  · exact fun _ _ _ => sound.taking
  · exact fun t reading finished => sound.copied reading finished
  · intro cell stored
    obtain ⟨inside, apart⟩ := sound.stored stored
    exact ⟨inside, apart, fun fetched => apart (sound.fetched fetched).1⟩
  · exact fun cell fetched => (sound.fetched fetched).2

def oneTransfer (byte : Byte) (pos : BufferSize) : Transfer := ⟨fun _ => byte, 1, pos, ∅⟩

/-- Two cells, and one byte written. -/
def oneByte : RingBufferSpsc :=
  { new 2 fun _ => 0 with pBuffer := Function.update (fun _ => 0) 0 7, uIn := 1, accepted := [7] }

theorem oneByte_reachable : Reachable 2 oneByte := by
  have loaded : Reachable 2 { new 2 fun _ => 0 with writer := .copy (oneTransfer 7 0) } :=
    Transition.Reachable.next (.next (.start ⟨fun _ => 0, rfl⟩) (.writeData (fun _ => 7) 1 rfl))
      (.writeLoadOut (fun _ => 7) 1 0 rfl)
  have copied := Transition.Reachable.next loaded
    (.writeCopy (oneTransfer 7 0) 0 rfl ⟨by decide, by simp [oneTransfer], .inl (by decide)⟩)
  have stored := Transition.Reachable.next copied (.writeStoreIn { oneTransfer 7 0 with copied := {0} } rfl
    fun i inside => Finset.mem_singleton.mpr (Nat.lt_one_iff.mp inside))
  exact stored

/-- The byte is read, and the next one is being written. -/
theorem one_byte_fifo : ∃ s t u, Reachable 2 s ∧ s.accepted = [7] ∧ s.writer = .copy t ∧ s.reader = .copy u ∧
    u.bytes = [7] ∧ Fifo s := by
  have reading : Reachable 2 { oneByte with reader := .copy (oneTransfer 0 0) } :=
    Transition.Reachable.next (.next oneByte_reachable (.readData (fun _ => 0) 1 rfl)) (.readLoadIn (fun _ => 0) 1 0 rfl)
  have called := Transition.Reachable.next reading (.writeData (fun _ => 8) 1 rfl)
  have writing := Transition.Reachable.next called (.writeLoadOut (fun _ => 8) 1 1 rfl)
  have fetched := Transition.Reachable.next writing
    (.readCopy (oneTransfer 0 0) 0 rfl ⟨by decide, by simp [oneTransfer], .inl (by decide)⟩)
  exact ⟨_, oneTransfer 8 1, _, fetched, rfl, rfl, rfl, rfl, spsc_fifo 2 _ fetched⟩

end RingBufferSpsc

end LiteServer.Net
