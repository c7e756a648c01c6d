import LiteServer.Net.RingBufferBase

/-!
`RingBuffer` and `RingBufferDN`: the same ring buffer under two kinds of lock.
A call holds the lock from its first access to its last, so calls are single
steps; `none` stands for a `memcpy` that leaves the `m_uSize` cells.
-/
namespace LiteServer.Net
open Ring

inductive AtomSpinLock | mk
inductive SpinLock | mk

/-- `Lock` only names the class of `m_Lock`. -/
structure LockedRing (Lock : Type) where
  uSize : BufferSize
  pBuffer : Nat → Byte
  uIn : BufferSize
  uOut : BufferSize

abbrev RingBuffer := LockedRing AtomSpinLock
abbrev RingBufferDN := LockedRing SpinLock

/-- `std::min`. -/
def stdMin (a b : BufferSize) : BufferSize := if b < a then b else a

/-- `memcpy` into the buffer. -/
def memcpyIn (size : BufferSize) (buffer : Nat → Byte) (at_ : BufferSize) (data : Nat → Byte) (from_ n : BufferSize) :
    Option (Nat → Byte) :=
  if at_.toNat + n.toNat ≤ size.toNat then some (copy buffer at_.toNat data from_.toNat n.toNat) else none

/-- `memcpy` out of the buffer. -/
def memcpyOut (size : BufferSize) (data : Nat → Byte) (at_ : BufferSize) (buffer : Nat → Byte) (from_ n : BufferSize) :
    Option (Nat → Byte) :=
  if from_.toNat + n.toNat ≤ size.toNat then some (copy data at_.toNat buffer from_.toNat n.toNat) else none

namespace LockedRing
variable {Lock : Type}

/-- `junk` is what `new char[m_uSize]` finds in its cells. -/
def new (size : BufferSize) (junk : Nat → Byte) : LockedRing Lock := ⟨roundUpPowOfTwo size, junk, 0, 0⟩

def getSize (ring : LockedRing Lock) : BufferSize := ring.uSize
def getLen (ring : LockedRing Lock) : BufferSize := ring.uIn - ring.uOut
def getAvail (ring : LockedRing Lock) : BufferSize := ring.uSize - ring.uIn + ring.uOut
def isEmpty (ring : LockedRing Lock) : Bool := ring.uIn == ring.uOut
def isFull (ring : LockedRing Lock) : Bool := ring.uSize == ring.uIn - ring.uOut

def reset (ring : LockedRing Lock) : LockedRing Lock := { ring with uIn := 0, uOut := 0 }
def resetOut (ring : LockedRing Lock) : LockedRing Lock := { ring with uOut := ring.uIn }

/-- The result, the memory at `data` and the ring after the call. -/
def readData (ring : LockedRing Lock) (data : Nat → Byte) (len : BufferSize) :
    Option (BufferSize × (Nat → Byte) × LockedRing Lock) := do
  let len := stdMin (ring.uIn - ring.uOut) len
  let off := ring.uOut &&& (ring.uSize - 1)
  let tail := ring.uSize - off
  let copy1 := stdMin len tail
  let data ← memcpyOut ring.uSize data 0 ring.pBuffer off copy1
  let data ← memcpyOut ring.uSize data copy1 ring.pBuffer 0 (len - copy1)
  return (len, data, { ring with uOut := ring.uOut + len })

def writeData (ring : LockedRing Lock) (data : Nat → Byte) (len : BufferSize) :
    Option (BufferSize × LockedRing Lock) := do
  let len := stdMin (ring.uSize - ring.uIn + ring.uOut) len
  let off := ring.uIn &&& (ring.uSize - 1)
  let tail := ring.uSize - off
  let copy1 := stdMin len tail
  let buffer ← memcpyIn ring.uSize ring.pBuffer off data 0 copy1
  let buffer ← memcpyIn ring.uSize buffer 0 data copy1 (len - copy1)
  return (len, { ring with pBuffer := buffer, uIn := ring.uIn + len })

end LockedRing

/-! ### Runs -/

/-- A call with its arguments; `data` is the memory at the pointer passed. -/
inductive Call where
  | writeData (data : Nat → Byte) (len : BufferSize)
  | readData (data : Nat → Byte) (len : BufferSize)
  | resetOut
  | reset

/-- What a call returns, and the memory it wrote to. -/
inductive Answer where
  | wrote (len : Nat)
  | read (len : Nat) (data : Nat → Byte)
  | done

def LockedRing.call {Lock : Type} (ring : LockedRing Lock) : Call → Option (Answer × LockedRing Lock)
  | .writeData data len => do
    let (len, ring) ← ring.writeData data len
    return (.wrote len.toNat, ring)
  | .readData data len => do
    let (len, data, ring) ← ring.readData data len
    return (.read len.toNat data, ring)
  | .resetOut => some (.done, ring.resetOut)
  | .reset => some (.done, ring.reset)

def LockedRing.run {Lock : Type} (ring : LockedRing Lock) : List Call → Option (List Answer × LockedRing Lock)
  | [] => some ([], ring)
  | call :: calls => do
    let (answer, ring) ← ring.call call
    let (answers, ring) ← ring.run calls
    return (answer :: answers, ring)

/-! ### The queue it implements -/

/-- `data` with the bytes of a list stored from its start on. -/
def store (data : Nat → Byte) (bytes : List Byte) : Nat → Byte := fun i => bytes[i]?.getD (data i)

/-- A queue of at most `capacity` bytes. -/
def queueCall (capacity : Nat) (queue : List Byte) : Call → Answer × List Byte
  | .writeData data len =>
    let accepted := min len.toNat (capacity - queue.length)
    (.wrote accepted, queue ++ (List.range accepted).map data)
  | .readData data len =>
    let oldest := queue.take len.toNat
    (.read oldest.length (store data oldest), queue.drop len.toNat)
  | .resetOut => (.done, [])
  | .reset => (.done, [])

def queueRun (capacity : Nat) (queue : List Byte) : List Call → List Answer × List Byte
  | [] => ([], queue)
  | call :: calls =>
    let (answer, queue) := queueCall capacity queue call
    let (answers, queue) := queueRun capacity queue calls
    (answer :: answers, queue)

/-! ### Refinement -/

/-- The ring holds `queue` at the positions from `lo` to `hi`, which its
    indices count modulo 256. -/
structure LockedRing.Holds {Lock : Type} (ring : LockedRing Lock) (lo hi : Nat) (queue : List Byte) : Prop where
  size : Size ring.uSize
  uIn : ring.uIn = BitVec.ofNat 8 hi
  uOut : ring.uOut = BitVec.ofNat 8 lo
  ordered : lo ≤ hi
  fits : hi ≤ lo + ring.uSize.toNat
  none : ring.uSize = 0 → hi = 0
  queue : queue = window ring.pBuffer ring.uSize.toNat lo hi

section
variable {Lock : Type} {ring : LockedRing Lock} {lo hi : Nat} {queue : List Byte}

theorem stdMin_toNat (a b : BufferSize) : (stdMin a b).toNat = min a.toNat b.toNat := by
  unfold stdMin
  split <;> rename_i less <;> rw [BitVec.lt_def] at less <;> omega

/-- The number of positions between two indices. -/
theorem distance_toNat {lo hi : Nat} (ordered : lo ≤ hi) (near : hi < lo + 2 ^ 8) :
    (BitVec.ofNat 8 hi - BitVec.ofNat 8 lo).toNat = hi - lo := by
  rw [BitVec.toNat_sub, BitVec.toNat_ofNat, BitVec.toNat_ofNat]
  omega

namespace LockedRing

theorem Holds.length (holds : ring.Holds lo hi queue) : queue.length = hi - lo := by
  rw [holds.queue, window_length]

theorem Holds.getLen_toNat (holds : ring.Holds lo hi queue) : ring.getLen.toNat = queue.length := by
  have bound := holds.size.le
  have fits := holds.fits
  rw [LockedRing.getLen, holds.uIn, holds.uOut, distance_toNat holds.ordered (by omega), holds.length]

theorem Holds.getAvail_toNat (holds : ring.Holds lo hi queue) :
    ring.getAvail.toNat = ring.uSize.toNat - queue.length := by
  have bound := holds.size.le
  have fits := holds.fits
  have ordered := holds.ordered
  rw [LockedRing.getAvail, holds.uIn, holds.uOut, holds.length, BitVec.toNat_add, BitVec.toNat_sub, BitVec.toNat_ofNat,
    BitVec.toNat_ofNat]
  omega

/-- The offset of a position and the two pieces of a transfer of `len` cells
    from it on. Without cells the only position is zero. -/
theorem Holds.pieces (holds : ring.Holds lo hi queue) {index len : BufferSize} {position : Nat}
    (counts : index = BitVec.ofNat 8 position) (inside : position ≤ hi) (short : len.toNat ≤ ring.uSize.toNat) :
    let off := index &&& (ring.uSize - 1)
    let copy1 := stdMin len (ring.uSize - off)
    off.toNat = position % ring.uSize.toNat ∧
      copy1.toNat = min len.toNat (ring.uSize.toNat - position % ring.uSize.toNat) ∧
      (len - copy1).toNat = len.toNat - copy1.toNat ∧
      off.toNat + copy1.toNat ≤ ring.uSize.toNat ∧ (len - copy1).toNat ≤ ring.uSize.toNat := by
  intro off copy1
  have bound := holds.size.le
  have offset : off.toNat = position % ring.uSize.toNat ∧ off.toNat ≤ ring.uSize.toNat := by
    by_cases empty : ring.uSize = 0
    · have zero : position = 0 := by
        have := holds.none empty
        omega
      subst zero
      simp only [off, counts, empty]
      exact ⟨rfl, Nat.le_refl 0⟩
    · have cell : off.toNat = position % ring.uSize.toNat := holds.size.cell empty counts
      have positive : 0 < ring.uSize.toNat := Nat.pos_of_ne_zero fun zero => empty (BitVec.eq_of_toNat_eq zero)
      have below := Nat.mod_lt position positive
      omega
  have tail : (ring.uSize - off).toNat = ring.uSize.toNat - off.toNat := by
    rw [BitVec.toNat_sub]
    omega
  have first : copy1.toNat = min len.toNat (ring.uSize.toNat - off.toNat) := by rw [stdMin_toNat, tail]
  have second : (len - copy1).toNat = len.toNat - copy1.toNat := by
    rw [BitVec.toNat_sub]
    omega
  omega

theorem new_holds (size : BufferSize) (junk : Nat → Byte) : (new size junk : LockedRing Lock).Holds 0 0 [] where
  size := roundUpPowOfTwo_size size
  uIn := rfl
  uOut := rfl
  ordered := Nat.le_refl 0
  fits := Nat.zero_le _
  none := fun _ => rfl
  queue := by simp

theorem Holds.reset (holds : ring.Holds lo hi queue) : ring.reset.Holds 0 0 [] :=
  { holds with
    uIn := rfl
    uOut := rfl
    ordered := Nat.le_refl 0
    fits := Nat.zero_le _
    none := fun _ => rfl
    queue := by simp }

theorem Holds.resetOut (holds : ring.Holds lo hi queue) : ring.resetOut.Holds hi hi [] :=
  { holds with
    uOut := holds.uIn
    ordered := Nat.le_refl hi
    fits := Nat.le_add_right _ _
    queue := by simp }

theorem writeData_total_correct (holds : ring.Holds lo hi queue) (data : Nat → Byte) (len : BufferSize) :
    ∃ n ring', ring.writeData data len = some (n, ring') ∧
      n.toNat = min len.toNat (ring.uSize.toNat - queue.length) ∧ ring'.uSize = ring.uSize ∧
      ring'.Holds lo (hi + n.toNat) (queue ++ (List.range n.toNat).map data) := by
  let n := stdMin (ring.uSize - ring.uIn + ring.uOut) len
  have accepted : n.toNat = min len.toNat (ring.uSize.toNat - queue.length) := by
    rw [stdMin_toNat, show (ring.uSize - ring.uIn + ring.uOut).toNat = _ from holds.getAvail_toNat, Nat.min_comm]
  have fits := holds.fits
  have ordered := holds.ordered
  have length := holds.length
  have short : n.toNat ≤ ring.uSize.toNat := by omega
  obtain ⟨off, first, second, inTail, inHead⟩ := holds.pieces holds.uIn (Nat.le_refl hi) short
  let off' := ring.uIn &&& (ring.uSize - 1)
  let copy1 := stdMin n (ring.uSize - off')
  let buffer := copy (copy ring.pBuffer off'.toNat data 0 copy1.toNat) 0 data copy1.toNat (n - copy1).toNat
  have transferred : ring.writeData data len = some (n, { ring with pBuffer := buffer, uIn := ring.uIn + n }) := by
    simp only [LockedRing.writeData, memcpyIn]
    rw [if_pos inTail]
    simp only [Option.bind_eq_bind, Option.bind_some]
    rw [if_pos (by simpa using inHead)]
    rfl
  have split : (∀ i < n.toNat, buffer ((hi + i) % ring.uSize.toNat) = data i) ∧
      ∀ cell, (∀ i < n.toNat, cell ≠ (hi + i) % ring.uSize.toNat) → buffer cell = ring.pBuffer cell := by
    simp only [buffer, off', copy1, off, first, second]
    exact copy_in_split short
  refine ⟨n, _, transferred, accepted, rfl, ?_⟩
  exact { holds with
    uIn := by
      show ring.uIn + n = _
      rw [holds.uIn]
      apply BitVec.eq_of_toNat_eq
      simp [BitVec.toNat_add]
    ordered := by omega
    fits := by
      show hi + n.toNat ≤ lo + ring.uSize.toNat
      omega
    none := fun empty => by
      have zero := holds.none empty
      have size : ring.uSize.toNat = 0 := congrArg BitVec.toNat (show ring.uSize = 0 from empty)
      omega
    queue := by
      rw [holds.queue]
      exact (window_push ordered (by omega) split.1 split.2).symm }

theorem readData_total_correct (holds : ring.Holds lo hi queue) (data : Nat → Byte) (len : BufferSize) :
    ∃ n data' ring', ring.readData data len = some (n, data', ring') ∧
      n.toNat = min len.toNat queue.length ∧ data' = store data (queue.take len.toNat) ∧ ring'.uSize = ring.uSize ∧
      ring'.Holds (lo + n.toNat) hi (queue.drop len.toNat) := by
  let n := stdMin (ring.uIn - ring.uOut) len
  have oldest : n.toNat = min len.toNat queue.length := by
    rw [stdMin_toNat, show (ring.uIn - ring.uOut).toNat = _ from holds.getLen_toNat, Nat.min_comm]
  have fits := holds.fits
  have ordered := holds.ordered
  have length := holds.length
  have short : n.toNat ≤ ring.uSize.toNat := by omega
  obtain ⟨off, first, second, inTail, inHead⟩ := holds.pieces holds.uOut ordered short
  let off' := ring.uOut &&& (ring.uSize - 1)
  let copy1 := stdMin n (ring.uSize - off')
  let data' := copy (copy data 0 ring.pBuffer off'.toNat copy1.toNat) copy1.toNat ring.pBuffer 0 (n - copy1).toNat
  have transferred : ring.readData data len = some (n, data', { ring with uOut := ring.uOut + n }) := by
    simp only [LockedRing.readData, memcpyOut]
    rw [if_pos inTail]
    simp only [Option.bind_eq_bind, Option.bind_some]
    rw [if_pos (by simpa using inHead)]
    rfl
  have split : (∀ i < n.toNat, data' i = ring.pBuffer ((lo + i) % ring.uSize.toNat)) ∧
      ∀ i, n.toNat ≤ i → data' i = data i := by
    simp only [data', off', copy1, off, first, second]
    exact copy_out_split short
  refine ⟨n, _, _, transferred, oldest, ?_, rfl, ?_⟩
  · funext i
    rw [store, List.getElem?_take]
    by_cases inside : i < n.toNat
    · rw [split.1 i inside, if_pos (by omega)]
      simp [holds.queue, window_getElem, show i < hi - lo by omega]
    · rw [split.2 i (by omega)]
      by_cases asked : i < len.toNat
      · simp [asked, show queue.length ≤ i by omega]
      · simp [asked]
  · exact { holds with
      uOut := by
        show ring.uOut + n = _
        rw [holds.uOut]
        apply BitVec.eq_of_toNat_eq
        simp [BitVec.toNat_add]
      ordered := by omega
      fits := by
        show hi ≤ lo + n.toNat + ring.uSize.toNat
        omega
      queue := by
        rw [holds.queue]
        by_cases asked : len.toNat ≤ hi - lo
        · rw [show n.toNat = len.toNat by omega]
          exact window_drop (by omega)
        · rw [List.drop_eq_nil_of_le (by simp; omega), show lo + n.toNat = hi by omega, window_self] }

/-- A call answers and changes the ring as it answers and changes the queue. -/
theorem call_total_correct (holds : ring.Holds lo hi queue) (call : Call) :
    ∃ ring' lo' hi', ring.call call = some ((queueCall ring.uSize.toNat queue call).1, ring') ∧
      ring'.uSize = ring.uSize ∧ ring'.Holds lo' hi' (queueCall ring.uSize.toNat queue call).2 := by
  cases call with
  | writeData data len =>
    obtain ⟨n, ring', written, accepted, size, holds'⟩ := writeData_total_correct holds data len
    rw [accepted] at holds'
    exact ⟨ring', _, _, by simp [LockedRing.call, written, queueCall, accepted], size, holds'⟩
  | readData data len =>
    obtain ⟨n, data', ring', read, oldest, stored, size, holds'⟩ := readData_total_correct holds data len
    exact ⟨ring', _, _, by simp [LockedRing.call, read, queueCall, oldest, stored], size, holds'⟩
  | resetOut => exact ⟨ring.resetOut, hi, hi, rfl, rfl, holds.resetOut⟩
  | reset => exact ⟨ring.reset, 0, 0, rfl, rfl, holds.reset⟩

theorem run_total_correct (holds : ring.Holds lo hi queue) (calls : List Call) :
    ∃ ring' lo' hi', ring.run calls = some ((queueRun ring.uSize.toNat queue calls).1, ring') ∧
      ring'.uSize = ring.uSize ∧ ring'.Holds lo' hi' (queueRun ring.uSize.toNat queue calls).2 := by
  induction calls generalizing ring lo hi queue with
  | nil => exact ⟨ring, lo, hi, rfl, rfl, holds⟩
  | cons call calls ih =>
    obtain ⟨ring₁, lo₁, hi₁, called, size₁, holds₁⟩ := call_total_correct holds call
    obtain ⟨ring₂, lo₂, hi₂, ran, size₂, holds₂⟩ := ih holds₁
    rw [size₁] at ran holds₂ size₂
    exact ⟨ring₂, lo₂, hi₂, by simp [LockedRing.run, called, ran, queueRun], size₂, holds₂⟩

end LockedRing

end

/-- What the queries tell about the queue. -/
structure LockedRing.Reports {Lock : Type} (ring : LockedRing Lock) (queue : List Byte) : Prop where
  getLen : ring.getLen.toNat = queue.length
  getAvail : ring.getLen.toNat + ring.getAvail.toNat = ring.getSize.toNat
  isEmpty : ring.isEmpty ↔ ring.getLen = 0
  isFull : ring.isFull ↔ ring.getAvail = 0

theorem LockedRing.Holds.reports {Lock : Type} {ring : LockedRing Lock} {lo hi : Nat} {queue : List Byte}
    (holds : ring.Holds lo hi queue) : ring.Reports queue where
  getLen := holds.getLen_toNat
  getAvail := by
    have fits := holds.fits
    rw [holds.getLen_toNat, holds.getAvail_toNat, holds.length]
    show _ = ring.uSize.toNat
    omega
  isEmpty := by
    rw [LockedRing.isEmpty, LockedRing.getLen, beq_iff_eq]
    bv_omega
  isFull := by
    rw [LockedRing.isFull, LockedRing.getAvail, beq_iff_eq]
    bv_omega

/-- After any calls on a new ring of either kind, the answers are those of a
    queue of `m_uSize` bytes, every `memcpy` having stayed inside the cells. -/
theorem ring_buffers_refine_queue (size : BufferSize) (junk : Nat → Byte) (calls : List Call) :
    let (answers, queue) := queueRun (roundUpPowOfTwo size).toNat [] calls
    (∃ ring, (LockedRing.new size junk : RingBuffer).run calls = some (answers, ring) ∧ ring.Reports queue) ∧
      ∃ ring, (LockedRing.new size junk : RingBufferDN).run calls = some (answers, ring) ∧ ring.Reports queue := by
  constructor
  · obtain ⟨ring, _, _, ran, _, holds⟩ := LockedRing.run_total_correct (LockedRing.new_holds size junk) calls
    exact ⟨ring, ran, holds.reports⟩
  · obtain ⟨ring, _, _, ran, _, holds⟩ := LockedRing.run_total_correct (LockedRing.new_holds size junk) calls
    exact ⟨ring, ran, holds.reports⟩

end LiteServer.Net
