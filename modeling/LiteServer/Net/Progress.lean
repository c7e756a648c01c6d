import LiteServer.Net.RingBufferSpsc

/-!
No ring buffer wedges whose size `RoundUpPowOfTwo` can round up: while fewer
bytes are unread than were asked for a `WriteData` goes on, and a producer and
a consumer never wait for each other. From 129 on `m_uSize` is zero, and such a
buffer is empty and full at once.
-/
namespace LiteServer.Net

/-- Only a buffer without cells is full and empty. -/
theorem size_of_waits {uSize uIn uOut : BufferSize} (full : uSize == uIn - uOut) (empty : uIn == uOut) :
    uSize.toNat = 0 := by
  rw [beq_iff_eq] at full empty
  rw [full, empty, BitVec.sub_self]
  rfl

/-! ### Under a lock -/

/-- How many bytes are unread after an answer. -/
def unreadAfter (unread : Nat) : Answer → Nat
  | .wrote len => unread + len
  | .read len _ => unread - len
  | .done => 0

namespace LockedRing

/-- `WriteData` accepts a byte while fewer than `n` are unread, and no producer
    waits for a consumer that waits for it. -/
structure Flows {Lock : Type} (ring : LockedRing Lock) (n unread : Nat) : Prop where
  writeData : ∀ data len, 1 ≤ len.toNat → unread < n →
    ∃ accepted ring', ring.writeData data len = some (accepted, ring') ∧ 1 ≤ accepted.toNat
  waits : ¬ (ring.isFull ∧ ring.isEmpty)

/-- Whatever was called before on a new ring of the requested size. -/
def NeverWedges (Lock : Type) (size : BufferSize) : Prop :=
  ∀ junk calls, ∃ answers ring, (new size junk : LockedRing Lock).run calls = some (answers, ring) ∧
    ring.Flows size.toNat (answers.foldl unreadAfter 0)

end LockedRing

theorem queueCall_unread (capacity : Nat) (queue : List Byte) (call : Call) :
    (queueCall capacity queue call).2.length = unreadAfter queue.length (queueCall capacity queue call).1 := by
  cases call with
  | writeData data len => simp [queueCall, unreadAfter]
  | readData data len =>
    simp only [queueCall, unreadAfter, List.length_drop, List.length_take]
    omega
  | resetOut => rfl
  | reset => rfl

theorem queueRun_unread (capacity : Nat) (queue : List Byte) (calls : List Call) :
    (queueRun capacity queue calls).2.length = (queueRun capacity queue calls).1.foldl unreadAfter queue.length := by
  induction calls generalizing queue with
  | nil => rfl
  | cons call calls ih =>
    simp only [queueRun, List.foldl_cons]
    rw [← queueCall_unread]
    exact ih _

namespace LockedRing
variable {Lock : Type} {ring : LockedRing Lock} {lo hi n : Nat} {queue : List Byte}

theorem Holds.flows (holds : ring.Holds lo hi queue) (positive : 1 ≤ n) (covered : n ≤ ring.uSize.toNat) :
    ring.Flows n queue.length where
  writeData data len some below := by
    obtain ⟨accepted, ring', written, number, _⟩ := writeData_total_correct holds data len
    exact ⟨accepted, ring', written, by omega⟩
  waits both := by
    have zero := size_of_waits both.1 both.2
    omega

theorem neverWedges_iff {size : BufferSize} (positive : 1 ≤ size.toNat) :
    NeverWedges Lock size ↔ size.toNat ≤ 128 := by
  constructor
  · intro flows
    refine Nat.le_of_not_lt fun high => ?_
    obtain ⟨_, ring, ran, flow⟩ := flows (fun _ => 0) []
    obtain ⟨rfl, rfl⟩ := Prod.mk.inj (Option.some.inj ran)
    exact flow.waits ⟨beq_iff_eq.mpr ((roundUpPowOfTwo_high high).trans (BitVec.sub_self 0).symm), rfl⟩
  · intro low junk calls
    obtain ⟨ring, lo, hi, ran, size', holds⟩ := run_total_correct (new_holds size junk) calls
    refine ⟨_, ring, ran, ?_⟩
    have flows := holds.flows positive (size' ▸ roundUpPowOfTwo_le positive low)
    rw [queueRun_unread] at flows
    exact flows

end LockedRing

/-! ### Between two threads -/

namespace RingBufferSpsc
/-- A step of a thread, or a `Reset` while neither is in a call. -/
inductive Moved : RingBufferSpsc → RingBufferSpsc → Prop where
  | step {s s'} : Step s s' → Moved s s'
  | reset {s} : s.writer = .idle → s.reader = .idle → Moved s s.reset

/-- A `WriteData` that is about to load `m_uOut` while fewer than `n` bytes are
    unread will transfer at least one, and no thread waits for the other while
    that one waits for it. -/
structure Flows (s : RingBufferSpsc) (n : Nat) : Prop where
  writeData : ∀ data len inpos, s.writer = .loadOut data len inpos → 1 ≤ len.toNat →
    s.accepted.length - s.consumed.length < n →
    ∃ t, s.beginWrite data len inpos s.uOut = .copy t ∧ 1 ≤ t.len.toNat
  waits : ¬ (s.isFull ∧ s.isEmpty)

def NeverWedges (size : BufferSize) : Prop :=
  ∀ s, Transition.Reachable (fun s => ∃ junk, s = new size junk) Moved s → s.Flows size.toNat

variable {size : BufferSize} {s s' : RingBufferSpsc}

theorem Sound.reset (sound : Sound s) (idle : s.writer = .idle) (idle' : s.reader = .idle) : Sound s.reset where
  size := sound.size
  uIn := rfl
  uOut := rfl
  fits := Nat.zero_le _
  none := fun _ => rfl
  stream := by simp [RingBufferSpsc.reset]
  writer := by simp [WriterSound, RingBufferSpsc.reset, idle]
  reader := by simp [ReaderSound, RingBufferSpsc.reset, idle']

theorem Step.uSize (taken : Step s s') : s'.uSize = s.uSize := by cases taken <;> rfl

theorem Moved.sound (moved : Moved s s') (sound : Sound s) : Sound s' := by
  cases moved with
  | step taken => exact taken.sound sound
  | reset idle idle' => exact sound.reset idle idle'

theorem Moved.uSize (moved : Moved s s') : s'.uSize = s.uSize := by
  cases moved with
  | step taken => exact taken.uSize
  | reset => rfl

theorem Sound.flows {n : Nat} (sound : Sound s) (positive : 1 ≤ n) (covered : n ≤ s.uSize.toNat) : s.Flows n where
  writeData data len inpos loading some below := by
    have writer := sound.writer
    rw [WriterSound, loading] at writer
    subst writer
    have taken : (stdMin (s.uSize - s.uIn + s.uOut) len).toNat =
        min (s.uSize.toNat - (s.accepted.length - s.consumed.length)) len.toNat := by
      rw [stdMin_toNat, sound.avail_toNat]
    have set : ¬ (stdMin (s.uSize - s.uIn + s.uOut) len == 0) := by
      intro zero
      have none := congrArg BitVec.toNat (beq_iff_eq.mp zero)
      rw [taken] at none
      simp only [BitVec.ofNat_eq_ofNat, BitVec.toNat_ofNat, Nat.zero_mod] at none
      omega
    refine ⟨_, if_neg set, ?_⟩
    show 1 ≤ (stdMin (s.uSize - s.uIn + s.uOut) len).toNat
    omega
  waits both := by
    have zero := size_of_waits both.1 both.2
    omega

theorem neverWedges_iff (positive : 1 ≤ size.toNat) : NeverWedges size ↔ size.toNat ≤ 128 := by
  constructor
  · intro flows
    refine Nat.le_of_not_lt fun high => ?_
    have flow := flows (new size fun _ => 0) (.start ⟨_, rfl⟩)
    exact flow.waits ⟨beq_iff_eq.mpr ((roundUpPowOfTwo_high high).trans (BitVec.sub_self 0).symm), rfl⟩
  · intro low s reached
    have kept : Sound s ∧ s.uSize = roundUpPowOfTwo size := by
      refine Transition.Reachable.invariant (P := fun s => Sound s ∧ s.uSize = roundUpPowOfTwo size) ?_ ?_ reached
      · rintro _ ⟨junk, rfl⟩
        exact ⟨new_sound size junk, rfl⟩
      · exact fun _ _ _ before moved => ⟨moved.sound before.1, moved.uSize.trans before.2⟩
    exact kept.1.flows positive (kept.2 ▸ roundUpPowOfTwo_le positive low)

end RingBufferSpsc

theorem ring_buffers_wedge_iff (size : BufferSize) (positive : 1 ≤ size.toNat) :
    (LockedRing.NeverWedges AtomSpinLock size ↔ size.toNat ≤ 128) ∧
      (LockedRing.NeverWedges SpinLock size ↔ size.toNat ≤ 128) ∧
      (RingBufferSpsc.NeverWedges size ↔ size.toNat ≤ 128) :=
  ⟨LockedRing.neverWedges_iff positive, LockedRing.neverWedges_iff positive, RingBufferSpsc.neverWedges_iff positive⟩

theorem hundred_bytes_flow : RingBufferSpsc.NeverWedges 100 :=
  (ring_buffers_wedge_iff 100 (by decide)).2.2.mpr (by decide)

theorem two_hundred_bytes_wedge : ¬ ∀ size : BufferSize, 1 ≤ size.toNat →
    LockedRing.NeverWedges AtomSpinLock size ∧ LockedRing.NeverWedges SpinLock size ∧
      RingBufferSpsc.NeverWedges size := by
  intro flows
  obtain ⟨_, ring, ran, flow⟩ := (flows 200 (by decide)).1 (fun _ => 0) []
  obtain ⟨rfl, rfl⟩ := Prod.mk.inj (Option.some.inj ran)
  exact flow.waits ⟨rfl, rfl⟩

end LiteServer.Net
