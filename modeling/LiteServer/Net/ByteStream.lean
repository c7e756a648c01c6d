import LiteServer.Net.Outcomes
import Mathlib.Algebra.Order.BigOperators.Group.List
import Mathlib.Algebra.Order.Group.Nat

/-!
The byte stream of a session: what its reads returned, against what `OnData`
was given. Each read fills the buffer of `PostRead` from its start, so of a byte
position only the last chunk that is long enough is left.
-/
namespace LiteServer.Net

theorem flatMap_inj_of_length_le {α β : Type} {f g : α → List β} {l : List α}
    (shorter : ∀ x ∈ l, (f x).length ≤ (g x).length) (same : l.flatMap f = l.flatMap g) : ∀ x ∈ l, f x = g x := by
  induction l with
  | nil => nofun
  | cons x l ih =>
    obtain ⟨here, rest⟩ := List.forall_mem_cons.mp shorter
    rw [List.flatMap_cons, List.flatMap_cons] at same
    have total := congrArg List.length same
    have later : (l.flatMap f).length ≤ (l.flatMap g).length := by
      rw [List.length_flatMap, List.length_flatMap]
      exact List.sum_le_sum rest
    simp only [List.length_append] at total
    obtain ⟨first, others⟩ := List.append_inj same (by omega)
    exact List.forall_mem_cons.mpr ⟨first, ih rest others⟩

/-- One wake-up of a session: what the reads returned, and how they ended. -/
structure Wake where
  chunks : List (List Byte)
  ending : ReadEnd
  deriving DecidableEq, Repr

/-- The byte at a position of the last chunk that has one. -/
def lastByte (chunks : List (List Byte)) (i : Nat) : Byte := (chunks.reverse.findSome? (·[i]?)).getD 0

/-- The chunks of a wake-up overwrite no byte that another would show: there
    are none before an error, they fit into the buffer together, and each of
    their bytes is that of the last chunk long enough to have one there. -/
def Wake.Kept (wake : Wake) : Prop :=
  if wake.ending = .error then wake.chunks = []
  else wake.chunks.flatten.length ≤ bufferSize ∧
    ∀ i (inside : i < wake.chunks.flatten.length), wake.chunks.flatten[i] = lastByte wake.chunks i

/-- The bytes that `OnData` was given. -/
def handedOver (events : List Event) : List Byte :=
  events.flatMap fun
    | .onData _ _ data size => data.take size.toNat
    | _ => []

/-- The size that `OnData` was given is inside the buffer. -/
def Event.Inside : Event → Prop
  | .onData _ _ data size => 0 ≤ size ∧ size ≤ data.length
  | _ => True

/-- The bytes handed over are those read, all from inside the buffer. -/
def Intact (wakes : List Wake) (events : List Event) : Prop :=
  (∀ event ∈ events, event.Inside) ∧ handedOver events = wakes.flatMap fun wake => wake.chunks.flatten

/-! ### The loop -/

section
variable {chunks : List (List Byte)}

theorem readLoop_snoc (chunk : List Byte) : readLoop (chunks ++ [chunk]) =
    (receive (readLoop chunks).1 chunk, (readLoop chunks).2 + BitVec.ofNat 32 chunk.length) := by
  simp [readLoop]

theorem receive_length {data chunk : List Byte} (fits : chunk.length ≤ data.length) :
    (receive data chunk).length = data.length := by
  simp [receive]
  omega

theorem receive_getElem? {data chunk : List Byte} {i : Nat} :
    (receive data chunk)[i]? = if i < chunk.length then chunk[i]? else data[i]? := by
  by_cases inside : i < chunk.length
  · simp [receive, inside, List.getElem?_append_left]
  · rw [if_neg inside, receive, List.getElem?_append_right (by omega), List.getElem?_drop]
    congr 1
    omega

theorem readLoop_size : (readLoop chunks).2 = BitVec.ofNat 32 chunks.flatten.length := by
  induction chunks using List.reverseRecOn with
  | nil => rfl
  | append_singleton chunks chunk ih =>
    rw [readLoop_snoc, ih, List.flatten_append, List.length_append, ← BitVec.ofNat_add]
    simp

theorem readLoop_length (fits : ∀ chunk ∈ chunks, chunk.length ≤ bufferSize) : (readLoop chunks).1.length = bufferSize := by
  induction chunks using List.reverseRecOn with
  | nil => simp [readLoop, emptyBuffer]
  | append_singleton chunks chunk ih =>
    have before := ih fun c member => fits c (List.mem_append_left _ member)
    rw [readLoop_snoc, receive_length (by rw [before]; exact fits chunk (by simp)), before]

theorem readLoop_getElem? {i : Nat} (inside : i < bufferSize) : (readLoop chunks).1[i]? = some (lastByte chunks i) := by
  induction chunks using List.reverseRecOn with
  | nil => simp [readLoop, emptyBuffer, lastByte, inside]
  | append_singleton chunks chunk ih =>
    rw [readLoop_snoc, receive_getElem?]
    by_cases long : i < chunk.length
    · simp [lastByte, long]
    · simp [lastByte, long, ih]

/-- The bytes handed over after a loop that fits are those of the chunks iff
    each is the last of its position. -/
theorem readLoop_take_iff (fits : chunks.flatten.length ≤ bufferSize) :
    (readLoop chunks).1.take chunks.flatten.length = chunks.flatten ↔
      ∀ i (inside : i < chunks.flatten.length), chunks.flatten[i] = lastByte chunks i := by
  constructor
  · intro same i inside
    have byte := congrArg (·[i]?) same
    simp only [List.getElem?_take_of_lt inside, List.getElem?_eq_getElem inside] at byte
    rw [readLoop_getElem? (by omega)] at byte
    exact (Option.some.inj byte).symm
  · intro last
    refine List.ext_getElem? ?_
    intro i
    by_cases inside : i < chunks.flatten.length
    · rw [List.getElem?_take_of_lt inside, readLoop_getElem? (by omega), List.getElem?_eq_getElem inside, last i inside]
    · rw [List.getElem?_take_eq_none (by omega), List.getElem?_eq_none (by omega)]

end

/-! ### Wake-ups -/

namespace Wake
variable {wake : Wake}

/-- The size that `OnData` is given. -/
def size (wake : Wake) : Int := (readLoop wake.chunks).2.toInt

def handed (wake : Wake) : List Byte :=
  if wake.ending = .error then [] else (readLoop wake.chunks).1.take wake.size.toNat

def Inside (wake : Wake) : Prop :=
  wake.ending ≠ .error → 0 ≤ wake.size ∧ wake.size ≤ (readLoop wake.chunks).1.length

theorem size_le (positive : 0 ≤ wake.size) : wake.size.toNat ≤ wake.chunks.flatten.length := by
  have unsigned : wake.size = (wake.chunks.flatten.length % 2 ^ 32 : Nat) := by
    have signed := BitVec.toInt_eq_toNat_cond (readLoop wake.chunks).2
    rw [← size] at signed
    rw [readLoop_size, BitVec.toNat_ofNat] at signed
    split at signed <;> omega
  have less := Nat.mod_le wake.chunks.flatten.length (2 ^ 32)
  omega

theorem size_of_le (fits : wake.chunks.flatten.length ≤ bufferSize) : wake.size = wake.chunks.flatten.length := by
  have small : wake.chunks.flatten.length < 2 ^ 31 := lt_of_le_of_lt fits (by decide)
  rw [size, readLoop_size, BitVec.toInt_ofNat']
  exact Int.bmod_eq_of_le (by omega) (by omega)

theorem handed_length_le (inside : wake.Inside) : wake.handed.length ≤ wake.chunks.flatten.length := by
  unfold handed
  split
  · exact Nat.zero_le _
  · rename_i delivered
    exact (List.length_take_le ..).trans (size_le (inside delivered).1)

theorem kept_iff (read : ∀ chunk ∈ wake.chunks, chunk ≠ [] ∧ chunk.length ≤ bufferSize) :
    wake.Kept ↔ wake.Inside ∧ wake.handed = wake.chunks.flatten := by
  have buffer := readLoop_length fun chunk member => (read chunk member).2
  by_cases error : wake.ending = .error
  · simp only [Kept, Inside, handed, error, if_true, ne_eq, not_true_eq_false, false_implies, true_and]
    rw [eq_comm (a := []), List.flatten_eq_nil_iff]
    constructor
    · simp_all
    · intro empty
      refine List.eq_nil_iff_forall_not_mem.mpr fun chunk member => (read chunk member).1 (empty chunk member)
  · simp only [Kept, Inside, handed, error, if_false, ne_eq, not_false_eq_true, true_implies, buffer]
    constructor
    · rintro ⟨fits, last⟩
      rw [size_of_le fits, Int.toNat_natCast]
      exact ⟨⟨by omega, by omega⟩, (readLoop_take_iff fits).mpr last⟩
    · rintro ⟨⟨positive, within⟩, same⟩
      have length := congrArg List.length same
      rw [List.length_take, buffer] at length
      have fits : wake.chunks.flatten.length ≤ bufferSize := by omega
      rw [size_of_le fits, Int.toNat_natCast] at same
      exact ⟨fits, (readLoop_take_iff fits).mp same⟩

theorem kept_of_one_chunk {chunk : List Byte} (fits : chunk.length ≤ bufferSize) {ending : ReadEnd}
    (delivered : ending ≠ .error) : Kept ⟨[chunk], ending⟩ := by
  rw [Kept, if_neg delivered]
  refine ⟨by simpa using fits, ?_⟩
  intro i inside
  have short : i < chunk.length := by simpa using inside
  simp [lastByte, short]

end Wake

namespace NetService
variable {p : SessionPtr} {wakes : List Wake} {events : List Event}

/-- The wake-ups of a session, each handled by `PostRead` in whatever state the
    run of the service had come to, and the events of these calls. -/
inductive Reads (p : SessionPtr) : List Wake → List Event → Prop where
  | start : Reads p [] []
  | wake {wakes events more} {wake : Wake} {s s' : NetService} (before : Reads p wakes events)
      (reached : Reachable (fun _ _ => True) s) (taken : s.postRead p wake.chunks wake.ending = some s')
      (emitted : s'.trace = s.trace ++ more) : Reads p (wakes ++ [wake]) (events ++ more)

theorem postRead_events {wake : Wake} {s s' : NetService} {more : List Event}
    (taken : s.postRead p wake.chunks wake.ending = some s') (emitted : s'.trace = s.trace ++ more) :
    handedOver more = wake.handed ∧ ((∀ event ∈ more, event.Inside) ↔ wake.Inside) := by
  obtain ⟨session, found, _⟩ := Option.bind_eq_some_iff.mp taken
  rcases postRead_cases found taken with ⟨error, _, rfl⟩ | ⟨error, _, rfl⟩ | ⟨delivered, rfl⟩
  · cases List.append_cancel_left (show s.trace ++ _ = _ from emitted)
    simp [handedOver, Wake.handed, Wake.Inside, Event.Inside, error]
  · cases List.append_cancel_left (show s.trace ++ _ = _ from emitted)
    simp [handedOver, Wake.handed, Wake.Inside, Event.Inside, error]
  · cases List.append_cancel_left (show s.trace ++ _ = _ from emitted)
    simp [handedOver, Wake.handed, Wake.Inside, Event.Inside, Wake.size, delivered]

theorem Reads.handedOver_eq (reads : Reads p wakes events) :
    handedOver events = wakes.flatMap Wake.handed ∧ ((∀ event ∈ events, event.Inside) ↔ ∀ wake ∈ wakes, wake.Inside) := by
  induction reads with
  | start => simp [handedOver]
  | @wake wakes events more wake s s' _ _ taken emitted ih =>
    obtain ⟨bytes, sizes⟩ := postRead_events taken emitted
    constructor
    · rw [handedOver, List.flatMap_append, ← handedOver, ← handedOver, ih.1, bytes, List.flatMap_append]
      simp
    · rw [List.forall_mem_append, ih.2, sizes, List.forall_mem_append, List.forall_mem_singleton]

/-- Over any run of a session the bytes handed over are exactly those read, iff
    no chunk of a wake-up is overwritten, too much for the buffer, or dropped. -/
theorem byte_stream_intact_iff (p : SessionPtr) (wakes : List Wake) (events : List Event) (reads : Reads p wakes events)
    (chunks : ∀ wake ∈ wakes, ∀ chunk ∈ wake.chunks, chunk ≠ [] ∧ chunk.length ≤ bufferSize) :
    Intact wakes events ↔ ∀ wake ∈ wakes, wake.Kept := by
  obtain ⟨bytes, sizes⟩ := reads.handedOver_eq
  rw [Intact, sizes, bytes]
  constructor
  · rintro ⟨inside, same⟩ wake member
    have equal := flatMap_inj_of_length_le (fun wake member => Wake.handed_length_le (inside wake member)) same
    exact (Wake.kept_iff (chunks wake member)).mpr ⟨inside wake member, equal wake member⟩
  · intro kept
    have each := fun wake member => (Wake.kept_iff (chunks wake member)).mp (kept wake member)
    exact ⟨fun wake member => (each wake member).1, List.flatMap_congr fun wake member => (each wake member).2⟩

/-- The first wake-up of an accepted session. -/
theorem Reads.accepted (wake : Wake) (delivered : wake.ending ≠ .error) :
    Reads (.heap 0) [wake] [.onData 1 7 (readLoop wake.chunks).1 wake.size] := by
  obtain ⟨s, reached, found, _⟩ := accepted_reachable
  exact Reads.start.wake reached (postRead_delivered found delivered) rfl

theorem one_chunk_intact : Reads (.heap 0) [⟨[[1, 2]], .again⟩] [.onData 1 7 (readLoop [[1, 2]]).1 2] ∧
    Intact [⟨[[1, 2]], .again⟩] [.onData 1 7 (readLoop [[1, 2]]).1 2] :=
  have reads := Reads.accepted ⟨[[1, 2]], .again⟩ (by simp)
  ⟨reads, (byte_stream_intact_iff _ _ _ reads (by simp [bufferSize])).mpr
    (by simpa using Wake.kept_of_one_chunk (by simp [bufferSize]) (by simp))⟩

/-- The second of two chunks overwrites the first. -/
theorem two_chunks_overwritten : ¬ ∀ p wakes events, Reads p wakes events →
    (∀ wake ∈ wakes, ∀ chunk ∈ wake.chunks, chunk ≠ [] ∧ chunk.length ≤ bufferSize) → Intact wakes events := by
  intro claim
  have reads := Reads.accepted ⟨[[1], [2]], .again⟩ (by simp)
  exact absurd (claim _ _ _ reads (by simp [bufferSize])).2 (by decide)

end NetService

end LiteServer.Net
