import LiteServer.Net.RingBufferSpsc

/-!
The calls that ask a `RingBufferSpsc` how full it is, made by its two threads. A
query loads both indices, one after the other, while the other thread goes on; the
amounts that `WriteData` and `ReadData` move are decided by such loads as well.
Whatever a call answers was so at one moment of the call, and since a thread was
told something, the other one has changed it to that thread's advantage only.
-/
namespace LiteServer.Net
open Ring
namespace RingBufferSpsc

/-- The thread that writes and the thread that reads. -/
inductive Side where
  | writer
  | reader
  deriving DecidableEq

inductive Query where
  | getLen
  | getAvail
  | isEmpty
  | isFull

inductive Report where
  | count (n : Nat)
  | flag (b : Bool)

/-- What a query answers with the indices it loaded. -/
def Query.answer (size outpos inpos : BufferSize) : Query → Report
  | getLen => .count (inpos - outpos).toNat
  | getAvail => .count (size - inpos + outpos).toNat
  | isEmpty => .flag (inpos == outpos)
  | isFull => .flag (size == inpos - outpos)

/-- What a query answers about a queue. -/
def Query.about (capacity unread : Nat) : Query → Report
  | getLen => .count unread
  | getAvail => .count (capacity - unread)
  | isEmpty => .flag (unread == 0)
  | isFull => .flag (unread == capacity)

inductive Op where
  | writeData (len : BufferSize)
  | readData (len : BufferSize)
  | resetOut
  | query (q : Query)

/-- How many bytes a call appends to a queue, takes or discards from it, or what
    it answers about it. -/
def Op.about (capacity unread : Nat) : Op → Report
  | writeData len => .count (min (capacity - unread) len.toNat)
  | readData len => .count (min unread len.toNat)
  | resetOut => .count unread
  | query q => q.about capacity unread

/-- A call: what its thread was last told when it began, unless it wrote or read
    since, and how many bytes were unread at each moment from then on. -/
structure Made where
  op : Op
  known : Option (Query × Report)
  moments : List Nat

/-- The ring and its threads. `asking` is the query a thread is in, with the
    `m_uOut` it loaded; the other fields only record the run. -/
structure Users where
  ring : RingBufferSpsc
  asking : Side → Option (Query × BufferSize)
  call : Side → Option Made
  told : Side → Option (Query × Report)
  returned : List (Side × Made × Report)

/-- A thread is in none of the calls that move bytes. -/
def Outside (ring : RingBufferSpsc) : Side → Prop
  | .writer => ring.writer = .idle
  | .reader => ring.reader = .idle

/-- What a step is for a thread. -/
inductive Mark where
  | begins (op : Op)
  | returns (count : Nat)
  | neither

def mark (ring ring' : RingBufferSpsc) : Side → Mark
  | .writer => match ring.writer, ring'.writer with
    | .idle, .loadOut _ len _ => .begins (.writeData len)
    | .idle, _ => .neither
    | _, .idle => .returns (ring'.accepted.length - ring.accepted.length)
    | _, _ => .neither
  | .reader => match ring.reader, ring'.reader with
    | .idle, .loadIn _ len _ => .begins (.readData len)
    | .idle, .resetLoadIn _ => .begins .resetOut
    | .idle, _ => .neither
    | _, .idle => .returns (ring'.consumed.length - ring.consumed.length)
    | _, _ => .neither

namespace Users

/-- The call of a thread returns. -/
def ended (s : Users) (side : Side) (report : Report) : List (Side × Made × Report) :=
  (s.call side).toList.map fun made => (side, made, report)

/-- The record of a run after a step of the ring. -/
def moved (s : Users) (ring' : RingBufferSpsc) : Users where
  ring := ring'
  asking := s.asking
  call side := match mark s.ring ring' side with
    | .begins op => some ⟨op, s.told side, [ring'.unread.length]⟩
    | .returns _ => none
    | .neither => (s.call side).map fun made => { made with moments := made.moments ++ [ring'.unread.length] }
  told side := match mark s.ring ring' side with
    | .begins _ => none
    | _ => s.told side
  returned := s.returned ++ [Side.writer, .reader].flatMap fun side => match mark s.ring ring' side with
    | .returns count => s.ended side (.count count)
    | _ => []

/-- The two loads of a query are two steps; the thread takes no step of the ring
    between them. -/
inductive Step : Users → Users → Prop
  | ring {s} (ring' : RingBufferSpsc) : RingBufferSpsc.Step s.ring ring' →
      (s.asking .writer ≠ none → ring'.writer = s.ring.writer) →
      (s.asking .reader ≠ none → ring'.reader = s.ring.reader) → Step s (s.moved ring')
  | loadOut {s} (side : Side) (q : Query) : s.ring.Outside side → s.asking side = none →
      Step s { s with
        asking := Function.update s.asking side (some (q, s.ring.uOut))
        call := Function.update s.call side (some ⟨.query q, s.told side, [s.ring.unread.length]⟩)
        told := Function.update s.told side none }
  | loadIn {s} (side : Side) (q : Query) (outpos : BufferSize) : s.asking side = some (q, outpos) →
      Step s { s with
        asking := Function.update s.asking side none
        call := Function.update s.call side none
        told := Function.update s.told side (some (q, q.answer s.ring.uSize outpos s.ring.uIn))
        returned := s.returned ++ s.ended side (q.answer s.ring.uSize outpos s.ring.uIn) }

def new (size : BufferSize) (junk : Nat → Byte) : Users :=
  ⟨RingBufferSpsc.new size junk, fun _ => none, fun _ => none, fun _ => none, []⟩

def Reachable (size : BufferSize) : Users → Prop :=
  Transition.Reachable (fun s => ∃ junk, s = new size junk) Step

end Users

/-! ### What a thread can rely on -/

/-- How the number of unread bytes changes while a thread does nothing. -/
def Side.Later (before after : Nat) : Side → Prop
  | writer => after ≤ before
  | reader => before ≤ after

theorem Side.Later.refl (side : Side) (n : Nat) : side.Later n n := by
  cases side <;> exact Nat.le_refl n

theorem Side.Later.trans {side : Side} {a b c : Nat} (first : side.Later a b) (second : side.Later b c) :
    side.Later a c := by
  cases side with
  | writer => exact Nat.le_trans second first
  | reader => exact Nat.le_trans first second

/-- What a thread was told was so once, and has become better at most. -/
def Recalls (capacity : Nat) (side : Side) (known : Option (Query × Report)) (unread : Nat) : Prop :=
  ∀ q report, known = some (q, report) → ∃ n ≤ capacity, report = q.about capacity n ∧ side.Later n unread

variable {ring ring' : RingBufferSpsc}

theorem length_unread (ring : RingBufferSpsc) : ring.unread.length = (ring.uIn - ring.uOut).toNat := by
  simp [unread, unreadCells]

theorem Sound.unread_length (sound : Sound ring) :
    ring.unread.length = ring.accepted.length - ring.consumed.length := by
  rw [sound.unread_eq.2, window_length]

theorem Sound.unread_le (sound : Sound ring) : ring.unread.length ≤ ring.uSize.toNat := by
  have fits := sound.fits
  rw [sound.unread_length]
  omega

/-- With indices of one moment a query answers as it does about the queue. -/
theorem Sound.answer_eq (sound : Sound ring) (q : Query) :
    q.answer ring.uSize ring.uOut ring.uIn = q.about ring.uSize.toNat ring.unread.length := by
  have len := length_unread ring
  have room := sound.unread_le
  cases q with
  | getLen => rw [Query.answer, Query.about, ← len]
  | getAvail => rw [Query.answer, Query.about, sound.avail_toNat, sound.unread_length]
  | isEmpty =>
    have same : ring.uIn = ring.uOut ↔ ring.unread.length = 0 := by
      rw [len, ← BitVec.toNat_inj, BitVec.toNat_sub]
      omega
    exact congrArg Report.flag (Bool.eq_iff_iff.mpr (by simpa only [beq_iff_eq] using same))
  | isFull =>
    have same : ring.uSize = ring.uIn - ring.uOut ↔ ring.unread.length = ring.uSize.toNat := by
      rw [len, ← BitVec.toNat_inj]
      omega
    exact congrArg Report.flag (Bool.eq_iff_iff.mpr (by simpa only [beq_iff_eq] using same))

/-! ### The invariant -/

/-- What a call has come to: it has its name still, or a moment that decides what
    it returns. -/
def Users.Stage (s : Users) (made : Made) : Side → Prop
  | .writer => match s.asking .writer, s.ring.writer with
    | some (q, outpos), _ => made.op = .query q ∧ ∃ n ∈ made.moments, s.ring.unread.length ≤ n ∧
        n ≤ s.ring.uSize.toNat ∧ q.answer s.ring.uSize outpos s.ring.uIn = q.about s.ring.uSize.toNat n
    | none, .idle => False
    | none, .loadOut _ len _ => made.op = .writeData len
    | none, .copy t => ∃ n ∈ made.moments, .count t.len.toNat = made.op.about s.ring.uSize.toNat n
  | .reader => match s.asking .reader, s.ring.reader with
    | some (q, outpos), _ => made.op = .query q ∧ outpos = s.ring.uOut
    | none, .idle => False
    | none, .loadIn _ len _ => made.op = .readData len
    | none, .copy t => ∃ n ∈ made.moments, .count t.len.toNat = made.op.about s.ring.uSize.toNat n
    | none, .resetLoadIn _ => made.op = .resetOut
    | none, .resetStore inpos => ∃ n ∈ made.moments,
        .count (inpos - s.ring.uOut).toNat = made.op.about s.ring.uSize.toNat n

structure Users.Calling (s : Users) (side : Side) (made : Made) : Prop where
  now : s.ring.unread.length ∈ made.moments
  known : ∀ n ∈ made.moments, Recalls s.ring.uSize.toNat side made.known n
  stage : s.Stage made side

/-- A call that returned answers what was so at one of its moments, and what its
    thread knew before is true of each of them. -/
structure Exact (capacity : Nat) (side : Side) (made : Made) (report : Report) : Prop where
  moment : ∃ n ∈ made.moments, report = made.op.about capacity n
  known : ∀ n ∈ made.moments, Recalls capacity side made.known n

/-- What holds of a thread. -/
structure Users.Stands (s : Users) (side : Side) : Prop where
  alone : s.asking side ≠ none → s.ring.Outside side
  told : s.told side ≠ none → s.ring.Outside side
  busy : s.asking side ≠ none ∨ ¬ s.ring.Outside side → ∃ made, s.call side = some made
  call : ∀ made, s.call side = some made → s.Calling side made
  recalls : Recalls s.ring.uSize.toNat side (s.told side) s.ring.unread.length

namespace Users
variable {s : Users} {side : Side}

theorem Stands.unasked (stands : s.Stands side) (inside : ¬ s.ring.Outside side) : s.asking side = none := by
  by_contra asks
  exact inside (stands.alone asks)

theorem Stands.untold (stands : s.Stands side) (inside : ¬ s.ring.Outside side) : s.told side = none := by
  by_contra knows
  exact inside (stands.told knows)

theorem recalls_nothing (capacity : Nat) (side : Side) (unread : Nat) : Recalls capacity side none unread := by
  rintro q report ⟨⟩

/-- A step that neither begins nor ends a call of the thread. -/
theorem Stands.neither (stands : s.Stands side) (marked : mark s.ring ring' side = .neither)
    (size : ring'.uSize = s.ring.uSize) (later : side.Later s.ring.unread.length ring'.unread.length)
    (outside : s.ring.Outside side → ring'.Outside side)
    (stage : ∀ made, s.Calling side made →
      (s.moved ring').Stage { made with moments := made.moments ++ [ring'.unread.length] } side) :
    (s.moved ring').Stands side where
  alone asks := outside (stands.alone asks)
  told knows := outside (stands.told (by simpa [moved, marked] using knows))
  busy within := by
    obtain ⟨made, was⟩ := stands.busy (within.imp id fun inside => mt outside inside)
    simp [moved, marked, was]
  call made' is := by
    obtain ⟨made, was, rfl⟩ : ∃ made, s.call side = some made ∧
        { made with moments := made.moments ++ [ring'.unread.length] } = made' := by
      simpa [moved, marked] using is
    have calling := stands.call made was
    refine ⟨by simp [moved], ?_, stage made calling⟩
    intro n member
    show Recalls ring'.uSize.toNat side made.known n
    rw [size]
    rcases List.mem_append.mp member with old | last
    · exact calling.known n old
    · cases List.mem_singleton.mp last
      intro q report knew
      obtain ⟨m, fits, told, before⟩ := calling.known _ calling.now q report knew
      exact ⟨m, fits, told, before.trans later⟩
  recalls := by
    intro q report knows
    have knew : s.told side = some (q, report) := by simpa [moved, marked] using knows
    obtain ⟨m, fits, told, before⟩ := stands.recalls q report knew
    show ∃ m ≤ ring'.uSize.toNat, report = q.about ring'.uSize.toNat m ∧ side.Later m ring'.unread.length
    rw [size]
    exact ⟨m, fits, told, before.trans later⟩

/-- A call of the thread begins. -/
theorem Stands.begins (stands : s.Stands side) {op : Op} (marked : mark s.ring ring' side = .begins op)
    (size : ring'.uSize = s.ring.uSize) (same : ring'.unread.length = s.ring.unread.length)
    (unasked : s.asking side = none)
    (stage : (s.moved ring').Stage ⟨op, s.told side, [ring'.unread.length]⟩ side) : (s.moved ring').Stands side where
  alone asks := absurd unasked asks
  told knows := absurd (by simp [moved, marked]) knows
  busy _ := by simp [moved, marked]
  call made is := by
    obtain rfl : ⟨op, s.told side, [ring'.unread.length]⟩ = made := by simpa [moved, marked] using is
    refine ⟨List.mem_singleton_self _, ?_, stage⟩
    intro n member
    cases List.mem_singleton.mp member
    show Recalls ring'.uSize.toNat side (s.told side) ring'.unread.length
    rw [size, same]
    exact stands.recalls
  recalls := by
    have told : (s.moved ring').told side = none := by simp [moved, marked]
    rw [told]
    exact recalls_nothing _ _ _

/-- A call of the thread returns. -/
theorem Stands.returns (stands : s.Stands side) {count : Nat} (marked : mark s.ring ring' side = .returns count)
    (inside : ¬ s.ring.Outside side) (outside : ring'.Outside side) : (s.moved ring').Stands side where
  alone _ := outside
  told _ := outside
  busy within := by
    rcases within with asks | inside'
    · exact absurd (stands.unasked inside) asks
    · exact absurd outside inside'
  call made is := by simp [moved, marked] at is
  recalls := by
    have told : (s.moved ring').told side = none := by simpa [moved, marked] using stands.untold inside
    rw [told]
    exact recalls_nothing _ _ _

/-! ### Steps -/

theorem still_decided {op : Op} {capacity last : Nat} {moments : List Nat} {report : Report}
    (decided : ∃ n ∈ moments, report = op.about capacity n) : ∃ n ∈ moments ++ [last], report = op.about capacity n := by
  obtain ⟨n, member, same⟩ := decided
  exact ⟨n, List.mem_append_left _ member, same⟩

theorem mark_writer (thread : ring'.writer = ring.writer) : mark ring ring' .writer = .neither := by
  simp only [mark, thread]
  cases ring.writer <;> rfl

theorem mark_reader (thread : ring'.reader = ring.reader) : mark ring ring' .reader = .neither := by
  simp only [mark, thread]
  cases ring.reader <;> rfl

theorem Stands.writer_beside (stands : s.Stands .writer) (thread : ring'.writer = s.ring.writer)
    (index : ring'.uIn = s.ring.uIn) (size : ring'.uSize = s.ring.uSize)
    (fewer : ring'.unread.length ≤ s.ring.unread.length) : (s.moved ring').Stands .writer := by
  refine stands.neither (mark_writer thread) size fewer thread.trans fun made calling => ?_
  have stage := calling.stage
  unfold Stage at stage ⊢
  simp only [moved, thread, index, size] at stage ⊢
  cases asks : s.asking .writer with
  | some asked =>
    simp only [asks] at stage ⊢
    obtain ⟨op, n, member, above, answer⟩ := stage
    exact ⟨op, n, List.mem_append_left _ member, fewer.trans above, answer⟩
  | none =>
    simp only [asks] at stage ⊢
    cases writing : s.ring.writer with
    | idle => simp only [writing] at stage
    | loadOut data len inpos => simpa only [writing] using stage
    | copy t =>
      simp only [writing] at stage ⊢
      exact still_decided stage

theorem Stands.reader_beside (stands : s.Stands .reader) (thread : ring'.reader = s.ring.reader)
    (index : ring'.uOut = s.ring.uOut) (size : ring'.uSize = s.ring.uSize)
    (more : s.ring.unread.length ≤ ring'.unread.length) : (s.moved ring').Stands .reader := by
  refine stands.neither (mark_reader thread) size more thread.trans fun made calling => ?_
  have stage := calling.stage
  unfold Stage at stage ⊢
  simp only [moved, thread, index, size] at stage ⊢
  cases asks : s.asking .reader with
  | some asked => simpa only [asks] using stage
  | none =>
    simp only [asks] at stage ⊢
    cases reading : s.ring.reader with
    | idle => simp only [reading] at stage
    | loadIn data len outpos => simpa only [reading] using stage
    | resetLoadIn outpos => simpa only [reading] using stage
    | copy t =>
      simp only [reading] at stage ⊢
      exact still_decided stage
    | resetStore inpos =>
      simp only [reading] at stage ⊢
      exact still_decided stage

/-- What the run records of a step: each thread stands as before, and a call that
    returns answers what was so. -/
structure Recorded (s : Users) (ring' : RingBufferSpsc) (side : Side) : Prop where
  stands : (s.moved ring').Stands side
  answers : ∀ count made, mark s.ring ring' side = .returns count → s.call side = some made →
    Exact s.ring.uSize.toNat side made (.count count)

theorem Recorded.neither (stands : (s.moved ring').Stands side) (marked : mark s.ring ring' side = .neither) :
    s.Recorded ring' side :=
  ⟨stands, fun _ _ returns => by simp [marked] at returns⟩

theorem Stands.goes (stands : s.Stands side) (inside : ¬ s.ring.Outside side)
    (marked : mark s.ring ring' side = .neither) (size : ring'.uSize = s.ring.uSize)
    (same : ring'.unread.length = s.ring.unread.length)
    (stage : ∀ made, s.Calling side made →
      (s.moved ring').Stage { made with moments := made.moments ++ [ring'.unread.length] } side) :
    s.Recorded ring' side :=
  .neither (stands.neither marked size (same ▸ .refl _ _) (fun outside => absurd outside inside) stage) marked

theorem Stands.ends (stands : s.Stands side) (inside : ¬ s.ring.Outside side) {count : Nat}
    (marked : mark s.ring ring' side = .returns count) (outside : ring'.Outside side)
    (decided : ∀ made, s.Calling side made →
      ∃ n ∈ made.moments, .count count = made.op.about s.ring.uSize.toNat n) : s.Recorded ring' side := by
  refine ⟨stands.returns marked inside outside, ?_⟩
  intro count' made returns was
  cases marked.symm.trans returns
  have calling := stands.call made was
  exact ⟨decided made calling, calling.known⟩

/-- The load of `m_uOut` decides how much `WriteData` appends. -/
theorem Stands.writeLoadOut (stands : s.Stands .writer) (sound : RingBufferSpsc.Sound s.ring) {data : Nat → Byte}
    {len inpos : BufferSize} (loading : s.ring.writer = .loadOut data len inpos) :
    s.Recorded { s.ring with writer := s.ring.beginWrite data len inpos s.ring.uOut } .writer := by
  have inside : ¬ s.ring.Outside .writer := by simp [Outside, loading]
  have unasked := stands.unasked inside
  have loaded := sound.writer
  rw [WriterSound, loading] at loaded
  let n := stdMin (s.ring.uSize - inpos + s.ring.uOut) len
  have amount : n.toNat = min (s.ring.uSize.toNat - s.ring.unread.length) len.toNat := by
    rw [stdMin_toNat, loaded, sound.avail_toNat, sound.unread_length]
  have named : ∀ made, s.Calling .writer made → made.op = .writeData len := by
    intro made calling
    simpa only [Stage, unasked, loading] using calling.stage
  by_cases zero : n == 0
  · have begun : s.ring.beginWrite data len inpos s.ring.uOut = .idle := if_pos zero
    have none : n.toNat = 0 := congrArg BitVec.toNat (beq_iff_eq.mp zero)
    rw [begun]
    have marked : mark s.ring { s.ring with writer := .idle } .writer = .returns 0 := by
      simp only [mark, loading, Nat.sub_self]
    refine stands.ends inside marked rfl fun made calling => ⟨_, calling.now, ?_⟩
    rw [named made calling, Op.about, ← amount, none]
  · have begun : s.ring.beginWrite data len inpos s.ring.uOut = .copy ⟨data, n, inpos, ∅⟩ := if_neg zero
    rw [begun]
    have marked : mark s.ring { s.ring with writer := .copy ⟨data, n, inpos, ∅⟩ } .writer = .neither := by
      simp only [mark, loading]
    refine stands.goes inside marked rfl rfl fun made calling => ?_
    simp only [Stage, moved, unasked]
    refine ⟨_, List.mem_append_left _ calling.now, ?_⟩
    rw [named made calling, Op.about, ← amount]

/-- The load of `m_uIn` decides how much `ReadData` takes. -/
theorem Stands.readLoadIn (stands : s.Stands .reader) (sound : RingBufferSpsc.Sound s.ring) {data : Nat → Byte}
    {len outpos : BufferSize} (loading : s.ring.reader = .loadIn data len outpos) :
    s.Recorded { s.ring with reader := beginRead data len outpos s.ring.uIn } .reader := by
  have inside : ¬ s.ring.Outside .reader := by simp [Outside, loading]
  have unasked := stands.unasked inside
  have loaded := sound.reader
  rw [ReaderSound, loading] at loaded
  let n := stdMin (s.ring.uIn - outpos) len
  have amount : n.toNat = min s.ring.unread.length len.toNat := by
    rw [stdMin_toNat, loaded, length_unread]
  have named : ∀ made, s.Calling .reader made → made.op = .readData len := by
    intro made calling
    simpa only [Stage, unasked, loading] using calling.stage
  by_cases zero : n == 0
  · have begun : beginRead data len outpos s.ring.uIn = .idle := if_pos zero
    have none : n.toNat = 0 := congrArg BitVec.toNat (beq_iff_eq.mp zero)
    rw [begun]
    have marked : mark s.ring { s.ring with reader := .idle } .reader = .returns 0 := by
      simp only [mark, loading, Nat.sub_self]
    refine stands.ends inside marked rfl fun made calling => ⟨_, calling.now, ?_⟩
    rw [named made calling, Op.about, ← amount, none]
  · have begun : beginRead data len outpos s.ring.uIn = .copy ⟨data, n, outpos, ∅⟩ := if_neg zero
    rw [begun]
    have marked : mark s.ring { s.ring with reader := .copy ⟨data, n, outpos, ∅⟩ } .reader = .neither := by
      simp only [mark, loading]
    refine stands.goes inside marked rfl rfl fun made calling => ?_
    simp only [Stage, moved, unasked]
    refine ⟨_, List.mem_append_left _ calling.now, ?_⟩
    rw [named made calling, Op.about, ← amount]

/-- `ResetOut` discards what was unread at its load of `m_uIn`. -/
theorem Stands.resetStore (stands : s.Stands .reader) (sound : RingBufferSpsc.Sound s.ring) {inpos : BufferSize}
    (resetting : s.ring.reader = .resetStore inpos) :
    s.Recorded { s.ring with
      uOut := inpos
      reader := .idle
      consumed := s.ring.consumed ++ s.ring.unread.take (inpos - s.ring.uOut).toNat } .reader := by
  have inside : ¬ s.ring.Outside .reader := by simp [Outside, resetting]
  have unasked := stands.unasked inside
  have loaded := sound.reader
  rw [ReaderSound, resetting] at loaded
  obtain ⟨k, counts, below⟩ := loaded
  have bound := sound.size.le
  have fits := sound.fits
  have lengths := sound.unread_length
  have discards : (inpos - s.ring.uOut).toNat = k := by
    rw [counts, sound.uOut, distance_toNat (Nat.le_add_right _ _) (by omega), Nat.add_sub_cancel_left]
  have marked : mark s.ring { s.ring with
      uOut := inpos
      reader := .idle
      consumed := s.ring.consumed ++ s.ring.unread.take (inpos - s.ring.uOut).toNat } .reader =
      .returns (inpos - s.ring.uOut).toNat := by
    simp only [mark, resetting, List.length_append, List.length_take, Nat.add_sub_cancel_left]
    rw [Nat.min_eq_left (by omega)]
  refine stands.ends inside marked rfl fun made calling => ?_
  simpa only [Stage, unasked, resetting] using calling.stage

theorem Stands.writer_step (stands : s.Stands .writer) (sound : RingBufferSpsc.Sound s.ring)
    (taken : RingBufferSpsc.Step s.ring ring') (still : s.asking .writer ≠ none → ring'.writer = s.ring.writer) :
    s.Recorded ring' .writer := by
  have sound' := taken.sound sound
  have lengths := sound.unread_length
  have lengths' := sound'.unread_length
  cases taken with
  | writeData data len idle =>
    have unasked : s.asking .writer = none := by
      by_contra asks
      simpa [idle] using still asks
    have marked : mark s.ring { s.ring with writer := .loadOut data len s.ring.uIn } .writer =
        .begins (.writeData len) := by simp only [mark, idle]
    refine ⟨stands.begins marked rfl rfl unasked ?_, by simp [marked]⟩
    simp only [Stage, moved, unasked]
  | writeLoadOut data len inpos loading => exact stands.writeLoadOut sound loading
  | writeCopy t i writing ready =>
    have inside : ¬ s.ring.Outside .writer := by simp [Outside, writing]
    have unasked := stands.unasked inside
    refine stands.goes inside (by simp only [mark, writing]) rfl ?_ fun made calling => ?_
    · rw [length_unread, length_unread]
    · have stage := calling.stage
      simp only [Stage, moved, unasked, writing] at stage ⊢
      exact still_decided stage
  | writeStoreIn t writing finished =>
    have inside : ¬ s.ring.Outside .writer := by simp [Outside, writing]
    have unasked := stands.unasked inside
    have marked : mark s.ring { s.ring with
        uIn := t.pos + t.len, writer := .idle, accepted := s.ring.accepted ++ t.bytes } .writer =
        .returns t.len.toNat := by
      simp only [mark, writing, List.length_append, Transfer.bytes, List.length_map, List.length_range,
        Nat.add_sub_cancel_left]
    refine stands.ends inside marked rfl fun made calling => ?_
    simpa only [Stage, unasked, writing] using calling.stage
  | readStoreOut t reading finished =>
    have consumed : s.ring.consumed.length ≤ (s.ring.consumed ++ t.bytes).length := by simp
    exact .neither (stands.writer_beside rfl rfl rfl (by simp only at lengths'; omega)) (mark_writer rfl)
  | resetStore inpos resetting =>
    exact .neither (stands.writer_beside rfl rfl rfl
      (by simp only [List.length_append] at lengths'; omega)) (mark_writer rfl)
  | readData | readLoadIn | readCopy | resetOut | resetLoadIn =>
    exact .neither (stands.writer_beside rfl rfl rfl (Nat.le_refl _)) (mark_writer rfl)

theorem Stands.reader_step (stands : s.Stands .reader) (sound : RingBufferSpsc.Sound s.ring)
    (taken : RingBufferSpsc.Step s.ring ring') (still : s.asking .reader ≠ none → ring'.reader = s.ring.reader) :
    s.Recorded ring' .reader := by
  have sound' := taken.sound sound
  have lengths := sound.unread_length
  have lengths' := sound'.unread_length
  cases taken with
  | readData data len idle =>
    have unasked : s.asking .reader = none := by
      by_contra asks
      simpa [idle] using still asks
    have marked : mark s.ring { s.ring with reader := .loadIn data len s.ring.uOut } .reader =
        .begins (.readData len) := by simp only [mark, idle]
    refine ⟨stands.begins marked rfl rfl unasked ?_, by simp [marked]⟩
    simp only [Stage, moved, unasked]
  | readLoadIn data len outpos loading => exact stands.readLoadIn sound loading
  | readCopy t i reading ready =>
    have inside : ¬ s.ring.Outside .reader := by simp [Outside, reading]
    have unasked := stands.unasked inside
    refine stands.goes inside (by simp only [mark, reading]) rfl rfl fun made calling => ?_
    have stage := calling.stage
    simp only [Stage, moved, unasked, reading] at stage ⊢
    exact still_decided stage
  | readStoreOut t reading finished =>
    have inside : ¬ s.ring.Outside .reader := by simp [Outside, reading]
    have unasked := stands.unasked inside
    have marked : mark s.ring { s.ring with
        uOut := t.pos + t.len, reader := .idle, consumed := s.ring.consumed ++ t.bytes } .reader =
        .returns t.len.toNat := by
      simp only [mark, reading, List.length_append, Transfer.bytes, List.length_map, List.length_range,
        Nat.add_sub_cancel_left]
    refine stands.ends inside marked rfl fun made calling => ?_
    simpa only [Stage, unasked, reading] using calling.stage
  | resetOut idle =>
    have unasked : s.asking .reader = none := by
      by_contra asks
      simpa [idle] using still asks
    have marked : mark s.ring { s.ring with reader := .resetLoadIn s.ring.uOut } .reader = .begins .resetOut := by
      simp only [mark, idle]
    refine ⟨stands.begins marked rfl rfl unasked ?_, by simp [marked]⟩
    simp only [Stage, moved, unasked]
  | resetLoadIn outpos loading =>
    have inside : ¬ s.ring.Outside .reader := by simp [Outside, loading]
    have unasked := stands.unasked inside
    refine stands.goes inside (by simp only [mark, loading]) rfl rfl fun made calling => ?_
    have named : made.op = .resetOut := by simpa only [Stage, unasked, loading] using calling.stage
    simp only [Stage, moved, unasked]
    refine ⟨_, List.mem_append_left _ calling.now, ?_⟩
    rw [named, Op.about, length_unread]
  | resetStore inpos resetting => exact stands.resetStore sound resetting
  | writeStoreIn t writing finished =>
    have accepted : s.ring.accepted.length ≤ (s.ring.accepted ++ t.bytes).length := by simp
    exact .neither (stands.reader_beside rfl rfl rfl (by simp only at lengths'; omega)) (mark_reader rfl)
  | writeCopy t i writing ready =>
    refine .neither (stands.reader_beside rfl rfl rfl ?_) (mark_reader rfl)
    rw [length_unread, length_unread]
  | writeData | writeLoadOut =>
    exact .neither (stands.reader_beside rfl rfl rfl (Nat.le_refl _)) (mark_reader rfl)

/-- A thread is where it was when only the other one asks. -/
theorem Stands.congr {s' : Users} (stands : s.Stands side) (ring : s'.ring = s.ring)
    (asking : s'.asking side = s.asking side) (call : s'.call side = s.call side) (told : s'.told side = s.told side) :
    s'.Stands side where
  alone := by rw [asking, ring]; exact stands.alone
  told := by rw [told, ring]; exact stands.told
  busy := by rw [asking, ring, call]; exact stands.busy
  call made is := by
    have calling := stands.call made (call ▸ is)
    refine ⟨ring ▸ calling.now, ring ▸ calling.known, ?_⟩
    have stage := calling.stage
    cases side <;> simpa only [Stage, ring, asking] using stage
  recalls := by rw [told, ring]; exact stands.recalls

/-- What a query is going to answer was so at one of its moments. -/
theorem Calling.reported {made : Made} (calling : s.Calling side made) (sound : RingBufferSpsc.Sound s.ring) {q : Query}
    {outpos : BufferSize} (asks : s.asking side = some (q, outpos)) : made.op = .query q ∧
      ∃ n ∈ made.moments, side.Later n s.ring.unread.length ∧ n ≤ s.ring.uSize.toNat ∧
        q.answer s.ring.uSize outpos s.ring.uIn = q.about s.ring.uSize.toNat n := by
  have stage := calling.stage
  cases side with
  | writer =>
    simp only [Stage, asks] at stage
    obtain ⟨named, n, member, above, answer⟩ := stage
    exact ⟨named, n, member, above, answer⟩
  | reader =>
    simp only [Stage, asks] at stage
    obtain ⟨named, rfl⟩ := stage
    exact ⟨named, _, calling.now, .refl _ _, sound.unread_le, sound.answer_eq q⟩

structure Sound (size : BufferSize) (s : Users) : Prop where
  ring : RingBufferSpsc.Sound s.ring
  size : s.ring.uSize = roundUpPowOfTwo size
  stands : ∀ side, s.Stands side
  returned : ∀ side made report, (side, made, report) ∈ s.returned → Exact s.ring.uSize.toNat side made report

theorem new_sound (size : BufferSize) (junk : Nat → Byte) : (new size junk).Sound size where
  ring := RingBufferSpsc.new_sound size junk
  size := rfl
  stands side := by
    refine ⟨absurd rfl, absurd rfl, ?_, by rintro made ⟨⟩, recalls_nothing _ _ _⟩
    rintro (asks | inside)
    · exact absurd rfl asks
    · cases side <;> exact absurd rfl inside
  returned := by simp [new]

theorem uSize_eq (taken : RingBufferSpsc.Step ring ring') : ring'.uSize = ring.uSize := by
  cases taken <;> rfl

theorem Sound.ring_step {size : BufferSize} (sound : s.Sound size) (taken : RingBufferSpsc.Step s.ring ring')
    (writing : s.asking .writer ≠ none → ring'.writer = s.ring.writer)
    (reading : s.asking .reader ≠ none → ring'.reader = s.ring.reader) : (s.moved ring').Sound size := by
  have same := uSize_eq taken
  have recorded : ∀ side, s.Recorded ring' side := by
    intro side
    cases side with
    | writer => exact (sound.stands .writer).writer_step sound.ring taken writing
    | reader => exact (sound.stands .reader).reader_step sound.ring taken reading
  refine ⟨taken.sound sound.ring, same.trans sound.size, fun side => (recorded side).stands, ?_⟩
  intro side made report member
  show Exact ring'.uSize.toNat side made report
  rw [same]
  rcases List.mem_append.mp member with before | now
  · exact sound.returned side made report before
  · obtain ⟨other, _, now⟩ := List.mem_flatMap.mp now
    cases marked : mark s.ring ring' other with
    | begins op => simp only [marked, List.not_mem_nil] at now
    | neither => simp only [marked, List.not_mem_nil] at now
    | returns count =>
      simp only [marked, ended, List.mem_map, Option.mem_toList] at now
      obtain ⟨made', was, same⟩ := now
      cases same
      exact (recorded side).answers count made marked was

theorem Sound.loadOut {size : BufferSize} (sound : s.Sound size) {q : Query} (outside : s.ring.Outside side) :
    Sound size { s with
      asking := Function.update s.asking side (some (q, s.ring.uOut))
      call := Function.update s.call side (some ⟨.query q, s.told side, [s.ring.unread.length]⟩)
      told := Function.update s.told side none } := by
  refine ⟨sound.ring, sound.size, fun other => ?_, sound.returned⟩
  by_cases own : other = side
  · subst own
    refine ⟨fun _ => outside, fun _ => outside, fun _ => ⟨_, Function.update_self ..⟩, ?_, ?_⟩
    · intro made is
      cases (Function.update_self ..).symm.trans is
      refine ⟨List.mem_singleton_self _, ?_, ?_⟩
      · intro n member
        cases List.mem_singleton.mp member
        exact (sound.stands other).recalls
      · cases other with
        | writer =>
          simp only [Stage, Function.update_self]
          exact ⟨trivial, _, List.mem_singleton_self _, Nat.le_refl _, sound.ring.unread_le, sound.ring.answer_eq q⟩
        | reader => simp only [Stage, Function.update_self, and_self]
    · show Recalls _ other (Function.update s.told other none other) _
      rw [Function.update_self]
      exact recalls_nothing _ _ _
  · exact (sound.stands other).congr rfl (Function.update_of_ne own ..) (Function.update_of_ne own ..)
      (Function.update_of_ne own ..)

theorem Sound.loadIn {size : BufferSize} (sound : s.Sound size) {q : Query} {outpos : BufferSize}
    (asks : s.asking side = some (q, outpos)) :
    Sound size { s with
      asking := Function.update s.asking side none
      call := Function.update s.call side none
      told := Function.update s.told side (some (q, q.answer s.ring.uSize outpos s.ring.uIn))
      returned := s.returned ++ s.ended side (q.answer s.ring.uSize outpos s.ring.uIn) } := by
  have stands := sound.stands side
  have asked : s.asking side ≠ none := by simp [asks]
  obtain ⟨made, was⟩ := stands.busy (.inl asked)
  have calling := stands.call made was
  obtain ⟨named, n, member, later, fits, answer⟩ := calling.reported sound.ring asks
  refine ⟨sound.ring, sound.size, fun other => ?_, ?_⟩
  · by_cases own : other = side
    · subst own
      have outside := stands.alone asked
      refine ⟨fun _ => outside, fun _ => outside, ?_, ?_, ?_⟩
      · rintro (asks' | inside)
        · exact absurd (Function.update_self ..) asks'
        · exact absurd outside inside
      · intro made is
        cases (Function.update_self ..).symm.trans is
      · show Recalls _ other (Function.update s.told other _ other) _
        rw [Function.update_self]
        rintro q' report ⟨⟩
        exact ⟨n, fits, answer, later⟩
    · exact (sound.stands other).congr rfl (Function.update_of_ne own ..) (Function.update_of_ne own ..)
        (Function.update_of_ne own ..)
  · intro side' made' report returned
    rcases List.mem_append.mp returned with before | now
    · exact sound.returned side' made' report before
    · simp only [ended, was, Option.toList_some, List.map_cons, List.map_nil, List.mem_singleton] at now
      cases now
      refine ⟨⟨n, member, ?_⟩, calling.known⟩
      rw [named]
      exact answer

theorem Sound.step {size : BufferSize} {s' : Users} (sound : s.Sound size) (taken : Step s s') : s'.Sound size := by
  cases taken with
  | ring ring' taken writing reading => exact sound.ring_step taken writing reading
  | loadOut side q outside unasked => exact sound.loadOut outside
  | loadIn side q outpos asks => exact sound.loadIn asks

theorem Reachable.sound {size : BufferSize} (reached : Reachable size s) : s.Sound size := by
  refine Transition.Reachable.invariant ?_ (fun _ _ _ sound taken => sound.step taken) reached
  rintro _ ⟨junk, rfl⟩
  exact new_sound size junk

/-- Every call that returned answers what was so at one of its moments, what a
    thread knows has become better at most, and the checks that `LBufferThread`
    makes before its calls hold: after `IsFull` was false there is room for a byte,
    after `IsEmpty` was false there is a byte to read. -/
structure Answered (s : Users) (capacity : Nat) : Prop where
  returned : ∀ side made report, (side, made, report) ∈ s.returned → Exact capacity side made report
  told : ∀ side, Recalls capacity side (s.told side) s.ring.unread.length
  room : ∀ made len count, (.writer, made, .count count) ∈ s.returned → made.op = .writeData len → 0 < len.toNat →
    made.known = some (.isFull, .flag false) → 0 < count
  unread : ∀ made len count, (.reader, made, .count count) ∈ s.returned → made.op = .readData len → 0 < len.toNat →
    made.known = some (.isEmpty, .flag false) → 0 < count

end Users

theorem spsc_checks_hold (size : BufferSize) (s : Users) (reached : Users.Reachable size s) :
    s.Answered (roundUpPowOfTwo size).toNat := by
  have sound := reached.sound
  rw [← sound.size]
  refine ⟨sound.returned, fun side => (sound.stands side).recalls, ?_, ?_⟩
  · intro made len count returned named positive known
    obtain ⟨⟨n, member, answer⟩, before⟩ := sound.returned _ _ _ returned
    obtain ⟨m, fits, told, later⟩ := before n member _ _ known
    have some_room : m ≠ s.ring.uSize.toNat := by simpa [Query.about] using told
    have appended : count = min (s.ring.uSize.toNat - n) len.toNat := by simpa [named, Op.about] using answer
    have fewer : n ≤ m := later
    omega
  · intro made len count returned named positive known
    obtain ⟨⟨n, member, answer⟩, before⟩ := sound.returned _ _ _ returned
    obtain ⟨m, fits, told, later⟩ := before n member _ _ known
    have some_unread : m ≠ 0 := by simpa [Query.about] using told
    have taken : count = min n len.toNat := by simpa [named, Op.about] using answer
    have more : m ≤ n := later
    omega

/-- The writing thread asks whether the ring is full and writes a byte. -/
theorem checked_byte_written : ∃ s, Users.Reachable 2 s ∧
    (∃ made, s.returned.getLast? = some (.writer, made, .count 1) ∧ made.known = some (.isFull, .flag false)) ∧
    s.Answered 2 := by
  let t : Transfer := ⟨fun _ => 7, 1, 0, ∅⟩
  have start : Users.Reachable 2 (Users.new 2 fun _ => 0) := .start ⟨fun _ => 0, rfl⟩
  have asked := start.next (.loadOut .writer .isFull rfl rfl)
  have told := asked.next (.loadIn .writer .isFull 0 rfl)
  have called := told.next (.ring _ (.writeData (fun _ => 7) 1 rfl) (absurd rfl) (absurd rfl))
  have loaded := called.next (.ring _ (.writeLoadOut (fun _ => 7) 1 0 rfl) (absurd rfl) (absurd rfl))
  have copied := loaded.next (.ring _ (.writeCopy t 0 rfl ⟨by decide, by simp [t], .inl (by decide)⟩)
    (absurd rfl) (absurd rfl))
  have stored := copied.next (.ring _ (.writeStoreIn { t with copied := insert 0 t.copied } rfl
    fun i inside => Finset.mem_insert.mpr (.inl (Nat.lt_one_iff.mp inside))) (absurd rfl) (absurd rfl))
  exact ⟨_, stored, ⟨_, rfl, rfl⟩, spsc_checks_hold 2 _ stored⟩

end RingBufferSpsc

end LiteServer.Net
