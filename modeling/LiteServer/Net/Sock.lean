import LiteServer.Net.RingBufferBase
import Mathlib.Data.List.Range

/-!
`Sock::Send` and the two `Sock::SendTo`: a loop that offers what is left until
the system took all of it or failed, where `EAGAIN` only means to try again.
The first `SendTo` sends to the bytes of its own argument and what lies behind it.
-/
namespace LiteServer.Net.Sock

/-! ### The loop -/

def EAGAIN : Nat := 11

/-- What `::send` and `::sendto` return: a count, or -1 with `errno`. -/
inductive SendAnswer where
  | count (n : Nat)
  | failed (errno : Nat)
  deriving DecidableEq, Repr

/-- A `::send`, or a `::sendto` to an address; `data` is a pointer. The last of
    them may still wait for its answer. -/
structure SockCall (Address : Type) where
  data : Nat
  len : Nat
  to_ : Address
  answer : Option SendAnswer
  deriving DecidableEq, Repr

/-- The loop of `Send` and `SendTo` with the answers it gets. Without a result
    it is in the last of its calls. -/
def sendLoop {Address : Type} (to_ : Address) (data : Nat) (left : Int) (answers : List SendAnswer) :
    List (SockCall Address) × Option Int :=
  if 0 < left then
    match answers with
    | [] => ([⟨data, left.toNat, to_, none⟩], none)
    | .failed errno :: answers =>
      let call := ⟨data, left.toNat, to_, some (.failed errno)⟩
      if errno = EAGAIN then
        let (calls, ret) := sendLoop to_ data left answers
        (call :: calls, ret)
      else ([call], some (-1))
    | .count n :: answers =>
      let call := ⟨data, left.toNat, to_, some (.count n)⟩
      if n = left then ([call], some 0)
      else
        let (calls, ret) := sendLoop to_ (data + n) (left - n) answers
        (call :: calls, ret)
  else ([], some left)

/-- `int left = Len` is negative from `2 ^ 31` on. -/
def send (data : Nat) (len : BitVec 32) (answers : List SendAnswer) : List (SockCall Unit) × Option Int :=
  sendLoop () data len.toInt answers

/-! ### `Send` -/

section
variable {Address : Type} {to_ : Address} {call : SockCall Address} {calls : List (SockCall Address)} {data len n : Nat}
  {ret : Int}

namespace SockCall

/-- The system takes at most what it is offered. -/
def Permitted (call : SockCall Address) : Prop := ∀ n, call.answer = some (.count n) → n ≤ call.len

/-- The addresses of the bytes that the system took. -/
def taken (call : SockCall Address) : List Nat :=
  match call.answer with
  | some (.count n) => List.range' call.data n
  | _ => []

def Fails (call : SockCall Address) : Prop := ∃ errno ≠ EAGAIN, call.answer = some (.failed errno)

end SockCall

def taken (calls : List (SockCall Address)) : List Nat := calls.flatMap SockCall.taken

/-- What the calls of a `Send` that returned did to the bytes at `data`. -/
structure Transmits (data len : Nat) (calls : List (SockCall Address)) (ret : Int) : Prop where
  order : taken calls <+: List.range' data len
  offers : ∀ call ∈ calls, data ≤ call.data ∧ call.data + call.len ≤ data + len
  success : ret = 0 → taken calls = List.range' data len
  failure : ∀ before call after, calls = before ++ call :: after → call.Fails →
    ret = -1 ∧ after = [] ∧ taken calls = taken before

/-- A call after which the loop goes on behind the `n` bytes taken. -/
theorem Transmits.cons (rest : Transmits (data + n) (len - n) calls ret) (short : n ≤ len)
    (place : call.data = data ∧ call.len = len) (took : call.taken = List.range' data n) (goes : ¬ call.Fails) :
    Transmits data len (call :: calls) ret := by
  have split : List.range' data len = List.range' data n ++ List.range' (data + n) (len - n) := by
    rw [List.range'_append_1, Nat.add_sub_cancel' short]
  have all : taken (call :: calls) = List.range' data n ++ taken calls := by
    rw [taken, List.flatMap_cons, took]
    rfl
  constructor
  · rw [all, split]
    exact List.prefix_append_right_inj _ |>.mpr rest.order
  · intro other member
    rcases List.mem_cons.mp member with rfl | later
    · omega
    · have offered := rest.offers other later
      omega
  · intro zero
    rw [all, split, rest.success zero]
  · intro before other after parts fails
    cases before with
    | nil =>
      obtain ⟨rfl, rfl⟩ := List.cons.inj parts
      exact absurd fails goes
    | cons first before =>
      obtain ⟨rfl, later⟩ := List.cons.inj parts
      obtain ⟨returned, last, took'⟩ := rest.failure before other after later fails
      refine ⟨returned, last, ?_⟩
      rw [all, took', ← took]
      rfl

theorem Transmits.none (unsent : ret = 0 → len = 0) : Transmits data len ([] : List (SockCall Address)) ret where
  order := List.nil_prefix
  offers := nofun
  success zero := by rw [unsent zero]; rfl
  failure before call after parts := by simp at parts

/-- A call after which nothing is offered. -/
theorem Transmits.last (n : Nat) (place : call.data = data ∧ call.len = len) (short : n ≤ len)
    (took : call.taken = List.range' data n) (success : ret = 0 → n = len) (failure : call.Fails → ret = -1 ∧ n = 0) :
    Transmits data len [call] ret := by
  have all : taken [call] = List.range' data n := by
    rw [taken, List.flatMap_singleton, took]
  constructor
  · rw [all]
    exact ⟨List.range' (data + n) (len - n), by rw [List.range'_append_1, Nat.add_sub_cancel' short]⟩
  · intro other member
    obtain rfl := List.mem_singleton.mp member
    omega
  · intro zero
    rw [all, success zero]
  · intro before other after parts fails
    obtain ⟨rfl, rfl, rfl⟩ : before = [] ∧ call = other ∧ after = [] := by
      cases before with
      | nil =>
        obtain ⟨same, none⟩ := List.cons.inj parts
        exact ⟨rfl, same, none.symm⟩
      | cons first before =>
        have none := (List.cons.inj parts).2
        simp at none
    obtain ⟨returned, zero⟩ := failure fails
    refine ⟨returned, rfl, ?_⟩
    rw [all, zero]
    rfl

theorem sendLoop_done {left : Int} (done : ¬ 0 < left) (answers : List SendAnswer) :
    sendLoop to_ data left answers = ([], some left) := by
  unfold sendLoop
  exact if_neg done

theorem sendLoop_returned {left : Int} {answers : List SendAnswer} (done : ¬ 0 < left)
    (returned : sendLoop to_ data left answers = (calls, some ret)) : calls = [] ∧ ret = left := by
  rw [sendLoop_done done] at returned
  obtain ⟨none, same⟩ := Prod.mk.inj returned
  exact ⟨none.symm, (Option.some.inj same).symm⟩

theorem sendLoop_transmits {left : Int} {answers : List SendAnswer}
    (returned : sendLoop to_ data left answers = (calls, some ret)) (permitted : ∀ call ∈ calls, call.Permitted) :
    Transmits data left.toNat calls ret := by
  induction answers generalizing data left calls with
  | nil =>
    by_cases some : 0 < left
    · rw [sendLoop, if_pos some] at returned
      cases (Prod.mk.inj returned).2
    · obtain ⟨rfl, rfl⟩ := sendLoop_returned some returned
      exact Transmits.none (by omega)
  | cons answer answers ih =>
    by_cases some : 0 < left
    · unfold sendLoop at returned
      rw [if_pos some] at returned
      cases answer with
      | failed errno =>
        by_cases again : errno = EAGAIN
        · cases going : sendLoop to_ data left answers with
          | mk calls' ret' =>
            simp only [going, if_pos again] at returned
            obtain ⟨rfl, rfl⟩ := Prod.mk.inj returned
            have rest := ih going fun call member => permitted call (List.mem_cons_of_mem _ member)
            refine Transmits.cons (n := 0) rest (Nat.zero_le _) ⟨rfl, rfl⟩ rfl ?_
            rintro ⟨_, other, same⟩
            obtain rfl := SendAnswer.failed.inj (Option.some.inj same)
            exact other again
        · simp only [if_neg again] at returned
          obtain ⟨rfl, same⟩ := Prod.mk.inj returned
          obtain rfl := Option.some.inj same
          exact Transmits.last 0 ⟨rfl, rfl⟩ (Nat.zero_le _) rfl nofun fun _ => ⟨rfl, rfl⟩
      | count n =>
        by_cases whole : (n : Int) = left
        · simp only [if_pos whole] at returned
          obtain ⟨rfl, same⟩ := Prod.mk.inj returned
          obtain rfl := Option.some.inj same
          refine Transmits.last n ⟨rfl, rfl⟩ (by omega) rfl (fun _ => by omega) ?_
          rintro ⟨_, _, same⟩
          cases same
        · cases going : sendLoop to_ (data + n) (left - n) answers with
          | mk calls' ret' =>
            simp only [going, if_neg whole] at returned
            obtain ⟨rfl, rfl⟩ := Prod.mk.inj returned
            have short : n ≤ left.toNat := permitted _ (List.mem_cons_self ..) n rfl
            have rest := ih going fun call member => permitted call (List.mem_cons_of_mem _ member)
            rw [show (left - n).toNat = left.toNat - n by omega] at rest
            refine Transmits.cons rest short ⟨rfl, rfl⟩ rfl ?_
            rintro ⟨_, _, same⟩
            cases same
    · obtain ⟨rfl, rfl⟩ := sendLoop_returned some returned
      exact Transmits.none (by omega)

/-- The bytes taken are the first of the caller's, in order; zero is returned
    only with all of them taken, and a failure ends the calls. -/
theorem send_transmits {data : Nat} {len : BitVec 32} {answers : List SendAnswer} {calls : List (SockCall Unit)}
    {ret : Int} (returned : send data len answers = (calls, some ret)) (permitted : ∀ call ∈ calls, call.Permitted)
    (memory : Nat → Byte) :
    Transmits data len.toNat calls ret ∧ (taken calls).map memory <+: (List.range' data len.toNat).map memory := by
  have sent : Transmits data len.toNat calls ret := by
    have width := BitVec.toInt_eq_toNat_cond len
    by_cases low : 2 * len.toNat < 2 ^ 32
    · rw [if_pos low] at width
      have loop := sendLoop_transmits returned permitted
      rw [width, Int.toNat_natCast] at loop
      exact loop
    · rw [if_neg low] at width
      have negative : len.toInt < 0 := by omega
      obtain ⟨rfl, rfl⟩ := sendLoop_returned (show ¬ 0 < len.toInt by omega) returned
      exact Transmits.none (by omega)
  exact ⟨sent, sent.order.map memory⟩

/-- Two pieces with a retry between them. -/
theorem three_bytes_transmitted : ∃ calls, send 100 3 [.count 1, .failed EAGAIN, .count 2] = (calls, some 0) ∧
    taken calls = [100, 101, 102] ∧ Transmits 100 3 calls 0 := by
  have returned : send 100 3 [.count 1, .failed EAGAIN, .count 2] = (_, some 0) := rfl
  refine ⟨_, returned, rfl, (send_transmits returned ?_ fun _ => 0).1⟩
  intro call member n answered
  simp only [List.mem_cons, List.not_mem_nil, or_false] at member
  rcases member with rfl | rfl | rfl <;> cases answered <;> decide
end

/-! ### `SendTo` -/

/-- `AF_INET`, as `sin_family` has it in memory: the low byte comes first. -/
def AF_INET : BitVec 16 := 2

/-- The bytes of the `sockaddr_in` that the second overload fills in: zeros, but
    for `sin_family`, `htons(Port)` and what `inet_pton` stored. -/
def sockaddrIn (inet_pton : String → Option (Vector Byte 4)) (ip : String) (port : BitVec 32) : List Byte :=
  [AF_INET.extractLsb' 0 8, AF_INET.extractLsb' 8 8, port.extractLsb' 8 8, port.extractLsb' 0 8] ++
    ((inet_pton ip).getD (Vector.replicate 4 0)).toList ++ List.replicate 8 0

def bytesAt (memory : Nat → Byte) (pointer n : Nat) : List Byte := (List.range' pointer n).map memory

/-- The argument `PeerAddr` of the first overload: `slot` is `&PeerAddr`, where
    the pointer lies with its low byte first. -/
structure PeerAddr where
  memory : Nat → Byte
  value : BitVec 64
  slot : Nat
  stored : ∀ i < 8, memory (slot + i) = value.extractLsb' (8 * i) 8

/-- It points to a `sockaddr_in`, which is aligned to four bytes, with these bytes. -/
structure PeerAddr.PointsTo (peerAddr : PeerAddr) (address : List Byte) : Prop where
  aligned : peerAddr.value.toNat % 4 = 0
  bytes : bytesAt peerAddr.memory peerAddr.value.toNat 16 = address

/-- `::sendto` is passed `(struct sockaddr *) &PeerAddr`. -/
def sendToAddr (data : Nat) (len : BitVec 32) (peerAddr : PeerAddr) (answers : List SendAnswer) :
    List (SockCall (List Byte)) × Option Int :=
  sendLoop (bytesAt peerAddr.memory peerAddr.slot 16) data len.toInt answers

def sendToIP (inet_pton : String → Option (Vector Byte 4)) (data : Nat) (len : BitVec 32) (ip : String)
    (port : BitVec 32) (answers : List SendAnswer) : List (SockCall (List Byte)) × Option Int :=
  sendLoop (sockaddrIn inet_pton ip port) data len.toInt answers

/-- The loop offers the same bytes and returns the same whatever the address. -/
theorem sendLoop_address {Address Address' : Type} (to_ : Address) (to_' : Address') (data : Nat) (left : Int)
    (answers : List SendAnswer) :
    sendLoop to_' data left answers =
      ((sendLoop to_ data left answers).1.map fun call => ⟨call.data, call.len, to_', call.answer⟩,
        (sendLoop to_ data left answers).2) := by
  induction answers generalizing data left with
  | nil =>
    by_cases some : 0 < left
    · simp only [sendLoop, if_pos some, List.map_cons, List.map_nil]
    · simp only [sendLoop_done some, List.map_nil]
  | cons answer answers ih =>
    by_cases some : 0 < left
    · cases answer with
      | failed errno =>
        by_cases again : errno = EAGAIN
        · simp only [sendLoop, if_pos some, if_pos again, List.map_cons, ih data left]
        · simp only [sendLoop, if_pos some, if_neg again, List.map_cons, List.map_nil]
      | count n =>
        by_cases whole : (n : Int) = left
        · simp only [sendLoop, if_pos some, if_pos whole, List.map_cons, List.map_nil]
        · simp only [sendLoop, if_pos some, if_neg whole, List.map_cons, ih (data + n) (left - n)]
    · simp only [sendLoop_done some, List.map_nil]

/-- The first call, if there is one. -/
theorem sendLoop_first {Address : Type} (to_ : Address) (data : Nat) {left : Int} (some : 0 < left)
    (answers : List SendAnswer) : ∃ call calls, (sendLoop to_ data left answers).1 = call :: calls ∧ call.to_ = to_ := by
  unfold sendLoop
  rw [if_pos some]
  split
  · exact ⟨_, _, rfl, rfl⟩
  · split
    · exact ⟨_, _, rfl, rfl⟩
    · exact ⟨_, _, rfl, rfl⟩
  · split
    · exact ⟨_, _, rfl, rfl⟩
    · exact ⟨_, _, rfl, rfl⟩

theorem length_no_call (len : BitVec 32) : ¬ 0 < len.toInt ↔ len.toNat = 0 ∨ 2 ^ 31 ≤ len.toNat := by
  have width := BitVec.toInt_eq_toNat_cond len
  have bound := len.isLt
  split at width <;> omega

/-- The bytes of an aligned pointer never begin like a `sockaddr_in`. -/
theorem PeerAddr.PointsTo.elsewhere {inet_pton : String → Option (Vector Byte 4)} {ip : String} {port : BitVec 32}
    {peerAddr : PeerAddr} (points : peerAddr.PointsTo (sockaddrIn inet_pton ip port)) :
    bytesAt peerAddr.memory peerAddr.slot 16 ≠ sockaddrIn inet_pton ip port := by
  intro same
  have first : peerAddr.memory peerAddr.slot = 2 := (List.cons.inj same).1
  have stored := peerAddr.stored 0 (by omega)
  rw [Nat.add_zero, first] at stored
  have low := congrArg BitVec.toNat stored
  rw [BitVec.extractLsb'_toNat] at low
  have aligned := points.aligned
  simp at low
  omega

theorem sendTo_agree_iff (inet_pton : String → Option (Vector Byte 4)) (ip : String) (port : BitVec 32)
    (peerAddr : PeerAddr) (points : peerAddr.PointsTo (sockaddrIn inet_pton ip port)) (data : Nat) (len : BitVec 32)
    (answers : List SendAnswer) :
    sendToAddr data len peerAddr answers = sendToIP inet_pton data len ip port answers ↔
      len.toNat = 0 ∨ 2 ^ 31 ≤ len.toNat := by
  rw [← length_no_call]
  constructor
  · intro agree some
    obtain ⟨call, calls, called, to_⟩ := sendLoop_first (bytesAt peerAddr.memory peerAddr.slot 16) data some answers
    obtain ⟨call', calls', called', to_'⟩ := sendLoop_first (sockaddrIn inet_pton ip port) data some answers
    have same : call :: calls = call' :: calls' := by
      rw [← called, ← called']
      exact congrArg Prod.fst agree
    refine points.elsewhere ?_
    rw [← to_, ← to_', (List.cons.inj same).1]
  · intro done
    rw [sendToAddr, sendToIP, sendLoop_done done, sendLoop_done done]

/-- 127.0.0.1, port 80, at address 2000, with the pointer itself at 1000. -/
def localhost (ip : String) : Option (Vector Byte 4) := if ip = "127.0.0.1" then some #v[127, 0, 0, 1] else none
def localhostAddr : PeerAddr where
  memory i := if i < 2000 then (2000 : BitVec 64).extractLsb' (8 * (i - 1000)) 8
    else (sockaddrIn localhost "127.0.0.1" 80).getD (i - 2000) 0
  value := 2000
  slot := 1000
  stored i inside := by
    rw [if_pos (by omega), Nat.add_sub_cancel_left]

theorem localhostAddr_points : localhostAddr.PointsTo (sockaddrIn localhost "127.0.0.1" 80) where
  aligned := by decide
  bytes := by decide

theorem nothing_sent_anywhere : sendToAddr 3000 0 localhostAddr [] = sendToIP localhost 3000 0 "127.0.0.1" 80 [] :=
  (sendTo_agree_iff localhost "127.0.0.1" 80 localhostAddr localhostAddr_points 3000 0 []).mpr (.inl rfl)

theorem byte_sent_elsewhere : ¬ ∀ inet_pton ip port, ∀ peerAddr : PeerAddr,
    peerAddr.PointsTo (sockaddrIn inet_pton ip port) → ∀ data len answers,
      sendToAddr data len peerAddr answers = sendToIP inet_pton data len ip port answers := by
  intro agree
  have same := agree localhost "127.0.0.1" 80 localhostAddr localhostAddr_points 3000 1 [.count 1]
  exact absurd same (by decide)

end LiteServer.Net.Sock
