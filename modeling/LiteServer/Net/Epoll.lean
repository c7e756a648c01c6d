import LiteServer.Lib.Transition
import LiteServer.Net.NetService

/-!
The epoll backend. A step is a call the user makes, an event the loop of
`ThreadProc` takes up, a system call of a running operation with the answer it
gets, or the return of a callback; while a callback runs the user may take any
number of steps.
-/
namespace LiteServer.Net

/-- The size of the local buffers, and what they hold at first. -/
def bufferSize : Nat := 1024
def emptyBuffer : List Byte := List.replicate bufferSize 0

/-- A buffer after bytes were received into its start. -/
def receive (data bytes : List Byte) : List Byte := bytes ++ data.drop bytes.length

/-- How the loop of `PostRead` ends: `read` returns zero, or -1 with `EAGAIN`
    or with another error. -/
inductive ReadEnd where
  | eof
  | again
  | error
  deriving DecidableEq, Repr

/-- What `accept` returned with, and whether `epoll_ctl` will take it. -/
structure Accepted where
  socket : Socket
  address : SockAddr
  added : Bool
  deriving DecidableEq, Repr

/-- What `recvfrom` returned with; an empty datagram makes it return zero. -/
structure Datagram where
  bytes : List Byte
  address : SockAddr
  deriving DecidableEq, Repr

/-- The loop of `PostRead`: each `read` fills the buffer from its start, and
    only the sizes add up, in an `int`. -/
def readLoop (chunks : List (List Byte)) : List Byte × BitVec 32 :=
  chunks.foldl (fun (data, size) chunk => (receive data chunk, size + BitVec.ofNat 32 chunk.length)) (emptyBuffer, 0)

namespace NetService

/-- `EPOLL_CTL_ADD`; a registered descriptor is refused. -/
def epollAdd (s : NetService) (sock : Socket) (context : Context) (added : Bool) : Option NetService :=
  if added && (s.epoll sock).isNone then some { s with epoll := Function.update s.epoll sock (some context) } else none

/-- `EPOLL_CTL_MOD`; only a registered descriptor can be changed. -/
def epollMod (s : NetService) (sock : Socket) (context : Context) (changed : Bool) : Option NetService :=
  if changed && (s.epoll sock).isSome then some { s with epoll := Function.update s.epoll sock (some context) } else none

def epollDel (s : NetService) (sock : Socket) : NetService :=
  { s with epoll := Function.update s.epoll sock none }

/-! ### Operations -/

/-- The result, and whether it was `true`. A connect that fails at once leaves
    the descriptor registered. -/
def addTCPConnector (s : NetService) (connector : Nat) (added connecting : Bool) : Option (Bool × NetService) := do
  let session ← s.objects (.connector connector)
  let s := s.setObject (.connector connector) { session with alive := false }
  let (id, s) := s.newSessionID
  if id = 0 then return (false, s)
  else
    let s := s.setObject (.connector connector) { session with alive := false, sessionID := id }
    match s.epollAdd session.socket (.connect connector) added with
    | none => return (false, s.freeSessionID id)
    | some s =>
      if connecting then return (true, { s with attempts := s.attempts ++ [connector] })
      else return (false, s.freeSessionID id)

/-- One round of `PostAccept`, up to the callback. -/
def acceptRound (s : NetService) (listener : Socket) (answer : Option Accepted) : Option NetService :=
  match answer with
  | none => some { s with pc := .idle }
  | some accepted => do
    let (id, s) := (s.emit (.opened accepted.socket)).newSessionID
    if id = 0 then return { s.destroySocket accepted.socket with pc := .idle }
    else
      let p := SessionPtr.heap s.allocated
      match s.epollAdd accepted.socket (.read p) accepted.added with
      | none => return { (s.freeSessionID id).destroySocket accepted.socket with pc := .idle }
      | some s =>
        let session : Session := ⟨true, accepted.socket, .accepted, accepted.address, some accepted.socket, id⟩
        let s := { s.setObject p session with allocated := s.allocated + 1 }
        let s ← s.addSession p
        return { s.emit (.onAddConnection id accepted.socket accepted.address) with pc := .acceptCallBack listener }

/-- `PostConnect`, up to the callback. -/
def postConnect (s : NetService) (connector : Nat) : Option NetService := do
  let session ← s.objects (.connector connector)
  let s ← { s with attempts := s.attempts.erase connector }.addSession (.connector connector)
  return { s.emit (.onConnected session.sessionID session.socket) with pc := .connectCallBack connector }

/-- The rest of `PostConnect`. -/
def connected (s : NetService) (connector : Nat) (changed : Bool) : Option NetService := do
  let session ← s.objects (.connector connector)
  match s.epollMod session.socket (.read (.connector connector)) changed with
  | some s => return { s.setObject (.connector connector) { session with alive := true } with pc := .idle }
  | none => (s.destroySocket session.socket).onSessionDrop (.connector connector)

/-- `PostRead`, up to its callback. -/
def postRead (s : NetService) (p : SessionPtr) (chunks : List (List Byte)) (ending : ReadEnd) : Option NetService := do
  let session ← s.objects p
  if ending = .error then (s.epollDel session.socket).onSessionDrop p
  else
    let (data, size) := readLoop chunks
    return { s.emit (.onData session.sessionID session.socket data size.toInt) with pc := .lastCallBack }

/-- One round of `PostReadFrom`, up to the first callback. -/
def receiveRound (s : NetService) (listener : Socket) (data : List Byte) (answer : Option Datagram) :
    Option NetService :=
  match answer with
  | none => some { s with pc := .idle }
  | some datagram => do
    if datagram.bytes.length = 0 then return { s with pc := .idle }
    else
      let data := receive data datagram.bytes
      let nread := datagram.bytes.length
      let id := s.getUDPSessionID datagram.address
      if id = 0 then
        let (id, s) := s.newSessionID
        if id = 0 then return { s with pc := .idle }
        else
          let s := s.setUDPSessionID datagram.address id
          let p := SessionPtr.heap s.allocated
          let session : Session := ⟨true, listener, .udp, datagram.address, some listener, id⟩
          let s := { s.setObject p session with allocated := s.allocated + 1 }
          let s ← s.addSession p
          return { s.emit (.onAddConnection id listener datagram.address) with pc := .openCallBack listener data id nread }
      else return { s.emit (.onData id listener data nread) with pc := .dataCallBack listener data }

/-- A callback returns and the operation that made it goes on. -/
def resume (s : NetService) (changed : Bool) : Option NetService :=
  match s.pc with
  | .acceptCallBack listener => some { s with pc := .accepting listener }
  | .connectCallBack connector => s.connected connector changed
  | .openCallBack listener data id nread =>
    some { s.emit (.onData id listener data nread) with pc := .dataCallBack listener data }
  | .dataCallBack listener data => some { s with pc := .receiving listener data }
  | .dropCallBack p => do
    let s ← s.delSession p
    return { s with pc := .idle }
  | .lastCallBack => some { s with pc := .idle }
  | .idle => none
  | .accepting _ => none
  | .receiving _ _ => none

/-- The body of the loop of `ThreadProc`; the context is read from the object
    it is part of. -/
def dispatch (s : NetService) (event : PollEvent) (chunks : List (List Byte)) (ending : ReadEnd) : Option NetService :=
  match event.context with
  | .accept listener => some (if event.epollIn then { s with pc := .accepting listener } else s)
  | .connect connector => if event.epollOut then s.postConnect connector else some s
  | .read p => do
    let _ ← s.objects p
    if event.epollIn then s.postRead p chunks ending else some s
  | .readFrom listener => some (if event.epollIn then { s with pc := .receiving listener emptyBuffer } else s)

end NetService

/-! ### Steps -/

/-- The user may call the service from outside the loop and from callbacks. -/
def Pc.atUser : Pc → Bool
  | .accepting _ => false
  | .receiving _ _ => false
  | _ => true

/-- Calls of the user; calls of the four operations from outside the loop; the
    loop taking a batch or its next event; system calls; returns of callbacks. -/
inductive Action where
  | newConnector (connector : Nat) (sock : Socket)
  | addTCPListener (listener : Socket) (added : Bool)
  | addUDPListener (listener : Socket) (added : Bool)
  | addTCPConnector (connector : Nat) (added connecting : Bool)
  | kickSession (id : SessionID)
  | postAccept (listener : Socket)
  | postConnect (connector : Nat)
  | postRead (p : SessionPtr) (chunks : List (List Byte)) (ending : ReadEnd)
  | postReadFrom (listener : Socket)
  | epollWait (batch : List PollEvent)
  | dispatch (chunks : List (List Byte)) (ending : ReadEnd)
  | accept (answer : Option Accepted)
  | recvfrom (answer : Option Datagram)
  | resume (changed : Bool)
  deriving DecidableEq, Repr

/-- `epoll_wait` reports registered descriptors, each once. -/
def NetService.Polled (s : NetService) (batch : List PollEvent) : Prop :=
  (batch.map PollEvent.socket).Nodup ∧ ∀ event ∈ batch, s.epoll event.socket = some event.context

instance (s : NetService) (batch : List PollEvent) : Decidable (s.Polled batch) := by
  unfold NetService.Polled
  infer_instance

/-- A step, `none` where it cannot be taken or uses a deleted object. -/
def NetService.step (s : NetService) : Action → Option NetService
  | .newConnector connector sock =>
    if s.pc.atUser && (s.objects (.connector connector)).isNone then
      some ((s.emit (.opened sock)).setObject (.connector connector) ⟨false, sock, .connect, ⟨0, 0⟩, some sock, 0⟩)
    else none
  | .addTCPListener listener added =>
    if s.pc.atUser then some ((s.epollAdd listener (.accept listener) added).getD s) else none
  | .addUDPListener listener added =>
    if s.pc.atUser then some ((s.epollAdd listener (.readFrom listener) added).getD s) else none
  | .addTCPConnector connector added connecting =>
    if s.pc.atUser then (s.addTCPConnector connector added connecting).map Prod.snd else none
  | .kickSession id => if s.pc.atUser && s.issued.contains id then s.kickSession id else none
  | .postAccept listener => if s.pc = .idle then some { s with pc := .accepting listener } else none
  | .postConnect connector => if s.pc = .idle then s.postConnect connector else none
  | .postRead p chunks ending => if s.pc = .idle then s.postRead p chunks ending else none
  | .postReadFrom listener => if s.pc = .idle then some { s with pc := .receiving listener emptyBuffer } else none
  | .epollWait batch => if s.pc = .idle ∧ s.events = [] ∧ s.Polled batch then some { s with events := batch } else none
  | .dispatch chunks ending =>
    match s.pc, s.events with
    | .idle, event :: rest => { s with events := rest }.dispatch event chunks ending
    | _, _ => none
  | .accept answer =>
    match s.pc with
    | .accepting listener => s.acceptRound listener answer
    | _ => none
  | .recvfrom answer =>
    match s.pc with
    | .receiving listener data => s.receiveRound listener data answer
    | _ => none
  | .resume changed => s.resume changed

/-- The states that runs from `InitSession` reach whose steps are all `allowed`. -/
def NetService.Reachable (allowed : NetService → Action → Prop) : NetService → Prop :=
  Transition.Reachable (· = initSession) fun s s' => ∃ action, allowed s action ∧ s.step action = some s'

namespace NetService

theorem Reachable.init {allowed : NetService → Action → Prop} : Reachable allowed initSession :=
  Transition.Reachable.start rfl

theorem Reachable.act {allowed : NetService → Action → Prop} {s s' : NetService} (reached : Reachable allowed s)
    (action : Action) (allows : allowed s action) (taken : s.step action = some s') : Reachable allowed s' :=
  Transition.Reachable.next reached ⟨action, allows, taken⟩

/-- The session of the first connection, on descriptor 7. -/
def acceptedSession : Session := ⟨true, 7, .accepted, ⟨0, 0⟩, some 7, 1⟩

theorem accepted_reachable : ∃ s, Reachable (fun _ _ => True) s ∧ s.objects (.heap 0) = some acceptedSession ∧
    s.sessions 1 = some (.heap 0) := by
  have listening : Reachable (fun _ _ => True) _ := Reachable.init.act (.postAccept 3) trivial rfl
  exact ⟨_, listening.act (.accept (some ⟨7, ⟨0, 0⟩, true⟩)) trivial rfl, rfl, rfl⟩

end NetService

end LiteServer.Net
