import LiteServer.Lib.Transition
import LiteServer.Net.Epoll
import LiteServer.Net.Iocp

/-!
The IOCP backend. A step is a call the user makes, a completion that the loop of
`ThreadProc` dequeues, or the return of a callback; while a callback runs the
user may take any number of steps.
-/
namespace LiteServer.Net

/-- A socket that `PostAccept` created, and whether `AcceptEx` took it. -/
structure Accepting where
  socket : Socket
  posted : Bool
  deriving DecidableEq, Repr

/-- What was posted to the system and has not completed. -/
inductive Operation where
  | accept (listener sock : Socket)
  | read (session : SessionPtr)
  | readFrom (listener : Socket)
  | connect (connector : Nat)
  deriving DecidableEq, Repr

/-- Where the service thread is: in the loop of `ThreadProc`, or inside a
    callback, which decides what is left to do after it. -/
inductive IocpPc where
  | idle
  | acceptCallBack (listener : Socket) (session : SessionPtr)
  | connectCallBack (connector : Nat)
  | connectFailCallBack (connector : Nat)
  | dataCallBack (session : SessionPtr)
  | dropCallBack (session : SessionPtr)
  | failCallBack
  | openCallBack (listener : Socket) (data : List Byte) (id : SessionID) (size : Nat)
  | datagramCallBack (listener : Socket)
  deriving DecidableEq, Repr

/-- `accepts` are the outstanding `AcceptEx` operations, each of a listener and
    for a socket, `receivesFrom` the listeners with an outstanding
    `WSARecvFrom`; an outstanding `ConnectEx` is an attempt of the shared state.
    The last two fields only record the run: the `AcceptEx` operations that
    `AddTCPListener` started, and those the loop could not post again. -/
structure IocpService extends Iocp where
  pc : IocpPc
  accepts : List (Socket × Socket)
  receivesFrom : List Socket
  started : Socket → Nat
  refused : Socket → Nat

namespace IocpService

/-- A new service after `InitSession`. -/
def initSession : IocpService where
  net := NetService.initSession
  receives := []
  pc := .idle
  accepts := []
  receivesFrom := []
  started _ := 0
  refused _ := 0

def outstanding (s : IocpService) (listener : Socket) : Nat := (s.accepts.map Prod.fst).count listener

/-! ### Operations -/

/-- `none` is a socket that could not be created. -/
def postAccept (s : IocpService) (listener : Socket) (created : Option Accepting) : Bool × IocpService :=
  match created with
  | none => (false, s)
  | some a =>
    let net := s.net.emit (.opened a.socket)
    if a.posted then (true, { s with net, accepts := s.accepts ++ [(listener, a.socket)] })
    else (false, { s with net := net.emit (.closed a.socket) })

/-- `rest` are the sockets of the ten further calls of `PostAccept`. -/
def addTCPListener (s : IocpService) (listener : Socket) (first : Option Accepting) (rest : List (Option Accepting)) :
    Bool × IocpService :=
  let (ret, s) := s.postAccept listener first
  if ret then (ret, rest.foldl (fun s created => (s.postAccept listener created).2) s) else (ret, s)

def postReadFrom (s : IocpService) (listener : Socket) (posted : Bool) : Bool × IocpService :=
  if posted then (true, { s with receivesFrom := s.receivesFrom ++ [listener] }) else (false, s)

def addTCPConnector (s : IocpService) (connector : Nat) (posted : Bool) : Option (Bool × IocpService) := do
  let session ← s.net.objects (.connector connector)
  let net := s.net.setObject (.connector connector) { session with alive := false }
  let (id, net) := net.newSessionID
  if id = 0 then return (false, { s with net })
  else
    let net := net.setObject (.connector connector) { session with alive := false, sessionID := id }
    if posted then return (true, { s with net := { net with attempts := net.attempts ++ [connector] } })
    else return (false, { s with net := net.freeSessionID id })

/-- `WSARecv` on the socket of a session. -/
def postRead (s : IocpService) (p : SessionPtr) (posted : Bool) : Option IocpService := do
  let io ← s.toIocp.postRead p posted
  return { s with toIocp := io }

/-- `PostAccept` in the loop, for a completed accept. -/
def rearm (s : IocpService) (listener : Socket) (next : Option Accepting) : IocpService :=
  let (ret, s) := s.postAccept listener next
  if ret then s else { s with refused := Function.update s.refused listener (s.refused listener + 1) }

/-- `OnSessionDrop` up to its callback; `failed` is what is left to do after
    the one for a connector. -/
def onSessionDrop (s : IocpService) (p : SessionPtr) (failed : IocpPc) : Option IocpService := do
  let session ← s.net.objects p
  let net ← s.net.onSessionDrop p
  let net := { net with pc := .idle }
  return { s with net, pc := if session.sockType = .connect then failed else .dropCallBack p }

/-- `DoAccpet` up to its callback, with what follows it if there is none;
    `associated` is whether the socket could be tied to the completion port. -/
def doAccpet (s : IocpService) (listener sock : Socket) (address : SockAddr) (associated : Bool)
    (next : Option Accepting) : Option IocpService := do
  let (id, net) := s.net.newSessionID
  if id = 0 then return { s with net := net.destroySocket sock }.rearm listener next
  else if associated then
    let p := SessionPtr.heap net.allocated
    let session : Session := ⟨true, sock, .accepted, address, some sock, id⟩
    let net := { net.setObject p session with allocated := net.allocated + 1 }
    let net ← net.addSession p
    return { s with net := net.emit (.onAddConnection id sock address), pc := .acceptCallBack listener p }
  else return { s with net := (net.destroySocket sock).freeSessionID id }.rearm listener next

/-- `DoConnect` up to its callback. -/
def doConnect (s : IocpService) (connector : Nat) : Option IocpService := do
  let session ← s.net.objects (.connector connector)
  let net ← s.net.addSession (.connector connector)
  return { s with net := net.emit (.onConnected session.sessionID session.socket), pc := .connectCallBack connector }

def setAlive (s : IocpService) (connector : Nat) : Option IocpService := do
  let session ← s.net.objects (.connector connector)
  return { s with net := s.net.setObject (.connector connector) { session with alive := true }, pc := .idle }

/-- The rest of `DoConnect`, up to the callback it makes when the receive could
    not be posted. -/
def connected (s : IocpService) (connector : Nat) (posted : Bool) : Option IocpService := do
  let session ← s.net.objects (.connector connector)
  let s ← s.postRead (.connector connector) posted
  let closed := { s with net := s.net.destroySocket session.socket }
  if posted then s.setAlive connector
  else closed.onSessionDrop (.connector connector) (.connectFailCallBack connector)

/-- `DoRead` up to its callback. -/
def doRead (s : IocpService) (p : SessionPtr) (buf : List Byte) : Option IocpService := do
  let session ← s.net.objects p
  let str := receive (List.replicate receiveSize 0) buf
  if buf.length = 0 then s.onSessionDrop p .failCallBack
  else
    let onData := Event.onData session.sessionID session.socket str buf.length
    return { s with net := s.net.emit onData, pc := .dataCallBack p }

/-- `DoReadFrom` up to its first callback, with what follows it if there is
    none. -/
def doReadFrom (s : IocpService) (listener : Socket) (datagram : Datagram) (posted : Bool) : Option IocpService := do
  let str := receive (List.replicate receiveSize 0) datagram.bytes
  let size := datagram.bytes.length
  if size = 0 then return (s.postReadFrom listener posted).2
  else
    let id := s.net.getUDPSessionID datagram.address
    if id = 0 then
      let (id, net) := s.net.newSessionID
      if id = 0 then return (s.postReadFrom listener posted).2
      else
        let net := net.setUDPSessionID datagram.address id
        let p := SessionPtr.heap net.allocated
        let session : Session := ⟨true, listener, .udp, datagram.address, some listener, id⟩
        let net := { net.setObject p session with allocated := net.allocated + 1 }
        let net ← net.addSession p
        let net := net.emit (.onAddConnection id listener datagram.address)
        return { s with net, pc := .openCallBack listener str id size }
    else return { s with net := s.net.emit (.onData id listener str size), pc := .datagramCallBack listener }

/-- A callback returns and the operation that made it goes on, up to the next
    callback or the loop. -/
def resume (s : IocpService) (posted : Bool) (next : Option Accepting) : Option IocpService :=
  match s.pc with
  | .idle => none
  | .acceptCallBack listener p => do
    let s ← s.postRead p posted
    return { s with pc := .idle }.rearm listener next
  | .connectCallBack connector => s.connected connector posted
  | .connectFailCallBack connector => s.setAlive connector
  | .dataCallBack p => do
    let s ← s.postRead p posted
    return { s with pc := .idle }
  | .dropCallBack p => do
    let net ← s.net.delSession p
    return { s with net, pc := .idle }
  | .failCallBack => some { s with pc := .idle }
  | .openCallBack listener data id size =>
    some { s with net := s.net.emit (.onData id listener data size), pc := .datagramCallBack listener }
  | .datagramCallBack listener => some { (s.postReadFrom listener posted).2 with pc := .idle }

/-- An outstanding operation is dequeued. -/
def dequeue (s : IocpService) : Operation → Option IocpService
  | .accept listener sock =>
    if (listener, sock) ∈ s.accepts then some { s with accepts := s.accepts.erase (listener, sock) } else none
  | .read p => if p ∈ s.receives then some { s with receives := s.receives.erase p } else none
  | .readFrom listener =>
    if listener ∈ s.receivesFrom then some { s with receivesFrom := s.receivesFrom.erase listener } else none
  | .connect connector =>
    if connector ∈ s.net.attempts then
      some { s with net := { s.net with attempts := s.net.attempts.erase connector } }
    else none

end IocpService

/-! ### Steps -/

/-- Calls of the user; completions, `failed` for those with which
    `GetQueuedCompletionStatus` returns `FALSE`; returns of callbacks. -/
inductive IocpAction where
  | newConnector (connector : Nat) (sock : Socket)
  | addTCPListener (listener : Socket) (first : Option Accepting) (rest : List (Option Accepting))
  | addUDPListener (listener : Socket) (posted : Bool)
  | addTCPConnector (connector : Nat) (posted : Bool)
  | kickSession (id : SessionID)
  | accepted (listener sock : Socket) (address : SockAddr) (associated : Bool) (next : Option Accepting)
  | received (p : SessionPtr) (buf : List Byte)
  | receivedFrom (listener : Socket) (datagram : Datagram) (posted : Bool)
  | connected (connector : Nat)
  | failed (operation : Operation)
  | resume (posted : Bool) (next : Option Accepting)
  deriving DecidableEq, Repr

/-- A step, `none` where it cannot be taken or uses a deleted object. -/
def IocpService.step (s : IocpService) : IocpAction → Option IocpService
  | .newConnector connector sock =>
    let session : Session := ⟨false, sock, .connect, ⟨0, 0⟩, some sock, 0⟩
    if (s.net.objects (.connector connector)).isNone then
      some { s with net := (s.net.emit (.opened sock)).setObject (.connector connector) session }
    else none
  | .addTCPListener listener first rest =>
    if rest.length = 10 then
      let t := (s.addTCPListener listener first rest).2
      let added := t.outstanding listener - s.outstanding listener
      some { t with started := Function.update s.started listener (s.started listener + added) }
    else none
  | .addUDPListener listener posted => some (s.postReadFrom listener posted).2
  | .addTCPConnector connector posted => (s.addTCPConnector connector posted).map Prod.snd
  | .kickSession id =>
    if s.net.issued.contains id then (s.net.kickSession id).map fun net => { s with net } else none
  | .accepted listener sock address associated next =>
    if s.pc = .idle then
      (s.dequeue (.accept listener sock)).bind (·.doAccpet listener sock address associated next)
    else none
  | .received p buf => if s.pc = .idle then (s.dequeue (.read p)).bind (·.doRead p buf) else none
  | .receivedFrom listener datagram posted =>
    if s.pc = .idle then (s.dequeue (.readFrom listener)).bind (·.doReadFrom listener datagram posted) else none
  | .connected connector =>
    if s.pc = .idle then (s.dequeue (.connect connector)).bind (·.doConnect connector) else none
  | .failed operation => if s.pc = .idle then s.dequeue operation else none
  | .resume posted next => s.resume posted next

/-- The states that runs from `InitSession` reach whose steps are all `allowed`. -/
def IocpService.Reachable (allowed : IocpService → IocpAction → Prop) : IocpService → Prop :=
  Transition.Reachable (· = initSession) fun s s' => ∃ action, allowed s action ∧ s.step action = some s'

namespace IocpService

theorem Reachable.init {allowed : IocpService → IocpAction → Prop} : Reachable allowed initSession :=
  Transition.Reachable.start rfl

theorem Reachable.act {allowed : IocpService → IocpAction → Prop} {s s' : IocpService} (reached : Reachable allowed s)
    (action : IocpAction) (allows : allowed s action) (taken : s.step action = some s') : Reachable allowed s' :=
  Transition.Reachable.next reached ⟨action, allows, taken⟩

end IocpService

end LiteServer.Net
