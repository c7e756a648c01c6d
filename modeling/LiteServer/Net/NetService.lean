import LiteServer.Net.RingBufferBase
import Mathlib.Data.List.Nodup
import Mathlib.Logic.Function.Basic

/-!
The sessions of `NetService`: the queue of free IDs, the table `m_Sessions`,
the UDP map and the session objects they point to. An operation yields `none`
where the C++ code would use a session object that was deleted.
-/
namespace LiteServer.Net

def maxSockEvent : Nat := 20000

/-- The `int` of a session; zero is no session. -/
abbrev SessionID := Nat
/-- A descriptor. -/
abbrev Socket := Nat

/-- `SOCK_TYPE`. -/
inductive SockType where
  | none
  | listen
  | connect
  | accepted
  | udp
  deriving DecidableEq, Repr

structure SockAddr where
  port : BitVec 16
  addr : BitVec 32
  deriving DecidableEq, Repr

/-- The key `GetUDPSessionID` and `SetUDPSessionID` pack an address into. -/
def sessionKey (address : SockAddr) : BitVec 64 :=
  (address.port.setWidth 64 <<< 32) ||| address.addr.setWidth 64

/-- A `BaseSession *`: to an object from `new`, or to the session inside a
    `TCPConnector`, which lives as long as its connector. -/
inductive SessionPtr where
  | heap (index : Nat)
  | connector (index : Nat)
  deriving DecidableEq, Repr

/-- `sock` is the descriptor inside `m_Sock`, `none` for `INVALID_SOCKET`. The
    `m_Socket` of a connector is that of its session. -/
structure Session where
  alive : Bool
  socket : Socket
  sockType : SockType
  address : SockAddr
  sock : Option Socket
  sessionID : SessionID
  deriving DecidableEq, Repr

/-- The `SOCK_IO_CONTEXT` that a descriptor is registered with: the operation
    it stands for, on a listener, a connector or a session. -/
inductive Context where
  | accept (listener : Socket)
  | connect (connector : Nat)
  | read (session : SessionPtr)
  | readFrom (listener : Socket)
  deriving DecidableEq, Repr

/-- An entry of `m_Events`. -/
structure PollEvent where
  socket : Socket
  context : Context
  epollIn : Bool
  epollOut : Bool
  deriving DecidableEq, Repr

/-- What the service does to the outside: callbacks, and descriptors obtained
    or closed. `kick` marks a `KickSession` that found a session. -/
inductive Event where
  | onAddConnection (id : SessionID) (sock : Socket) (address : SockAddr)
  | onConnectionDrop (id : SessionID) (sock : Socket)
  | onConnected (id : SessionID) (sock : Socket)
  | onConnectFail (id : SessionID) (sock : Socket)
  | onData (id : SessionID) (sock : Socket) (data : List Byte) (size : Int)
  | kick (id : SessionID)
  | opened (sock : Socket)
  | closed (sock : Socket)
  deriving DecidableEq, Repr

/-- Where the service thread is: in the loop of `ThreadProc`, before a system
    call of `PostAccept` or `PostReadFrom`, or inside a callback, which decides
    what is left to do after it. `data` is the local buffer. -/
inductive Pc where
  | idle
  | accepting (listener : Socket)
  | receiving (listener : Socket) (data : List Byte)
  | acceptCallBack (listener : Socket)
  | connectCallBack (connector : Nat)
  | openCallBack (listener : Socket) (data : List Byte) (id : SessionID) (nread : Nat)
  | dataCallBack (listener : Socket) (data : List Byte)
  | dropCallBack (session : SessionPtr)
  | lastCallBack
  deriving DecidableEq, Repr

/-- `epoll` are the registrations in the epoll instance and `events` the part
    of `m_Events` not yet handled. The last four fields only record the run:
    the connectors whose attempt is in progress, what happened, the IDs that
    `NewSessionID` handed out, and the indices used on `m_Sessions`. -/
structure NetService where
  queSessionID : List SessionID
  mapUDPSessions : BitVec 64 → Option SessionID
  sessions : SessionID → Option SessionPtr
  objects : SessionPtr → Option Session
  allocated : Nat
  epoll : Socket → Option Context
  pc : Pc
  events : List PollEvent
  attempts : List Nat
  trace : List Event
  issued : List SessionID
  accesses : List SessionID

namespace NetService

def emit (s : NetService) (event : Event) : NetService := { s with trace := s.trace ++ [event] }
def access (s : NetService) (id : SessionID) : NetService := { s with accesses := s.accesses ++ [id] }
def setObject (s : NetService) (p : SessionPtr) (session : Session) : NetService :=
  { s with objects := Function.update s.objects p (some session) }
def setSession (s : NetService) (id : SessionID) (p : Option SessionPtr) : NetService :=
  { s with sessions := Function.update s.sessions id p }

/-- `DestroySocket`; closing a descriptor removes its registration. -/
def destroySocket (s : NetService) (sock : Socket) : NetService :=
  { s.emit (.closed sock) with epoll := Function.update s.epoll sock none }

def newSessionID (s : NetService) : SessionID × NetService :=
  match s.queSessionID with
  | [] => (0, s)
  | id :: rest => (id, { s with queSessionID := rest, issued := s.issued ++ [id] })

def freeSessionID (s : NetService) (id : SessionID) : NetService :=
  { s with queSessionID := s.queSessionID ++ [id] }

/-- A new service after `InitSession`. -/
def initSession : NetService where
  queSessionID := List.range' 1 maxSockEvent
  mapUDPSessions _ := none
  sessions _ := none
  objects _ := none
  allocated := 0
  epoll _ := none
  pc := .idle
  events := []
  attempts := []
  trace := []
  issued := []
  accesses := []

def getUDPSessionID (s : NetService) (address : SockAddr) : SessionID :=
  (s.mapUDPSessions (sessionKey address)).getD 0

def setUDPSessionID (s : NetService) (address : SockAddr) (id : SessionID) : NetService :=
  { s with mapUDPSessions := Function.update s.mapUDPSessions (sessionKey address) (if id = 0 then none else some id) }

def addSession (s : NetService) (p : SessionPtr) : Option NetService := do
  let session ← s.objects p
  return (s.access session.sessionID).setSession session.sessionID (some p)

/-- `Sock::Close` on the socket of a session. -/
def closeSock (s : NetService) (p : SessionPtr) : Option NetService := do
  let session ← s.objects p
  match session.sock with
  | none => return s
  | some sock => return (s.destroySocket sock).setObject p { session with sock := none }

def delSession (s : NetService) (p : SessionPtr) : Option NetService := do
  let session ← s.objects p
  let id := session.sessionID
  let s := s.access id
  match s.sessions id with
  | none => return s
  | some stored => do
    let session ← s.objects stored
    let s := s.setObject stored { session with alive := false }
    if session.sockType ≠ .connect then
      let s ← if session.sockType = .accepted then s.closeSock stored else some s
      let s := if session.sockType = .udp then s.setUDPSessionID session.address 0 else s
      let s := { s with objects := Function.update s.objects stored none }
      return (s.setSession id none).freeSessionID id
    else return s.setSession id none

def kickSession (s : NetService) (id : SessionID) : Option NetService := do
  let s := s.access id
  match s.sessions id with
  | none => return s
  | some p => do
    let s := s.emit (.kick id)
    let session ← s.objects p
    let s ← if session.sockType ≠ .udp then s.closeSock p else some s
    s.delSession p

/-- `OnSessionDrop` up to its callback. -/
def onSessionDrop (s : NetService) (p : SessionPtr) : Option NetService := do
  let session ← s.objects p
  if session.sockType = .connect then
    return { s.emit (.onConnectFail session.sessionID session.socket) with pc := .lastCallBack }
  else
    return { s.emit (.onConnectionDrop session.sessionID session.socket) with pc := .dropCallBack p }

end NetService

end LiteServer.Net
