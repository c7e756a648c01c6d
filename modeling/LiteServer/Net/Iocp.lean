import LiteServer.Net.Epoll

/-!
The receive path of the IOCP backend. It shares the sessions with the epoll
backend; the callbacks it makes here return without calling the service.
-/
namespace LiteServer.Net

/-- The size of `str` in `DoRead`, which `m_WsaBuf.len` bounds a receive by. -/
def receiveSize : Nat := 8192

/-- The service, and the sessions that a `WSARecv` is outstanding for. -/
structure Iocp where
  net : NetService
  receives : List SessionPtr

namespace Iocp

/-- `posted` is whether `WSARecv` took the receive. -/
def postRead (s : Iocp) (p : SessionPtr) (posted : Bool) : Option Iocp := do
  let _ ← s.net.objects p
  return if posted then { s with receives := s.receives ++ [p] } else s

/-- A receive completed with the bytes in the buffer of the session. -/
def doRead (s : Iocp) (p : SessionPtr) (buf : List Byte) (posted : Bool) : Option Iocp := do
  let session ← s.net.objects p
  let str := receive (List.replicate receiveSize 0) buf
  if buf.length = 0 then
    let net ← s.net.onSessionDrop p
    let net ← net.resume false
    return { s with net }
  else
    let onData := Event.onData session.sessionID session.socket str buf.length
    let net ← ({ s.net.emit onData with pc := .lastCallBack } : NetService).resume false
    ({ s with net } : Iocp).postRead p posted

/-- Receives of one session complete one after the other. -/
def reads (s : Iocp) (p : SessionPtr) (completed : List (List Byte)) : Option Iocp :=
  completed.foldlM (fun s buf => s.doRead p buf true) s

end Iocp

end LiteServer.Net
