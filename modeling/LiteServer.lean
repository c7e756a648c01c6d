import LiteServer.Lib.Masks
import LiteServer.Lib.Transition
import LiteServer.Lib.LinkedList
import LiteServer.Timer.Slots
import LiteServer.Timer.Placement
import LiteServer.Timer.Linked
import LiteServer.Timer.Wheel
import LiteServer.Timer.Threads
import LiteServer.Timer.Refinement
import LiteServer.Timer.Deadlines
import LiteServer.Timer.Order
import LiteServer.Timer.TimerExecute
import LiteServer.Timer.UpdateTime
import LiteServer.Timer.Fates
import LiteServer.Lib.Ring
import LiteServer.Lib.Lifetime
import LiteServer.Net.RingBufferBase
import LiteServer.Net.RingBuffer
import LiteServer.Net.RingBufferSpsc
import LiteServer.Net.Epoll
import LiteServer.Net.Outcomes
import LiteServer.Net.SessionIDs
import LiteServer.Net.SessionTable
import LiteServer.Net.ByteStream
import LiteServer.Net.Iocp
import LiteServer.Net.IocpService
import LiteServer.Net.PeerClose
import LiteServer.Net.Watched
import LiteServer.Net.DeadSessions
import LiteServer.Util.HeldIDs
import LiteServer.Lua.LuaUtil
import LiteServer.Lua.Arguments
import LiteServer.Lua.Results
import LiteServer.Db.RedisConnectorWrap
import LiteServer.Db.RoundTrip
import LiteServer.Lib.Latest
import LiteServer.Net.Moves
import LiteServer.Net.EpollMoves
import LiteServer.Net.UdpMap
import LiteServer.Net.Peers
import LiteServer.Net.Identity
import LiteServer.Net.Consistent
import LiteServer.Net.IocpOutcomes
import LiteServer.Net.IocpMoves
import LiteServer.Net.IocpConsistent
import LiteServer.Net.Connects
import LiteServer.Net.IocpConnects
import LiteServer.Net.Armed
import LiteServer.Net.Accepts
import LiteServer.Net.Descriptors
import LiteServer.Net.ClosesOnce
import LiteServer.Net.FailedAdds
import LiteServer.Net.Calls
import LiteServer.Net.CallSessions
import LiteServer.Net.AcceptCalls
import LiteServer.Net.ReceiveCalls
import LiteServer.Lib.Locking
import LiteServer.Thread.AtomSpinLock
import LiteServer.Util.Lookups
import LiteServer.Lib.Stopwatch
import LiteServer.Util.CpuCostTimer
import LiteServer.Util.SetObjPool
import LiteServer.Util.Lifecycles
import LiteServer.Net.Progress
import LiteServer.Lib.Guarded
import LiteServer.Net.RingThreads
import LiteServer.Net.SpscCalls
import LiteServer.Net.Sock
import LiteServer.Lua.Arrays
import LiteServer.Db.SafeCommand
import LiteServer.Lua.Objects
import LiteServer.Lua.Class
import LiteServer.Lua.Clones
import LiteServer.Lua.Constructors
import LiteServer.Lua.Returns
import LiteServer.Lua.DeepCopy
import LiteServer.Lua.Scripts
import LiteServer.Lua.Dispatch
import LiteServer.Lua.WrapLifetimes
import LiteServer.Db.RedisMap
import LiteServer.Net.IDOrder
import LiteServer.Net.LostIDs
import LiteServer.Net.References
import LiteServer.Net.AcceptContexts
import LiteServer.Lib.Monitor
import LiteServer.Net.Talk
import LiteServer.Net.Conversations
import LiteServer.Net.IocpConversations
import LiteServer.Db.RedisConnector
