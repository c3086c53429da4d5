import EdNio.Buffer.Growth
import EdNio.Buffer.IndexRange
import EdNio.Buffer.LongStrings
import EdNio.Buffer.MemStreamWriter
import EdNio.Buffer.NumReaders
import EdNio.Buffer.PeekWalk
import EdNio.Buffer.Prefetch
import EdNio.Buffer.ReadCursor
import EdNio.Buffer.StoredData
import EdNio.Container.LeakedObjects
import EdNio.Container.ListCalls
import EdNio.Event.BatchComplete
import EdNio.Event.Bookkeeping
import EdNio.Event.MqReopen
import EdNio.Event.ObjectsInLoop
import EdNio.Event.OnTimer
import EdNio.Event.SetTimer
import EdNio.Event.StableEvent
import EdNio.Net.AcceptedChildren
import EdNio.Net.CloseInCallback
import EdNio.Net.ClosedWrites
import EdNio.Net.ConnectWatched
import EdNio.Net.ConnectionsApart
import EdNio.Net.EventProtocol
import EdNio.Net.PendingWatched
import EdNio.Net.ReceiverSocket
import EdNio.Net.SSLEvents
import EdNio.Net.SSLPending
import EdNio.Net.SSLSocket
import EdNio.Net.SSLStream
import EdNio.Net.SendFail
import EdNio.Net.SocketReuse
import EdNio.Net.Transfer
import EdNio.Task.ExactlyOnce
import EdNio.Task.Listeners
import EdNio.Task.Ownership
import EdNio.Task.PoolBound
import EdNio.Task.QueueHandles
import EdNio.Task.Sections
import EdNio.Task.Shutdown
import EdNio.Task.Tasks
import EdNio.Task.Terminate
import EdNio.Timer.ArmsEarly
import EdNio.Timer.Expirations
import EdNio.Timer.FreshHandle
import EdNio.Timer.PassArithmetic
import EdNio.Timer.PoolClose
