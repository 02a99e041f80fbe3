import NetClass.Library.AnswerLoop
import NetClass.Arch
import NetClass.Library.Memory
import NetClass.Socket.Calls
import NetClass.Socket.Basic
import NetClass.Socket.Poll
import NetClass.Socket.Select
import NetClass.Socket.Integrity
import NetClass.Socket.ReturnCode
import NetClass.Socket.Timing
import NetClass.Socket.Elapsed
import NetClass.Library.Outlasting
import NetClass.Socket.TwoRuns
import NetClass.Socket.Counting
import NetClass.Socket.LongerTimeout
import NetClass.Library.Channel
import NetClass.Socket.Stream
import NetClass.Socket.Account
import NetClass.Socket.SelectWrite
import NetClass.Socket.Builds
import NetClass.Library.Ledger
import NetClass.Socket.Connect
import NetClass.Socket.Object
import NetClass.Socket.Ownership
import NetClass.Library.EventMachine
import NetClass.Library.Precedence
import NetClass.Socket.Modes
import NetClass.Listener.Basic
import NetClass.Listener.Steps
import NetClass.Listener.OwnPort
import NetClass.Socket.Leaks
import NetClass.Library.Holding
import NetClass.Mutex.Win32
import NetClass.Mutex.Posix
import NetClass.Listener.Setup
import NetClass.Listener.Release
import NetClass.Listener.Handover
import NetClass.Listener.Datagrams
import NetClass.Listener.StopRequest
import NetClass.Listener.Life
import NetClass.Listener.Blocking
import NetClass.Library.Residues
import NetClass.Socket.Idle
import NetClass.Socket.Reset
import NetClass.Socket.ConnectOutcome
import NetClass.Socket.SelectWaits
import NetClass.Socket.StaleErrno
import NetClass.Listener.ThreadFlags
import NetClass.Listener.Delivery
import NetClass.Library.ByteOrder
import NetClass.Library.DottedQuad
import NetClass.Socket.Resolution
import NetClass.Library.Shares
import NetClass.Socket.Process
import NetClass.Socket.Session
import NetClass.Socket.InProgress
import NetClass.Socket.UdpWrite
import NetClass.Listener.Traffic
import NetClass.Library.Sections
import NetClass.Mutex.Exclusion
import NetClass.Socket.UdpRead
import NetClass.Mutex.Portable
import NetClass.Listener.Shutdown
import NetClass.Listener.BindRetry
import NetClass.Listener.Rendezvous
import NetClass.Socket.Retries
import NetClass.Socket.Stalled
import NetClass.Thread.Win32
import NetClass.Library.Counter
import NetClass.Startup
import NetClass.Listener.Service
import NetClass.Listener.ServerProcess
import NetClass.Thread.Posix
import NetClass.Socket.Destination
