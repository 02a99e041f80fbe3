import NetClass.Socket.Object

/-!
Contract: the state of an `ncSocketListener`, the log of what it does, and what one
kernel answer carries.

Owns: the fields of the object, the arguments and the locals of `startListening`,
`udpData`, and the functions of `ncThread` that the listener uses.

Does **not** own: the steps of `startListening` and `stopListening`; see
`NetClass.Listener.Steps`.

`m_listening` is only ever assigned 0 and 1 and is a `Bool` here. `new` never returns
a null pointer, so the two branches for one are left out.
-/

set_option autoImplicit false

namespace NetClass.Listener

open NetClass.Socket

/-- The fields of `class ncSocketListener`. -/
structure NcSocketListener where
  sockfd : Int
  listening : Bool
  socktype : Int
  backlog : Int
  port : UInt16
deriving DecidableEq, Repr

/-- `ncSocketListener::ncSocketListener`. -/
def NcSocketListener.make (port : UInt16) (sockType : Int) : NcSocketListener :=
  { sockfd := 0, listening := false, socktype := sockType, backlog := 16, port := port }

/-- The arguments of `startListening`. `callback` tells whether `fnptr` is non-null. -/
structure Arguments where
  callback : Bool
  option : Int
  flags : BitVec 32
deriving DecidableEq, Repr

/-- The test "make sure incoming arguments make sense" fails. -/
def Arguments.bad (args : Arguments) : Bool :=
  !args.callback || (args.option != ncThreaded && args.option != ncNonthreaded) ||
    (args.flags &&& ncDetached == 0 && args.flags &&& ncJoined == 0 &&
      args.flags &&& ncReuseaddr == 0)

/-! ### Addresses and datagrams -/

/-- `sizeof(struct sockaddr_in)`. -/
def sizeofSockaddrIn : Nat := 16

/-- The kernel stores at most `length` bytes of an address. -/
def storeAddress (old : List UInt8) (length : Nat) (address : List UInt8) : List UInt8 :=
  address.take length ++ old.drop (min length address.length)

/-- A whole address replaces the old one. -/
theorem storeAddress_whole {old address : List UInt8} {length : Nat}
    (oldLength : old.length = length) (newLength : address.length = length) :
    storeAddress old length address = address := by
  have nothing : old.drop length = [] := List.drop_of_length_le (Nat.le_of_eq oldLength)
  rw [storeAddress, newLength, Nat.min_self, nothing, List.append_nil,
    List.take_of_length_le (Nat.le_of_eq newLength)]

/-- `sin_addr.s_addr`, in the byte order of the machine. -/
def inAddr (address : List UInt8) : Nat :=
  ((address.drop 4).take 4).foldr (fun byte high => byte.toNat + 256 * high) 0

/-- The fields of `class udpData`. -/
structure UdpData where
  sockfd : Int
  length : Int
  clientaddr : List UInt8
  data : List UInt8
deriving DecidableEq, Repr

namespace UdpData

/-- `MIN(len,MAX_DGRAM_BUF_LEN)`. -/
def dgramLength (len : Int) : Int := if len < maxDgramBufLen then len else maxDgramBufLen

/-- The length that `memcpy` gets: an `int` converted to `size_t`. -/
def copyLength (length : Int) : Nat := (UInt64.ofInt length).toNat

/-- `udpData::udpData(sockfd,clientaddr,buf,len)`. -/
def make (sockfd : Int) (clientaddr buf : List UInt8) (len : Int) : UdpData :=
  { sockfd := sockfd, length := dgramLength len, clientaddr := clientaddr,
    data := buf.take (copyLength (dgramLength len)) }

end UdpData

/-! ### What others see of a listener -/

/-- The system calls of the listener with their answers, the sockets it constructs and
the calls of `fnptr`. `create` is `pthread_create` with the socket that `fnptr` is to be
run on. -/
inductive Action where
  | socket (sockType fd : Int)
  | setReuse (fd ret : Int)
  | bind (fd : Int) (port : UInt16) (ret : Int) (errno : Errno)
  | sleep (millisecs : Nat)
  | listen (fd backlog ret : Int)
  | setNonBlocking (fd : Int)
  | accept (fd client : Int)
  | construct (sock : NcSocket)
  | create (thread : Nat) (sock : NcSocket) (ret : Int)
  | detach (thread : Nat) (ret : Int)
  | join (thread : Nat) (ret : Int)
  | delete (sock : NcSocket)
  | client (call : Call)
  | callback (sock : NcSocket)
  | recvfrom (fd size : Int)
  | deliver (datagram : UdpData)
  | shutdown (fd how : Int)
  | close (fd : Int)
deriving DecidableEq, Repr

/-- The answer to one call. Each call uses the parts it has. -/
structure Answer where
  ret : Int
  errno : Errno
  address : List UInt8
  thread : Nat
  bytes : List UInt8
deriving DecidableEq, Repr

namespace Answer

/-- The answer of a call that succeeds and stores nothing. -/
def value (ret : Int) : Answer :=
  { ret := ret, errno := .other 0, address := [], thread := 0, bytes := [] }

/-- The answer of a call that fails. -/
def error (errno : Errno) : Answer := { value (-1) with errno := errno }

end Answer

/-! ### `ncThread` -/

/-- A function of `ncThread`: the POSIX call, or nothing at all in a build without
`HAVE_THREADS`. -/
def threadCall (haveThreads : Bool) (call : Action) (ret : Int) : RetCode × List Action :=
  if haveThreads then (if ret ≠ 0 then .failed else .ok, [call]) else (.ok, [])

/-- A function of `ncThread` makes no other call than its own. -/
theorem mem_threadCall {haveThreads : Bool} {call action : Action} {ret : Int}
    (member : action ∈ (threadCall haveThreads call ret).2) : action = call := by
  unfold threadCall at member
  split_ifs at member <;> simp_all

namespace NcThread

/-- `ncThread::start`. -/
def start (haveThreads : Bool) (thread : Nat) (sock : NcSocket) (ret : Int) :
    RetCode × List Action :=
  threadCall haveThreads (.create thread sock ret) ret

/-- `ncThread::join`. -/
def join (haveThreads : Bool) (thread : Nat) (ret : Int) : RetCode × List Action :=
  threadCall haveThreads (.join thread ret) ret

/-- `ncThread::detach`. -/
def detach (haveThreads : Bool) (thread : Nat) (ret : Int) : RetCode × List Action :=
  threadCall haveThreads (.detach thread ret) ret

end NcThread

/-! ### The locals of `startListening` -/

/-- `buf`, after `memset` and after the kernel has stored `bytes` in it. -/
def dgramBuffer (bytes : List UInt8) : List UInt8 :=
  (bytes ++ List.replicate maxDgramBufLen 0).take maxDgramBufLen

/-- The local variables. `thread` is the handle in `newThread`. -/
structure Locals where
  bindAttempts : Nat
  client : Int
  clientaddr : List UInt8
  addrlen : Nat
  cliLen : Nat
  thread : Nat
  datasize : Int
  buf : List UInt8
deriving DecidableEq, Repr

def Locals.start : Locals :=
  { bindAttempts := 0, client := 0, clientaddr := List.replicate sizeofSockaddrIn 0,
    addrlen := sizeofSockaddrIn, cliLen := sizeofSockaddrIn, thread := 0, datasize := 0,
    buf := dgramBuffer [] }

/-- `new ncSocket(client)` and `setIpAddr(clientaddr.sin_addr.s_addr)`. -/
def Locals.newSock (locals : Locals) : NcSocket :=
  { NcSocket.ofSockfd locals.client with ipaddr := inAddr locals.clientaddr }

end NetClass.Listener
