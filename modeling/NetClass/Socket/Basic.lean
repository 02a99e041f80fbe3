import NetClass.Library.AnswerLoop
import NetClass.Socket.Calls

/-!
Contract: the state of an `ncSocket` and what the four transfer loops share.

Owns: the fields of the object with its constructors and setters, the local
variables of `writeData` and `readData`, `checkTimeout`, and the updates of the
locals from which every branch of the loops is composed.

Does **not** own: the branches themselves; see `NetClass.Socket.Poll` and
`NetClass.Socket.Select`.

Signed `int` locals are integers: they hold lengths and offsets, and overflow has no
meaning for them in the source. `unsigned int` counters are `UInt32` and wrap.
-/

set_option autoImplicit false

namespace NetClass.Socket

/-- The fields of `class ncSocket`. `stdiofd` is the descriptor under the `FILE`
that `flush` opened, or `none` for the null pointer. -/
structure NcSocket where
  sockfd : Int
  stdiofd : Option Int
  timeout : UInt32
  polltime : UInt32
  port : UInt16
  socktype : Int
  ipaddr : Nat
  hostname : List UInt8
deriving DecidableEq, Repr

/-- `MIN(strlen(host),MAX_HOSTNAME_LEN-1)` bytes of the name are copied. -/
def copyHostname (host : List UInt8) : List UInt8 := host.take (maxHostnameLen - 1)

namespace NcSocket

/-- `ncSocket::ncSocket()`. -/
def default : NcSocket :=
  { sockfd := -1, stdiofd := none, timeout := 10000, polltime := 100, port := 0,
    socktype := 0, ipaddr := 0, hostname := [] }

/-- `ncSocket::ncSocket(int sockfd)`. -/
def ofSockfd (sockfd : Int) : NcSocket :=
  { sockfd := sockfd, stdiofd := none, timeout := 10000, polltime := 100, port := 0,
    socktype := 0, ipaddr := 0, hostname := [] }

/-- `ncSocket::ncSocket(char *host, unsigned short port, int sockType)`. -/
def ofHost (host : List UInt8) (port : UInt16) (sockType : Int) : NcSocket :=
  { sockfd := 0, stdiofd := none, timeout := 10000, polltime := 100, port := port,
    socktype := sockType, ipaddr := 0, hostname := copyHostname host }

def setPollTime (sock : NcSocket) (millisecs : UInt32) : NcSocket :=
  { sock with polltime := millisecs }

def setTimeout (sock : NcSocket) (millisecs : UInt32) : NcSocket :=
  { sock with timeout := millisecs }

/-- `ncSocket::checkTimeout`. The result carries the return code and the new
values of `*timeout` and `*timedout`. -/
def checkTimeout (sock : NcSocket) (timeout : UInt32) (timedout : Bool)
    (haveAllData : Int) : RetCode × UInt32 × Bool :=
  let timeout := timeout + sock.polltime
  if sock.timeout ≤ timeout then
    let ret :=
      if haveAllData = -1 then .timedOut
      else if haveAllData = 0 then .moreData
      else .ok
    (ret, timeout, true)
  else (.ok, timeout, timedout)

/-- The transfer call of one direction: the stream call for a TCP socket, the
datagram call otherwise. -/
def transferCall (sock : NcSocket) : Direction → TransferCall
  | .write => if sock.socktype = socktypeTcpip then .send else .sendto
  | .read => if sock.socktype = socktypeTcpip then .recv else .recvfrom

theorem transferCall_direction (sock : NcSocket) (direction : Direction) :
    (sock.transferCall direction).direction = direction := by
  cases direction <;> unfold transferCall <;> split_ifs <;> rfl

end NcSocket

/-- The second argument of `shutdown` after a failed transfer. -/
def Direction.how : Direction → Int
  | .write => ncsdSend
  | .read => ncsdRead

/-! ### Local variables -/

/-- The local variables of a transfer call, and the calls issued so far. `pPtr`
is an offset from `buf`; `numActualBytes` is `none` for the null pointer.
`haveAllData` is set anew in each pass and so is not kept. -/
structure Locals where
  pPtr : Int
  nRemaining : Int
  numActualBytes : Option Int
  timeout : UInt32
  timedout : Bool
  ret : RetCode
  calls : List Call
deriving DecidableEq, Repr

namespace Locals

/-- The locals before the loop. `counted` tells whether `numActualBytes` is
non-null. -/
def start (bufLen : Int) (counted : Bool) : Locals :=
  { pPtr := 0, nRemaining := bufLen, numActualBytes := if counted then some 0 else none,
    timeout := 0, timedout := false, ret := .ok, calls := [] }

/-- `(nRemaining > 0) && (!timedout)`. -/
def running (locals : Locals) : Bool :=
  decide (0 < locals.nRemaining) && !locals.timedout

/-- `haveAllData` as every branch computes it from the value `-1` that each pass
begins with. -/
def haveAllData (locals : Locals) (bufLen : Int) : Int :=
  match locals.numActualBytes with
  | some count => if 0 < count then (if count = bufLen then 1 else 0) else -1
  | none => -1

/-- Record a system call. -/
def issue (locals : Locals) (call : Call) : Locals :=
  { locals with calls := locals.calls ++ [call] }

/-- Issue the transfer call for what remains of the buffer. -/
def attempt (locals : Locals) (sock : NcSocket) (direction : Direction)
    (answer : TransferAnswer) : Locals :=
  locals.issue
    (.transfer (sock.transferCall direction) sock.sockfd locals.pPtr locals.nRemaining answer)

/-- `ret = checkTimeout(&timeout,&timedout,haveAllData)`. -/
def account (locals : Locals) (sock : NcSocket) (bufLen : Int) : Locals :=
  let outcome :=
    sock.checkTimeout locals.timeout locals.timedout (locals.haveAllData bufLen)
  { locals with ret := outcome.1, timeout := outcome.2.1, timedout := outcome.2.2 }

/-- Step the pointer, the remaining length and the count by the value of a
transfer call. -/
def advance (locals : Locals) (value : Int) : Locals :=
  { locals with
    pPtr := locals.pPtr + value
    nRemaining := locals.nRemaining - value
    numActualBytes := locals.numActualBytes.map (· + value) }

/-- `nRemaining = 0`, which ends the loop. -/
def giveUp (locals : Locals) : Locals := { locals with nRemaining := 0 }

/-- `nRemaining = 0; shutdown(...); ret = code`. -/
def disconnect (locals : Locals) (sock : NcSocket) (direction : Direction)
    (code : RetCode) : Locals :=
  { (locals.giveUp.issue (.shutdown sock.sockfd direction.how)) with ret := code }

theorem running_iff (locals : Locals) :
    locals.running = true ↔ 0 < locals.nRemaining ∧ locals.timedout = false := by
  simp [running]

@[simp] theorem giveUp_running (locals : Locals) : locals.giveUp.running = false := by
  simp [giveUp, running]

@[simp] theorem disconnect_running (locals : Locals) (sock : NcSocket)
    (direction : Direction) (code : RetCode) :
    (locals.disconnect sock direction code).running = false := by
  simp [disconnect, giveUp, issue, running]

@[simp] theorem disconnect_calls (locals : Locals) (sock : NcSocket)
    (direction : Direction) (code : RetCode) :
    (locals.disconnect sock direction code).calls =
      locals.calls ++ [.shutdown sock.sockfd direction.how] := rfl

/-! ### `checkTimeout` on the locals -/

@[simp] theorem account_numActualBytes (locals : Locals) (sock : NcSocket) (bufLen : Int) :
    (locals.account sock bufLen).numActualBytes = locals.numActualBytes := rfl

@[simp] theorem account_calls (locals : Locals) (sock : NcSocket) (bufLen : Int) :
    (locals.account sock bufLen).calls = locals.calls := rfl

@[simp] theorem account_timeout (locals : Locals) (sock : NcSocket) (bufLen : Int) :
    (locals.account sock bufLen).timeout = locals.timeout + sock.polltime := by
  simp only [account, NcSocket.checkTimeout]
  split_ifs <;> rfl

/-- While the limit is not reached, `checkTimeout` answers `NC_OK` and leaves
`*timedout` alone. -/
theorem account_early {locals : Locals} {sock : NcSocket} (bufLen : Int)
    (early : ¬ sock.timeout ≤ locals.timeout + sock.polltime) :
    (locals.account sock bufLen).ret = .ok ∧
      (locals.account sock bufLen).timedout = locals.timedout := by
  simp [account, NcSocket.checkTimeout, early]

/-- When the limit is reached, `*timedout` is set and the code says how much of
the data is known to be there. -/
theorem account_expired {locals : Locals} {sock : NcSocket} (bufLen : Int)
    (expired : sock.timeout ≤ locals.timeout + sock.polltime) :
    (locals.account sock bufLen).timedout = true ∧
      (locals.account sock bufLen).ret =
        (if locals.haveAllData bufLen = -1 then .timedOut
         else if locals.haveAllData bufLen = 0 then .moreData else .ok) := by
  simp [account, NcSocket.checkTimeout, expired]

/-- `checkTimeout` never restarts a loop. -/
theorem running_of_account {locals : Locals} {sock : NcSocket} {bufLen : Int}
    (goes : (locals.account sock bufLen).running = true) : locals.running = true := by
  rw [running_iff] at goes ⊢
  obtain ⟨remaining, timedout⟩ := goes
  refine ⟨remaining, ?_⟩
  by_cases expired : sock.timeout ≤ locals.timeout + sock.polltime
  · rw [(account_expired bufLen expired).1] at timedout
    exact Bool.noConfusion timedout
  · rw [(account_early bufLen expired).2] at timedout
    exact timedout

end Locals

/-- Where the `switch` over the result of a wait leads: to the transfer call, or
out of the pass. -/
inductive Waited where
  | transfer (locals : Locals)
  | done (pass : Pass Locals RetCode)

end NetClass.Socket
