import Mathlib.Data.BitVec

/-!
Contract: the constants and macros of `ncenums.h`, `ncconsts.h` and of the POSIX
part of `ncarch.h`.

Owns: the return codes, the error numbers that the code tells apart, and the
macros that classify them.

Does **not** own: the numeric values of the error numbers. The code compares
`errno` with names only, so every other value is one constructor.
-/

set_option autoImplicit false

namespace NetClass

/-- `enum RetCode`. -/
inductive RetCode where
  | failed
  | ok
  | timedOut
  | badArgs
  | moreData
  | clientDisconnect
  | notSupported
deriving DecidableEq, Repr

/-- The values of `errno`. `EAGAIN` is also `EWOULDBLOCK`. -/
inductive Errno where
  | epipe
  | econnreset
  | ealready
  | einprogress
  | eagain
  | eisconn
  | eaddrinuse
  | other (code : Int)
deriving DecidableEq, Repr

/-! ### `ncconsts.h` -/

def maxHostnameLen : Nat := 256
def socktypeTcpip : Int := 0
def socktypeUdp : Int := 1
def ncThreaded : Int := 0
def ncNonthreaded : Int := 1
def ncDetached : BitVec 32 := 2
def ncJoined : BitVec 32 := 4
def ncReuseaddr : BitVec 32 := 8
def maxDgramBufLen : Nat := 512

/-! ### `ncarch.h`, POSIX -/

def pollIn : BitVec 16 := 0x001
def pollOut : BitVec 16 := 0x004
def pollErr : BitVec 16 := 0x008
def sockStream : Int := 1
def sockDgram : Int := 2
def ncsdSend : Int := 1
def ncsdRead : Int := 0

def ncSocketError (value : Int) : Bool := value == -1

def ncIsBlockingError : Errno → Bool
  | .ealready | .einprogress | .eagain => true
  | _ => false

def ncSocketReset : Errno → Bool
  | .epipe | .econnreset => true
  | _ => false

/-- `ncIsConnected(a)` is the constant 0 on every POSIX platform. -/
def ncIsConnected (_ : Errno) : Bool := false

def ncAddrInUse : Errno → Bool
  | .eaddrinuse => true
  | _ => false

/-- No error is both a lost connection and a request to try again, so the order
of the two tests in the transfer loops does not matter. -/
theorem ncSocketReset_of_blocking {errno : Errno} (blocking : ncIsBlockingError errno = true) :
    ncSocketReset errno = false := by
  cases errno <;> simp_all [ncIsBlockingError, ncSocketReset]

end NetClass
