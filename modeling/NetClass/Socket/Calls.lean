import NetClass.Arch
import NetClass.Library.Memory

/-!
Contract: the system calls that an `ncSocket` issues, and what they do to the
bytes of a transfer.

Owns: one constructor for each call with its arguments and the kernel's answer,
the kernel's side of a transfer (which bytes were accepted, received and stored),
and the laws of a log whose transfers follow each other without a gap.

Does **not** own: when the code issues which call.
-/

set_option autoImplicit false

namespace NetClass.Socket

/-- The two transfer functions of an `ncSocket`: `writeData` and `readData`. -/
inductive Direction where
  | write
  | read
deriving DecidableEq, Repr

/-- The system calls that move bytes. -/
inductive TransferCall where
  | send
  | sendto
  | recv
  | recvfrom
deriving DecidableEq, Repr

def TransferCall.direction : TransferCall → Direction
  | .send | .sendto => .write
  | .recv | .recvfrom => .read

/-- What `poll` or `select` answers: its value, the flags that `poll` stores in
`revents`, and what `FD_ISSET` tells after `select`. -/
structure WaitAnswer where
  ret : Int
  revents : BitVec 16
  isSet : Bool
deriving DecidableEq, Repr

/-- A wait on one descriptor answers -1, 0 or 1. -/
def WaitAnswer.Plain (answer : WaitAnswer) : Prop :=
  answer.ret = -1 ∨ answer.ret = 0 ∨ answer.ret = 1

instance (answer : WaitAnswer) : Decidable answer.Plain := by
  unfold WaitAnswer.Plain
  infer_instance

/-- What a transfer call answers: its value, the `errno` that is read after it,
and for `recv` and `recvfrom` the bytes stored behind the pointer. -/
structure TransferAnswer where
  ret : Int
  errno : Errno
  bytes : List UInt8
deriving DecidableEq, Repr

/-- The kernel's answers of one pass. The second one is only asked for after a
wait that finds the descriptor ready. -/
structure Answer where
  wait : WaitAnswer
  transfer : TransferAnswer
deriving DecidableEq, Repr

/-- The fields of `struct sockaddr_in` that the code sets, `sin_port` in host byte order and
`s_addr` as it stands in memory. -/
structure SockAddrIn where
  family : Nat
  port : UInt16
  address : Nat
deriving DecidableEq, Repr

/-- After `memset`. -/
def SockAddrIn.zero : SockAddrIn := ⟨0, 0, 0⟩

def afInet : Nat := 2

/-- A system call with its arguments and its answer. Pointers into the caller's
buffer are offsets from `buf`. -/
inductive Call where
  | poll (fd : Int) (events : BitVec 16) (millisecs : UInt32) (answer : WaitAnswer)
  | select (fd : Int) (direction : Direction) (sec usec : Int) (answer : WaitAnswer)
  | transfer (call : TransferCall) (fd offset length : Int) (answer : TransferAnswer)
  | shutdown (fd how : Int)
  | socket (fd : Int)
  | setNonBlocking (fd : Int)
  | connect (fd : Int) (servaddr : SockAddrIn) (ret : Int) (errno : Errno)
  | sleep (millisecs : Nat)
  | close (fd : Int)
  | fdopen (fd : Int) (opened : Bool)
  | fflush (fd : Int) (ret : Int)
  | fclose (fd : Int)
deriving DecidableEq, Repr

namespace Call

def isWait : Call → Bool
  | .poll .. | .select .. => true
  | _ => false

def isTransfer : Call → Bool
  | .transfer .. => true
  | _ => false

@[simp] theorem isWait_transfer (call : TransferCall) (fd offset length : Int)
    (answer : TransferAnswer) : (transfer call fd offset length answer).isWait = false := rfl

@[simp] theorem isTransfer_transfer (call : TransferCall) (fd offset length : Int)
    (answer : TransferAnswer) :
    (transfer call fd offset length answer).isTransfer = true := rfl

@[simp] theorem isWait_shutdown (fd how : Int) : (shutdown fd how).isWait = false := rfl

@[simp] theorem isTransfer_shutdown (fd how : Int) :
    (shutdown fd how).isTransfer = false := rfl

theorem isTransfer_of_isWait {call : Call} (isWait : call.isWait = true) :
    call.isTransfer = false := by
  cases call <;> simp_all [Call.isWait, Call.isTransfer]

/-- The number of bytes that the call moved. -/
def moved : Call → Nat
  | .transfer _ _ _ _ answer => answer.ret.toNat
  | _ => 0

@[simp] theorem moved_transfer (call : TransferCall) (fd offset length : Int)
    (answer : TransferAnswer) :
    (transfer call fd offset length answer).moved = answer.ret.toNat := rfl

theorem moved_of_not_isTransfer {call : Call} (plain : call.isTransfer = false) :
    call.moved = 0 := by
  cases call <;> simp_all [moved, isTransfer]

/-- The bytes that the kernel took from `mem`, the memory around `buf`. -/
def accepted (mem : Int → UInt8) : Call → List UInt8
  | .transfer call _ offset _ answer =>
      match call.direction with
      | .write => Memory.window mem offset answer.ret.toNat
      | .read => []
  | _ => []

/-- The bytes that the kernel handed over. -/
def received : Call → List UInt8
  | .transfer call _ _ _ answer =>
      match call.direction with
      | .write => []
      | .read => answer.bytes
  | _ => []

/-- The memory around `buf` after the call. -/
def stored (mem : Int → UInt8) : Call → Int → UInt8
  | .transfer call _ offset _ answer =>
      match call.direction with
      | .write => mem
      | .read => Memory.store mem offset answer.bytes
  | _ => mem

/-- What the kernel promises for a transfer: it moves at most `length` bytes, it
says so, and `recv` writes only the bytes that it reports. -/
def Honest : Call → Prop
  | .transfer call _ _ length answer =>
      -1 ≤ answer.ret ∧ answer.ret ≤ length ∧
        (call.direction = .read → answer.bytes.length = answer.ret.toNat)
  | _ => True

/-- A transfer call in `direction` that is given exactly `buf[j..bufLen)`. -/
def Window (direction : Direction) (bufLen : Int) (j : Nat) : Call → Prop
  | .transfer call _ offset length _ =>
      call.direction = direction ∧ offset = j ∧ length = bufLen - j
  | _ => True

instance (call : Call) : Decidable call.Honest := by
  cases call <;> unfold Honest <;> infer_instance

instance (direction : Direction) (bufLen : Int) (j : Nat) (call : Call) :
    Decidable (call.Window direction bufLen j) := by
  cases call <;> unfold Window <;> infer_instance

end Call

/-! ### Logs of calls -/

/-- The number of bytes that a log of calls moved. -/
def moved (calls : List Call) : Nat := (calls.map Call.moved).sum

def accepted (mem : Int → UInt8) (calls : List Call) : List UInt8 :=
  calls.flatMap (Call.accepted mem)

def received (calls : List Call) : List UInt8 := calls.flatMap Call.received

def stored (mem : Int → UInt8) (calls : List Call) : Int → UInt8 :=
  calls.foldl Call.stored mem

def Honest (calls : List Call) : Prop := ∀ call ∈ calls, call.Honest

/-- Every transfer of the log is given exactly what remains of the buffer, `j`
bytes having been moved before the log begins. -/
def Windowed (direction : Direction) (bufLen : Int) : Nat → List Call → Prop
  | _, [] => True
  | j, call :: rest =>
      call.Window direction bufLen j ∧ Windowed direction bufLen (j + call.moved) rest

instance (calls : List Call) : Decidable (Honest calls) := by
  unfold Honest
  infer_instance

instance decidableWindowed (direction : Direction) (bufLen : Int) :
    ∀ (j : Nat) (calls : List Call), Decidable (Windowed direction bufLen j calls)
  | _, [] => isTrue trivial
  | j, call :: rest =>
      have := decidableWindowed direction bufLen (j + call.moved) rest
      inferInstanceAs (Decidable (_ ∧ _))

@[simp] theorem moved_nil : moved [] = 0 := rfl

@[simp] theorem moved_cons (call : Call) (calls : List Call) :
    moved (call :: calls) = call.moved + moved calls := by
  simp [moved]

@[simp] theorem moved_append (left right : List Call) :
    moved (left ++ right) = moved left + moved right := by
  simp [moved]

@[simp] theorem honest_append (left right : List Call) :
    Honest (left ++ right) ↔ Honest left ∧ Honest right := by
  simp only [Honest, List.mem_append, or_imp, forall_and]

@[simp] theorem honest_cons (call : Call) (calls : List Call) :
    Honest (call :: calls) ↔ call.Honest ∧ Honest calls := by
  simp [Honest]

theorem windowed_append (direction : Direction) (bufLen : Int) (left right : List Call) :
    ∀ j, Windowed direction bufLen j (left ++ right) ↔
      Windowed direction bufLen j left ∧ Windowed direction bufLen (j + moved left) right := by
  induction left with
  | nil => simp [Windowed]
  | cons call rest inductionHypothesis =>
      intro j
      simp only [List.cons_append, Windowed, inductionHypothesis, moved_cons, and_assoc,
        Nat.add_assoc]

/-! ### Sequential transfers

A log whose transfers are windowed moves one contiguous range of the buffer, each
byte once and in order. -/

theorem accepted_of_windowed (mem : Int → UInt8) {bufLen : Int} {calls : List Call} :
    ∀ {j : Nat}, Windowed .write bufLen j calls →
      accepted mem calls = Memory.window mem j (moved calls) := by
  induction calls with
  | nil => intro j _; rfl
  | cons call rest inductionHypothesis =>
      intro j windowed
      obtain ⟨here, later⟩ := windowed
      have tail := inductionHypothesis later
      have head : call.accepted mem = Memory.window mem j call.moved := by
        cases call with
        | transfer name fd offset length answer =>
            obtain ⟨writes, atCount, -⟩ := here
            simp only [Call.accepted, writes, Call.moved, atCount]
        | _ => rfl
      calc accepted mem (call :: rest)
          = call.accepted mem ++ accepted mem rest := by simp [accepted]
        _ = Memory.window mem j (call.moved + moved rest) := by
            rw [head, tail, Memory.window_add, Nat.cast_add]
        _ = Memory.window mem j (moved (call :: rest)) := by rw [moved_cons]

theorem stored_of_windowed {bufLen : Int} {calls : List Call} :
    ∀ (mem : Int → UInt8) {j : Nat}, Windowed .read bufLen j calls → Honest calls →
      Memory.window (stored mem calls) j (moved calls) = received calls ∧
        ∀ address : Int, address < j ∨ j + moved calls ≤ address →
          stored mem calls address = mem address := by
  induction calls with
  | nil =>
      intro mem j _ _
      exact ⟨rfl, fun _ _ => rfl⟩
  | cons call rest inductionHypothesis =>
      intro mem j windowed honest
      obtain ⟨here, later⟩ := windowed
      obtain ⟨honestHere, honestLater⟩ := (honest_cons call rest).mp honest
      -- The call itself stores the bytes it reports at `j`.
      have head : call.received.length = call.moved ∧
          call.stored mem = Memory.store mem j call.received := by
        cases call with
        | transfer name fd offset length answer =>
            obtain ⟨reads, atCount, -⟩ := here
            obtain ⟨-, -, reported⟩ := honestHere
            simp only [Call.received, Call.stored, Call.moved, reads, atCount]
            exact ⟨reported reads, trivial⟩
        | _ => exact ⟨rfl, (Memory.store_nil mem j).symm⟩
      obtain ⟨size, store⟩ := head
      obtain ⟨window, outside⟩ :=
        inductionHypothesis (call.stored mem) later honestLater
      rw [Nat.cast_add] at window outside
      have unfoldStored : stored mem (call :: rest) = stored (call.stored mem) rest := rfl
      have first : Memory.window (stored (call.stored mem) rest) j call.moved =
          call.received := by
        rw [Memory.window_congr fun address _ below => outside address (Or.inl below),
          store, ← size, Memory.window_store_same]
      refine ⟨?_, fun address away => ?_⟩
      · rw [unfoldStored, moved_cons, Memory.window_add, first, window]
        simp [received]
      · rw [moved_cons] at away
        rw [unfoldStored, outside address (by omega), store]
        rcases away with before | after
        · exact Memory.store_before before
        · exact Memory.store_after (by omega)

end NetClass.Socket
