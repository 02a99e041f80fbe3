import NetClass.Socket.Turn

/-!
Contract: `ncSocket::writeData` and `ncSocket::readData` of the select build.

Owns: one loop for the two functions. Besides the transfer call and the argument
of `shutdown` they differ in one guard, the one that decides whether a transfer
made progress.
-/

set_option autoImplicit false

namespace NetClass.Socket.Select

/-- `timeoutSeconds`. The arithmetic is that of `unsigned int`. -/
def timeoutSeconds (sock : NcSocket) : Int := ((sock.polltime * 1000) / 100000).toNat

/-- `timeoutUSeconds`. -/
def timeoutUSeconds (sock : NcSocket) : Int := ((sock.polltime * 1000) % 100000).toNat

/-- The guard of the branch that steps the pointer: in `writeData`
`(nSent > 0) || ncIsBlockingError(err)`, in `readData`
`(nRead > 0) || ((nRead == 0) && ncIsBlockingError(err))`. -/
def progress : Direction → TransferAnswer → Bool
  | .write, answer => decide (0 < answer.ret) || ncIsBlockingError answer.errno
  | .read, answer =>
      decide (0 < answer.ret) || (answer.ret == 0 && ncIsBlockingError answer.errno)

/-- One pass up to the transfer call. -/
def wait (direction : Direction) (sock : NcSocket) (bufLen : Int) (locals : Locals)
    (answer : WaitAnswer) : Waited :=
  let locals := locals.issue
    (.select sock.sockfd direction (timeoutSeconds sock) (timeoutUSeconds sock) answer)
  if answer.ret = -1 then
    .done (.leave locals .failed)
  else if answer.ret = 0 then
    .done (.again (locals.account sock bufLen))
  else if answer.isSet then
    .transfer locals
  else
    .done (.leave locals .failed)

/-- The transfer call and what follows it. -/
def transfer (direction : Direction) (sock : NcSocket) (bufLen : Int) (locals : Locals)
    (answer : TransferAnswer) : Locals :=
  let locals := locals.attempt sock direction answer
  if ncSocketError answer.ret && ncSocketReset answer.errno then
    locals.disconnect sock direction .clientDisconnect
  else if progress direction answer then
    (locals.advance answer.ret).account sock bufLen
  else
    locals.disconnect sock direction .failed

/-- The body of the loop. -/
def body (direction : Direction) (sock : NcSocket) (bufLen : Int) (locals : Locals)
    (answer : Answer) : Pass Locals RetCode :=
  match wait direction sock bufLen locals answer.wait with
  | .transfer locals => .again (transfer direction sock bufLen locals answer.transfer)
  | .done pass => pass

def loop (direction : Direction) (sock : NcSocket) (bufLen : Int) :
    AnswerLoop Locals Answer RetCode where
  guard := Locals.running
  body := body direction sock bufLen
  finish := Locals.ret

/-- The result of a call and its final locals, or `none` if the answers do not
bring the call to an end. -/
def call (direction : Direction) (sock : NcSocket) (bufLen : Int) (counted : Bool)
    (answers : List Answer) : Option (Locals × RetCode) :=
  (loop direction sock bufLen).run (.start bufLen counted) answers

/-- `ncSocket::writeData`. -/
def writeData (sock : NcSocket) (bufLen : Int) (counted : Bool) (answers : List Answer) :
    Option (Locals × RetCode) :=
  call .write sock bufLen counted answers

/-- `ncSocket::readData`. -/
def readData (sock : NcSocket) (bufLen : Int) (counted : Bool) (answers : List Answer) :
    Option (Locals × RetCode) :=
  call .read sock bufLen counted answers

/-! ### What a pass does -/

variable {direction : Direction} {sock : NcSocket} {bufLen : Int}

/-- The descriptor is ready for the transfer call. -/
def Ready (answer : WaitAnswer) : Prop :=
  answer.ret ≠ -1 ∧ answer.ret ≠ 0 ∧ answer.isSet = true

/-- The select loops step the pointer and pass through `checkTimeout` when `progress`
lets them, unless the connection is reset. -/
def policy (direction : Direction) : Policy where
  steps := fun answer => progress direction answer = true
  continues := fun answer => answer.wait.ret = 0 ∨
    (Ready answer.wait ∧
      (ncSocketError answer.transfer.ret && ncSocketReset answer.transfer.errno) = false ∧
      progress direction answer.transfer = true)
  spins := fun _ => False

/-- In `readData` the pointer never moves back. `writeData` has no such law: its
guard also lets a failed `send` through. -/
theorem forward_read (answer : Answer) : (policy .read).Forward answer := by
  intro _ _ step
  simp only [policy, progress, Bool.or_eq_true, decide_eq_true_eq, Bool.and_eq_true,
    beq_iff_eq] at step
  omega

theorem transfer_turn (locals : Locals) (wait : Call) (isWait : wait.isWait = true)
    (answer : Answer) (ready : Ready answer.wait) :
    Turn (policy direction) direction sock bufLen locals answer
      (transfer direction sock bufLen (locals.issue wait) answer.transfer) := by
  unfold transfer
  split_ifs with reset step
  · have lost : answer.transfer.ret = -1 := by
      simp only [ncSocketError, Bool.and_eq_true, beq_iff_eq] at reset
      exact reset.1
    refine .disconnected wait isWait (by omega) ?_ _ (Or.inr rfl)
    rintro (idle | ⟨-, open', -⟩)
    · exact ready.2.1 idle
    · rw [reset] at open'
      exact Bool.noConfusion open'
  · exact .stepped wait isWait ready.2.1
      (Or.inr ⟨ready, Bool.not_eq_true _ ▸ reset, step⟩) step
  · have lost : answer.transfer.ret ≤ 0 := by
      cases direction <;> simp only [progress, Bool.or_eq_true, decide_eq_true_eq] at step <;>
        omega
    refine .disconnected wait isWait lost ?_ _ (Or.inl rfl)
    rintro (idle | ⟨-, -, step'⟩)
    · exact ready.2.1 idle
    · exact step step'

theorem body_again {locals next : Locals} {answer : Answer}
    (again : body direction sock bufLen locals answer = .again next) :
    Turn (policy direction) direction sock bufLen locals answer next := by
  simp only [body, wait] at again
  split_ifs at again with broken idle set <;>
    simp only [Pass.again.injEq] at again <;> subst again
  · exact .idled _ rfl idle (Or.inl idle)
  · exact transfer_turn locals _ rfl answer ⟨broken, idle, set⟩

theorem body_leave {locals last : Locals} {answer : Answer} {ret : RetCode}
    (leave : body direction sock bufLen locals answer = .leave last ret) :
    ret = .failed ∧ ¬ (policy direction).continues answer ∧
      ∃ wait : Call, wait.isWait = true ∧ last = locals.issue wait := by
  simp only [body, wait] at leave
  split_ifs at leave with broken idle set <;>
    simp only [Pass.leave.injEq] at leave <;>
    refine ⟨leave.2.symm, ?_, _, rfl, leave.1.symm⟩
  · rintro (idle | ⟨⟨alive, -, -⟩, -⟩)
    · omega
    · exact alive broken
  · rintro (idle' | ⟨⟨-, -, set'⟩, -⟩)
    · exact idle idle'
    · exact set set'

theorem isTransferLoop (direction : Direction) (sock : NcSocket) (bufLen : Int) :
    IsTransferLoop (policy direction) direction sock bufLen (loop direction sock bufLen) where
  guard := rfl
  finish := rfl
  again := fun _ _ _ again => body_again again
  leave := fun _ _ _ _ leave => body_leave leave

end NetClass.Socket.Select
