import NetClass.Socket.Turn

/-!
Contract: `ncSocket::writeData` and `ncSocket::readData` of the poll build.

Owns: one loop for the two functions, which differ in the event polled for, the
transfer call and the argument of `shutdown`, and the case lemma from which
every invariant of the loop is derived.
-/

set_option autoImplicit false

namespace NetClass.Socket.Poll

/-- `m_listener.events`. -/
def events : Direction → BitVec 16
  | .write => pollOut
  | .read => pollIn

/-- One pass up to the transfer call. -/
def wait (direction : Direction) (sock : NcSocket) (bufLen : Int) (locals : Locals)
    (answer : WaitAnswer) : Waited :=
  let locals := locals.issue (.poll sock.sockfd (events direction) sock.polltime answer)
  if answer.ret = -1 then
    .done (.leave locals .failed)
  else if answer.ret = 0 then
    .done (.again (locals.account sock bufLen))
  else if answer.ret = 1 then
    if answer.revents &&& pollErr ≠ 0 then .done (.leave locals .failed)
    else if answer.revents &&& events direction = 0 then .done (.leave locals .failed)
    else .transfer locals
  else
    -- `default: break`: round again, without `checkTimeout`.
    .done (.again locals)

/-- The transfer call and what follows it. Every branch goes back to the head of
the loop. -/
def transfer (direction : Direction) (sock : NcSocket) (bufLen : Int) (locals : Locals)
    (answer : TransferAnswer) : Locals :=
  let locals := locals.attempt sock direction answer
  if answer.ret < 0 then
    if ncSocketReset answer.errno then
      locals.disconnect sock direction .clientDisconnect
    else if ncIsBlockingError answer.errno then
      let locals := locals.account sock bufLen
      if locals.ret = .ok then locals else locals.giveUp
    else
      locals.disconnect sock direction .failed
  else
    (locals.advance answer.ret).account sock bufLen

/-- The body of the loop. -/
def body (direction : Direction) (sock : NcSocket) (bufLen : Int) (locals : Locals)
    (answer : Answer) : Pass Locals RetCode :=
  match wait direction sock bufLen locals answer.wait with
  | .transfer locals => .again (transfer direction sock bufLen locals answer.transfer)
  | .done pass => pass

def loop (direction : Direction) (sock : NcSocket) (bufLen : Int) :
    AnswerLoop Locals Answer RetCode where
  guard := Locals.running
  body := body direction sock bufLen
  finish := Locals.ret

/-- The result of a call and its final locals, or `none` if the answers do not
bring the call to an end. -/
def call (direction : Direction) (sock : NcSocket) (bufLen : Int) (counted : Bool)
    (answers : List Answer) : Option (Locals × RetCode) :=
  (loop direction sock bufLen).run (.start bufLen counted) answers

/-- `ncSocket::writeData`. -/
def writeData (sock : NcSocket) (bufLen : Int) (counted : Bool) (answers : List Answer) :
    Option (Locals × RetCode) :=
  call .write sock bufLen counted answers

/-- `ncSocket::readData`. -/
def readData (sock : NcSocket) (bufLen : Int) (counted : Bool) (answers : List Answer) :
    Option (Locals × RetCode) :=
  call .read sock bufLen counted answers

/-! ### What a pass does -/

variable {direction : Direction} {sock : NcSocket} {bufLen : Int}

/-- The descriptor is ready for the transfer call. -/
def Ready (direction : Direction) (answer : WaitAnswer) : Prop :=
  answer.ret = 1 ∧ answer.revents &&& pollErr = 0 ∧ answer.revents &&& events direction ≠ 0

instance (direction : Direction) (answer : WaitAnswer) : Decidable (Ready direction answer) :=
  inferInstanceAs (Decidable (_ ∧ _ ∧ _))

/-- The poll loops step the pointer when the transfer call does not fail. They pass
through `checkTimeout` then, after an idle wait, and after a would-block error. -/
def policy (direction : Direction) : Policy where
  steps := fun answer => 0 ≤ answer.ret
  continues := fun answer => answer.wait.ret = 0 ∨
    (Ready direction answer.wait ∧
      (0 ≤ answer.transfer.ret ∨ ncIsBlockingError answer.transfer.errno = true))
  spins := fun answer => ¬ answer.wait.Plain

theorem forward (direction : Direction) (answer : Answer) :
    (policy direction).Forward answer :=
  fun _ _ step => step

/-- No pass spins when every `poll` answers -1, 0 or 1. -/
theorem settles (direction : Direction) {answers : List Answer}
    (plain : ∀ answer ∈ answers, answer.wait.Plain) :
    ∀ answer ∈ answers, ¬ (policy direction).spins answer :=
  fun answer member odd => odd (plain answer member)

theorem transfer_turn (locals : Locals) (wait : Call) (isWait : wait.isWait = true)
    (answer : Answer) (ready : Ready direction answer.wait) :
    Turn (policy direction) direction sock bufLen locals answer
      (transfer direction sock bufLen (locals.issue wait) answer.transfer) := by
  have woken : answer.wait.ret ≠ 0 := by rw [ready.1]; decide
  unfold transfer
  by_cases failed : answer.transfer.ret < 0
  · simp only [failed, ↓reduceIte]
    have lost : answer.transfer.ret ≤ 0 := by omega
    have stays : ¬ (policy direction).steps answer.transfer := Int.not_le.mpr failed
    have broken : ncIsBlockingError answer.transfer.errno ≠ true →
        ¬ (policy direction).continues answer := by
      rintro notBlocking (idle | ⟨-, moved | blocking⟩)
      · exact woken idle
      · omega
      · exact notBlocking blocking
    split_ifs with reset blocking retry
    · refine .disconnected wait isWait lost (broken fun blocking => ?_) _ (Or.inr rfl)
      rw [ncSocketReset_of_blocking blocking] at reset
      exact Bool.noConfusion reset
    · exact .blocked wait isWait woken (Or.inr ⟨ready, Or.inr blocking⟩) failed stays retry
    · exact .gaveUp wait isWait woken (Or.inr ⟨ready, Or.inr blocking⟩) failed stays retry
    · exact .disconnected wait isWait lost (broken blocking) _ (Or.inl rfl)
  · simp only [failed, ↓reduceIte]
    have forward := Int.not_lt.mp failed
    exact .stepped wait isWait woken (Or.inr ⟨ready, Or.inl forward⟩) forward

/-- A ready descriptor leads to the transfer call. -/
theorem body_ready (locals : Locals) {answer : Answer} (ready : Ready direction answer.wait) :
    body direction sock bufLen locals answer =
      .again (transfer direction sock bufLen
        (locals.issue (.poll sock.sockfd (events direction) sock.polltime answer.wait))
        answer.transfer) := by
  obtain ⟨one, clear, set⟩ := ready
  have working : ¬ (1 : Int) = -1 := by decide
  have woken : ¬ (1 : Int) = 0 := by decide
  have noError : ¬ answer.wait.revents &&& pollErr ≠ 0 := not_not.mpr clear
  simp only [body, wait, one, if_neg working, if_neg woken, if_neg noError, if_neg set,
    ↓reduceIte]

theorem body_again {locals next : Locals} {answer : Answer}
    (again : body direction sock bufLen locals answer = .again next) :
    Turn (policy direction) direction sock bufLen locals answer next := by
  simp only [body, wait] at again
  split_ifs at again with broken idle one error event <;>
    simp only [Pass.again.injEq] at again <;> subst again
  · exact .idled _ rfl idle (Or.inl idle)
  · exact transfer_turn locals _ rfl answer ⟨one, not_not.mp error, event⟩
  · refine .spun _ rfl ?_
    simp only [policy, WaitAnswer.Plain]
    omega

theorem body_leave {locals last : Locals} {answer : Answer} {ret : RetCode}
    (leave : body direction sock bufLen locals answer = .leave last ret) :
    ret = .failed ∧ ¬ (policy direction).continues answer ∧
      ∃ wait : Call, wait.isWait = true ∧ last = locals.issue wait := by
  simp only [body, wait] at leave
  split_ifs at leave with broken idle one error event <;>
    simp only [Pass.leave.injEq] at leave <;>
    refine ⟨leave.2.symm, ?_, _, rfl, leave.1.symm⟩
  · rintro (idle | ⟨⟨one, -, -⟩, -⟩) <;> omega
  · rintro (idle' | ⟨⟨-, clear, -⟩, -⟩)
    · exact idle idle'
    · exact error clear
  · rintro (idle' | ⟨⟨-, -, set⟩, -⟩)
    · exact idle idle'
    · exact set event

theorem isTransferLoop (direction : Direction) (sock : NcSocket) (bufLen : Int) :
    IsTransferLoop (policy direction) direction sock bufLen (loop direction sock bufLen) where
  guard := rfl
  finish := rfl
  again := fun _ _ _ again => body_again again
  leave := fun _ _ _ _ leave => body_leave leave

end NetClass.Socket.Poll
