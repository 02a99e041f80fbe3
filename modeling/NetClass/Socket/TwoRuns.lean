import NetClass.Library.Outlasting
import NetClass.Socket.Account

/-!
Contract: two poll transfers on the same answers.

Owns: the rules by which a relation between the locals of two such calls is carried through
a pass. Which branch a pass takes is decided by its answer, and only what `checkTimeout`
answers after a would-block error can make the two differ.

Does **not** own: what the two calls differ in.
-/

set_option autoImplicit false

namespace NetClass.Socket.Poll

variable {direction : Direction} {sock sock' : NcSocket} {bufLen bufLen' : Int}
variable {locals locals' : Locals} {related : Locals → Locals → Prop}

/-- `if (ret != NC_OK) nRemaining = 0`, after `checkTimeout`. -/
def goOn (locals : Locals) : Locals := if locals.ret = .ok then locals else locals.giveUp

/-- The transfer call and what follows it. The pointer is only stepped forward. -/
theorem transfer_forward (answer : TransferAnswer)
    (stops : ∀ code, code = .failed ∨ code = .clientDisconnect →
      related ((locals.attempt sock direction answer).disconnect sock direction code)
        ((locals'.attempt sock' direction answer).disconnect sock' direction code))
    (blocks : related (goOn ((locals.attempt sock direction answer).account sock bufLen))
      (goOn ((locals'.attempt sock' direction answer).account sock' bufLen')))
    (steps : 0 ≤ answer.ret → related
      (((locals.attempt sock direction answer).advance answer.ret).account sock bufLen)
      (((locals'.attempt sock' direction answer).advance answer.ret).account sock' bufLen')) :
    related (transfer direction sock bufLen locals answer)
      (transfer direction sock' bufLen' locals' answer) := by
  unfold transfer
  by_cases failed : answer.ret < 0
  · simp only [if_pos failed]
    by_cases reset : ncSocketReset answer.errno = true
    · simp only [if_pos reset]
      exact stops .clientDisconnect (Or.inr rfl)
    · simp only [if_neg reset]
      by_cases blocking : ncIsBlockingError answer.errno = true
      · simp only [if_pos blocking]
        exact blocks
      · simp only [if_neg blocking]
        exact stops .failed (Or.inl rfl)
  · simp only [if_neg failed]
    exact steps (Int.not_lt.mp failed)

/-- The same when the sign does not matter. -/
theorem transfer_related (answer : TransferAnswer)
    (stops : ∀ code, code = .failed ∨ code = .clientDisconnect →
      related ((locals.attempt sock direction answer).disconnect sock direction code)
        ((locals'.attempt sock' direction answer).disconnect sock' direction code))
    (blocks : related (goOn ((locals.attempt sock direction answer).account sock bufLen))
      (goOn ((locals'.attempt sock' direction answer).account sock' bufLen)))
    (steps : related
      (((locals.attempt sock direction answer).advance answer.ret).account sock bufLen)
      (((locals'.attempt sock' direction answer).advance answer.ret).account sock' bufLen)) :
    related (transfer direction sock bufLen locals answer)
      (transfer direction sock' bufLen locals' answer) :=
  transfer_forward answer stops blocks fun _ => steps

/-- A whole pass. -/
theorem body_matched {ended : Locals → RetCode → Locals → RetCode → Prop} (answer : Answer)
    {waited waited' : Locals}
    (issues : locals.issue (.poll sock.sockfd (events direction) sock.polltime answer.wait) =
      waited)
    (issues' : locals'.issue (.poll sock'.sockfd (events direction) sock'.polltime
      answer.wait) = waited')
    (fails : ended waited .failed waited' .failed) (spins : related waited waited')
    (idles : related (waited.account sock bufLen) (waited'.account sock' bufLen'))
    (wakes : related (transfer direction sock bufLen waited answer.transfer)
      (transfer direction sock' bufLen' waited' answer.transfer)) :
    AnswerLoop.Matched related ended (body direction sock bufLen locals answer)
      (body direction sock' bufLen' locals' answer) := by
  unfold body wait
  simp only [issues, issues']
  split_ifs with broken idle one error event
  · exact .leave _ _ _ _ fails
  · exact .again _ _ idles
  · exact .leave _ _ _ _ fails
  · exact .leave _ _ _ _ fails
  · exact .again _ _ wakes
  · exact .again _ _ spins

end NetClass.Socket.Poll
