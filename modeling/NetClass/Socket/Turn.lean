import NetClass.Socket.Basic

/-!
Contract: what one pass of a transfer loop can do before it goes back to the head
of the loop.

Owns: `Turn`, the list of these effects for all four loops, and what each effect
does to the flags that keep a loop going. The loops differ in the answers that
lead to an effect, so `Turn` takes these as a parameter.
-/

set_option autoImplicit false

namespace NetClass.Socket

/-- The answers on which a loop moves its pointer, those on which it passes through
`checkTimeout`, and those on which it goes round again without doing either. -/
structure Policy where
  steps : TransferAnswer → Prop
  continues : Answer → Prop
  spins : Answer → Prop

/-- The pointer does not move back on this answer. -/
def Policy.Forward (policy : Policy) (answer : Answer) : Prop :=
  answer.wait.ret ≠ 0 → policy.continues answer → policy.steps answer.transfer →
    0 ≤ answer.transfer.ret

/-- The effects of a pass that goes round again. -/
inductive Turn (policy : Policy) (direction : Direction) (sock : NcSocket)
    (bufLen : Int) (locals : Locals) (answer : Answer) : Locals → Prop where
  | spun (wait : Call) (isWait : wait.isWait = true) (odd : policy.spins answer) :
      Turn policy direction sock bufLen locals answer (locals.issue wait)
  | idled (wait : Call) (isWait : wait.isWait = true) (idle : answer.wait.ret = 0)
      (continues : policy.continues answer) :
      Turn policy direction sock bufLen locals answer
        ((locals.issue wait).account sock bufLen)
  | stepped (wait : Call) (isWait : wait.isWait = true) (woken : answer.wait.ret ≠ 0)
      (continues : policy.continues answer) (step : policy.steps answer.transfer) :
      Turn policy direction sock bufLen locals answer
        ((((locals.issue wait).attempt sock direction answer.transfer).advance
          answer.transfer.ret).account sock bufLen)
  | blocked (wait : Call) (isWait : wait.isWait = true) (woken : answer.wait.ret ≠ 0)
      (continues : policy.continues answer) (failed : answer.transfer.ret < 0)
      (stays : ¬ policy.steps answer.transfer)
      (retry : (((locals.issue wait).attempt sock direction answer.transfer).account
        sock bufLen).ret = .ok) :
      Turn policy direction sock bufLen locals answer
        (((locals.issue wait).attempt sock direction answer.transfer).account sock bufLen)
  | gaveUp (wait : Call) (isWait : wait.isWait = true) (woken : answer.wait.ret ≠ 0)
      (continues : policy.continues answer) (failed : answer.transfer.ret < 0)
      (stays : ¬ policy.steps answer.transfer)
      (ended : (((locals.issue wait).attempt sock direction answer.transfer).account
        sock bufLen).ret ≠ .ok) :
      Turn policy direction sock bufLen locals answer
        (((locals.issue wait).attempt sock direction answer.transfer).account
          sock bufLen).giveUp
  | disconnected (wait : Call) (isWait : wait.isWait = true)
      (lost : answer.transfer.ret ≤ 0) (broken : ¬ policy.continues answer)
      (code : RetCode) (failure : code = .failed ∨ code = .clientDisconnect) :
      Turn policy direction sock bufLen locals answer
        (((locals.issue wait).attempt sock direction answer.transfer).disconnect
          sock direction code)

namespace Turn

variable {policy : Policy} {direction : Direction} {sock : NcSocket}
variable {bufLen : Int} {locals next : Locals} {answer : Answer}

/-- `numActualBytes` stays null or stays non-null. -/
theorem isSome_numActualBytes (turn : Turn policy direction sock bufLen locals answer next) :
    next.numActualBytes.isSome = locals.numActualBytes.isSome := by
  cases turn <;>
    simp [Locals.issue, Locals.attempt, Locals.advance, Locals.giveUp, Locals.disconnect]

/-- A pass that does not end the loop passes through `checkTimeout` exactly once,
and `checkTimeout` finds the limit not reached. -/
theorem accounted (turn : Turn policy direction sock bufLen locals answer next)
    (settles : ¬ policy.spins answer) (goes : next.running = true) :
    next.timeout = locals.timeout + sock.polltime ∧ next.timeout < sock.timeout := by
  have early : ∀ middle : Locals, (middle.account sock bufLen).running = true →
      middle.timeout = locals.timeout →
      (middle.account sock bufLen).timeout = locals.timeout + sock.polltime ∧
        (middle.account sock bufLen).timeout < sock.timeout := by
    intro middle goes same
    rw [Locals.account_timeout, same]
    refine ⟨rfl, ?_⟩
    by_contra late
    have expired : sock.timeout ≤ middle.timeout + sock.polltime := by
      rw [same]
      exact UInt32.not_lt.mp late
    have set := (Locals.account_expired bufLen expired).1
    rw [Locals.running_iff, set] at goes
    exact Bool.noConfusion goes.2
  cases turn with
  | spun wait isWait odd => exact absurd odd settles
  | idled wait isWait idle continues => exact early _ goes rfl
  | stepped wait isWait woken continues step => exact early _ goes rfl
  | blocked wait isWait woken continues failed stays retry => exact early _ goes rfl
  | gaveUp wait isWait woken continues failed stays ended => simp at goes
  | disconnected wait isWait lost broken code failure => simp at goes

/-- A pass only adds to the log of calls: one wait, then at most one transfer, and
what comes after the wait begins with the transfer. -/
theorem calls_grow (turn : Turn policy direction sock bufLen locals answer next) :
    ∃ wait more, next.calls = locals.calls ++ wait :: more ∧ wait.isWait = true ∧
      more.countP Call.isWait = 0 ∧ more.countP Call.isTransfer ≤ 1 ∧
      ∀ first others, more = first :: others → first.isTransfer = true := by
  let request : Call := .transfer (sock.transferCall direction) sock.sockfd locals.pPtr
    locals.nRemaining answer.transfer
  have opens : ∀ more first others, request :: more = first :: others →
      first.isTransfer = true := by
    intro more first others same
    rw [← (List.cons.inj same).1]
    rfl
  cases turn with
  | spun wait isWait odd => exact ⟨wait, [], rfl, isWait, by simp⟩
  | idled wait isWait idle continues => exact ⟨wait, [], rfl, isWait, by simp⟩
  | stepped wait isWait woken continues step =>
      refine ⟨wait, [request], ?_, isWait, ?_, ?_, opens []⟩
      · simp [Locals.issue, Locals.attempt, Locals.advance, request]
      · simp [request]
      · simp [request]
  | blocked wait isWait woken continues failed stays retry =>
      refine ⟨wait, [request], ?_, isWait, ?_, ?_, opens []⟩
      · simp [Locals.issue, Locals.attempt, request]
      · simp [request]
      · simp [request]
  | gaveUp wait isWait woken continues failed stays ended =>
      refine ⟨wait, [request], ?_, isWait, ?_, ?_, opens []⟩
      · simp [Locals.issue, Locals.attempt, Locals.giveUp, request]
      · simp [request]
      · simp [request]
  | disconnected wait isWait lost broken code failure =>
      refine ⟨wait, [request, .shutdown sock.sockfd direction.how], ?_, isWait, ?_, ?_,
        opens _⟩
      · simp [Locals.issue, Locals.attempt, request]
      · simp [request]
      · simp [List.countP_cons, request]

end Turn

/-- A loop over the locals of a transfer that consists of such passes, and that is
left early only because the wait failed. -/
structure IsTransferLoop (policy : Policy) (direction : Direction) (sock : NcSocket)
    (bufLen : Int) (loop : AnswerLoop Locals Answer RetCode) : Prop where
  guard : loop.guard = Locals.running
  finish : loop.finish = Locals.ret
  again : ∀ locals next answer, loop.body locals answer = .again next →
    Turn policy direction sock bufLen locals answer next
  leave : ∀ locals last answer ret, loop.body locals answer = .leave last ret →
    ret = .failed ∧ ¬ policy.continues answer ∧
      ∃ wait : Call, wait.isWait = true ∧ last = locals.issue wait

/-! ### The calls of a loop -/

/-- A property of every call that a transfer can make. -/
structure OfCalls (direction : Direction) (sock : NcSocket) (holds : Call → Prop) : Prop where
  waits : ∀ call, call.isWait = true → holds call
  transfers : ∀ pPtr nRemaining answer, 0 < nRemaining →
    holds (.transfer (sock.transferCall direction) sock.sockfd pPtr nRemaining answer)
  shuts : holds (.shutdown sock.sockfd direction.how)

section Calls

variable {policy : Policy} {direction : Direction} {sock : NcSocket} {bufLen : Int}
variable {holds : Call → Prop}

/-- A pass asks for something only as long as something remains. -/
theorem Turn.forall_calls {locals next : Locals} {answer : Answer}
    (turn : Turn policy direction sock bufLen locals answer next)
    (goes : locals.running = true) (ofCalls : OfCalls direction sock holds)
    (before : ∀ call ∈ locals.calls, holds call) : ∀ call ∈ next.calls, holds call := by
  have remains := ((Locals.running_iff locals).mp goes).1
  have waited : ∀ wait : Call, wait.isWait = true →
      ∀ call ∈ (locals.issue wait).calls, holds call := by
    intro wait isWait call member
    rcases List.mem_append.mp member with old | new
    · exact before call old
    · rw [List.mem_singleton.mp new]
      exact ofCalls.waits wait isWait
  have attempted : ∀ wait : Call, wait.isWait = true →
      ∀ call ∈ ((locals.issue wait).attempt sock direction answer.transfer).calls,
        holds call := by
    intro wait isWait call member
    rcases List.mem_append.mp member with old | new
    · exact waited wait isWait call old
    · rw [List.mem_singleton.mp new]
      exact ofCalls.transfers _ _ _ remains
  cases turn with
  | spun wait isWait odd => exact waited wait isWait
  | idled wait isWait idle continues => exact waited wait isWait
  | stepped wait isWait woken continues step => exact attempted wait isWait
  | blocked wait isWait woken continues failed stays retry => exact attempted wait isWait
  | gaveUp wait isWait woken continues failed stays ended => exact attempted wait isWait
  | disconnected wait isWait lost broken code failure =>
      intro call member
      rw [Locals.disconnect_calls] at member
      rcases List.mem_append.mp member with old | new
      · exact attempted wait isWait call old
      · rw [List.mem_singleton.mp new]
        exact ofCalls.shuts

theorem IsTransferLoop.forall_calls {loop : AnswerLoop Locals Answer RetCode} {counted : Bool}
    {answers : List Answer} {final : Locals} {ret : RetCode}
    (transfer : IsTransferLoop policy direction sock bufLen loop)
    (returns : loop.run (.start bufLen counted) answers = some (final, ret))
    (ofCalls : OfCalls direction sock holds) : ∀ call ∈ final.calls, holds call := by
  refine AnswerLoop.run_invariant (fun locals => ∀ call ∈ locals.calls, holds call)
    (fun locals _ => ∀ call ∈ locals.calls, holds call) ?_ ?_ (fun _ _ holds => holds) returns ?_
  · intro locals answer next goes before again
    rw [transfer.guard] at goes
    exact (transfer.again locals next answer again).forall_calls goes ofCalls before
  · intro locals answer last left _ before leave
    obtain ⟨-, -, wait, isWait, rfl⟩ := transfer.leave locals last answer left leave
    intro call member
    rcases List.mem_append.mp member with old | new
    · exact before call old
    · rw [List.mem_singleton.mp new]
      exact ofCalls.waits wait isWait
  · simp [Locals.start]

end Calls

end NetClass.Socket
