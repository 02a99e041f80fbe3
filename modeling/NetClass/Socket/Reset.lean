import NetClass.Socket.Poll

/-!
Contract: what a poll transfer reports when the peer resets the connection.

Owns: the kernel's answers from the reset on, and the places of the reset at which the
call reports `NC_CLIENTDISCONNECT`.

Does **not** own: what the call has done before.

After a reset `poll` sets `POLLERR`. The loops take it for a failure like any other, and
look for a reset in `errno` only, after a transfer call.
-/

set_option autoImplicit false

namespace NetClass.Socket

/-- `poll` on a connection that has been reset. Other flags may be set too. -/
def LostWait (answer : WaitAnswer) : Prop := answer.ret = 1 ∧ answer.revents &&& pollErr ≠ 0

/-- A transfer call on a connection that has been reset. -/
def LostTransfer (answer : TransferAnswer) : Prop :=
  answer.ret = -1 ∧ ncSocketReset answer.errno = true

/-- The answers from the pass on in which the connection is reset. `answered` is what the
wait of this pass has answered, if it has before the reset. -/
structure FromReset (answered : Option WaitAnswer) (first : Answer) (later : List Answer) :
    Prop where
  wait : match answered with
    | some wait => first.wait = wait
    | none => LostWait first.wait
  transfer : LostTransfer first.transfer
  later : ∀ answer ∈ later, LostWait answer.wait ∧ LostTransfer answer.transfer

namespace Poll

variable (direction : Direction) (sock : NcSocket) (bufLen : Int)
variable {locals : Locals} {answer : Answer}

/-- A wait that sees the reset makes the call fail. -/
theorem body_of_lostWait (locals : Locals) (lost : LostWait answer.wait) :
    ∃ last, body direction sock bufLen locals answer = .leave last .failed := by
  have working : ¬ (1 : Int) = -1 := by decide
  have woken : ¬ (1 : Int) = 0 := by decide
  simp only [body, wait, lost.1, if_neg working, if_neg woken, if_pos lost.2, ↓reduceIte]
  exact ⟨_, rfl⟩

/-- A transfer call that sees the reset makes the call report it. -/
theorem body_of_lostTransfer (locals : Locals) (ready : Ready direction answer.wait)
    (lost : LostTransfer answer.transfer) :
    ∃ next, body direction sock bufLen locals answer = .again next ∧ next.running = false ∧
      next.ret = .clientDisconnect := by
  have failed : (-1 : Int) < 0 := by decide
  rw [body_ready locals ready, transfer, lost.1, if_pos failed, if_pos lost.2]
  exact ⟨_, rfl, Locals.disconnect_running _ sock direction .clientDisconnect, rfl⟩

/-- `checkTimeout` reports no reset. -/
theorem account_ret_ne (locals : Locals) :
    (locals.account sock bufLen).ret ≠ .clientDisconnect := by
  by_cases expired : sock.timeout ≤ locals.timeout + sock.polltime
  · rw [(Locals.account_expired bufLen expired).2]
    split_ifs <;> simp
  · rw [(Locals.account_early bufLen expired).1]
    simp

/-- Without a transfer call nothing is reported. -/
theorem body_of_not_ready (goes : locals.running = true)
    (notReady : ¬ Ready direction answer.wait) :
    (∃ last, body direction sock bufLen locals answer = .leave last .failed) ∨
      ∃ next, body direction sock bufLen locals answer = .again next ∧
        (next.running = false → next.ret ≠ .clientDisconnect) := by
  unfold body wait
  dsimp only
  split_ifs with broken idle one error event
  · exact Or.inl ⟨_, rfl⟩
  · exact Or.inr ⟨_, rfl, fun _ => account_ret_ne sock bufLen _⟩
  · exact Or.inl ⟨_, rfl⟩
  · exact Or.inl ⟨_, rfl⟩
  · exact absurd ⟨one, not_not.mp error, event⟩ notReady
  · refine Or.inr ⟨_, rfl, fun stopped => ?_⟩
    have still : locals.running = false := stopped
    rw [goes] at still
    cases still

/-- A call whose next wait sees the reset does not report it. -/
theorem run_lost {head : Locals} {later : List Answer}
    (goes : (loop direction sock bufLen).guard head = true)
    (lost : ∀ answer ∈ later, LostWait answer.wait ∧ LostTransfer answer.transfer)
    (final : Locals) :
    (loop direction sock bufLen).run head later ≠ some (final, .clientDisconnect) := by
  cases later with
  | nil => simp [AnswerLoop.run, goes]
  | cons first rest =>
      obtain ⟨last, leave⟩ := body_of_lostWait direction sock bufLen head
        (lost first List.mem_cons_self).1
      rw [AnswerLoop.run_cons_leave goes leave]
      simp

end Poll

/-- A poll transfer in progress reports a reset of the connection exactly if it happens
between a wait that has found the descriptor ready and the transfer call. -/
theorem reset_reported_iff (direction : Direction) (sock : NcSocket) (bufLen : Int)
    (counted : Bool) (before : List Answer) (answered : Option WaitAnswer) (first : Answer)
    (later : List Answer) (asks : Poll.call direction sock bufLen counted before = none)
    (reset : FromReset answered first later) :
    (∃ final, Poll.call direction sock bufLen counted (before ++ first :: later) =
      some (final, .clientDisconnect)) ↔
      ∃ wait, answered = some wait ∧ Poll.Ready direction wait := by
  obtain ⟨head, goes, continues⟩ := AnswerLoop.run_continues asks
  unfold Poll.call
  rw [continues]
  constructor
  · rintro ⟨final, returns⟩
    by_contra none
    have notReady : ¬ Poll.Ready direction first.wait := by
      intro ready
      cases answered with
      | none => exact reset.wait.2 ready.2.1
      | some wait =>
          have same : first.wait = wait := reset.wait
          exact none ⟨wait, rfl, same ▸ ready⟩
    rcases Poll.body_of_not_ready direction sock bufLen goes notReady with
      ⟨last, leave⟩ | ⟨next, again, quiet⟩
    · rw [AnswerLoop.run_cons_leave goes leave] at returns
      simp at returns
    · rw [AnswerLoop.run_cons_again goes again] at returns
      by_cases goesOn : next.running = true
      · exact Poll.run_lost direction sock bufLen goesOn reset.later final returns
      · rw [Bool.not_eq_true] at goesOn
        rw [AnswerLoop.run_of_not_guard goesOn, Option.some.injEq, Prod.mk.injEq] at returns
        exact quiet goesOn returns.2
  · rintro ⟨wait, rfl, ready⟩
    have same : first.wait = wait := reset.wait
    obtain ⟨next, again, stopped, code⟩ :=
      Poll.body_of_lostTransfer direction sock bufLen head (same ▸ ready) reset.transfer
    refine ⟨next, ?_⟩
    rw [AnswerLoop.run_cons_again goes again, AnswerLoop.run_of_not_guard stopped, ← code]
    rfl

/-- Two bytes of three have been written when the connection is reset between the next
`poll` and its `send`. -/
theorem reset_reported_iff_sending : ∃ final,
    Poll.call .write (.ofSockfd 5) 3 true
      ([⟨⟨1, pollOut, false⟩, ⟨2, .other 0, []⟩⟩] ++
        ⟨⟨1, pollOut, false⟩, ⟨-1, .epipe, []⟩⟩ :: []) = some (final, .clientDisconnect) :=
  (reset_reported_iff .write (.ofSockfd 5) 3 true _ (some ⟨1, pollOut, false⟩) _ [] rfl
    ⟨rfl, ⟨rfl, rfl⟩, nofun⟩).mpr ⟨_, rfl, by decide⟩

/-- The connection is reset while `poll` waits. The call fails like any other. -/
theorem reset_unreported :
    Poll.call .write (.ofSockfd 5) 3 true [⟨⟨1, pollOut, false⟩, ⟨2, .other 0, []⟩⟩] = none ∧
    FromReset none ⟨⟨1, pollErr ||| pollOut, true⟩, ⟨-1, .econnreset, []⟩⟩ [] ∧
    ∃ final, Poll.writeData (.ofSockfd 5) 3 true
      [⟨⟨1, pollOut, false⟩, ⟨2, .other 0, []⟩⟩,
        ⟨⟨1, pollErr ||| pollOut, true⟩, ⟨-1, .econnreset, []⟩⟩] = some (final, .failed) :=
  ⟨rfl, ⟨⟨rfl, by decide⟩, ⟨rfl, rfl⟩, nofun⟩, _, rfl⟩

end NetClass.Socket
