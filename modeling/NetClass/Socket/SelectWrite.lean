import NetClass.Socket.Account

/-!
Contract: transfer integrity of the select-based `writeData`.

Owns: the answers on which it goes wrong, and the proof that these are all of them.

The guard of its progress branch is also true when `send` has failed and `errno` says
that it would block. The branch then steps the pointer by -1: it goes back by one
byte, or in front of the buffer, and the remaining length grows. The sibling loops
make sure that the value is not negative before they step. Count plus remaining
length stays `bufLen`, so the call does not notice.
-/

set_option autoImplicit false

namespace NetClass.Socket.Select

/-- A transfer that fails because it would block, though `select` has reported the
descriptor ready. -/
def WouldBlock (answer : Answer) : Prop :=
  Ready answer.wait ∧ answer.transfer.ret < 0 ∧
    ncIsBlockingError answer.transfer.errno = true

instance (answer : Answer) : Decidable (WouldBlock answer) := by
  unfold WouldBlock Ready
  infer_instance

theorem WouldBlock.steps {answer : Answer} (blocked : WouldBlock answer) :
    (policy .write).steps answer.transfer := by
  simp [policy, progress, blocked.2.2]

theorem WouldBlock.continues {answer : Answer} (blocked : WouldBlock answer) :
    (policy .write).continues answer := by
  refine Or.inr ⟨blocked.1, ?_, blocked.steps⟩
  rw [ncSocketReset_of_blocking blocked.2.2, Bool.and_false]

/-- On every other answer the pointer does not move back. -/
theorem forward_write (answer : Answer) (good : ¬ WouldBlock answer) :
    (policy .write).Forward answer := by
  intro woken continues step
  rcases continues with idle | ⟨ready, -, -⟩
  · exact absurd idle woken
  · simp only [policy, progress, Bool.or_eq_true, decide_eq_true_eq] at step
    rcases step with positive | blocking
    · omega
    · by_contra negative
      exact good ⟨ready, Int.not_le.mp negative, blocking⟩

/-- The count does not exceed what the kernel accepted, and falls short of it once the
pointer has moved back. -/
def Lags (locals : Locals) (history : List (Locals × Answer)) : Prop :=
  ∃ count, locals.numActualBytes = some count ∧ count ≤ moved locals.calls ∧
    ((∃ pass ∈ history, WouldBlock pass.2) → count < moved locals.calls)

namespace Lags

variable {sock : NcSocket} {bufLen : Int} {locals next : Locals} {answer : Answer}
variable {history : List (Locals × Answer)}

/-- A pass that neither moves anything nor blocks. -/
theorem keep (lags : Lags locals history) (good : ¬ WouldBlock answer)
    (count : next.numActualBytes = locals.numActualBytes)
    (moves : moved next.calls = moved locals.calls) :
    Lags next (history ++ [(locals, answer)]) := by
  obtain ⟨value, known, within, behind⟩ := lags
  refine ⟨value, count.trans known, by rwa [moves], ?_⟩
  rintro ⟨pass, member, blocked⟩
  rw [moves]
  rcases List.mem_append.mp member with before | last
  · exact behind ⟨pass, before, blocked⟩
  · rw [List.mem_singleton.mp last] at blocked
    exact absurd blocked good

/-- The step lemma. -/
theorem turn (lags : Lags locals history)
    (turn : Turn (policy .write) .write sock bufLen locals answer next) :
    Lags next (history ++ [(locals, answer)]) := by
  have silent : ∀ wait : Call, wait.isWait = true →
      moved (locals.issue wait).calls = moved locals.calls := by
    intro wait isWait
    simp [Locals.issue, Call.moved_of_not_isTransfer (Call.isTransfer_of_isWait isWait)]
  cases turn with
  | spun wait isWait odd => exact absurd odd id
  | idled wait isWait idle continues =>
      exact lags.keep (fun blocked => blocked.1.2.1 idle) rfl (silent wait isWait)
  | stepped wait isWait woken continues step =>
      obtain ⟨value, known, within, behind⟩ := lags
      have total : moved ((((locals.issue wait).attempt sock .write answer.transfer).advance
          answer.transfer.ret).account sock bufLen).calls =
            moved locals.calls + answer.transfer.ret.toNat := by
        rw [← silent wait isWait]
        exact Locals.moved_attempt (locals.issue wait) sock .write answer.transfer
      refine ⟨value + answer.transfer.ret, ?_, by rw [total]; omega, ?_⟩
      · simp [Locals.advance, Locals.attempt, Locals.issue, known]
      · rintro ⟨pass, member, blocked⟩
        rw [total]
        rcases List.mem_append.mp member with before | last
        · have less := behind ⟨pass, before, blocked⟩
          omega
        · -- This is the pass that steps back.
          rw [List.mem_singleton.mp last] at blocked
          have negative : answer.transfer.ret < 0 := blocked.2.1
          omega
  | blocked wait isWait woken continues failed stays retry =>
      refine lags.keep (fun blocked => stays blocked.steps) rfl ?_
      rw [Locals.account_calls, Locals.moved_attempt, silent wait isWait]
      omega
  | gaveUp wait isWait woken continues failed stays ended =>
      refine lags.keep (fun blocked => stays blocked.steps) rfl ?_
      rw [Locals.giveUp, Locals.account_calls, Locals.moved_attempt, silent wait isWait]
      omega
  | disconnected wait isWait lost broken code failure =>
      refine lags.keep (fun blocked => broken blocked.continues) rfl ?_
      rw [Locals.disconnect_calls, moved_append, Locals.moved_attempt, silent wait isWait]
      simp [Call.moved]
      omega

/-- The run lemma. -/
theorem run {answers : List Answer} {final : Locals} {ret : RetCode}
    (returns : (loop .write sock bufLen).run (.start bufLen true) answers =
      some (final, ret)) :
    Lags final ((loop .write sock bufLen).passes (.start bufLen true) answers) := by
  have transfer := isTransferLoop .write sock bufLen
  refine AnswerLoop.run_history Lags (fun locals _ history => Lags locals history) ?_ ?_
    (fun _ _ _ holds => holds) returns ⟨0, rfl, le_rfl, by simp⟩
  · intro locals answer next history _ _ holds again
    exact holds.turn (transfer.again locals next answer again)
  · intro locals answer last left history _ _ holds leave
    obtain ⟨-, broken, wait, isWait, rfl⟩ := transfer.leave locals last answer left leave
    refine holds.keep (fun blocked => broken blocked.continues) rfl ?_
    simp [Locals.issue, Call.moved_of_not_isTransfer (Call.isTransfer_of_isWait isWait)]

end Lags

/-- The kernel takes as many bytes as a log of `send` calls moved. -/
theorem accepted_length {mem : Int → UInt8} {bufLen : Int} {calls : List Call}
    (windowed : Windowed .write bufLen 0 calls) : (accepted mem calls).length = moved calls := by
  rw [accepted_of_windowed mem windowed, Memory.window_length]

/-- The select `writeData` transfers exactly the counted bytes of the buffer if and only
if it does not come to an answer that makes it step back. -/
theorem wroteExactly_iff (sock : NcSocket) (mem : Int → UInt8) (bufLen : Int)
    (nonneg : 0 ≤ bufLen) (answers : List Answer) (final : Locals) (ret : RetCode)
    (returns : writeData sock bufLen true answers = some (final, ret))
    (honest : Honest final.calls) :
    WroteExactly mem bufLen final ↔
      ¬ Meets (policy .write) WouldBlock sock bufLen answers := by
  have transfer := isTransferLoop .write sock bufLen
  have meets : (∃ pass ∈ (loop .write sock bufLen).passes (.start bufLen true) answers,
      WouldBlock pass.2) ↔ Meets (policy .write) WouldBlock sock bufLen answers :=
    transfer.meets_iff forward_write (fun _ _ => id)
  rw [← meets]
  constructor
  · rintro ⟨count, known, -, wrote, windowed⟩ blocked
    obtain ⟨value, same, -, behind⟩ := Lags.run returns
    have exactly := congrArg List.length wrote
    rw [accepted_length windowed, Memory.window_length] at exactly
    rw [known, Option.some.injEq] at same
    have less := behind blocked
    omega
  · intro none
    refine transfer.wroteExactly (fun pass member => ?_) nonneg returns honest mem
    exact forward_write pass.2 (fun blocked => none ⟨pass, member, blocked⟩)

/-- Two bytes go out in two parts. -/
def twoSends : List Answer :=
  [⟨⟨1, 0, true⟩, ⟨1, .other 0, []⟩⟩, ⟨⟨1, 0, true⟩, ⟨1, .other 0, []⟩⟩]

theorem wroteExactly_iff_twoParts :
    ∃ final, writeData (.ofSockfd 5) 2 true twoSends = some (final, .ok) ∧
      WroteExactly (fun address => address.toNat.toUInt8) 2 final := by
  refine ⟨_, rfl, (wroteExactly_iff (.ofSockfd 5) _ 2 (by decide) twoSends _ .ok rfl
    (by decide)).mpr fun meets => ?_⟩
  obtain ⟨answer, member, blocks⟩ := meets.exists_bad
  have goes : ∀ answer ∈ twoSends, ¬ WouldBlock answer := by decide
  exact goes answer member blocks

/-- One byte is to be written. The first `send` would block, the second is given two
bytes from one before the buffer on, and takes both. -/
theorem writes_before_buffer :
    ∃ final, writeData (.ofSockfd 5) 1 true
        [⟨⟨1, 0, true⟩, ⟨-1, .eagain, []⟩⟩, ⟨⟨1, 0, true⟩, ⟨2, .eagain, []⟩⟩] =
          some (final, .ok) ∧
      Honest final.calls ∧ final.numActualBytes = some 1 ∧
      .transfer .send 5 (-1) 2 ⟨2, .eagain, []⟩ ∈ final.calls ∧
      ∀ mem, ¬ WroteExactly mem 1 final := by
  refine ⟨_, rfl, by decide, rfl, by decide, ?_⟩
  rintro mem ⟨count, -, -, -, windowed⟩
  revert windowed
  decide

end NetClass.Socket.Select
