import NetClass.Socket.Integrity

/-!
Contract: the return code of a transfer call.

Owns: `Verdict`, the four ways in which a transfer of a positive number of bytes
can end, and the proof that every loop that only moves its pointer forward ends in
one of them. What `ret` holds while the loop goes on does not matter: it survives
`continue`s, but the last pass sets it again.
-/

set_option autoImplicit false

namespace NetClass.Socket

/-- How a transfer of `bufLen` bytes has ended, and the code that says so. -/
inductive Verdict (bufLen : Int) (final : Locals) : RetCode → Prop where
  | complete (all : (moved final.calls : Int) = bufLen) : Verdict bufLen final .ok
  | nothing (expired : final.timedout = true)
      (uncounted : final.numActualBytes = none ∨ final.numActualBytes = some 0) :
      Verdict bufLen final .timedOut
  | short (expired : final.timedout = true) (count : Int)
      (known : final.numActualBytes = some count) (some : 0 < count)
      (missing : count < bufLen) : Verdict bufLen final .moreData
  | broken (code : RetCode) (failure : code = .failed ∨ code = .clientDisconnect)
      (early : final.timedout = false) (missing : (moved final.calls : Int) < bufLen) :
      Verdict bufLen final code

variable {policy : Policy} {direction : Direction} {sock : NcSocket}
variable {bufLen : Int} {locals next : Locals} {answer : Answer}

namespace Verdict

/-- When `checkTimeout` ends the loop, or finds it ended, its answer is right. -/
theorem of_account (holds : Tracks direction bufLen locals)
    (aligned : Aligned bufLen locals) (early : locals.timedout = false)
    (stopped : (locals.account sock bufLen).running = false) :
    Verdict bufLen (locals.account sock bufLen) (locals.account sock bufLen).ret := by
  by_cases expired : sock.timeout ≤ locals.timeout + sock.polltime
  · obtain ⟨set, code⟩ := Locals.account_expired bufLen expired
    rw [code]
    cases known : locals.numActualBytes with
    | none =>
        have unknown : locals.haveAllData bufLen = -1 := by simp [Locals.haveAllData, known]
        rw [if_pos unknown]
        exact .nothing set (Or.inl known)
    | some count =>
        have counted := holds.count count known
        have within := holds.within
        by_cases positive : 0 < count
        · by_cases all : count = bufLen
          · have done : locals.haveAllData bufLen = 1 := by
              simp only [Locals.haveAllData, known, if_pos positive, if_pos all]
            rw [done]
            exact .complete (by rw [Locals.account_calls, ← counted, all])
          · have part : locals.haveAllData bufLen = 0 := by
              simp only [Locals.haveAllData, known, if_pos positive, if_neg all]
            rw [part]
            exact .short set count known positive (by omega)
        · have none : locals.haveAllData bufLen = -1 := by
            simp only [Locals.haveAllData, known, if_neg positive]
          have zero : count = 0 := by omega
          rw [if_pos none]
          exact .nothing set (Or.inr (by rw [Locals.account_numActualBytes, known, zero]))
  · obtain ⟨code, kept⟩ := Locals.account_early bufLen expired
    have drained : ¬ 0 < locals.nRemaining := by
      intro remaining
      have goes : (locals.account sock bufLen).running = true := by
        rw [Locals.running_iff, kept]
        exact ⟨remaining, early⟩
      rw [goes] at stopped
      exact Bool.noConfusion stopped
    have within := holds.within
    have rest := aligned.2
    rw [code]
    exact .complete (by rw [Locals.account_calls]; omega)

/-- The verdict does not look at the remaining length. -/
theorem giveUp {code : RetCode} (verdict : Verdict bufLen locals code) :
    Verdict bufLen locals.giveUp code := by
  cases verdict with
  | complete all => exact .complete all
  | nothing expired uncounted => exact .nothing expired uncounted
  | short expired count known some missing => exact .short expired count known some missing
  | broken code failure early missing => exact .broken code failure early missing

end Verdict

/-- The step lemma: if a pass ends the loop, it leaves the right code in `ret`. -/
theorem Turn.verdict (turn : Turn policy direction sock bufLen locals answer next)
    (forward : policy.Forward answer)
    (goes : locals.running = true) (holds : Tracks direction bufLen locals)
    (honest : Honest next.calls) (stopped : next.running = false) :
    Verdict bufLen next next.ret := by
  obtain ⟨remaining, early⟩ := (Locals.running_iff locals).mp goes
  cases turn with
  | spun wait isWait odd =>
      have still : (locals.issue wait).running = true := goes
      rw [still] at stopped
      exact Bool.noConfusion stopped
  | idled wait isWait idle continues =>
      obtain ⟨kept, aligned⟩ := holds.waited goes isWait
      exact .of_account kept aligned early stopped
  | stepped wait isWait woken continues step =>
      obtain ⟨kept, aligned⟩ := holds.waited goes isWait
      have tracked := kept.attempt_advance aligned sock (Locals.ret_le_nRemaining honest)
        (forward woken continues step)
      exact .of_account tracked
        (aligned.attempt_advance (forward woken continues step)) early stopped
  | blocked wait isWait woken continues failed stays retry =>
      obtain ⟨kept, aligned⟩ := holds.waited goes isWait
      have lost : answer.transfer.ret ≤ 0 := by omega
      have tracked := kept.attempt_lost aligned sock (Locals.ret_le_nRemaining honest) lost
      exact .of_account tracked (aligned.attempt_lost lost) early stopped
  | gaveUp wait isWait woken continues failed stays ended =>
      obtain ⟨kept, aligned⟩ := holds.waited goes isWait
      have lost : answer.transfer.ret ≤ 0 := by omega
      have tracked := kept.attempt_lost aligned sock (Locals.ret_le_nRemaining honest) lost
      -- `checkTimeout` did not answer `NC_OK`, so it has set `timedout`.
      have expired : sock.timeout ≤ ((locals.issue wait).attempt sock direction
          answer.transfer).timeout + sock.polltime := by
        by_contra early
        exact ended (Locals.account_early bufLen early).1
      have halted : (((locals.issue wait).attempt sock direction answer.transfer).account
          sock bufLen).running = false := by
        simp [Locals.running, (Locals.account_expired bufLen expired).1]
      exact (Verdict.of_account tracked (aligned.attempt_lost lost) early halted).giveUp
  | disconnected wait isWait lost broken code failure =>
      obtain ⟨kept, aligned⟩ := holds.waited goes isWait
      have total := Locals.moved_attempt (locals.issue wait) sock direction answer.transfer
      have rest := aligned.2
      have missing : (moved (((locals.issue wait).attempt sock direction answer.transfer).disconnect
          sock direction code).calls : Int) < bufLen := by
        have same : (locals.issue wait).nRemaining = locals.nRemaining := rfl
        rw [Locals.disconnect_calls, moved_append, total]
        simp only [moved_cons, moved_nil, Call.moved]
        omega
      exact .broken code failure early missing

/-- The run lemma. -/
theorem IsTransferLoop.verdict {loop : AnswerLoop Locals Answer RetCode} {counted : Bool}
    {answers : List Answer} {final : Locals} {ret : RetCode}
    (transfer : IsTransferLoop policy direction sock bufLen loop)
    (forward : ∀ answer, policy.Forward answer) (positive : 0 < bufLen)
    (returns : loop.run (.start bufLen counted) answers = some (final, ret))
    (honest : Honest final.calls) : Verdict bufLen final ret := by
  have rule := AnswerLoop.run_invariant
    (fun locals => Honest locals.calls → Tracks direction bufLen locals ∧
      (locals.running = false → Verdict bufLen locals locals.ret))
    (fun locals ret => Honest locals.calls → Verdict bufLen locals ret)
    ?again ?leave ?finish returns ?start
  case again =>
    intro locals answer next goes holds again honestNext
    rw [transfer.guard] at goes
    have turn := transfer.again locals next answer again
    obtain ⟨wait, more, grown, -⟩ := turn.calls_grow
    have honestBefore : Honest locals.calls := by
      rw [grown, honest_append] at honestNext
      exact honestNext.1
    have tracked := (holds honestBefore).1
    exact ⟨turn.tracks (forward _) goes tracked honestNext,
      turn.verdict (forward _) goes tracked honestNext⟩
  case leave =>
    intro locals answer last left goes holds leave honestLast
    rw [transfer.guard] at goes
    obtain ⟨rfl, -, wait, isWait, rfl⟩ := transfer.leave locals last answer left leave
    rw [Locals.issue, honest_append] at honestLast
    obtain ⟨kept, aligned⟩ := (holds honestLast.1).1.waited goes isWait
    obtain ⟨remaining, early⟩ := (Locals.running_iff locals).mp goes
    have rest : locals.nRemaining = bufLen - moved (locals.issue wait).calls := aligned.2
    exact .broken _ (Or.inl rfl) early (by omega)
  case finish =>
    intro locals stopped holds honest
    rw [transfer.guard] at stopped
    rw [transfer.finish]
    exact (holds honest).2 stopped
  case start =>
    intro _
    refine ⟨Tracks.start direction (Int.le_of_lt positive) counted, fun stopped => ?_⟩
    simp [Locals.start, Locals.running, positive] at stopped
  exact rule honest

/-- The return-code contract of the poll `writeData` and `readData`. -/
theorem return_code_contract (direction : Direction) (sock : NcSocket) (bufLen : Int)
    (positive : 0 < bufLen) (counted : Bool) (answers : List Answer) (final : Locals)
    (ret : RetCode)
    (returns : Poll.call direction sock bufLen counted answers = some (final, ret))
    (honest : Honest final.calls) :
    (∀ count, final.numActualBytes = some count →
      (ret = .ok ↔ count = bufLen) ∧
      (ret = .timedOut ↔ final.timedout = true ∧ count = 0) ∧
      (ret = .moreData ↔ final.timedout = true ∧ 0 < count ∧ count < bufLen) ∧
      (ret ≠ .ok → ret ≠ .timedOut → ret ≠ .moreData →
        (ret = .failed ∨ ret = .clientDisconnect) ∧ count < bufLen)) ∧
    (final.numActualBytes = none →
      ret ≠ .moreData ∧ (ret = .ok → (moved final.calls : Int) = bufLen)) ∧
    final.numActualBytes.isSome = counted := by
  have loop := Poll.isTransferLoop direction sock bufLen
  have isSome := loop.isSome_numActualBytes returns
  have tracked := loop.tracks (fun _ _ => Poll.forward _ _) (Int.le_of_lt positive) returns honest
  have verdict := loop.verdict (Poll.forward direction) positive returns honest
  refine ⟨fun count known => ?_, fun unknown => ?_, isSome⟩
  · have counts := tracked.count count known
    have within := tracked.within
    cases verdict with
    | complete all =>
        refine ⟨?_, ?_, ?_, ?_⟩
        · simp only [true_iff]; omega
        · simp only [reduceCtorEq, false_iff]; omega
        · simp only [reduceCtorEq, false_iff]; omega
        · exact fun notOk => absurd rfl notOk
    | nothing expired uncounted =>
        have zero : count = 0 := by simpa [known] using uncounted
        refine ⟨?_, ?_, ?_, ?_⟩
        · simp only [reduceCtorEq, false_iff]; omega
        · exact ⟨fun _ => ⟨expired, zero⟩, fun _ => rfl⟩
        · simp only [reduceCtorEq, false_iff]; omega
        · exact fun _ notTimedOut => absurd rfl notTimedOut
    | short expired part partKnown some missing =>
        obtain rfl : count = part := by simpa [known] using partKnown
        refine ⟨?_, ?_, ?_, ?_⟩
        · simp only [reduceCtorEq, false_iff]; omega
        · simp only [reduceCtorEq, false_iff]; omega
        · exact ⟨fun _ => ⟨expired, some, missing⟩, fun _ => rfl⟩
        · exact fun _ _ notMoreData => absurd rfl notMoreData
    | broken code failure early missing =>
        refine ⟨?_, ?_, ?_, fun _ _ _ => ⟨failure, by omega⟩⟩
        · rcases failure with rfl | rfl <;> simp only [reduceCtorEq, false_iff] <;> omega
        · rcases failure with rfl | rfl <;> simp [early]
        · rcases failure with rfl | rfl <;> simp [early]
  · cases verdict with
    | complete all => exact ⟨by simp, fun _ => all⟩
    | nothing expired uncounted => exact ⟨by simp, by simp⟩
    | short expired count known some missing => simp [unknown] at known
    | broken code failure early missing => rcases failure with rfl | rfl <;> simp

theorem return_code_contract_twoParts :
    ∃ final, Poll.call .write (.ofSockfd 5) 3 true twoParts = some (final, .ok) ∧
      (RetCode.ok = .moreData ↔ final.timedout = true ∧ 0 < (3 : Int) ∧ (3 : Int) < 3) :=
  ⟨_, rfl, ((return_code_contract .write (.ofSockfd 5) 3 (by decide) true twoParts _ .ok
    rfl (by decide)).1 3 rfl).2.2.1⟩

end NetClass.Socket
