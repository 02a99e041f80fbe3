import NetClass.Socket.Builds
import NetClass.Socket.TwoRuns

/-!
Contract: a poll transfer with `numActualBytes` null against the same transfer with a
count.

Owns: the relation between the two runs, the answers on which their results part, and the
proof that the two agree on all others.

`checkTimeout` takes the count for the only sign that all the data is there. Without one, a
call whose last byte arrives in the pass that reaches the limit reports a time-out.
-/

set_option autoImplicit false

namespace NetClass.Socket

/-- The result of a call without a count, told from the result of the call with one. -/
def uncounted : RetCode → RetCode
  | .moreData => .timedOut
  | ret => ret

/-- The call without a count makes the same system calls as the one with a count, and only
the code for a part of the data differs. -/
def CountsOnly : Option (Locals × RetCode) → Option (Locals × RetCode) → Prop
  | none, none => True
  | some (final, ret), some (final', ret') =>
      final.calls = final'.calls ∧ ret = uncounted ret'
  | _, _ => False

/-- The answers complete the data exactly with the charge that reaches the limit. -/
def CompletesLate (policy : Policy) (sock : NcSocket) (bufLen : Int)
    (answers : List Answer) : Prop :=
  ∃ before last later, answers = before ++ last :: later ∧
    (∀ answer ∈ before ++ [last], policy.continues answer) ∧
    (movedBy before : Int) < bufLen ∧ (movedBy (before ++ [last]) : Int) = bufLen ∧
    InTime sock before.length ∧ ¬ InTime sock (before.length + 1)

/-! ### The two runs -/

/-- The locals with a count. -/
def Locals.withCount (locals : Locals) (count : Int) : Locals :=
  { locals with numActualBytes := some count }

/-- The locals of the two runs. Before the limit they differ in the count only, which makes
up the buffer together with what remains. -/
inductive Twin (bufLen : Int) (locals : Locals) : Locals → Prop where
  | early (count : Int) (null : locals.numActualBytes = none) (early : locals.timedout = false)
      (known : locals.ret ≠ .moreData)
      (balanced : locals.running = true → count + locals.nRemaining = bufLen) :
      Twin bufLen locals (locals.withCount count)
  | late (locals' : Locals) (calls : locals.calls = locals'.calls)
      (expired : locals.timedout = true) (expired' : locals'.timedout = true)
      (ret : locals.ret = .timedOut)
      (code : locals'.ret = .timedOut ∨ locals'.ret = .moreData ∨ locals'.ret = .ok) :
      Twin bufLen locals locals'

namespace Twin

variable {direction : Direction} {sock : NcSocket} {bufLen : Int} {locals locals' : Locals}

theorem start (bufLen : Int) : Twin bufLen (.start bufLen false) (.start bufLen true) :=
  .early 0 rfl rfl RetCode.noConfusion fun _ => Int.zero_add bufLen

theorem running (twin : Twin bufLen locals locals') : locals.running = locals'.running := by
  cases twin with
  | early count null early known balanced => rfl
  | late locals' calls expired expired' ret code => simp [Locals.running, expired, expired']

/-- `checkTimeout`, before anything has been given up. -/
theorem account {count : Int} (null : locals.numActualBytes = none)
    (early : locals.timedout = false) (balanced : count + locals.nRemaining = bufLen) :
    Twin bufLen (locals.account sock bufLen) ((locals.withCount count).account sock bufLen) := by
  by_cases expired : sock.timeout ≤ locals.timeout + sock.polltime
  · have left := Locals.account_expired bufLen expired
    have right : ((locals.withCount count).account sock bufLen).timedout = true ∧ _ :=
      Locals.account_expired bufLen expired
    have unknown : locals.haveAllData bufLen = -1 := by
      rw [Locals.haveAllData, null]
    refine .late _ rfl left.1 right.1 (left.2.trans (if_pos unknown)) ?_
    rw [right.2]
    split_ifs
    · exact Or.inl rfl
    · exact Or.inr (Or.inl rfl)
    · exact Or.inr (Or.inr rfl)
  · have same : (locals.withCount count).account sock bufLen =
        (locals.account sock bufLen).withCount count := by
      simp [Locals.account, Locals.withCount, NcSocket.checkTimeout, expired]
    have kept := Locals.account_early bufLen expired
    rw [same]
    refine .early count null ?_ ?_ fun _ => balanced
    · rw [kept.2]
      exact early
    · rw [kept.1]
      exact RetCode.noConfusion

/-- A call that is late is late whether it gives up or not. -/
theorem goOn (twin : Twin bufLen locals locals')
    (known : locals.timedout = false → locals.ret = .ok) :
    Twin bufLen (Poll.goOn locals) (Poll.goOn locals') := by
  unfold Poll.goOn
  cases twin with
  | early count null early code balanced =>
      have same : (locals.withCount count).ret = .ok := known early
      rw [if_pos (known early), if_pos same]
      exact .early count null early code balanced
  | late locals' calls expired expired' ret code =>
      split_ifs <;> exact .late _ calls expired expired' ret code

/-- The transfer call. -/
theorem transfer {count : Int} (null : locals.numActualBytes = none)
    (early : locals.timedout = false) (balanced : count + locals.nRemaining = bufLen)
    (answer : TransferAnswer) :
    Twin bufLen (Poll.transfer direction sock bufLen locals answer)
      (Poll.transfer direction sock bufLen (locals.withCount count) answer) := by
  apply Poll.transfer_related
  · intro code failure
    have known : code ≠ .moreData := by
      rcases failure with rfl | rfl <;> exact RetCode.noConfusion
    refine .early count null early known fun goes => ?_
    rw [Locals.disconnect_running] at goes
    cases goes
  · have attempted : Twin bufLen ((locals.attempt sock direction answer).account sock bufLen)
        (((locals.attempt sock direction answer).withCount count).account sock bufLen) :=
      account null early balanced
    apply attempted.goOn
    intro inTime
    by_cases expired : sock.timeout ≤
        (locals.attempt sock direction answer).timeout + sock.polltime
    · rw [(Locals.account_expired bufLen expired).1] at inTime
      cases inTime
    · exact (Locals.account_early bufLen expired).1
  · let advanced := (locals.attempt sock direction answer).advance answer.ret
    have null' : advanced.numActualBytes = none := by
      show locals.numActualBytes.map (· + answer.ret) = none
      rw [null]
      rfl
    have early' : advanced.timedout = false := early
    have balanced' : count + answer.ret + advanced.nRemaining = bufLen := by
      show count + answer.ret + (locals.nRemaining - answer.ret) = bufLen
      omega
    exact account null' early' balanced'

/-- The step lemma. -/
theorem body (twin : Twin bufLen locals locals') (goes : locals.running = true)
    (answer : Answer) :
    AnswerLoop.Matched (Twin bufLen)
      (fun last ret last' ret' => last.calls = last'.calls ∧ ret = .failed ∧ ret' = .failed)
      (Poll.body direction sock bufLen locals answer)
      (Poll.body direction sock bufLen locals' answer) := by
  have alive := (Locals.running_iff locals).mp goes
  cases twin with
  | late locals' calls expired expired' ret code =>
      rw [alive.2] at expired
      cases expired
  | early count null early known balanced =>
      let waited := locals.issue (.poll sock.sockfd (Poll.events direction) sock.polltime
        answer.wait)
      have null' : waited.numActualBytes = none := null
      have early' : waited.timedout = false := early
      have balanced' : count + waited.nRemaining = bufLen := balanced goes
      apply Poll.body_matched answer rfl rfl
      · exact ⟨rfl, rfl, rfl⟩
      · exact .early count null' early' known fun _ => balanced'
      · exact account null' early' balanced'
      · exact transfer null' early' balanced' answer.transfer

theorem outlasts (direction : Direction) (sock : NcSocket) (bufLen : Int) :
    AnswerLoop.Outlasts (Poll.loop direction sock bufLen) (Poll.loop direction sock bufLen)
      (Twin bufLen)
      (fun last ret last' ret' =>
        last.calls = last'.calls ∧ ret = .failed ∧ ret' = .failed) where
  guard := fun _ _ twin goes => twin.running.symm.trans goes
  body := fun _ _ answer twin goes => twin.body goes answer

end Twin

/-- What the two runs of a call can come to. -/
inductive Compared : Option (Locals × RetCode) → Option (Locals × RetCode) → Prop where
  | asking : Compared none none
  | same (final final' : Locals) (ret : RetCode) (calls : final.calls = final'.calls)
      (known : ret ≠ .moreData) : Compared (some (final, ret)) (some (final', ret))
  | late (final final' : Locals) (ret' : RetCode) (calls : final.calls = final'.calls)
      (expired' : final'.timedout = true)
      (code : ret' = .timedOut ∨ ret' = .moreData ∨ ret' = .ok) :
      Compared (some (final, .timedOut)) (some (final', ret'))

/-- The run lemma: the call makes the same system calls with a count as without. -/
theorem compared (direction : Direction) (sock : NcSocket) (bufLen : Int)
    (answers : List Answer) :
    Compared (Poll.call direction sock bufLen false answers)
      (Poll.call direction sock bufLen true answers) := by
  have outlasts := Twin.outlasts direction sock bufLen
  unfold Poll.call
  cases returns : (Poll.loop direction sock bufLen).run (.start bufLen false) answers with
  | none =>
      rw [outlasts.run_none (Twin.start bufLen) returns]
      exact .asking
  | some outcome =>
      obtain ⟨final, ret⟩ := outcome
      have continued := outlasts.run_some (Twin.start bufLen) returns
      generalize (Poll.loop direction sock bufLen).run (.start bufLen true) answers = other
        at continued
      cases continued with
      | left _ final' ret' ends =>
          rw [ends.2.1, ends.2.2]
          exact .same final final' .failed ends.1 RetCode.noConfusion
      | stopped final' rest twin ends =>
          have ends' : (Poll.loop direction sock bufLen).guard final' = false :=
            twin.running.symm.trans ends
          rw [AnswerLoop.run_of_not_guard ends']
          cases twin with
          | early count null early known balanced => exact .same _ _ _ rfl known
          | late final' calls expired expired' ret code =>
              have here : (Poll.loop direction sock bufLen).finish final = .timedOut := ret
              rw [here]
              exact .late _ _ _ calls expired' code

/-- The results part: a time-out without a count, and success with one. -/
def Parts (left right : Option (Locals × RetCode)) : Prop :=
  left.map Prod.snd = some .timedOut ∧ right.map Prod.snd = some .ok

theorem Compared.countsOnly_iff {left right : Option (Locals × RetCode)}
    (compared : Compared left right) : CountsOnly left right ↔ ¬ Parts left right := by
  unfold Parts
  cases compared with
  | asking => exact iff_of_true trivial (by simp)
  | same final final' ret calls known =>
      apply iff_of_true
      · refine ⟨calls, ?_⟩
        cases ret <;> first | rfl | exact absurd rfl known
      · intro parts
        have both : some ret = some RetCode.timedOut ∧ some ret = some RetCode.ok := parts
        rw [both.1] at both
        cases both.2
  | late final final' ret' calls expired' code =>
      rcases code with rfl | rfl | rfl
      · exact iff_of_true ⟨calls, rfl⟩ (by simp)
      · exact iff_of_true ⟨calls, rfl⟩ (by simp)
      · exact iff_of_false (fun counts => RetCode.noConfusion counts.2) (by simp)

/-! ### Waits that answer something odd -/

/-- A poll loop does not look at its log. -/
theorem Alike.body {direction : Direction} {sock : NcSocket} {bufLen : Int}
    {left right : Locals} (alike : Alike left right) (answer : Answer) :
    AnswerLoop.Agree Alike (Poll.body direction sock bufLen left answer)
      (Poll.body direction sock bufLen right answer) := by
  have issued : Alike (left.issue (.poll sock.sockfd (Poll.events direction) sock.polltime
      answer.wait)) (right.issue (.poll sock.sockfd (Poll.events direction) sock.polltime
      answer.wait)) := alike.issue rfl rfl
  apply AnswerLoop.Matched.agree
  apply Poll.body_matched answer rfl rfl ⟨issued, rfl⟩ issued
  · unfold Alike at issued ⊢
    rw [Locals.silence_account, Locals.silence_account, issued]
  · unfold Alike at issued ⊢
    rw [Poll.transfer_silence, Poll.transfer_silence, issued]

/-- Such an answer only adds the wait to the log. -/
theorem Alike.skip {direction : Direction} {sock : NcSocket} {bufLen : Int}
    {left right : Locals} (alike : Alike left right) {answer : Answer}
    (odd : ¬ answer.wait.Plain) :
    ∃ next, Poll.body direction sock bufLen left answer = .again next ∧ Alike next right := by
  unfold WaitAnswer.Plain at odd
  rw [not_or, not_or] at odd
  refine ⟨left.issue (.poll sock.sockfd (Poll.events direction) sock.polltime answer.wait), ?_,
    ?_⟩
  · simp only [Poll.body, Poll.wait, if_neg odd.1, if_neg odd.2.1, if_neg odd.2.2]
  · exact (Locals.silence_issue left rfl).trans alike

/-- The answers to waits that charge an interval or end the call. -/
def settling (answers : List Answer) : List Answer :=
  answers.filter fun answer => decide answer.wait.Plain

theorem ret_settling (direction : Direction) (sock : NcSocket) (bufLen : Int) (counted : Bool)
    (answers : List Answer) :
    (Poll.call direction sock bufLen counted answers).map Prod.snd =
      (Poll.call direction sock bufLen counted (settling answers)).map Prod.snd := by
  have lockStep : AnswerLoop.LockStep (Poll.loop direction sock bufLen)
      (Poll.loop direction sock bufLen) Alike
      (fun answer => decide answer.wait.Plain = true) :=
    { guard := fun _ _ alike => alike.running
      finish := fun left right alike =>
        show left.silence.ret = right.silence.ret from congrArg Locals.ret alike
      body := fun _ _ answer alike _ => alike.body answer }
  have same := lockStep.run_filter
    (fun _ _ _ alike odd => alike.skip (of_decide_eq_false odd)) answers
    (show Alike (.start bufLen counted) (.start bufLen counted) from rfl)
  unfold Poll.call settling
  generalize (Poll.loop direction sock bufLen).run (.start bufLen counted) answers = left at same
  generalize (Poll.loop direction sock bufLen).run (.start bufLen counted)
    (answers.filter fun answer => decide answer.wait.Plain) = right at same
  match left, right with
  | .none, .none => rfl
  | .none, .some _ => exact same.elim
  | .some _, .none => exact same.elim
  | .some _, .some _ => exact congrArg some same.2

/-! ### The last byte -/

/-- The count is the number of bytes that the log has moved. -/
def Locals.CountsMoved (locals : Locals) : Prop :=
  ∀ count, locals.numActualBytes = some count → count = moved locals.calls

theorem Turn.countsMoved {policy : Policy} {direction : Direction} {sock : NcSocket}
    {bufLen : Int} {locals next : Locals} {answer : Answer}
    (turn : Turn policy direction sock bufLen locals answer next)
    (forward : policy.Forward answer) (counts : locals.CountsMoved) : next.CountsMoved := by
  have waited : ∀ wait : Call, wait.isWait = true → (locals.issue wait).CountsMoved := by
    intro wait isWait count known
    have silent := Call.moved_of_not_isTransfer (Call.isTransfer_of_isWait isWait)
    have same : moved (locals.issue wait).calls = moved locals.calls := by
      simp [Locals.issue, silent]
    rw [same]
    exact counts count known
  have lost : ∀ wait : Call, wait.isWait = true → answer.transfer.ret ≤ 0 →
      ((locals.issue wait).attempt sock direction answer.transfer).CountsMoved := by
    intro wait isWait none count known
    rw [Locals.moved_attempt, Int.toNat_of_nonpos none]
    exact waited wait isWait count known
  cases turn with
  | spun wait isWait odd => exact waited wait isWait
  | idled wait isWait idle continues => exact waited wait isWait
  | stepped wait isWait woken continues step =>
      intro count known
      have nonneg := forward woken continues step
      obtain ⟨earlier, before, rfl⟩ := Option.map_eq_some_iff.mp known
      have total := Locals.moved_attempt (locals.issue wait) sock direction answer.transfer
      have same := waited wait isWait earlier before
      show earlier + answer.transfer.ret =
        (moved ((locals.issue wait).attempt sock direction answer.transfer).calls : Int)
      omega
  | blocked wait isWait woken continues failed stays retry =>
      exact lost wait isWait (Int.le_of_lt failed)
  | gaveUp wait isWait woken continues failed stays ended =>
      exact lost wait isWait (Int.le_of_lt failed)
  | disconnected wait isWait none broken code failure =>
      intro count known
      have silent : moved [Call.shutdown sock.sockfd direction.how] = 0 := rfl
      rw [Locals.disconnect_calls, moved_append, silent, Nat.add_zero]
      exact lost wait isWait none count known

/-- The run lemma. -/
theorem countsMoved {direction : Direction} {sock : NcSocket} {bufLen : Int}
    {answers : List Answer} {final : Locals} {ret : RetCode}
    (returns : Poll.call direction sock bufLen true answers = some (final, ret)) :
    final.numActualBytes = some (moved final.calls : Int) := by
  have transfer := Poll.isTransferLoop direction sock bufLen
  have counts : final.CountsMoved := by
    refine AnswerLoop.run_invariant Locals.CountsMoved (fun locals _ => locals.CountsMoved)
      ?again ?leave (fun _ _ holds => holds) returns ?start
    case again =>
      intro locals answer next _ holds again
      exact (transfer.again locals next answer again).countsMoved (Poll.forward direction answer)
        holds
    case leave =>
      intro locals answer last left _ holds leave count known
      obtain ⟨-, -, wait, isWait, rfl⟩ := transfer.leave locals last answer left leave
      have silent := Call.moved_of_not_isTransfer (Call.isTransfer_of_isWait isWait)
      rw [Locals.issue, moved_append, moved_cons, silent, moved_nil, Nat.add_zero]
      exact holds count known
    case start =>
      intro count known
      exact (Option.some.inj known).symm
  obtain ⟨count, known⟩ :=
    Option.isSome_iff_exists.mp (transfer.isSome_numActualBytes returns)
  rw [known, counts count known]

section Exact

variable {direction : Direction} {sock : NcSocket} {bufLen : Int} {answers : List Answer}

/-- A call that has been late with its last byte. -/
structure EndsLate (sock : NcSocket) (bufLen : Int) (final : Locals) : Prop where
  charged : ∃ count, Charged sock bufLen count final
  expired : final.timedout = true
  total : (moved final.calls : Int) = bufLen

/-- A call makes no pass after the one that completes the data. -/
theorem passes_le (direction : Direction) (sock : NcSocket) {bufLen : Int} (counted : Bool)
    {before later : List Answer} {last : Answer}
    (plain : ∀ answer ∈ before ++ last :: later, answer.wait.Plain)
    (complete : bufLen ≤ (movedBy (before ++ [last]) : Int)) :
    ((Poll.loop direction sock bufLen).passes (.start bufLen counted)
      (before ++ last :: later)).length ≤ before.length + 1 := by
  have transfer := Poll.isTransferLoop direction sock bufLen
  obtain ⟨unused, taken⟩ : ∃ unused, before ++ last :: later =
      ((Poll.loop direction sock bufLen).passes (.start bufLen counted)
        (before ++ last :: later)).map Prod.snd ++ unused := AnswerLoop.passes_answers _ _
  generalize passes : (Poll.loop direction sock bufLen).passes (.start bufLen counted)
    (before ++ last :: later) = made at taken ⊢
  by_contra more
  have below : before.length + 1 < made.length := Nat.lt_of_not_le more
  have split : made = made.take (before.length + 1) ++
      made[before.length + 1] :: made.drop (before.length + 1 + 1) := by
    rw [List.getElem_cons_drop, List.take_append_drop]
  have first : before ++ [last] = (made.take (before.length + 1)).map Prod.snd := by
    have front : before ++ [last] ++ later = (made.take (before.length + 1)).map Prod.snd ++
        ((made.drop (before.length + 1)).map Prod.snd ++ unused) := by
      rw [← List.append_assoc, ← List.map_append, List.take_append_drop, ← taken,
        List.append_assoc]
      rfl
    apply List.append_inj_left front
    simp only [List.length_append, List.length_map, List.length_take, List.length_singleton]
    omega
  have short := (transfer.account_pass_of_forward (Poll.forward direction)
    (Poll.settles direction plain) (passes.trans split)).2.1
  rw [← first] at short
  omega

/-- A call whose data is complete has returned. -/
theorem returns_of_complete (direction : Direction) (sock : NcSocket) (counted : Bool)
    {before later : List Answer} {last : Answer}
    (plain : ∀ answer ∈ before ++ last :: later, answer.wait.Plain)
    (complete : bufLen ≤ (movedBy (before ++ [last]) : Int)) :
    ∃ outcome, Poll.call direction sock bufLen counted (before ++ last :: later) =
      some outcome := by
  apply Option.ne_none_iff_exists'.mp
  intro asks
  -- Otherwise one more answer would be one more pass.
  have more := AnswerLoop.passes_of_asks asks last []
  have plain' : ∀ answer ∈ before ++ last :: (later ++ [last]), answer.wait.Plain := by
    intro answer member
    apply plain
    simp only [List.mem_append, List.mem_cons, List.not_mem_nil, or_false] at member ⊢
    tauto
  have few := passes_le direction sock counted plain' complete
  rw [List.append_assoc, List.cons_append, List.length_append, List.length_cons] at more
  omega

/-- Answers that complete the data late bring the call to its end with the last of them. -/
theorem CompletesLate.ends (plain : ∀ answer ∈ answers, answer.wait.Plain)
    (late : CompletesLate (Poll.policy direction) sock bufLen answers) (counted : Bool) :
    ∃ final, Poll.call direction sock bufLen counted answers = some (final, final.ret) ∧
      EndsLate sock bufLen final := by
  have transfer := Poll.isTransferLoop direction sock bufLen
  obtain ⟨before, last, later, rfl, continues, short, complete, inTime, late⟩ := late
  have few := passes_le direction sock counted plain (Int.le_of_eq complete.symm)
  obtain ⟨⟨final, ret⟩, returns⟩ :=
    returns_of_complete direction sock counted plain (Int.le_of_eq complete.symm)
  obtain ⟨unused, taken⟩ : ∃ unused, before ++ last :: later =
      ((Poll.loop direction sock bufLen).passes (.start bufLen counted)
        (before ++ last :: later)).map Prod.snd ++ unused := AnswerLoop.passes_answers _ _
  have account := transfer.account_of_forward (Poll.forward direction)
    (Poll.settles direction plain) returns
  generalize (Poll.loop direction sock bufLen).passes (.start bufLen counted)
    (before ++ last :: later) = made at few taken account
  have within : made.map Prod.snd <+: before ++ [last] := by
    apply List.prefix_of_prefix_length_le ⟨unused, taken.symm⟩ ⟨later, by simp⟩
    simpa using few
  rcases account with ⟨account, stopped, rfl⟩ | stopped
  · have whole : made.map Prod.snd = before ++ [last] := by
      apply within.eq_of_length_le
      by_contra fewer
      rw [List.length_map, List.length_append, List.length_singleton] at fewer
      -- The loop would have stopped although neither the data nor the limit is reached.
      have early := account.charged.flag.mpr (inTime.mono (by omega))
      have all := account.complete stopped early
      have front : made.map Prod.snd <+: before := by
        apply List.prefix_of_prefix_length_le within ⟨[last], rfl⟩
        rw [List.length_map]
        omega
      obtain ⟨rest, rfl⟩ := front
      rw [movedBy_append] at short
      push_cast at short
      omega
    have length := congrArg List.length whole
    rw [List.length_map, List.length_append, List.length_singleton] at length
    refine ⟨final, returns, ⟨_, account.charged⟩, ?_, ?_⟩
    · rw [← Bool.not_eq_false, account.charged.flag, length]
      exact late
    · rw [account.total, whole]
      exact complete
  · exact absurd continues (stopped.not_continues within)

/-- Only such answers make a call end late. -/
theorem completesLate_of_endsLate (plain : ∀ answer ∈ answers, answer.wait.Plain)
    {counted : Bool} {final : Locals} {ret : RetCode}
    (returns : Poll.call direction sock bufLen counted answers = some (final, ret))
    (works : ret ≠ .failed ∧ ret ≠ .clientDisconnect) (expired : final.timedout = true)
    (total : (moved final.calls : Int) = bufLen) :
    CompletesLate (Poll.policy direction) sock bufLen answers := by
  have transfer := Poll.isTransferLoop direction sock bufLen
  have settles := Poll.settles direction plain
  obtain ⟨unused, taken⟩ : ∃ unused, answers =
      ((Poll.loop direction sock bufLen).passes (.start bufLen counted) answers).map Prod.snd ++
        unused := AnswerLoop.passes_answers _ _
  rcases transfer.account_of_forward (Poll.forward direction) settles returns with
    ⟨account, stopped, -⟩ | stopped
  · have late : ¬ InTime sock
        ((Poll.loop direction sock bufLen).passes (.start bufLen counted) answers).length := by
      rw [← account.charged.flag, expired]
      exact Bool.noConfusion
    have some : (Poll.loop direction sock bufLen).passes (.start bufLen counted) answers ≠ [] := by
      intro empty
      rw [empty] at late
      exact late (.zero sock)
    have split := (List.dropLast_append_getLast some).symm
    obtain ⟨-, short, inTime⟩ :=
      transfer.account_pass_of_forward (Poll.forward direction) settles split
    generalize (Poll.loop direction sock bufLen).passes (.start bufLen counted) answers = made
      at *
    have whole : made.map Prod.snd = made.dropLast.map Prod.snd ++ [(made.getLast some).2] := by
      conv_lhs => rw [split]
      simp
    refine ⟨made.dropLast.map Prod.snd, (made.getLast some).2, unused, ?_, ?_, short, ?_, ?_, ?_⟩
    · rw [taken, whole]
      simp
    · rw [← whole]
      intro answer member
      obtain ⟨pass, inMade, rfl⟩ := List.mem_map.mp member
      exact account.continues pass inMade
    · rw [← whole, ← account.total]
      exact total
    · rwa [List.length_map]
    · have length := List.length_pos_of_ne_nil some
      rw [List.length_map, List.length_dropLast, Nat.sub_add_cancel length]
      exact late
  · rcases stopped.failure with rfl | rfl
    · exact absurd rfl works.1
    · exact absurd rfl works.2

/-- Without a count, a call that ends late reports a time-out. With one it succeeds. -/
theorem EndsLate.parts {final final' : Locals} (positive : 0 < bufLen)
    (ends : EndsLate sock bufLen final) (null : final.numActualBytes = none)
    (ends' : EndsLate sock bufLen final')
    (counts : final'.numActualBytes = some (moved final'.calls : Int)) :
    final.ret = .timedOut ∧ final'.ret = .ok := by
  obtain ⟨count, charged⟩ := ends.charged
  obtain ⟨count', charged'⟩ := ends'.charged
  have unknown : final.haveAllData bufLen = -1 := by
    rw [Locals.haveAllData, null]
  have known : final'.haveAllData bufLen = 1 := by
    rw [Locals.haveAllData, counts, ends'.total]
    dsimp only
    rw [if_pos positive, if_pos rfl]
  constructor
  · rw [charged.late ends.expired, unknown]
    rfl
  · rw [charged'.late ends'.expired, known]
    rfl

/-- A call that has reached the limit succeeds only when it knows that all the data is
there. -/
theorem total_of_ok (plain : ∀ answer ∈ answers, answer.wait.Plain) {final : Locals}
    (returns : Poll.call direction sock bufLen true answers = some (final, .ok))
    (expired : final.timedout = true) : (moved final.calls : Int) = bufLen := by
  have transfer := Poll.isTransferLoop direction sock bufLen
  rcases transfer.account_of_forward (Poll.forward direction) (Poll.settles direction plain)
    returns with ⟨account, -, code⟩ | stopped
  · have late := account.charged.late expired
    rw [← code, Locals.haveAllData, countsMoved returns] at late
    dsimp only at late
    split_ifs at late with some all <;> simp_all
  · rcases stopped.failure with failed | lost
    · cases failed
    · cases lost

/-- The results part exactly on answers that complete the data late. -/
theorem parts_iff (positive : 0 < bufLen) (plain : ∀ answer ∈ answers, answer.wait.Plain) :
    Parts (Poll.call direction sock bufLen false answers)
        (Poll.call direction sock bufLen true answers) ↔
      CompletesLate (Poll.policy direction) sock bufLen answers := by
  have both := compared direction sock bufLen answers
  constructor
  · intro parts
    cases returns : Poll.call direction sock bufLen false answers with
    | none =>
        rw [returns] at parts
        cases parts.1
    | some outcome =>
        cases returns' : Poll.call direction sock bufLen true answers with
        | none =>
            rw [returns'] at parts
            cases parts.2
        | some outcome' =>
            obtain ⟨final, ret⟩ := outcome
            obtain ⟨final', ret'⟩ := outcome'
            rw [returns, returns'] at parts both
            obtain rfl : ret = .timedOut := Option.some.inj parts.1
            obtain rfl : ret' = .ok := Option.some.inj parts.2
            cases both with
            | late _ _ _ calls expired' code =>
                exact completesLate_of_endsLate plain returns' (by simp) expired'
                  (total_of_ok plain returns' expired')
  · intro late
    obtain ⟨final, returns, ends⟩ := late.ends plain false
    obtain ⟨final', returns', ends'⟩ := late.ends plain true
    have transfer := Poll.isTransferLoop direction sock bufLen
    have null := Option.isSome_eq_false_iff.mp (transfer.isSome_numActualBytes returns)
    have codes := ends.parts positive (Option.isNone_iff_eq_none.mp null) ends'
      (countsMoved returns')
    rw [returns, returns', codes.1, codes.2]
    exact ⟨rfl, rfl⟩

end Exact

/-- The results of a call without a count and of one with a count agree exactly on the
answers that do not complete the data with the charge that reaches the limit. -/
theorem counts_only_iff (direction : Direction) (sock : NcSocket) (bufLen : Int)
    (positive : 0 < bufLen) (answers : List Answer) :
    CountsOnly (Poll.call direction sock bufLen false answers)
        (Poll.call direction sock bufLen true answers) ↔
      ¬ CompletesLate (Poll.policy direction) sock bufLen (settling answers) := by
  have plain : ∀ answer ∈ settling answers, answer.wait.Plain :=
    fun answer member => of_decide_eq_true (List.mem_filter.mp member).2
  rw [(compared direction sock bufLen answers).countsOnly_iff, ← parts_iff positive plain]
  unfold Parts
  rw [ret_settling direction sock bufLen false, ret_settling direction sock bufLen true]

theorem counts_only_iff_twoParts :
    ¬ CompletesLate (Poll.policy .write) (.ofSockfd 5) 3 (settling twoParts) :=
  (counts_only_iff .write (.ofSockfd 5) 3 (by decide) twoParts).mp ⟨rfl, rfl⟩

/-- One byte goes out at once. With a period of one poll interval, or of none at all, the
call that does not count reports a time-out. -/
theorem null_times_out :
    (¬ CountsOnly
      (Poll.call .write ((NcSocket.ofSockfd 5).setTimeout 0) 1 false
        [⟨⟨1, pollOut, true⟩, ⟨1, .other 0, []⟩⟩])
      (Poll.call .write ((NcSocket.ofSockfd 5).setTimeout 0) 1 true
        [⟨⟨1, pollOut, true⟩, ⟨1, .other 0, []⟩⟩])) ∧
    ¬ CountsOnly
      (Poll.call .write ((NcSocket.ofSockfd 5).setTimeout 100) 1 false
        [⟨⟨1, pollOut, true⟩, ⟨1, .other 0, []⟩⟩])
      (Poll.call .write ((NcSocket.ofSockfd 5).setTimeout 100) 1 true
        [⟨⟨1, pollOut, true⟩, ⟨1, .other 0, []⟩⟩]) := by
  constructor
  · intro counts
    have codes : RetCode.timedOut = .ok := counts.2
    cases codes
  · intro counts
    have codes : RetCode.timedOut = .ok := counts.2
    cases codes

end NetClass.Socket
