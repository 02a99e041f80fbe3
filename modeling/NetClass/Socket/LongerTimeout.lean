import NetClass.Socket.Timing
import NetClass.Socket.TwoRuns

/-!
Contract: a poll transfer with a shorter period against the same transfer with a longer
one.

Owns: the relation between the two runs up to the pass in which the shorter one reaches its
limit, and the proof that the longer one makes the same system calls and goes on only when
the other has reported a time-out.
-/

set_option autoImplicit false

namespace NetClass.Socket

/-- While the call goes on, a count makes up the buffer together with what remains. -/
def Balanced (bufLen : Int) (locals : Locals) : Prop :=
  ∀ count, locals.numActualBytes = some count → count + locals.nRemaining = bufLen

/-- The locals of the run with the shorter period and of the run with the longer one. They
are the same up to the limit of the shorter run. If that run then knows all the data to be
there, the longer run has come to its end, too. -/
inductive Ahead (bufLen : Int) (locals : Locals) : Locals → Prop where
  | level (early : locals.timedout = false)
      (balanced : locals.running = true → Balanced bufLen locals) : Ahead bufLen locals locals
  | ahead (locals' : Locals) (expired : locals.timedout = true)
      (calls : locals'.calls = locals.calls)
      (done : locals.ret ≠ .timedOut → locals.ret ≠ .moreData → locals'.running = false ∧
        locals'.ret = locals.ret ∧ locals'.numActualBytes = locals.numActualBytes) :
      Ahead bufLen locals locals'

namespace Ahead

variable {direction : Direction} {sock : NcSocket} {shorter longer : UInt32} {bufLen : Int}
variable {locals locals' : Locals}

theorem start (bufLen : Int) (counted : Bool) :
    Ahead bufLen (.start bufLen counted) (.start bufLen counted) := by
  refine .level rfl fun _ count known => ?_
  cases counted with
  | false => cases known
  | true =>
      rw [← Option.some.inj known]
      exact Int.zero_add bufLen

/-- A call that knows all the data to be there has nothing left to transfer. -/
theorem nRemaining_of_known (balanced : Balanced bufLen locals)
    (some : locals.haveAllData bufLen ≠ -1) (all : locals.haveAllData bufLen ≠ 0) :
    locals.nRemaining = 0 := by
  unfold Locals.haveAllData at some all
  cases known : locals.numActualBytes with
  | none =>
      rw [known] at some
      exact absurd rfl some
  | some count =>
      have whole := balanced count known
      rw [known] at some all
      dsimp only at some all
      split_ifs at some all with positive complete
      · omega
      · exact absurd rfl all
      · exact absurd rfl some

/-- `checkTimeout`, before anything has been given up. -/
theorem account (le : shorter ≤ longer) (early : locals.timedout = false)
    (balanced : Balanced bufLen locals) :
    Ahead bufLen (locals.account (sock.setTimeout shorter) bufLen)
      (locals.account (sock.setTimeout longer) bufLen) := by
  by_cases expired : shorter ≤ locals.timeout + sock.polltime
  · have left : (locals.account (sock.setTimeout shorter) bufLen).timedout = true ∧ _ :=
      Locals.account_expired bufLen expired
    refine .ahead _ left.1 rfl fun notTimedOut notMoreData => ?_
    rw [left.2] at notTimedOut notMoreData ⊢
    have known : locals.haveAllData bufLen ≠ -1 ∧ locals.haveAllData bufLen ≠ 0 := by
      constructor
      · intro unknown
        rw [if_pos unknown] at notTimedOut
        exact notTimedOut rfl
      · intro part
        rw [part] at notMoreData
        exact notMoreData rfl
    have drained := nRemaining_of_known balanced known.1 known.2
    rw [if_neg known.1, if_neg known.2]
    refine ⟨?_, ?_, rfl⟩
    · rw [← Bool.not_eq_true, Locals.running_iff]
      intro goes
      have remaining : 0 < locals.nRemaining := goes.1
      omega
    · by_cases expired' : longer ≤ locals.timeout + sock.polltime
      · have right : _ ∧ (locals.account (sock.setTimeout longer) bufLen).ret = _ :=
          Locals.account_expired bufLen expired'
        rw [right.2, if_neg known.1, if_neg known.2]
      · have right : (locals.account (sock.setTimeout longer) bufLen).ret = .ok ∧ _ :=
          Locals.account_early bufLen expired'
        exact right.1
  · have expired' : ¬ longer ≤ locals.timeout + sock.polltime :=
      fun late => expired (UInt32.le_trans le late)
    have left : (locals.account (sock.setTimeout shorter) bufLen).ret = .ok ∧ _ :=
      Locals.account_early bufLen expired
    have same : locals.account (sock.setTimeout longer) bufLen =
        locals.account (sock.setTimeout shorter) bufLen := by
      simp [Locals.account, NcSocket.checkTimeout, NcSocket.setTimeout, expired, expired']
    rw [same]
    exact .level (left.2.trans early) fun _ => balanced

/-- Whether a call goes on after a would-block error is decided by what `checkTimeout`
answered. -/
theorem goOn (ahead : Ahead bufLen locals locals') :
    Ahead bufLen (Poll.goOn locals) (Poll.goOn locals') := by
  unfold Poll.goOn
  cases ahead with
  | level early balanced =>
      split_ifs
      · exact .level early balanced
      · refine .level early fun goes => ?_
        rw [Locals.giveUp_running] at goes
        cases goes
  | ahead locals' expired calls done =>
      split_ifs
      · exact .ahead _ expired calls done
      · refine .ahead _ expired calls fun notTimedOut notMoreData => ?_
        have known := done notTimedOut notMoreData
        exact ⟨Locals.giveUp_running locals', known.2⟩
      · exact .ahead _ expired calls done
      · refine .ahead _ expired calls fun notTimedOut notMoreData => ?_
        have known := done notTimedOut notMoreData
        exact ⟨Locals.giveUp_running locals', known.2⟩

/-- The transfer call. -/
theorem transfer (le : shorter ≤ longer) (early : locals.timedout = false)
    (balanced : Balanced bufLen locals) (answer : TransferAnswer) :
    Ahead bufLen (Poll.transfer direction (sock.setTimeout shorter) bufLen locals answer)
      (Poll.transfer direction (sock.setTimeout longer) bufLen locals answer) := by
  apply Poll.transfer_related
  · intro code _
    refine .level early fun goes => ?_
    rw [Locals.disconnect_running] at goes
    cases goes
  · let attempted := locals.attempt sock direction answer
    have charged : Ahead bufLen (attempted.account (sock.setTimeout shorter) bufLen)
        (attempted.account (sock.setTimeout longer) bufLen) := account le early balanced
    exact charged.goOn
  · let advanced := (locals.attempt sock direction answer).advance answer.ret
    have balanced' : Balanced bufLen advanced := by
      intro count known
      obtain ⟨before, knownBefore, rfl⟩ := Option.map_eq_some_iff.mp known
      have whole := balanced before knownBefore
      show before + answer.ret + (locals.nRemaining - answer.ret) = bufLen
      omega
    have early' : advanced.timedout = false := early
    exact account le early' balanced'

/-- The step lemma. -/
theorem body (ahead : Ahead bufLen locals locals') (le : shorter ≤ longer)
    (goes : locals.running = true) (answer : Answer) :
    AnswerLoop.Matched (Ahead bufLen) (fun last ret last' ret' => last = last' ∧ ret = ret')
      (Poll.body direction (sock.setTimeout shorter) bufLen locals answer)
      (Poll.body direction (sock.setTimeout longer) bufLen locals' answer) := by
  have alive := (Locals.running_iff locals).mp goes
  cases ahead with
  | ahead locals' expired calls done =>
      rw [alive.2] at expired
      cases expired
  | level early balanced =>
      let waited := locals.issue (.poll sock.sockfd (Poll.events direction) sock.polltime
        answer.wait)
      have early' : waited.timedout = false := early
      have balanced' : Balanced bufLen waited := balanced goes
      apply Poll.body_matched answer rfl rfl
      · exact ⟨rfl, rfl⟩
      · exact .level early' fun _ => balanced'
      · exact account le early' balanced'
      · exact transfer le early' balanced' answer.transfer

theorem outlasts (direction : Direction) (sock : NcSocket) (le : shorter ≤ longer)
    (bufLen : Int) :
    AnswerLoop.Outlasts (Poll.loop direction (sock.setTimeout shorter) bufLen)
      (Poll.loop direction (sock.setTimeout longer) bufLen) (Ahead bufLen)
      (fun last ret last' ret' => last = last' ∧ ret = ret') where
  guard := by
    intro locals locals' ahead goes
    have alive := (Locals.running_iff locals).mp goes
    cases ahead with
    | level early balanced => exact goes
    | ahead locals' expired calls done =>
        rw [alive.2] at expired
        cases expired
  body := fun _ _ answer ahead goes => ahead.body le goes answer

end Ahead

/-! ### What the longer run adds -/

/-- A call keeps what is in its log. -/
theorem IsTransferLoop.calls_prefix {policy : Policy} {direction : Direction} {sock : NcSocket}
    {bufLen : Int} {loop : AnswerLoop Locals Answer RetCode} {early final : Locals}
    {answers : List Answer} {ret : RetCode}
    (transfer : IsTransferLoop policy direction sock bufLen loop)
    (returns : loop.run early answers = some (final, ret)) : early.calls <+: final.calls := by
  refine AnswerLoop.run_invariant (fun locals => early.calls <+: locals.calls)
    (fun locals _ => early.calls <+: locals.calls) ?again ?leave (fun _ _ holds => holds) returns
    List.prefix_rfl
  case again =>
    intro locals answer next _ holds again
    obtain ⟨wait, more, grown, -⟩ := (transfer.again locals next answer again).calls_grow
    rw [grown]
    exact holds.trans (List.prefix_append _ _)
  case leave =>
    intro locals answer last left _ holds leave
    obtain ⟨-, -, wait, -, rfl⟩ := transfer.leave locals last answer left leave
    exact holds.trans (List.prefix_append _ _)

/-- The run with the longer period extends the other one. Unless that one has reported a
time-out, the two are the same. -/
structure Extends (final : Locals) (ret : RetCode) (final' : Locals) (ret' : RetCode) :
    Prop where
  calls : final.calls <+: final'.calls
  accepted : ∀ mem, accepted mem final.calls <+: accepted mem final'.calls
  received : received final.calls <+: received final'.calls
  same : ret ≠ .timedOut → ret ≠ .moreData →
    ret' = ret ∧ final'.calls = final.calls ∧ final'.numActualBytes = final.numActualBytes

theorem Extends.of_calls {final final' : Locals} {ret ret' : RetCode}
    (calls : final.calls <+: final'.calls)
    (same : ret ≠ .timedOut → ret ≠ .moreData → ret' = ret ∧ final'.calls = final.calls ∧
      final'.numActualBytes = final.numActualBytes) : Extends final ret final' ret' where
  calls := calls
  accepted := by
    intro mem
    obtain ⟨more, grown⟩ := calls
    rw [← grown]
    unfold NetClass.Socket.accepted
    rw [List.flatMap_append]
    exact List.prefix_append _ _
  received := by
    obtain ⟨more, grown⟩ := calls
    rw [← grown]
    unfold NetClass.Socket.received
    rw [List.flatMap_append]
    exact List.prefix_append _ _
  same := same

section Runs

variable {direction : Direction} {sock : NcSocket} {shorter longer : UInt32} {bufLen : Int}
variable {counted : Bool} {answers : List Answer} {final final' : Locals} {ret ret' : RetCode}

/-- The run lemma: when the shorter run has returned, the longer one has returned in the same
way, or the shorter one has reported a time-out and the longer one goes on from its log. -/
theorem goes_on (le : shorter ≤ longer)
    (returns : Poll.call direction (sock.setTimeout shorter) bufLen counted answers =
      some (final, ret)) :
    (∃ final', Poll.call direction (sock.setTimeout longer) bufLen counted answers =
        some (final', ret) ∧
      final'.calls = final.calls ∧ final'.numActualBytes = final.numActualBytes) ∨
    ((ret = .timedOut ∨ ret = .moreData) ∧ ∃ locals rest, locals.calls = final.calls ∧
      Poll.call direction (sock.setTimeout longer) bufLen counted answers =
        (Poll.loop direction (sock.setTimeout longer) bufLen).run locals rest) := by
  have continued := (Ahead.outlasts direction sock le bufLen).run_some
    (Ahead.start bufLen counted) returns
  unfold Poll.call
  generalize (Poll.loop direction (sock.setTimeout longer) bufLen).run (.start bufLen counted)
    answers = other at continued
  cases continued with
  | left _ final' ret' ends =>
      left
      rw [ends.1, ends.2]
      exact ⟨final', rfl, rfl, rfl⟩
  | stopped final' rest ahead ends =>
      cases ahead with
      | level early balanced =>
          left
          have ends' : (Poll.loop direction (sock.setTimeout longer) bufLen).guard final =
              false := ends
          exact ⟨final, AnswerLoop.run_of_not_guard ends' rest, rfl, rfl⟩
      | ahead final' expired calls done =>
          by_cases late : final.ret = .timedOut ∨ final.ret = .moreData
          · right
            exact ⟨late, final', rest, calls, rfl⟩
          · left
            rw [not_or] at late
            obtain ⟨stopped, same, count⟩ := done late.1 late.2
            refine ⟨final', ?_, calls, count⟩
            rw [AnswerLoop.run_of_not_guard stopped]
            exact congrArg some (Prod.ext rfl same)

/-- Two runs that have both returned. -/
theorem extends_of_returns (le : shorter ≤ longer)
    (returns : Poll.call direction (sock.setTimeout shorter) bufLen counted answers =
      some (final, ret))
    (returns' : Poll.call direction (sock.setTimeout longer) bufLen counted answers =
      some (final', ret')) : Extends final ret final' ret' := by
  rcases goes_on le returns with ⟨other, same, calls, count⟩ | ⟨late, locals, rest, calls, same⟩
  · rw [returns', Option.some.injEq, Prod.mk.injEq] at same
    obtain ⟨rfl, rfl⟩ := same
    exact .of_calls (calls ▸ List.prefix_rfl) fun _ _ => ⟨rfl, calls, count⟩
  · rw [returns'] at same
    have transfer := Poll.isTransferLoop direction (sock.setTimeout longer) bufLen
    have more := transfer.calls_prefix same.symm
    rw [calls] at more
    refine .of_calls more fun inTime whole => ?_
    rcases late with timedOut | moreData
    · exact absurd timedOut inTime
    · exact absurd moreData whole

end Runs

/-- With a longer period a transfer makes the system calls it makes with a shorter one, and
goes on after them only if that one reports a time-out. It returns when the answers to its
waits are those of the kernel and there are enough of them. -/
theorem longer_timeout_extends (direction : Direction) (sock : NcSocket)
    (shorter longer : UInt32) (le : shorter ≤ longer) (bufLen : Int) (counted : Bool)
    (answers : List Answer) :
    (∀ final' ret', Poll.call direction (sock.setTimeout longer) bufLen counted answers =
        some (final', ret') →
      ∃ final ret, Poll.call direction (sock.setTimeout shorter) bufLen counted answers =
        some (final, ret) ∧ Extends final ret final' ret') ∧
    (∀ final ret, Poll.call direction (sock.setTimeout shorter) bufLen counted answers =
        some (final, ret) → ret ≠ .timedOut → ret ≠ .moreData →
      ∃ final', Poll.call direction (sock.setTimeout longer) bufLen counted answers =
          some (final', ret) ∧
        final'.calls = final.calls ∧ final'.numActualBytes = final.numActualBytes) ∧
    (0 < sock.polltime → longer.toNat + sock.polltime.toNat ≤ 2 ^ 32 →
      (∀ answer ∈ answers, answer.wait.Plain) →
      maxWaits (sock.setTimeout longer) ≤ answers.length →
      ∃ final' ret', Poll.call direction (sock.setTimeout longer) bufLen counted answers =
        some (final', ret')) := by
  refine ⟨?_, ?_, ?_⟩
  · intro final' ret' returns'
    cases returns : Poll.call direction (sock.setTimeout shorter) bufLen counted answers with
    | none =>
        have asks := (Ahead.outlasts direction sock le bufLen).run_none
          (Ahead.start bufLen counted) returns
        unfold Poll.call at returns'
        rw [asks] at returns'
        cases returns'
    | some outcome =>
        obtain ⟨final, ret⟩ := outcome
        exact ⟨final, ret, rfl, extends_of_returns le returns returns'⟩
  · intro final ret returns inTime whole
    rcases goes_on le returns with same | ⟨timedOut | moreData, -⟩
    · exact same
    · exact absurd timedOut inTime
    · exact absurd moreData whole
  · intro polls limit plain enough
    have polls' : 0 < (sock.setTimeout longer).polltime := polls
    obtain ⟨outcome, returns⟩ :=
      (Build.poll.returns direction bufLen counted polls' limit plain).2 enough
    exact ⟨outcome.1, outcome.2, returns⟩

/-- Three bytes that go out in two parts: a period of one interval ends before the second
part. -/
theorem longer_timeout_extends_twoParts :
    ∃ final ret, Poll.call .write ((NcSocket.ofSockfd 5).setTimeout 100) 3 true twoParts =
        some (final, ret) ∧
      ∃ final', Extends final ret final' .ok := by
  obtain ⟨final, ret, returns, extends_⟩ :=
    (longer_timeout_extends .write (.ofSockfd 5) 100 1000 (by decide) 3 true twoParts).1 _ _ rfl
  exact ⟨final, ret, returns, _, extends_⟩

end NetClass.Socket
