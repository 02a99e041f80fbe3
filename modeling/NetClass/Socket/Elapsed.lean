import Mathlib.Algebra.BigOperators.Group.Finset.Basic
import Mathlib.Data.Real.Basic
import Mathlib.Tactic.Linarith
import Mathlib.Tactic.Ring
import NetClass.Socket.Account
import NetClass.Socket.Timing

/-!
Contract: accounted time against time that has really gone by.

Owns: the exact condition on the kernel's answers under which a poll transfer ends
with `NC_TIMEDOUT` or `NC_MOREDATA`, the time that the waits of a call have taken,
and the comparison of the two.

`checkTimeout` charges a whole poll interval for every pass, whether the wait
lasted that long or not. A call whose waits are cut short by a ready descriptor
therefore reports a time-out after fewer milliseconds than `m_timeout`.
-/

set_option autoImplicit false

namespace NetClass.Socket

/-- Within the limits of the counter, the charges stay below the period exactly as long
as there are fewer than `maxWaits` of them. -/
theorem inTime_iff {sock : NcSocket} (polls : 0 < sock.polltime)
    (limit : sock.timeout.toNat + sock.polltime.toNat ≤ 2 ^ 32) (count : Nat) :
    InTime sock count ↔ count < maxWaits sock := by
  have small := sock.polltime.toNat_lt
  have exactly : ∀ charge, charge < maxWaits sock →
      (accounted sock charge).toNat = charge * sock.polltime.toNat ∧
        (accounted sock (charge + 1)).toNat = (charge + 1) * sock.polltime.toNat := by
    intro charge
    induction charge with
    | zero => simp [accounted]
    | succ charge inductionHypothesis =>
        intro below
        have before := (inductionHypothesis (Nat.lt_of_succ_lt below)).2
        refine ⟨before, ?_⟩
        have early := ((lt_maxWaits_iff polls (charge + 1)).mp below).resolve_left (by omega)
        rw [accounted_succ, UInt32.toNat_add, before, Nat.mod_eq_of_lt (by omega),
          Nat.succ_mul (charge + 1)]
  induction count with
  | zero =>
      have some : 1 ≤ maxWaits sock := Nat.le_max_left _ _
      exact iff_of_true (.zero sock) some
  | succ count inductionHypothesis =>
      rw [inTime_succ_iff, lt_maxWaits_iff polls (count + 1)]
      constructor
      · rintro ⟨before, early⟩
        right
        rw [← (exactly count (inductionHypothesis.mp before)).2]
        exact UInt32.lt_iff_toNat_lt.mp early
      · rintro (zero | early)
        · omega
        · have below : count < maxWaits sock := by
            rw [lt_maxWaits_iff polls]
            right
            rw [Nat.succ_mul] at early
            omega
          refine ⟨inductionHypothesis.mpr below, ?_⟩
          rw [UInt32.lt_iff_toNat_lt, (exactly count below).2]
          exact early

/-- The answers use up the accounted time before the data is there: the first
`maxWaits` of them let the loop go on, and the bytes they move fall short of
`bufLen` until the last of them, or, when the call counts, even with the last. -/
structure RunsOut (policy : Policy) (sock : NcSocket) (bufLen : Int) (counted : Bool)
    (answers : List Answer) : Prop where
  enough : maxWaits sock ≤ answers.length
  continues : ∀ answer ∈ answers.take (maxWaits sock), policy.continues answer
  unfinished : (movedBy (answers.take (maxWaits sock - 1)) : Int) < bufLen
  known : counted = true → (movedBy (answers.take (maxWaits sock)) : Int) < bufLen

section Returned

variable {policy : Policy} {direction : Direction} {sock : NcSocket} {bufLen : Int}
variable {final : Locals} {history : List (Locals × Answer)} {answers unused : List Answer}
variable {counted : Bool}

/-- The code of a call that `checkTimeout` has ended. -/
theorem OnAccount.code_iff (holds : OnAccount policy sock bufLen final history)
    (tracks : Tracks direction bufLen final) (known : final.numActualBytes.isSome = counted)
    (positive : 0 < bufLen) (expired : final.timedout = true) :
    (final.ret = .timedOut ∨ final.ret = .moreData) ↔
      (counted = true → (moved final.calls : Int) < bufLen) := by
  have within := tracks.within
  rw [holds.charged.late expired]
  cases count : final.numActualBytes with
  | none =>
      have uncounted : counted = false := by rw [← known, count]; rfl
      simp [Locals.haveAllData, count, uncounted]
  | some counts =>
      have isCounted : counted = true := by rw [← known, count]; rfl
      have same := tracks.count counts count
      simp only [Locals.haveAllData, count, isCounted, forall_const]
      by_cases some : 0 < counts
      · by_cases complete : counts = bufLen
        · simp only [complete, positive, ↓reduceIte]
          constructor
          · rintro (code | code) <;> simp at code
          · omega
        · simp only [some, complete, ↓reduceIte]
          constructor
          · omega
          · exact fun _ => Or.inr (by decide)
      · simp only [some, ↓reduceIte, true_or, true_iff]
        omega

/-- A call that was on account to its end reports a time-out if and only if its answers
ran out. -/
theorem OnAccount.timesOut_iff (holds : OnAccount policy sock bufLen final history)
    (polls : 0 < sock.polltime) (limit : sock.timeout.toNat + sock.polltime.toNat ≤ 2 ^ 32)
    (split : answers = history.map Prod.snd ++ unused)
    (unfinished : (movedBy (history.dropLast.map Prod.snd) : Int) < bufLen)
    (code : final.timedout = true → ((final.ret = .timedOut ∨ final.ret = .moreData) ↔
      (counted = true → (moved final.calls : Int) < bufLen)))
    (stopped : final.running = false) :
    ((final.ret = .timedOut ∨ final.ret = .moreData) ↔
        RunsOut policy sock bufLen counted answers) ∧
      (RunsOut policy sock bufLen counted answers → history.length = maxWaits sock) := by
  have total := holds.total
  have some : 1 ≤ maxWaits sock := Nat.le_max_left _ _
  have before := (inTime_iff polls limit _).mp holds.charged.before
  by_cases expired : final.timedout = true
  · have length : history.length = maxWaits sock := by
      have late : ¬ InTime sock history.length := by
        rw [← holds.charged.flag, expired]
        exact Bool.noConfusion
      rw [inTime_iff polls limit] at late
      omega
    have all : answers.take (maxWaits sock) = history.map Prod.snd := by
      rw [split, List.take_left' (by rw [List.length_map, length])]
    have allButLast : answers.take (maxWaits sock - 1) = history.dropLast.map Prod.snd := by
      rw [List.map_dropLast, List.dropLast_eq_take, List.length_map, length, ← all,
        List.take_take, Nat.min_eq_left (Nat.sub_le _ _)]
    refine ⟨?_, fun _ => length⟩
    rw [code expired]
    constructor
    · intro short
      exact {
        enough := by rw [split, List.length_append, List.length_map]; omega
        continues := by
          intro answer member
          rw [all] at member
          obtain ⟨pass, inHistory, rfl⟩ := List.mem_map.mp member
          exact holds.continues pass inHistory
        unfinished := by rw [allButLast]; exact unfinished
        known := by rw [all, ← total]; exact short }
    · intro runsOut isCounted
      have short := runsOut.known isCounted
      rw [all, ← total] at short
      exact short
  · rw [Bool.not_eq_true] at expired
    have below := (inTime_iff polls limit _).mp (holds.charged.flag.mp expired)
    have complete := holds.complete stopped expired
    -- All the data was there before the last pass that the limit allows.
    have notRunsOut : ¬ RunsOut policy sock bufLen counted answers := by
      intro runsOut
      have more : answers.take (maxWaits sock - 1) =
          history.map Prod.snd ++ unused.take (maxWaits sock - 1 - history.length) := by
        rw [split, List.take_append, List.take_of_length_le (by rw [List.length_map]; omega),
          List.length_map]
      have short := runsOut.unfinished
      rw [more, movedBy_append] at short
      push_cast at short
      omega
    refine ⟨iff_of_false ?_ notRunsOut, fun runsOut => absurd runsOut notRunsOut⟩
    rw [holds.charged.early expired]
    simp

/-- A stopped call has met an answer that does not let the loop go on. -/
theorem Stopped.not_runsOut {ret : RetCode} (stopped : Stopped policy sock ret history)
    (polls : 0 < sock.polltime) (limit : sock.timeout.toNat + sock.polltime.toNat ≤ 2 ^ 32)
    (split : answers = history.map Prod.snd ++ unused) :
    ¬ RunsOut policy sock bufLen counted answers := by
  intro runsOut
  have before := (inTime_iff polls limit _).mp stopped.before
  refine stopped.not_continues ?_ runsOut.continues
  rw [split, List.take_append, List.take_of_length_le (by rw [List.length_map]; omega)]
  exact List.prefix_append _ _

end Returned

/-- The run lemma: when a transfer call has returned, it reports a time-out if and
only if the answers ran out, and then it has made all the waits it may make. -/
theorem IsTransferLoop.timesOut_iff {policy : Policy} {direction : Direction}
    {sock : NcSocket} {bufLen : Int} {loop : AnswerLoop Locals Answer RetCode}
    {counted : Bool} {answers : List Answer} {final : Locals} {ret : RetCode}
    (transfer : IsTransferLoop policy direction sock bufLen loop)
    (forward : ∀ answer, policy.Forward answer)
    (settles : ∀ answer ∈ answers, ¬ policy.spins answer)
    (polls : 0 < sock.polltime) (limit : sock.timeout.toNat + sock.polltime.toNat ≤ 2 ^ 32)
    (positive : 0 < bufLen)
    (returns : loop.run (.start bufLen counted) answers = some (final, ret))
    (honest : Honest final.calls) :
    ((ret = .timedOut ∨ ret = .moreData) ↔ RunsOut policy sock bufLen counted answers) ∧
      (RunsOut policy sock bufLen counted answers →
        final.calls.countP Call.isWait = maxWaits sock) := by
  have tracks := transfer.tracks (fun pass _ => forward pass.2) (Int.le_of_lt positive)
    returns honest
  have known := transfer.isSome_numActualBytes returns
  rw [(transfer.waits_eq returns).1]
  obtain ⟨unused, split⟩ : ∃ unused,
      answers = (loop.passes (.start bufLen counted) answers).map Prod.snd ++ unused :=
    AnswerLoop.passes_answers _ _
  rcases transfer.account_of_forward forward settles returns with
    ⟨account, stopped, rfl⟩ | stopped
  · refine account.timesOut_iff polls limit split ?_
      (account.code_iff tracks known positive) stopped
    by_cases empty : loop.passes (.start bufLen counted) answers = []
    · rw [empty]
      simpa using positive
    · have last := (List.dropLast_append_getLast empty).symm
      exact (transfer.account_pass_of_forward forward settles last).2.1
  · have notRunsOut : ¬ RunsOut policy sock bufLen counted answers :=
      stopped.not_runsOut polls limit split
    refine ⟨iff_of_false ?_ notRunsOut, fun runsOut => absurd runsOut notRunsOut⟩
    rcases stopped.failure with rfl | rfl <;> simp

/-! ### Time that has gone by -/

/-- The milliseconds that each wait of a call takes: at most a poll interval, and all
of it when the wait finds nothing. -/
structure Elapses (sock : NcSocket) (answers : List Answer) (elapsed : Nat → ℝ) : Prop where
  nonneg : ∀ index, 0 ≤ elapsed index
  within : ∀ index, elapsed index ≤ (sock.polltime.toNat : ℝ)
  idle : ∀ index answer, answers[index]? = some answer → answer.wait.ret = 0 →
    elapsed index = (sock.polltime.toNat : ℝ)

/-- A time-out is reported only after `m_timeout` milliseconds of waiting. -/
def AfterPeriod (sock : NcSocket) (elapsed : Nat → ℝ) (final : Locals) (ret : RetCode) : Prop :=
  ret = .timedOut ∨ ret = .moreData →
    (sock.timeout.toNat : ℝ) ≤
      ∑ index ∈ Finset.range (final.calls.countP Call.isWait), elapsed index

/-- The time by which the first `maxWaits` waits are cut short because the descriptor
is ready. -/
noncomputable def shortfall (sock : NcSocket) (answers : List Answer) (elapsed : Nat → ℝ) : ℝ :=
  ∑ index ∈ (Finset.range (maxWaits sock)).filter
      (fun index => answers[index]?.any (fun answer => answer.wait.ret ≠ 0)),
    ((sock.polltime.toNat : ℝ) - elapsed index)

/-- Of the time charged, exactly the shortfall has not gone by. -/
theorem sum_elapsed {sock : NcSocket} {answers : List Answer} {elapsed : Nat → ℝ}
    (elapses : Elapses sock answers elapsed) (enough : maxWaits sock ≤ answers.length) :
    ∑ index ∈ Finset.range (maxWaits sock), elapsed index =
      maxWaits sock * sock.polltime.toNat - shortfall sock answers elapsed := by
  have onlyWoken : shortfall sock answers elapsed =
      ∑ index ∈ Finset.range (maxWaits sock), ((sock.polltime.toNat : ℝ) - elapsed index) := by
    apply Finset.sum_filter_of_ne
    intro index member cut
    have below : index < answers.length :=
      Nat.lt_of_lt_of_le (Finset.mem_range.mp member) enough
    have here := List.getElem?_eq_getElem below
    have woken : answers[index].wait.ret ≠ 0 := by
      intro idle
      apply cut
      rw [elapses.idle index _ here idle, sub_self]
    simp [here, woken]
  rw [onlyWoken, Finset.sum_sub_distrib, Finset.sum_const, Finset.card_range, nsmul_eq_mul]
  ring

/-- A poll transfer keeps the law of the time-out exactly when its answers do not run
out, or when they do and the waits were cut short by no more than what rounding up to
whole intervals adds to the period. -/
theorem afterPeriod_iff (direction : Direction) (sock : NcSocket) (bufLen : Int)
    (counted : Bool) (answers : List Answer) (elapsed : Nat → ℝ) (final : Locals)
    (ret : RetCode) (polls : 0 < sock.polltime)
    (limit : sock.timeout.toNat + sock.polltime.toNat ≤ 2 ^ 32)
    (plain : ∀ answer ∈ answers, answer.wait.Plain)
    (elapses : Elapses sock answers elapsed)
    (returns : Poll.call direction sock bufLen counted answers = some (final, ret))
    (honest : Honest final.calls) :
    AfterPeriod sock elapsed final ret ↔
      ¬ RunsOut (Poll.policy direction) sock bufLen counted answers ∨
        shortfall sock answers elapsed ≤
          maxWaits sock * sock.polltime.toNat - sock.timeout.toNat := by
  by_cases positive : 0 < bufLen
  · obtain ⟨reported, waits⟩ := (Poll.isTransferLoop direction sock bufLen).timesOut_iff
      (Poll.forward direction) (Poll.settles direction plain) polls limit positive returns honest
    rw [AfterPeriod, reported]
    by_cases runsOut : RunsOut (Poll.policy direction) sock bufLen counted answers
    · rw [waits runsOut, sum_elapsed elapses runsOut.enough]
      simp only [runsOut, forall_const, not_true_eq_false, false_or]
      constructor <;> intro bound <;> linarith
    · simp only [runsOut, false_implies, not_false_eq_true, true_or]
  · -- There is nothing to transfer, and the call returns `NC_OK` without a wait.
    have stopped : (Poll.loop direction sock bufLen).guard (.start bufLen counted) = false := by
      simp [Poll.loop, Locals.running, Locals.start, positive]
    rw [Poll.call, AnswerLoop.run_of_not_guard stopped, Option.some.injEq,
      Prod.mk.injEq] at returns
    obtain ⟨rfl, rfl⟩ := returns
    refine iff_of_true (fun reported => ?_) (Or.inl fun runsOut => ?_)
    · simp [Poll.loop, Locals.start] at reported
    · have unfinished := runsOut.unfinished
      omega

/-- A socket that gives up after one poll interval. -/
def oneInterval : NcSocket := (NcSocket.ofSockfd 5).setTimeout 100

/-- One byte of two goes out at once, and the next wait is never made. -/
def oneByteAtOnce : List Answer := [⟨⟨1, pollOut, false⟩, ⟨1, .other 0, []⟩⟩]

theorem elapses_oneByteAtOnce (millisecs : ℝ) (nonneg : 0 ≤ millisecs)
    (within : millisecs ≤ 100) : Elapses oneInterval oneByteAtOnce (fun _ => millisecs) where
  nonneg := fun _ => nonneg
  within := fun _ => by
    rw [show oneInterval.polltime.toNat = 100 from rfl]
    exact_mod_cast within
  idle := by
    intro index answer here idle
    cases index with
    | zero =>
        obtain rfl : _ = answer := Option.some.inj here
        exact absurd idle (by decide)
    | succ index => simp [oneByteAtOnce] at here

theorem afterPeriod_iff_oneByteAtOnce :
    ∃ final, Poll.writeData oneInterval 2 true oneByteAtOnce = some (final, .moreData) ∧
      AfterPeriod oneInterval (fun _ => 100) final .moreData := by
  refine ⟨_, rfl, (afterPeriod_iff .write oneInterval 2 true oneByteAtOnce _ _ .moreData
    (by decide) (by decide) (by decide) (elapses_oneByteAtOnce 100 (by norm_num) le_rfl) rfl
    (by decide)).mpr (Or.inr ?_)⟩
  have whole : (oneInterval.polltime.toNat : ℝ) = 100 := by
    rw [show oneInterval.polltime.toNat = 100 from rfl]
    norm_num
  have full : shortfall oneInterval oneByteAtOnce (fun _ => 100) = 0 := by
    simp [shortfall, whole]
  rw [full, show maxWaits oneInterval = 1 from rfl,
    show oneInterval.timeout.toNat = 100 from rfl, whole]
  norm_num

/-- With a period of 100 milliseconds the call reports `NC_MOREDATA` although its only
wait took no time. -/
theorem moreData_before_period :
    ∃ final, Poll.writeData oneInterval 2 true oneByteAtOnce = some (final, .moreData) ∧
      0 < oneInterval.polltime ∧
      oneInterval.timeout.toNat + oneInterval.polltime.toNat ≤ 2 ^ 32 ∧
      (∀ answer ∈ oneByteAtOnce, answer.wait.Plain) ∧ Honest final.calls ∧
      Elapses oneInterval oneByteAtOnce (fun _ => 0) ∧
      ¬ AfterPeriod oneInterval (fun _ => 0) final .moreData := by
  refine ⟨_, rfl, by decide, by decide, by decide, by decide,
    elapses_oneByteAtOnce 0 le_rfl (by norm_num), fun law => ?_⟩
  have period := law (Or.inr rfl)
  rw [show oneInterval.timeout.toNat = 100 from rfl] at period
  norm_num at period

end NetClass.Socket
