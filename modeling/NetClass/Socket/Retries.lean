import NetClass.Socket.Timing
import NetClass.Socket.TwoRuns

/-!
Contract: a caller that goes on where a poll transfer has timed out.

Owns: the loop of such a caller, and the proof that its calls do together what one call
does whose period is the sum of theirs.

Each call gets the part of the buffer that the calls before it have not counted, so the
pointers of its transfers are further by their count. A call that times out after others
have moved some data says `NC_TIMEDOUT` where the one call says `NC_MOREDATA`.
-/

set_option autoImplicit false

namespace NetClass.Socket

/-- The same call with its pointer `count` bytes further. -/
def Call.shift (count : Int) : Call → Call
  | .transfer call fd offset length answer => .transfer call fd (count + offset) length answer
  | call => call

/-- What the caller and the kernel see of a call. -/
structure Report where
  ret : RetCode
  numActualBytes : Option Int
  calls : List Call
deriving DecidableEq, Repr

def Report.of (outcome : Locals × RetCode) : Report :=
  ⟨outcome.2, outcome.1.numActualBytes, outcome.1.calls⟩

/-- The code when `count` bytes were counted before. -/
def joined (count : Int) (ret : RetCode) : RetCode :=
  if ret = .timedOut ∧ 0 < count then .moreData else ret

/-- The report of a call together with those before it, which counted `count` bytes. -/
def Report.after (count : Int) (calls : List Call) (report : Report) : Report :=
  ⟨joined count report.ret, report.numActualBytes.map (count + ·),
    calls ++ report.calls.map (Call.shift count)⟩

/-- The caller's loop on the answers of the kernel. A number of calls time out, each on the
last answer it asks for, and one more call returns as it likes. -/
inductive Retries (direction : Direction) (sock : NcSocket) :
    Nat → Int → List Answer → Report → Prop where
  | last (bufLen : Int) (answers : List Answer) (outcome : Locals × RetCode)
      (returns : Poll.call direction sock bufLen true answers = some outcome) :
      Retries direction sock 0 bufLen answers (.of outcome)
  | again (timedOut : Nat) (bufLen : Int) (before later : List Answer) (answer : Answer)
      (first : Locals) (ret : RetCode) (count : Int) (report : Report)
      (asks : Poll.call direction sock bufLen true before = none)
      (returns : Poll.call direction sock bufLen true (before ++ [answer]) = some (first, ret))
      (late : ret = .timedOut ∨ ret = .moreData)
      (known : first.numActualBytes = some count)
      (rest : Retries direction sock timedOut (bufLen - count) later report) :
      Retries direction sock (timedOut + 1) bufLen (before ++ answer :: later)
        (report.after count first.calls)

/-- The locals of the one call where the first of the others has ended. -/
def Locals.resume (first : Locals) (bufLen count : Int) : Locals :=
  { pPtr := count, nRemaining := bufLen - count, numActualBytes := some count,
    timeout := first.timeout, timedout := false, ret := .ok, calls := first.calls }

/-! ### Up to the time-out of the first call -/

section Interrupted

variable {direction : Direction} {sock : NcSocket} {shorter longer : UInt32} {bufLen : Int}
variable {locals locals' : Locals}

/-- A call that goes on: the count agrees with the pointer, and the period is not over. -/
structure Going (sock : NcSocket) (bufLen : Int) (locals : Locals) (count : Int) : Prop where
  known : locals.numActualBytes = some count
  nonneg : 0 ≤ count
  pPtr : locals.pPtr = count
  nRemaining : locals.nRemaining = bufLen - count
  charged : ∃ passes : Nat, locals.timeout.toNat = passes * sock.polltime.toNat ∧
    (passes = 0 ∨ passes * sock.polltime.toNat < sock.timeout.toNat)

/-- The locals of the first call and of the one call. They are the same until the first call
times out. -/
inductive Interrupts (sock : NcSocket) (bufLen : Int) (locals : Locals) : Locals → Prop where
  | level (early : locals.timedout = false)
      (inTime : locals.ret ≠ .timedOut ∧ locals.ret ≠ .moreData)
      (going : locals.running = true → ∃ count, Going sock bufLen locals count) :
      Interrupts sock bufLen locals locals
  | interrupted (count : Int) (expired : locals.timedout = true)
      (known : locals.numActualBytes = some count) (nonneg : 0 ≤ count)
      (charged : locals.timeout.toNat = maxWaits sock * sock.polltime.toNat) :
      Interrupts sock bufLen locals (locals.resume bufLen count)

namespace Interrupts

theorem start (sock : NcSocket) (bufLen : Int) :
    Interrupts sock bufLen (.start bufLen true) (.start bufLen true) := by
  refine .level rfl ⟨RetCode.noConfusion, RetCode.noConfusion⟩ fun _ => ⟨0, ?_⟩
  exact ⟨rfl, Int.le_refl 0, rfl, (Int.sub_zero bufLen).symm, 0, (Nat.zero_mul _).symm, Or.inl rfl⟩

/-- `checkTimeout`, before anything has been given up. -/
theorem account {count : Int} (polls : 0 < sock.polltime)
    (limit : shorter.toNat + sock.polltime.toNat ≤ 2 ^ 32)
    (more : maxWaits (sock.setTimeout shorter) * sock.polltime.toNat < longer.toNat)
    (early : locals.timedout = false)
    (going : Going (sock.setTimeout shorter) bufLen locals count) :
    Interrupts (sock.setTimeout shorter) bufLen (locals.account (sock.setTimeout shorter) bufLen)
      (locals.account (sock.setTimeout longer) bufLen) := by
  obtain ⟨passes, counter, before⟩ := going.charged
  have counter' : locals.timeout.toNat = passes * sock.polltime.toNat := counter
  have before' : passes = 0 ∨ passes * sock.polltime.toNat < shorter.toNat := before
  have charged : (locals.timeout + sock.polltime).toNat = (passes + 1) * sock.polltime.toNat := by
    rw [UInt32.toNat_add, counter', Nat.succ_mul]
    apply Nat.mod_eq_of_lt
    rcases before' with rfl | below
    · have small := sock.polltime.toNat_lt
      omega
    · omega
  have within : passes < maxWaits (sock.setTimeout shorter) :=
    (@lt_maxWaits_iff (sock.setTimeout shorter) polls passes).mpr before
  have inTime : ¬ longer ≤ locals.timeout + sock.polltime := by
    rw [UInt32.le_iff_toNat_le, charged]
    have least : (passes + 1) * sock.polltime.toNat ≤
        maxWaits (sock.setTimeout shorter) * sock.polltime.toNat :=
      Nat.mul_le_mul_right _ within
    omega
  have goesOn : locals.account (sock.setTimeout longer) bufLen =
      { locals with ret := .ok, timeout := locals.timeout + sock.polltime } := by
    simp [Locals.account, NcSocket.checkTimeout, NcSocket.setTimeout, inTime]
  by_cases expired : shorter ≤ locals.timeout + sock.polltime
  · have resumed : locals.account (sock.setTimeout longer) bufLen =
        (locals.account (sock.setTimeout shorter) bufLen).resume bufLen count := by
      rw [goesOn, Locals.resume, Locals.account_timeout, Locals.account_calls, early,
        going.known, going.pPtr, going.nRemaining]
      rfl
    have last : maxWaits (sock.setTimeout shorter) = passes + 1 := by
      have reached := UInt32.le_iff_toNat_le.mp expired
      rw [charged] at reached
      by_contra other
      have another : passes + 1 < maxWaits (sock.setTimeout shorter) := by omega
      have below := (@lt_maxWaits_iff (sock.setTimeout shorter) polls _).mp another
      exact below.elim (Nat.succ_ne_zero passes) (Nat.not_lt.mpr reached)
    rw [resumed]
    refine .interrupted count (Locals.account_expired bufLen expired).1 going.known going.nonneg ?_
    rw [Locals.account_timeout, last]
    exact charged
  · have same : locals.account (sock.setTimeout longer) bufLen =
        locals.account (sock.setTimeout shorter) bufLen := by
      rw [goesOn]
      simp [Locals.account, NcSocket.checkTimeout, NcSocket.setTimeout, expired]
    have below : (passes + 1) * sock.polltime.toNat < shorter.toNat := by
      rw [← charged]
      exact UInt32.lt_iff_toNat_lt.mp (UInt32.not_le.mp expired)
    rw [← same, goesOn]
    refine .level early ⟨RetCode.noConfusion, RetCode.noConfusion⟩ fun _ => ⟨count, ?_⟩
    exact ⟨going.known, going.nonneg, going.pPtr, going.nRemaining, passes + 1, charged,
      Or.inr below⟩

/-- Whether the first call goes on after a would-block error is decided by what
`checkTimeout` answered; the one call goes on in any case. -/
theorem goOn (interrupts : Interrupts sock bufLen locals locals') :
    Interrupts sock bufLen (Poll.goOn locals) (Poll.goOn locals') := by
  unfold Poll.goOn
  cases interrupts with
  | level early inTime going =>
      split_ifs
      · exact .level early inTime going
      · refine .level early inTime fun goes => ?_
        rw [Locals.giveUp_running] at goes
        cases goes
  | interrupted count expired known nonneg charged =>
      rw [if_pos (show (locals.resume bufLen count).ret = .ok from rfl)]
      split_ifs
      · exact .interrupted count expired known nonneg charged
      · have same : locals.resume bufLen count = locals.giveUp.resume bufLen count := rfl
        rw [same]
        exact .interrupted count expired known nonneg charged

/-- The transfer call. -/
theorem transfer {count : Int} (polls : 0 < sock.polltime)
    (limit : shorter.toNat + sock.polltime.toNat ≤ 2 ^ 32)
    (more : maxWaits (sock.setTimeout shorter) * sock.polltime.toNat < longer.toNat)
    (early : locals.timedout = false)
    (going : Going (sock.setTimeout shorter) bufLen locals count) (answer : TransferAnswer) :
    Interrupts (sock.setTimeout shorter) bufLen
      (Poll.transfer direction (sock.setTimeout shorter) bufLen locals answer)
      (Poll.transfer direction (sock.setTimeout longer) bufLen locals answer) := by
  apply Poll.transfer_forward
  · intro code failure
    have inTime : code ≠ .timedOut ∧ code ≠ .moreData := by
      rcases failure with rfl | rfl <;> exact ⟨RetCode.noConfusion, RetCode.noConfusion⟩
    refine .level early inTime fun goes => ?_
    rw [Locals.disconnect_running] at goes
    cases goes
  · let attempted := locals.attempt sock direction answer
    have going' : Going (sock.setTimeout shorter) bufLen attempted count :=
      ⟨going.known, going.nonneg, going.pPtr, going.nRemaining, going.charged⟩
    have charged : Interrupts (sock.setTimeout shorter) bufLen
        (attempted.account (sock.setTimeout shorter) bufLen)
        (attempted.account (sock.setTimeout longer) bufLen) :=
      account polls limit more early going'
    exact charged.goOn
  · intro nonneg
    let advanced := (locals.attempt sock direction answer).advance answer.ret
    have going' : Going (sock.setTimeout shorter) bufLen advanced (count + answer.ret) := by
      refine ⟨?_, Int.add_nonneg going.nonneg nonneg, ?_, ?_, going.charged⟩
      · show locals.numActualBytes.map (· + answer.ret) = some (count + answer.ret)
        rw [going.known]
        rfl
      · show locals.pPtr + answer.ret = count + answer.ret
        rw [going.pPtr]
      · show locals.nRemaining - answer.ret = bufLen - (count + answer.ret)
        rw [going.nRemaining, Int.sub_sub]
    have early' : advanced.timedout = false := early
    exact account polls limit more early' going'

/-- The step lemma. -/
theorem body (polls : 0 < sock.polltime)
    (limit : shorter.toNat + sock.polltime.toNat ≤ 2 ^ 32)
    (more : maxWaits (sock.setTimeout shorter) * sock.polltime.toNat < longer.toNat)
    (interrupts : Interrupts (sock.setTimeout shorter) bufLen locals locals')
    (goes : locals.running = true) (answer : Answer) :
    AnswerLoop.Matched (Interrupts (sock.setTimeout shorter) bufLen)
      (fun last ret last' ret' => last = last' ∧ ret = ret')
      (Poll.body direction (sock.setTimeout shorter) bufLen locals answer)
      (Poll.body direction (sock.setTimeout longer) bufLen locals' answer) := by
  have alive := (Locals.running_iff locals).mp goes
  cases interrupts with
  | interrupted count expired known nonneg charged =>
      rw [alive.2] at expired
      cases expired
  | level early inTime going =>
      obtain ⟨count, going⟩ := going goes
      let waited := locals.issue (.poll sock.sockfd (Poll.events direction) sock.polltime
        answer.wait)
      have early' : waited.timedout = false := early
      have going' : Going (sock.setTimeout shorter) bufLen waited count :=
        ⟨going.known, going.nonneg, going.pPtr, going.nRemaining, going.charged⟩
      apply Poll.body_matched answer rfl rfl
      · exact ⟨rfl, rfl⟩
      · exact .level early' inTime fun _ => ⟨count, going'⟩
      · exact account polls limit more early' going'
      · exact transfer polls limit more early' going' answer.transfer

theorem outlasts (direction : Direction) (polls : 0 < sock.polltime)
    (limit : shorter.toNat + sock.polltime.toNat ≤ 2 ^ 32)
    (more : maxWaits (sock.setTimeout shorter) * sock.polltime.toNat < longer.toNat)
    (bufLen : Int) :
    AnswerLoop.Outlasts (Poll.loop direction (sock.setTimeout shorter) bufLen)
      (Poll.loop direction (sock.setTimeout longer) bufLen)
      (Interrupts (sock.setTimeout shorter) bufLen)
      (fun last ret last' ret' => last = last' ∧ ret = ret') where
  guard := by
    intro locals locals' interrupts goes
    have alive := (Locals.running_iff locals).mp goes
    cases interrupts with
    | level early inTime going => exact goes
    | interrupted count expired known nonneg charged =>
        rw [alive.2] at expired
        cases expired
  body := fun _ _ answer interrupts goes => interrupts.body polls limit more goes answer

end Interrupts

end Interrupted

/-! ### After it -/

section Resumed

variable {direction : Direction} {sock : NcSocket} {rest longer : UInt32} {bufLen count : Int}
variable {first locals locals' : Locals}

/-- The locals of a later call and of the one call: what is seen of them. -/
structure Beside (first : Locals) (count : Int) (locals locals' : Locals) : Prop where
  nRemaining : locals'.nRemaining = locals.nRemaining
  timedout : locals'.timedout = locals.timedout
  ret : locals'.ret = joined count locals.ret
  counted : ∃ more, 0 ≤ more ∧ locals.numActualBytes = some more ∧
    locals'.numActualBytes = some (count + more)
  calls : locals'.calls = first.calls ++ locals.calls.map (Call.shift count)

/-- While the calls go on. -/
structure Shifted (first : Locals) (rest : UInt32) (bufLen count : Int) (locals locals' : Locals) :
    Prop extends Beside first count locals locals' where
  early : locals.timedout = false
  pPtr : locals'.pPtr = count + locals.pPtr
  timeout : locals'.timeout.toNat = first.timeout.toNat + locals.timeout.toNat
  below : locals.timeout < rest
  whole : ∀ more, locals.numActualBytes = some more → more + locals.nRemaining = bufLen - count

/-- The relation between the two runs. -/
def Resumes (first : Locals) (rest : UInt32) (bufLen count : Int) (locals locals' : Locals) :
    Prop :=
  Beside first count locals locals' ∧
    (locals.running = true → Shifted first rest bufLen count locals locals')

theorem joined_ok_iff (count : Int) (ret : RetCode) : joined count ret = .ok ↔ ret = .ok := by
  unfold joined
  split_ifs with late
  · simp [late.1]
  · exact Iff.rfl

theorem Beside.running (beside : Beside first count locals locals') :
    locals'.running = locals.running := by
  rw [Locals.running, Locals.running, beside.nRemaining, beside.timedout]

theorem Beside.report (beside : Beside first count locals locals') (ret : RetCode) :
    Report.of (locals', joined count ret) = (Report.of (locals, ret)).after count first.calls := by
  obtain ⟨more, -, known, known'⟩ := beside.counted
  rw [Report.of, Report.of, Report.after, beside.calls, known, known']
  rfl

/-- The code of `checkTimeout` at the limit. -/
theorem haveAllData_joined (nonneg : 0 ≤ count) {more : Int} (moreNonneg : 0 ≤ more)
    (known : locals.numActualBytes = some more)
    (known' : locals'.numActualBytes = some (count + more))
    (short : more = 0 → count ≠ bufLen) :
    (if locals'.haveAllData bufLen = -1 then RetCode.timedOut
      else if locals'.haveAllData bufLen = 0 then .moreData else .ok) =
    joined count (if locals.haveAllData (bufLen - count) = -1 then .timedOut
      else if locals.haveAllData (bufLen - count) = 0 then .moreData else .ok) := by
  simp only [Locals.haveAllData, known, known']
  by_cases positive : 0 < more
  · have positive' : 0 < count + more := by omega
    have whole : count + more = bufLen ↔ more = bufLen - count := by omega
    by_cases all : more = bufLen - count
    · simp only [if_pos positive, if_pos positive', if_pos all, if_pos (whole.mpr all)]
      rfl
    · simp only [if_pos positive, if_pos positive', if_neg all, if_neg (whole.not.mpr all)]
      rfl
  · obtain rfl : more = 0 := by omega
    by_cases before : 0 < count
    · simp [before, short rfl, joined]
    · simp [before, joined]

namespace Shifted

/-- One more system call. -/
theorem issue (shifted : Shifted first rest bufLen count locals locals')
    {call call' : Call} (moved : call' = call.shift count) :
    Shifted first rest bufLen count (locals.issue call) (locals'.issue call') := by
  refine ⟨⟨shifted.nRemaining, shifted.timedout, shifted.ret, shifted.counted, ?_⟩,
    shifted.early, shifted.pPtr, shifted.timeout, shifted.below, shifted.whole⟩
  show locals'.calls ++ [call'] = first.calls ++ (locals.calls ++ [call]).map (Call.shift count)
  rw [shifted.calls, moved, List.map_append, List.append_assoc]
  rfl

/-- The transfer is made for the same bytes of the buffer. -/
theorem attempt (shifted : Shifted first rest bufLen count locals locals')
    (answer : TransferAnswer) :
    Shifted first rest bufLen count (locals.attempt sock direction answer)
      (locals'.attempt sock direction answer) := by
  refine shifted.issue ?_
  rw [shifted.pPtr, shifted.nRemaining]
  rfl

theorem advance (shifted : Shifted first rest bufLen count locals locals') {value : Int}
    (nonneg : 0 ≤ value) :
    Shifted first rest bufLen count (locals.advance value) (locals'.advance value) := by
  obtain ⟨more, moreNonneg, known, known'⟩ := shifted.counted
  refine ⟨⟨?_, shifted.timedout, shifted.ret, ⟨more + value, by omega, ?_, ?_⟩, shifted.calls⟩,
    shifted.early, ?_, shifted.timeout, shifted.below, ?_⟩
  · show locals'.nRemaining - value = locals.nRemaining - value
    rw [shifted.nRemaining]
  · show locals.numActualBytes.map (· + value) = _
    rw [known]
    rfl
  · show locals'.numActualBytes.map (· + value) = _
    rw [known', Option.map_some, Int.add_assoc]
  · show locals'.pPtr + value = count + (locals.pPtr + value)
    rw [shifted.pPtr, Int.add_assoc]
  · intro counted counts
    have whole := shifted.whole more known
    have now : locals.numActualBytes.map (· + value) = some counted := counts
    rw [known] at now
    rw [← Option.some.inj now]
    show more + value + (locals.nRemaining - value) = bufLen - count
    omega

/-- A call that goes on lacks data. -/
theorem short (shifted : Shifted first rest bufLen count locals locals')
    (remaining : 0 < locals.nRemaining) :
    locals.numActualBytes = some 0 → count ≠ bufLen := by
  intro none same
  have whole := shifted.whole 0 none
  omega

end Shifted

namespace Resumes

theorem start (more : 0 < rest) (first : Locals) (bufLen count : Int) :
    Resumes first rest bufLen count (.start (bufLen - count) true)
      (first.resume bufLen count) := by
  have beside : Beside first count (.start (bufLen - count) true) (first.resume bufLen count) :=
    ⟨rfl, rfl, rfl, ⟨0, Int.le_refl 0, rfl, congrArg some (Int.add_zero count).symm⟩,
      (List.append_nil _).symm⟩
  refine ⟨beside, fun _ => ⟨beside, rfl, (Int.add_zero count).symm, rfl, more, ?_⟩⟩
  intro counted known
  rw [← Option.some.inj known]
  exact Int.zero_add _

/-- `checkTimeout`. -/
theorem account (nonneg : 0 ≤ count)
    (sum : longer.toNat = first.timeout.toNat + rest.toNat)
    (limit : longer.toNat + sock.polltime.toNat ≤ 2 ^ 32)
    (shifted : Shifted first rest bufLen count locals locals')
    (short : locals.numActualBytes = some 0 → count ≠ bufLen) :
    Resumes first rest bufLen count
      (locals.account (sock.setTimeout rest) (bufLen - count))
      (locals'.account (sock.setTimeout longer) bufLen) := by
  obtain ⟨more, moreNonneg, known, known'⟩ := shifted.counted
  have below := UInt32.lt_iff_toNat_lt.mp shifted.below
  have before := shifted.timeout
  have counter : (locals.timeout + sock.polltime).toNat =
      locals.timeout.toNat + sock.polltime.toNat := by
    rw [UInt32.toNat_add]
    exact Nat.mod_eq_of_lt (by omega)
  have counter' : (locals'.timeout + sock.polltime).toNat =
      first.timeout.toNat + (locals.timeout + sock.polltime).toNat := by
    rw [UInt32.toNat_add, counter]
    omega
  have same : longer ≤ locals'.timeout + sock.polltime ↔ rest ≤ locals.timeout + sock.polltime := by
    rw [UInt32.le_iff_toNat_le, UInt32.le_iff_toNat_le, counter']
    omega
  by_cases expired : rest ≤ locals.timeout + sock.polltime
  · obtain ⟨late, code⟩ :=
      @Locals.account_expired _ (sock.setTimeout rest) (bufLen - count) expired
    obtain ⟨late', code'⟩ :=
      @Locals.account_expired _ (sock.setTimeout longer) bufLen (same.mpr expired)
    constructor
    · refine ⟨shifted.nRemaining, late'.trans late.symm, ?_, shifted.counted, shifted.calls⟩
      rw [code, code']
      exact haveAllData_joined nonneg moreNonneg known known' fun none => short (none ▸ known)
    · intro goes
      rw [Locals.running_iff, late] at goes
      cases goes.2
  · obtain ⟨code, early⟩ :=
      @Locals.account_early _ (sock.setTimeout rest) (bufLen - count) expired
    obtain ⟨code', early'⟩ :=
      @Locals.account_early _ (sock.setTimeout longer) bufLen (same.not.mpr expired)
    have beside : Beside first count (locals.account (sock.setTimeout rest) (bufLen - count))
        (locals'.account (sock.setTimeout longer) bufLen) := by
      refine ⟨shifted.nRemaining, ?_, ?_, shifted.counted, shifted.calls⟩
      · rw [early, early', shifted.timedout]
      · rw [code, code']
        rfl
    refine ⟨beside, fun _ => ⟨beside, early.trans shifted.early, shifted.pPtr, ?_, ?_,
      shifted.whole⟩⟩
    · rw [Locals.account_timeout, Locals.account_timeout]
      exact counter'
    · rw [Locals.account_timeout]
      exact UInt32.not_le.mp expired

/-- Both calls give up after a would-block error, or none does. -/
theorem goOn (resumes : Resumes first rest bufLen count locals locals') :
    Resumes first rest bufLen count (Poll.goOn locals) (Poll.goOn locals') := by
  obtain ⟨beside, shifted⟩ := resumes
  have same : locals'.ret = .ok ↔ locals.ret = .ok := by
    rw [beside.ret]
    exact joined_ok_iff count locals.ret
  unfold Poll.goOn
  by_cases goesOn : locals.ret = .ok
  · rw [if_pos goesOn, if_pos (same.mpr goesOn)]
    exact ⟨beside, shifted⟩
  · rw [if_neg goesOn, if_neg (same.not.mpr goesOn)]
    refine ⟨⟨rfl, beside.timedout, beside.ret, beside.counted, beside.calls⟩, fun goes => ?_⟩
    rw [Locals.giveUp_running] at goes
    cases goes

/-- The transfer call. -/
theorem transfer (nonneg : 0 ≤ count)
    (sum : longer.toNat = first.timeout.toNat + rest.toNat)
    (limit : longer.toNat + sock.polltime.toNat ≤ 2 ^ 32)
    (shifted : Shifted first rest bufLen count locals locals')
    (remaining : 0 < locals.nRemaining) (answer : TransferAnswer) :
    Resumes first rest bufLen count
      (Poll.transfer direction (sock.setTimeout rest) (bufLen - count) locals answer)
      (Poll.transfer direction (sock.setTimeout longer) bufLen locals' answer) := by
  have attempted : Shifted first rest bufLen count (locals.attempt sock direction answer)
      (locals'.attempt sock direction answer) := shifted.attempt answer
  apply Poll.transfer_forward
  · intro code failure
    let shutdown : Call := .shutdown sock.sockfd direction.how
    have closed : Shifted first rest bufLen count
        ((locals.attempt sock direction answer).issue shutdown)
        ((locals'.attempt sock direction answer).issue shutdown) := attempted.issue rfl
    have same : code = joined count code := by
      rcases failure with rfl | rfl <;> rfl
    refine ⟨⟨rfl, closed.timedout, same, closed.counted, closed.calls⟩, fun goes => ?_⟩
    rw [Locals.disconnect_running] at goes
    cases goes
  · have charged := account nonneg sum limit attempted (shifted.short remaining)
    exact charged.goOn
  · intro forward
    refine account nonneg sum limit (attempted.advance forward) fun none => ?_
    -- Nothing has been moved yet, so there is something left to move.
    obtain ⟨more, moreNonneg, known, -⟩ := shifted.counted
    have now : locals.numActualBytes.map (· + answer.ret) = some 0 := none
    rw [known, Option.map_some, Option.some.injEq] at now
    obtain rfl : more = 0 := by omega
    exact shifted.short remaining known

/-- The step lemma. -/
theorem body (nonneg : 0 ≤ count)
    (sum : longer.toNat = first.timeout.toNat + rest.toNat)
    (limit : longer.toNat + sock.polltime.toNat ≤ 2 ^ 32)
    (resumes : Resumes first rest bufLen count locals locals')
    (goes : locals.running = true) (answer : Answer) :
    AnswerLoop.Matched (Resumes first rest bufLen count)
      (fun last ret last' ret' =>
        Report.of (last', ret') = (Report.of (last, ret)).after count first.calls)
      (Poll.body direction (sock.setTimeout rest) (bufLen - count) locals answer)
      (Poll.body direction (sock.setTimeout longer) bufLen locals' answer) := by
  have remaining := ((Locals.running_iff locals).mp goes).1
  let poll : Call := .poll sock.sockfd (Poll.events direction) sock.polltime answer.wait
  have waited : Shifted first rest bufLen count (locals.issue poll) (locals'.issue poll) :=
    (resumes.2 goes).issue rfl
  apply Poll.body_matched answer rfl rfl
  · exact waited.toBeside.report .failed
  · exact ⟨waited.toBeside, fun _ => waited⟩
  · exact account nonneg sum limit waited (waited.short remaining)
  · exact transfer nonneg sum limit waited remaining answer.transfer

theorem outlasts (direction : Direction) (nonneg : 0 ≤ count)
    (sum : longer.toNat = first.timeout.toNat + rest.toNat)
    (limit : longer.toNat + sock.polltime.toNat ≤ 2 ^ 32) :
    AnswerLoop.Outlasts (Poll.loop direction (sock.setTimeout rest) (bufLen - count))
      (Poll.loop direction (sock.setTimeout longer) bufLen) (Resumes first rest bufLen count)
      (fun last ret last' ret' =>
        Report.of (last', ret') = (Report.of (last, ret)).after count first.calls) where
  guard := fun _ _ resumes goes => resumes.1.running.trans goes
  body := fun _ _ answer resumes goes => resumes.body nonneg sum limit goes answer

/-- The later call returns when the one call does, and what is seen of the one call is what
is seen of the other two. -/
theorem run (direction : Direction) (nonneg : 0 ≤ count)
    (sum : longer.toNat = first.timeout.toNat + rest.toNat)
    (limit : longer.toNat + sock.polltime.toNat ≤ 2 ^ 32) (more : 0 < rest)
    {answers : List Answer} {outcome : Locals × RetCode}
    (returns : Poll.call direction (sock.setTimeout rest) (bufLen - count) true answers =
      some outcome) :
    ∃ outcome', (Poll.loop direction (sock.setTimeout longer) bufLen).run
        (first.resume bufLen count) answers = some outcome' ∧
      Report.of outcome' = (Report.of outcome).after count first.calls := by
  have both : AnswerLoop.Outlasts (Poll.loop direction (sock.setTimeout rest) (bufLen - count))
      (Poll.loop direction (sock.setTimeout longer) bufLen) (Resumes first rest bufLen count) _ :=
    outlasts direction nonneg sum limit
  have together := both.run_together (fun locals locals' resumes stopped => ?_) answers
    (start more first bufLen count)
  · rcases together with ⟨asks, -⟩ | ⟨last, ret, last', ret', returned, returned', same⟩
    · rw [Poll.call, asks] at returns
      cases returns
    · rw [Poll.call, returned, Option.some.injEq] at returns
      subst returns
      exact ⟨(last', ret'), returned', same⟩
  · refine ⟨resumes.1.running.trans stopped, ?_⟩
    have same := resumes.1.report locals.ret
    rw [← resumes.1.ret] at same
    exact same

end Resumes

end Resumed

/-! ### The caller's loop -/

section Loop

variable {direction : Direction} {sock : NcSocket} {longer : UInt32} {bufLen count : Int}
variable {before later : List Answer} {answer : Answer} {first : Locals} {ret : RetCode}

/-- Where a call times out, the one call goes on with the rest of the buffer. -/
theorem resume_of_late (polls : 0 < sock.polltime)
    (limit : sock.timeout.toNat + sock.polltime.toNat ≤ 2 ^ 32)
    (more : maxWaits sock * sock.polltime.toNat < longer.toNat)
    (asks : Poll.call direction sock bufLen true before = none)
    (returns : Poll.call direction sock bufLen true (before ++ [answer]) = some (first, ret))
    (late : ret = .timedOut ∨ ret = .moreData) (known : first.numActualBytes = some count) :
    0 ≤ count ∧ first.timeout.toNat = maxWaits sock * sock.polltime.toNat ∧
      ∀ later, Poll.call direction (sock.setTimeout longer) bufLen true
        (before ++ answer :: later) =
          (Poll.loop direction (sock.setTimeout longer) bufLen).run (first.resume bufLen count)
            later := by
  have outlasts : AnswerLoop.Outlasts (Poll.loop direction sock bufLen)
      (Poll.loop direction (sock.setTimeout longer) bufLen) (Interrupts sock bufLen) _ :=
    @Interrupts.outlasts sock sock.timeout longer direction polls limit more bufLen
  obtain ⟨head, head', interrupts, goes, ahead⟩ :=
    outlasts.run_asks (Interrupts.start sock bufLen) asks
  have goes' := outlasts.guard _ _ interrupts goes
  have same := outlasts.body _ _ answer interrupts goes
  have last : (Poll.loop direction sock bufLen).run head [answer] = some (first, ret) :=
    (ahead [answer]).1.symm.trans returns
  generalize body : (Poll.loop direction sock bufLen).body head answer = pass at same
  generalize body' : (Poll.loop direction (sock.setTimeout longer) bufLen).body head' answer =
    pass' at same
  cases same with
  | leave left value left' value' ends =>
      rw [AnswerLoop.run_cons_leave goes body, Option.some.injEq, Prod.mk.injEq] at last
      obtain ⟨-, rfl⟩ := last
      have failed := ((Poll.isTransferLoop direction sock bufLen).leave _ _ _ _ body).1
      rcases late with rfl | rfl <;> cases failed
  | again next next' interrupts =>
      have onward : ∀ later, Poll.call direction (sock.setTimeout longer) bufLen true
          (before ++ answer :: later) =
            (Poll.loop direction (sock.setTimeout longer) bufLen).run next' later :=
        fun later => (ahead (answer :: later)).2.trans
          (AnswerLoop.run_cons_again goes' body' later)
      rw [AnswerLoop.run_cons_again goes body] at last
      have ended : next = first ∧ next.ret = ret := by
        by_cases goesOn : (Poll.loop direction sock bufLen).guard next = true
        · simp [AnswerLoop.run, goesOn] at last
        · rw [Bool.not_eq_true] at goesOn
          rw [AnswerLoop.run_of_not_guard goesOn, Option.some.injEq, Prod.mk.injEq] at last
          exact last
      obtain ⟨rfl, rfl⟩ := ended
      cases interrupts with
      | level early inTime going => exact absurd late (not_or.mpr inTime)
      | interrupted counted expired here nonneg charged =>
          obtain rfl : counted = count := Option.some.inj (here.symm.trans known)
          exact ⟨nonneg, charged, onward⟩

/-- What a caller does that goes on after each time-out with what is left of the buffer is
done by one call whose period is the sum of those of its calls. It returns on the same answers,
with the same code, the same count in all and the same system calls. A call that times out uses
up whole intervals. The calls have one period and one poll interval, neither of them zero, and
the sum with one interval more fits into the 32 bits of the counter. -/
theorem retries_add_up {timedOut : Nat} {answers : List Answer} {report : Report}
    (polls : 0 < sock.polltime) (waits : 0 < sock.timeout)
    (retries : Retries direction sock timedOut bufLen answers report)
    (sum : longer.toNat =
      timedOut * (maxWaits sock * sock.polltime.toNat) + sock.timeout.toNat)
    (limit : longer.toNat + sock.polltime.toNat ≤ 2 ^ 32) :
    ∃ outcome, Poll.call direction (sock.setTimeout longer) bufLen true answers = some outcome ∧
      Report.of outcome = report := by
  have positive : 0 < sock.timeout.toNat := UInt32.lt_iff_toNat_lt.mp waits
  induction retries generalizing longer with
  | last bufLen answers outcome returns =>
      have same : longer = sock.timeout := by
        apply UInt32.toNat_inj.mp
        omega
      rw [same]
      exact ⟨outcome, returns, rfl⟩
  | again timedOut bufLen before later answer first ret count report asks returns late known rest
      inductionHypothesis =>
      rw [Nat.succ_mul] at sum
      -- The period of the calls that are still to come.
      obtain ⟨period, isPeriod⟩ : ∃ period : UInt32, period.toNat =
          timedOut * (maxWaits sock * sock.polltime.toNat) + sock.timeout.toNat := by
        refine ⟨UInt32.ofNat (timedOut * (maxWaits sock * sock.polltime.toNat) +
          sock.timeout.toNat), ?_⟩
        rw [UInt32.toNat_ofNat']
        apply Nat.mod_eq_of_lt
        have small := longer.toNat_lt
        omega
      obtain ⟨nonneg, charged, onward⟩ := resume_of_late polls (by omega)
        (show maxWaits sock * sock.polltime.toNat < longer.toNat by omega) asks returns late known
      obtain ⟨outcome, returned, seen⟩ := inductionHypothesis isPeriod (by omega)
      have goesOn : 0 < period := by
        apply UInt32.lt_iff_toNat_lt.mpr
        rw [isPeriod]
        exact Nat.add_pos_right _ positive
      obtain ⟨outcome', resumed, same⟩ := Resumes.run direction nonneg
        (show longer.toNat = first.timeout.toNat + period.toNat by omega) limit goesOn returned
      refine ⟨outcome', (onward later).trans resumed, ?_⟩
      rw [same, seen]

end Loop

/-- A `send` that takes some bytes. -/
def taken (count : Int) : Answer := ⟨⟨1, pollOut, false⟩, ⟨count, .other 0, []⟩⟩

/-- Three bytes that go out in two calls of one interval each. -/
theorem retries_add_up_twoCalls :
    ∃ outcome, Poll.call .write ((NcSocket.ofSockfd 5).setTimeout 200) 3 true
        [taken 2, taken 1] = some outcome ∧
      (Report.of outcome).ret = .ok ∧ (Report.of outcome).numActualBytes = some 3 := by
  have second : Retries .write ((NcSocket.ofSockfd 5).setTimeout 100) 0 (3 - 2) [taken 1] _ :=
    .last 1 [taken 1] _ rfl
  have both := Retries.again 0 3 [] [taken 1] (taken 2) _ .moreData 2 _ rfl rfl (Or.inr rfl) rfl
    second
  have sum : (200 : UInt32).toNat =
      1 * (maxWaits ((NcSocket.ofSockfd 5).setTimeout 100) * 100) + 100 := by decide
  obtain ⟨outcome, returns, seen⟩ :=
    retries_add_up (by decide) (by decide) both sum (by decide)
  refine ⟨outcome, returns, ?_, ?_⟩
  · rw [seen]
    rfl
  · rw [seen]
    rfl

end NetClass.Socket
