import NetClass.Socket.Builds
import NetClass.Socket.Idle

/-!
Contract: `readData` of the select build on answers that differ in the `errno` that
successful calls leave behind.

Owns: a log without these values, the pairs of answers on which the two runs part, and the
proof that they agree on all pairs that do not come to one of these.

Does **not** own: what a failed call says. Its `errno` is the same in both runs.

`readData` samples `errno` after every `recv`. At the end of the file it asks whether the
sample says that the call would block.
-/

set_option autoImplicit false

namespace NetClass.Socket

/-! ### Without the `errno` of a success -/

/-- A call that has succeeded leaves in `errno` what was there. -/
def TransferAnswer.mask (answer : TransferAnswer) : TransferAnswer :=
  if 0 ≤ answer.ret then { answer with errno := .other 0 } else answer

def Answer.mask (answer : Answer) : Answer := { answer with transfer := answer.transfer.mask }

def Call.mask : Call → Call
  | .transfer call fd offset length answer => .transfer call fd offset length answer.mask
  | call => call

def Locals.mask (locals : Locals) : Locals :=
  { locals with calls := locals.calls.map Call.mask }

/-- What a run does: its calls, the memory around the buffer, the count and the return
code. -/
def report (mem : Int → UInt8) (outcome : Locals × RetCode) : Observed where
  calls := outcome.1.mask.calls
  memory := stored mem outcome.1.calls
  numActualBytes := outcome.1.numActualBytes
  ret := outcome.2

@[simp] theorem TransferAnswer.mask_ret (answer : TransferAnswer) :
    answer.mask.ret = answer.ret := by
  unfold mask
  split_ifs <;> rfl

@[simp] theorem TransferAnswer.mask_bytes (answer : TransferAnswer) :
    answer.mask.bytes = answer.bytes := by
  unfold mask
  split_ifs <;> rfl

theorem TransferAnswer.errno_of_mask {left right : TransferAnswer}
    (same : left.mask = right.mask) (failed : ¬ 0 ≤ left.ret) : left.errno = right.errno := by
  have ret : left.ret = right.ret := by
    rw [← left.mask_ret, same, right.mask_ret]
  rw [mask, mask, if_neg failed, if_neg (ret ▸ failed)] at same
  rw [same]

theorem Call.mask_isWait (call : Call) : call.mask.isWait = call.isWait := by
  cases call <;> rfl

theorem Call.mask_isTransfer (call : Call) : call.mask.isTransfer = call.isTransfer := by
  cases call <;> rfl

theorem Call.stored_mask (mem : Int → UInt8) (call : Call) :
    call.mask.stored mem = call.stored mem := by
  cases call <;> simp [Call.mask, Call.stored]

theorem stored_mask (calls : List Call) : ∀ mem : Int → UInt8,
    stored mem (calls.map Call.mask) = stored mem calls := by
  induction calls with
  | nil => exact fun _ => rfl
  | cons call rest inductionHypothesis =>
      intro mem
      have split : stored mem ((call :: rest).map Call.mask) =
          stored (call.mask.stored mem) (rest.map Call.mask) := rfl
      rw [split, Call.stored_mask, inductionHypothesis]
      rfl

namespace Locals

theorem mask_issue (locals : Locals) {wait : Call} (isWait : wait.isWait = true) :
    (locals.issue wait).mask = locals.mask.issue wait := by
  have same : wait.mask = wait := by
    cases wait <;> first | rfl | cases isWait
  simp [mask, issue, same]

theorem mask_attempt (locals : Locals) (sock : NcSocket) (direction : Direction)
    (answer : TransferAnswer) :
    (locals.attempt sock direction answer).mask =
      locals.mask.attempt sock direction answer.mask := by
  simp [mask, attempt, issue, Call.mask]

theorem mask_account (locals : Locals) (sock : NcSocket) (bufLen : Int) :
    (locals.account sock bufLen).mask = locals.mask.account sock bufLen := rfl

theorem mask_advance (locals : Locals) (value : Int) :
    (locals.advance value).mask = locals.mask.advance value := rfl

theorem mask_disconnect (locals : Locals) (sock : NcSocket) (direction : Direction)
    (code : RetCode) :
    (locals.disconnect sock direction code).mask =
      locals.mask.disconnect sock direction code := by
  simp [mask, disconnect, giveUp, issue, Call.mask]

theorem mask_silence (locals : Locals) : locals.mask.silence = locals.silence.mask := by
  have same : (locals.calls.map Call.mask).filter (fun call => !call.isWait) =
      (locals.calls.filter fun call => !call.isWait).map Call.mask := by
    rw [List.filter_map]
    simp only [Function.comp_def, Call.mask_isWait]
  simp [mask, silence, same]

end Locals

/-! ### Two runs -/

/-- What the kernel answers to the two runs in one pass. -/
structure Twins where
  left : Answer
  right : Answer
deriving DecidableEq, Repr

/-- The two runs differ in what successful calls leave in `errno` only. -/
def Twins.Same (twins : Twins) : Prop := twins.left.mask = twins.right.mask

/-- An end of file that one of the runs takes for a call that would block. -/
def Twins.Part (twins : Twins) : Prop :=
  Select.Ready twins.left.wait ∧ twins.left.transfer.ret = 0 ∧
    ncIsBlockingError twins.left.transfer.errno ≠ ncIsBlockingError twins.right.transfer.errno

instance (twins : Twins) : Decidable twins.Same :=
  inferInstanceAs (Decidable (_ = _))

instance (twins : Twins) : Decidable twins.Part :=
  inferInstanceAs (Decidable ((_ ∧ _ ∧ _) ∧ _ ∧ _))

namespace Twins

variable {twins : Twins}

theorem Same.wait (same : twins.Same) : twins.left.wait = twins.right.wait := by
  have masks : twins.left.mask.wait = twins.right.mask.wait := congrArg Answer.wait same
  exact masks

theorem Same.transfer (same : twins.Same) :
    twins.left.transfer.mask = twins.right.transfer.mask := by
  have masks : twins.left.mask.transfer = twins.right.mask.transfer := congrArg Answer.transfer same
  exact masks

theorem Same.ret (same : twins.Same) : twins.left.transfer.ret = twins.right.transfer.ret := by
  rw [← TransferAnswer.mask_ret, same.transfer, TransferAnswer.mask_ret]

/-- Only a failed call is asked whether the connection is reset. -/
theorem Same.reset (same : twins.Same) :
    (ncSocketError twins.left.transfer.ret && ncSocketReset twins.left.transfer.errno) =
      (ncSocketError twins.right.transfer.ret && ncSocketReset twins.right.transfer.errno) := by
  by_cases failed : 0 ≤ twins.left.transfer.ret
  · have noError : ncSocketError twins.left.transfer.ret = false := by
      simp only [ncSocketError, beq_eq_false_iff_ne, ne_eq]
      omega
    rw [← same.ret, noError, Bool.false_and, Bool.false_and]
  · rw [← same.ret, TransferAnswer.errno_of_mask same.transfer failed]

/-- Only at the end of the file can `errno` tell whether the pass made progress. -/
theorem Same.progress (same : twins.Same)
    (drained : twins.left.transfer.ret = 0 →
      ncIsBlockingError twins.left.transfer.errno = ncIsBlockingError twins.right.transfer.errno) :
    Select.progress .read twins.left.transfer = Select.progress .read twins.right.transfer := by
  simp only [Select.progress]
  rw [← same.ret]
  by_cases zero : twins.left.transfer.ret = 0
  · rw [drained zero]
  · simp only [beq_eq_false_iff_ne.mpr zero, Bool.false_and]

end Twins

section Loops

variable {sock : NcSocket} {bufLen : Int} {left right : Locals} {twins : Twins}

/-- Two runs that have done the same. -/
def Equal (left right : Locals) : Prop := left.mask = right.mask

theorem Equal.running (equal : Equal left right) : left.running = right.running := by
  have masks : left.mask.running = right.mask.running := congrArg Locals.running equal
  exact masks

theorem Equal.issue (equal : Equal left right) {wait : Call} (isWait : wait.isWait = true) :
    Equal (left.issue wait) (right.issue wait) := by
  rw [Equal, Locals.mask_issue left isWait, Locals.mask_issue right isWait, equal]

theorem Equal.attempt (equal : Equal left right) {answer answer' : TransferAnswer}
    (same : answer.mask = answer'.mask) :
    Equal (left.attempt sock .read answer) (right.attempt sock .read answer') := by
  rw [Equal, Locals.mask_attempt, Locals.mask_attempt, equal, same]

theorem Equal.account (equal : Equal left right) :
    Equal (left.account sock bufLen) (right.account sock bufLen) := by
  rw [Equal, Locals.mask_account, Locals.mask_account, equal]

theorem Equal.advance (equal : Equal left right) (value : Int) :
    Equal (left.advance value) (right.advance value) := by
  rw [Equal, Locals.mask_advance, Locals.mask_advance, equal]

theorem Equal.disconnect (equal : Equal left right) (code : RetCode) :
    Equal (left.disconnect sock .read code) (right.disconnect sock .read code) := by
  rw [Equal, Locals.mask_disconnect, Locals.mask_disconnect, equal]

/-- The receives have the same effect unless the runs part. -/
theorem Equal.transfer (equal : Equal left right) (same : twins.Same)
    (drained : twins.left.transfer.ret = 0 →
      ncIsBlockingError twins.left.transfer.errno = ncIsBlockingError twins.right.transfer.errno) :
    Equal (Select.transfer .read sock bufLen left twins.left.transfer)
      (Select.transfer .read sock bufLen right twins.right.transfer) := by
  have attempted : Equal (left.attempt sock .read twins.left.transfer)
      (right.attempt sock .read twins.right.transfer) := equal.attempt same.transfer
  unfold Select.transfer
  dsimp only
  rw [← same.reset, ← same.progress drained, ← same.ret]
  split_ifs
  · exact attempted.disconnect _
  · exact (attempted.advance _).account
  · exact attempted.disconnect _

/-- The step lemma. -/
theorem Equal.body (equal : Equal left right) (same : twins.Same) (together : ¬ twins.Part) :
    AnswerLoop.Agree Equal (Select.body .read sock bufLen left twins.left)
      (Select.body .read sock bufLen right twins.right) := by
  have issued : Equal (left.issue (Build.select.waitCall .read sock twins.left.wait))
      (right.issue (Build.select.waitCall .read sock twins.left.wait)) := equal.issue rfl
  unfold Select.body Select.wait
  rw [← same.wait]
  split_ifs with broken idle set
  · exact .leave _ _ _ issued
  · exact .again _ _ issued.account
  · refine .again _ _ (issued.transfer same fun zero => ?_)
    by_contra apart
    exact together ⟨⟨broken, idle, set⟩, zero, apart⟩
  · exact .leave _ _ _ issued

/-- Each run reads its own answers. -/
theorem twins_lockStep (sock : NcSocket) (bufLen : Int) :
    AnswerLoop.LockStep ((Select.loop .read sock bufLen).comap Twins.left)
      ((Select.loop .read sock bufLen).comap Twins.right) Equal
      (fun twins => twins.Same ∧ ¬ twins.Part) where
  guard := fun _ _ equal => equal.running
  finish := fun left right equal =>
    show left.mask.ret = right.mask.ret from congrArg Locals.ret equal
  body := fun _ _ _ equal good => equal.body good.1 good.2

end Loops

/-! ### Where the runs part -/

section Parting

variable {sock : NcSocket} {bufLen : Int} {left right : Locals} {answer : Answer}

/-- An end of file goes to `checkTimeout` if `errno` says that the call would block. -/
theorem body_drained_blocking (locals : Locals) (ready : Select.Ready answer.wait)
    (zero : answer.transfer.ret = 0) (blocks : ncIsBlockingError answer.transfer.errno = true) :
    (Select.loop .read sock bufLen).body locals answer =
      .again ((((locals.issue (Build.select.waitCall .read sock answer.wait)).attempt sock .read
        answer.transfer).advance 0).account sock bufLen) := by
  obtain ⟨working, woken, set⟩ := ready
  simp only [Select.loop, Select.body, Select.wait, if_neg working, if_neg woken, if_pos set]
  simp [Select.transfer, Select.progress, zero, blocks, ncSocketError, Build.waitCall]

/-- Otherwise it shuts the connection down. -/
theorem body_drained_free (locals : Locals) (ready : Select.Ready answer.wait)
    (zero : answer.transfer.ret = 0) (free : ncIsBlockingError answer.transfer.errno = false) :
    (Select.loop .read sock bufLen).body locals answer =
      .again (((locals.issue (Build.select.waitCall .read sock answer.wait)).attempt sock .read
        answer.transfer).disconnect sock .read .failed) := by
  obtain ⟨working, woken, set⟩ := ready
  simp only [Select.loop, Select.body, Select.wait, if_neg working, if_neg woken, if_pos set]
  simp [Select.transfer, Select.progress, zero, free, ncSocketError, Build.waitCall]

/-- The run that goes on does not begin with a shutdown. -/
theorem runs_part (mem : Int → UInt8) {answer' : Answer} (equal : Equal left right)
    (goes : left.running = true) (ready : Select.Ready answer.wait)
    (zero : answer.transfer.ret = 0) (same : Twins.Same ⟨answer, answer'⟩)
    (blocks : ncIsBlockingError answer.transfer.errno = true)
    (free : ncIsBlockingError answer'.transfer.errno = false) (rest rest' : List Answer) :
    ((Select.loop .read sock bufLen).run left (answer :: rest)).map (report mem) ≠
      ((Select.loop .read sock bufLen).run right (answer' :: rest')).map (report mem) := by
  have ready' : Select.Ready answer'.wait := same.wait ▸ ready
  have zero' : answer'.transfer.ret = 0 := same.ret.symm.trans zero
  have goes' : right.running = true := equal.running ▸ goes
  let attempted := (left.issue (Build.select.waitCall .read sock answer.wait)).attempt sock .read
    answer.transfer
  let attempted' := (right.issue (Build.select.waitCall .read sock answer'.wait)).attempt sock
    .read answer'.transfer
  have equalAttempts : Equal attempted attempted' := by
    have issued : Equal (left.issue (Build.select.waitCall .read sock answer.wait))
        (right.issue (Build.select.waitCall .read sock answer'.wait)) :=
      same.wait ▸ equal.issue rfl
    exact issued.attempt same.transfer
  have stopped : (Select.loop .read sock bufLen).guard
      (attempted'.disconnect sock .read .failed) = false :=
    Locals.disconnect_running attempted' sock .read .failed
  rw [AnswerLoop.run_cons_again goes (body_drained_blocking left ready zero blocks),
    AnswerLoop.run_cons_again goes' (body_drained_free right ready' zero' free),
    AnswerLoop.run_of_not_guard stopped]
  intro equalReports
  cases returns : (Select.loop .read sock bufLen).run ((attempted.advance 0).account sock bufLen)
      rest with
  | none => simp [attempted, returns] at equalReports
  | some outcome =>
      obtain ⟨more, log, begins⟩ := (Select.isTransferLoop .read sock bufLen).opens returns
      have logged : outcome.1.silence.calls = attempted.silence.calls ++ more := log
      rw [returns, Option.map_some, Option.map_some, Option.some.injEq] at equalReports
      have reported : outcome.1.mask.calls =
          (attempted'.disconnect sock .read .failed).mask.calls :=
        congrArg Observed.calls equalReports
      have before : attempted.silence.mask = attempted'.silence.mask := by
        rw [← Locals.mask_silence, ← Locals.mask_silence]
        exact congrArg Locals.silence equalAttempts
      have silent : outcome.1.silence.mask.calls =
          (attempted'.disconnect sock .read .failed).silence.mask.calls := by
        rw [← Locals.mask_silence, ← Locals.mask_silence]
        exact congrArg (fun calls => calls.filter fun call : Call => !call.isWait) reported
      rw [Locals.silence_disconnect, Locals.mask_disconnect, ← before, Locals.disconnect_calls,
        Locals.mask, logged, List.map_append] at silent
      have rest : more.map Call.mask = [.shutdown sock.sockfd Direction.read.how] :=
        List.append_cancel_left silent
      obtain ⟨first, others, split⟩ : ∃ first others, more = first :: others := by
        cases more with
        | nil => cases rest
        | cons first others => exact ⟨first, others, rfl⟩
      have transfers : first.mask.isTransfer = true := by
        rw [Call.mask_isTransfer]
        exact begins first others split
      rw [split, List.map_cons] at rest
      rw [(List.cons.inj rest).1] at transfers
      exact Bool.noConfusion transfers

/-- Whichever of the runs it is that goes on. -/
theorem Twins.Part.reports_ne {twins : Twins} (parts : twins.Part) (mem : Int → UInt8)
    (equal : Equal left right) (goes : left.running = true) (same : twins.Same)
    (rest rest' : List Answer) :
    ((Select.loop .read sock bufLen).run left (twins.left :: rest)).map (report mem) ≠
      ((Select.loop .read sock bufLen).run right (twins.right :: rest')).map (report mem) := by
  obtain ⟨ready, zero, apart⟩ := parts
  cases blocks : ncIsBlockingError twins.left.transfer.errno with
  | true =>
      have free : ncIsBlockingError twins.right.transfer.errno = false := by
        rw [← Bool.not_eq_true]
        exact fun both => apart (blocks.trans both.symm)
      exact runs_part mem equal goes ready zero same blocks free rest rest'
  | false =>
      have blocks' : ncIsBlockingError twins.right.transfer.errno = true := by
        rw [← Bool.not_eq_false]
        exact fun neither => apart (blocks.trans neither.symm)
      have swapped : Twins.Same ⟨twins.right, twins.left⟩ := same.symm
      have ready' : Select.Ready twins.right.wait := same.wait ▸ ready
      have goes' : right.running = true := equal.running ▸ goes
      have zero' : twins.right.transfer.ret = 0 := same.ret.symm.trans zero
      exact (runs_part mem equal.symm goes' ready' zero' swapped blocks' blocks rest' rest).symm

end Parting

/-- The runs come to an end of file on which they part, having gone on until then. -/
def RunsPart (sock : NcSocket) (bufLen : Int) (answers : List Twins) : Prop :=
  ∃ before twins after, answers = before ++ twins :: after ∧ twins.Part ∧
    (∀ earlier ∈ before, (Select.policy .read).continues earlier.left ∧ ¬ earlier.Part) ∧
    (movedBy (before.map Twins.left) : Int) < bufLen ∧ InTime sock before.length

/-- Whether they do can be told from the answers. -/
theorem runsPart_iff (sock : NcSocket) (bufLen : Int) (counted : Bool) (answers : List Twins) :
    (∃ pass ∈ ((Select.loop .read sock bufLen).comap Twins.left).passes (.start bufLen counted)
      answers, pass.2.Part) ↔ RunsPart sock bufLen answers := by
  have transfer := Select.isTransferLoop .read sock bufLen
  have settles : ∀ answer ∈ answers.map Twins.left, ¬ (Select.policy .read).spins answer :=
    fun _ _ => id
  have passes := AnswerLoop.passes_comap (Select.loop .read sock bufLen)
    Twins.left answers (.start bufLen counted)
  constructor
  · rintro ⟨pass, member, parts⟩
    obtain ⟨before, first, after, split, firstParts, together⟩ :=
      AnswerLoop.first_split Twins.Part member parts
    rw [split, List.map_append, List.map_cons] at passes
    obtain ⟨account, short, inTime⟩ :=
      transfer.account_pass_of_forward Select.forward_read settles passes
    obtain ⟨unused, taken⟩ : ∃ unused, answers =
        (((Select.loop .read sock bufLen).comap Twins.left).passes (.start bufLen counted)
          answers).map Prod.snd ++ unused := AnswerLoop.passes_answers _ _
    rw [split, List.map_append, List.map_cons, List.append_assoc, List.cons_append] at taken
    refine ⟨before.map Prod.snd, first.2, after.map Prod.snd ++ unused, taken, firstParts, ?_, ?_,
      by simpa using inTime⟩
    · intro earlier inBefore
      obtain ⟨pass, member, rfl⟩ := List.mem_map.mp inBefore
      exact ⟨account.continues (pass.1, pass.2.left) (List.mem_map_of_mem member),
        together pass member⟩
    · simpa [Function.comp_def] using short
  · rintro ⟨before, twins, after, split, parts, earlier, short, inTime⟩
    have splitFirst : answers.map Twins.left =
        before.map Twins.left ++ twins.left :: after.map Twins.left := by
      rw [split, List.map_append, List.map_cons]
    have below : (before.map Twins.left).length < ((Select.loop .read sock bufLen).passes
        (.start bufLen counted) (answers.map Twins.left)).length := by
      refine transfer.comes_to_of_forward Select.forward_read settles splitFirst ?_ short
        (by rwa [List.length_map])
      intro answer member
      obtain ⟨pair, inBefore, rfl⟩ := List.mem_map.mp member
      exact (earlier pair inBefore).1
    rw [passes, List.length_map, List.length_map] at below
    refine ⟨_, List.getElem_mem below, ?_⟩
    rw [AnswerLoop.passes_getElem split below]
    exact parts

theorem report_congr (mem : Int → UInt8) {left right : Locals} (equal : Equal left right)
    (ret : RetCode) : report mem (left, ret) = report mem (right, ret) := by
  have calls : left.mask.calls = right.mask.calls := congrArg Locals.calls equal
  have count : left.mask.numActualBytes = right.mask.numActualBytes :=
    congrArg Locals.numActualBytes equal
  have memory : stored mem left.calls = stored mem right.calls := by
    rw [← stored_mask left.calls, ← stored_mask right.calls]
    exact congrArg (stored mem) calls
  simp only [report, calls, memory, Observed.mk.injEq, true_and, and_true]
  exact count

/-- What successful calls leave in `errno` does not influence `readData` of the select build
if and only if the two runs do not come to an end of file that only one of them takes for a
call that would block. -/
theorem readData_ignores_stale_iff (sock : NcSocket) (mem : Int → UInt8) (bufLen : Int)
    (counted : Bool) (answers : List Twins) (same : ∀ twins ∈ answers, twins.Same) :
    (Select.readData sock bufLen counted (answers.map Twins.left)).map (report mem) =
        (Select.readData sock bufLen counted (answers.map Twins.right)).map (report mem) ↔
      ¬ RunsPart sock bufLen answers := by
  unfold Select.readData Select.call
  have samePass : ∀ pass ∈ ((Select.loop .read sock bufLen).comap Twins.left).passes
      (.start bufLen counted) answers, pass.2.Same :=
    fun pass member => same _ (AnswerLoop.mem_of_mem_passes member)
  have equal : Equal (.start bufLen counted) (.start bufLen counted) := rfl
  rw [← runsPart_iff sock bufLen counted, ← AnswerLoop.run_comap, ← AnswerLoop.run_comap]
  constructor
  · rintro reports ⟨pass, member, parts⟩
    obtain ⟨before, first, after, split, firstParts, together⟩ :=
      AnswerLoop.first_split Twins.Part member parts
    have goodBefore : ∀ earlier ∈ before, earlier.2.Same ∧ ¬ earlier.2.Part := by
      intro earlier inBefore
      refine ⟨samePass earlier ?_, together earlier inBefore⟩
      rw [split]
      exact List.mem_append_left _ inBefore
    obtain ⟨other, rest, equalThere, goes, run, run'⟩ :=
      (twins_lockStep sock bufLen).reach answers before equal split goodBefore
    have sameFirst : first.2.Same := by
      apply samePass
      rw [split]
      simp
    rw [run, run', AnswerLoop.run_comap, AnswerLoop.run_comap, List.map_cons, List.map_cons]
      at reports
    exact firstParts.reports_ne mem equalThere goes sameFirst _ _ reports
  · intro none
    have agree := (twins_lockStep sock bufLen).run answers equal
      fun pass member => ⟨samePass pass member, fun parts => none ⟨pass, member, parts⟩⟩
    exact agree.map_eq fun _ _ ret equal => report_congr mem equal ret

/-- A byte arrives, and `errno` is left over from elsewhere in one of the runs. -/
def leftOver : Twins :=
  ⟨⟨⟨1, 0, true⟩, ⟨1, .other 0, [7]⟩⟩, ⟨⟨1, 0, true⟩, ⟨1, .eagain, [7]⟩⟩⟩

theorem readData_ignores_stale_iff_leftOver :
    (Select.readData (.ofSockfd 5) 1 true ([leftOver].map Twins.left)).map
          (report fun _ => 0) =
        (Select.readData (.ofSockfd 5) 1 true ([leftOver].map Twins.right)).map
          (report fun _ => 0) := by
  refine (readData_ignores_stale_iff (.ofSockfd 5) _ 1 true [leftOver] (by decide)).mpr ?_
  rintro ⟨before, twins, after, split, parts, -⟩
  have together : ∀ twins ∈ [leftOver], ¬ twins.Part := by decide
  exact together twins (by simp [split]) parts

/-- The file ends, and `errno` is left over from elsewhere in one of the runs. -/
def leftOverAtEnd : Twins :=
  ⟨⟨⟨1, 0, true⟩, ⟨0, .other 0, []⟩⟩, ⟨⟨1, 0, true⟩, ⟨0, .eagain, []⟩⟩⟩

/-- With a period of one poll interval, the one run reports a failure and the other one a
time-out. -/
theorem stale_errno_parts :
    leftOverAtEnd.Same ∧
      (Select.readData ((NcSocket.ofSockfd 5).setTimeout 100) 1 true [leftOverAtEnd.left]).map
          Prod.snd = some .failed ∧
      (Select.readData ((NcSocket.ofSockfd 5).setTimeout 100) 1 true [leftOverAtEnd.right]).map
          Prod.snd = some .timedOut :=
  ⟨by decide, rfl, rfl⟩

end NetClass.Socket
