import NetClass.Socket.SelectWrite
import NetClass.Socket.Stream
import NetClass.Socket.Transfer

/-!
Contract: a `writeData` or `readData` call of either build while it is in progress.

Owns: the two halves of a pass under one name, the steps that a call in progress takes
between the moments at which other threads and the network may act, and the proof that
these steps lead to exactly the results that the loop has.

Does **not** own: the loop itself; see `NetClass.Socket.Transfer`.
-/

set_option autoImplicit false

namespace NetClass.Socket

/-! ### The halves of a pass -/

namespace Build

/-- One pass up to the transfer call. -/
def wait : Build → Direction → NcSocket → Int → Locals → WaitAnswer → Waited
  | .poll => Poll.wait
  | .select => Select.wait

/-- The transfer call and what follows it. -/
def transfer : Build → Direction → NcSocket → Int → Locals → TransferAnswer → Locals
  | .poll => Poll.transfer
  | .select => Select.transfer

/-- The two halves are the body of the loop. -/
theorem loop_body (build : Build) (direction : Direction) (sock : NcSocket) (bufLen : Int)
    (locals : Locals) (answer : Answer) :
    (build.loop direction sock bufLen).body locals answer =
      match build.wait direction sock bufLen locals answer.wait with
      | .transfer locals =>
          .again (build.transfer direction sock bufLen locals answer.transfer)
      | .done pass => pass := by
  cases build <;> rfl

/-- The answer on which the `writeData` of the select build steps its pointer back. -/
def Blocks (build : Build) (direction : Direction) (answer : TransferAnswer) : Prop :=
  build = .select ∧ direction = .write ∧ answer.ret < 0 ∧
    ncIsBlockingError answer.errno = true

instance (build : Build) (direction : Direction) (answer : TransferAnswer) :
    Decidable (build.Blocks direction answer) := by
  unfold Blocks
  infer_instance

theorem wait_turn (build : Build) (direction : Direction) (sock : NcSocket) (bufLen : Int)
    (locals : Locals) (answer : WaitAnswer) :
    WaitTurn sock bufLen locals (build.wait direction sock bufLen locals answer) := by
  cases build with
  | poll => exact Poll.wait_turn direction sock bufLen locals answer
  | select =>
      show WaitTurn sock bufLen locals (Select.wait direction sock bufLen locals answer)
      unfold Select.wait
      split_ifs
      · exact .failed _ rfl .failed
      · exact .idled _ rfl
      · exact .ready _ rfl
      · exact .failed _ rfl .failed

end Build

/-- The second half of a pass of the select build. -/
theorem Select.transfer_tracks {direction : Direction} {sock : NcSocket} {bufLen : Int}
    {locals : Locals} (holds : Tracks direction bufLen locals)
    (aligned : Aligned bufLen locals) {answer : TransferAnswer}
    (fits : answer.ret ≤ locals.nRemaining) (works : ¬ Build.select.Blocks direction answer) :
    Tracks direction bufLen (Select.transfer direction sock bufLen locals answer) ∧
      (Select.transfer direction sock bufLen locals answer).numActualBytes.isSome =
        locals.numActualBytes.isSome ∧
      moved (Select.transfer direction sock bufLen locals answer).calls =
        moved locals.calls + answer.ret.toNat := by
  have total := Locals.moved_attempt locals sock direction answer
  have stops : ∀ code, answer.ret ≤ 0 →
      Tracks direction bufLen
          ((locals.attempt sock direction answer).disconnect sock direction code) ∧
        ((locals.attempt sock direction answer).disconnect sock direction
          code).numActualBytes.isSome = locals.numActualBytes.isSome ∧
        moved ((locals.attempt sock direction answer).disconnect sock direction code).calls =
          moved locals.calls + answer.ret.toNat := by
    intro code lost
    exact ⟨(holds.attempt_lost aligned sock fits lost).disconnect _, rfl, by simp [Call.moved]⟩
  unfold Select.transfer
  split_ifs with reset step
  · apply stops
    simp only [ncSocketError, Bool.and_eq_true, beq_iff_eq] at reset
    omega
  · have forward : 0 ≤ answer.ret := by
      by_contra back
      rw [not_le] at back
      cases direction with
      | write =>
          simp only [progress, Bool.or_eq_true, decide_eq_true_eq] at step
          exact works ⟨rfl, rfl, back, step.resolve_left (by omega)⟩
      | read =>
          simp only [progress, Bool.or_eq_true, decide_eq_true_eq, Bool.and_eq_true,
            beq_iff_eq] at step
          omega
    have kept :
        Tracks direction bufLen ((locals.attempt sock direction answer).advance answer.ret) :=
      holds.attempt_advance aligned sock fits forward
    refine ⟨kept.account, ?_, total⟩
    simp [Locals.advance, Locals.attempt, Locals.issue]
  · apply stops
    cases direction <;> simp only [progress, Bool.or_eq_true, decide_eq_true_eq] at step <;>
      omega

theorem Build.transfer_tracks (build : Build) {direction : Direction} (sock : NcSocket)
    {bufLen : Int} {locals : Locals} (holds : Tracks direction bufLen locals)
    (aligned : Aligned bufLen locals) {answer : TransferAnswer}
    (fits : answer.ret ≤ locals.nRemaining) (works : ¬ build.Blocks direction answer) :
    Tracks direction bufLen (build.transfer direction sock bufLen locals answer) ∧
      (build.transfer direction sock bufLen locals answer).numActualBytes.isSome =
        locals.numActualBytes.isSome ∧
      moved (build.transfer direction sock bufLen locals answer).calls =
        moved locals.calls + answer.ret.toNat := by
  cases build with
  | poll => exact Poll.transfer_tracks holds aligned fits
  | select => exact Select.transfer_tracks holds aligned fits works

/-! ### The steps of a call -/

/-- What a transfer that is not called for would answer. -/
def noTransfer : TransferAnswer := ⟨0, .other 0, []⟩

/-- What a call in progress does between two transfer calls: it goes on, or it returns with
its last locals and a code. -/
inductive Activity.Step (build : Build) (direction : Direction) (activity : Activity) :
    Activity ⊕ Locals × RetCode → Prop where
  | wakes (atHead : activity.ready = false) (goes : activity.locals.running = true)
      (answer : WaitAnswer) (next : Locals)
      (waits : build.wait direction activity.sock activity.bufLen activity.locals answer =
        .transfer next) :
      Step build direction activity (.inl { activity with locals := next, ready := true })
  | waitsAgain (atHead : activity.ready = false) (goes : activity.locals.running = true)
      (answer : WaitAnswer) (next : Locals)
      (waits : build.wait direction activity.sock activity.bufLen activity.locals answer =
        .done (.again next)) :
      Step build direction activity (.inl { activity with locals := next })
  | failsWaiting (atHead : activity.ready = false) (goes : activity.locals.running = true)
      (answer : WaitAnswer) (last : Locals) (ret : RetCode)
      (waits : build.wait direction activity.sock activity.bufLen activity.locals answer =
        .done (.leave last ret)) :
      Step build direction activity (.inr (last, ret))
  | returns (atHead : activity.ready = false) (stopped : activity.locals.running = false) :
      Step build direction activity (.inr (activity.locals, activity.locals.ret))

/-- The transfer call of a call in progress and what follows it. -/
def Activity.transfer (activity : Activity) (build : Build) (direction : Direction)
    (answer : TransferAnswer) : Activity :=
  { activity with
    locals := build.transfer direction activity.sock activity.bufLen activity.locals answer
    ready := false }

/-- One step of a call, its transfers included. -/
inductive Activity.Goes (build : Build) (direction : Direction) (activity : Activity) :
    Activity → Prop where
  | alone (next : Activity) (step : activity.Step build direction (.inl next)) :
      Goes build direction activity next
  | transfers (ready : activity.ready = true) (answer : TransferAnswer) :
      Goes build direction activity (activity.transfer build direction answer)

/-- The call comes to its end by steps. -/
def Activity.Ends (activity : Activity) (build : Build) (direction : Direction)
    (outcome : Locals × RetCode) : Prop :=
  ∃ last, Relation.ReflTransGen (Activity.Goes build direction) activity last ∧
    last.Step build direction (.inr outcome)

/-- A call that begins. -/
def Activity.start (sock : NcSocket) (bufLen : Int) (counted : Bool) : Activity :=
  ⟨sock, bufLen, .start bufLen counted, false⟩

/-! ### What a step can do -/

section Inversion

variable {build : Build} {direction : Direction} {activity after : Activity}

theorem Activity.Step.goesOn (step : activity.Step build direction (.inl after)) :
    activity.ready = false ∧ activity.locals.running = true ∧
      ∃ wait : Call, wait.isWait = true ∧
        (after = { activity with locals := activity.locals.issue wait, ready := true } ∨
          after = { activity with
            locals := (activity.locals.issue wait).account activity.sock activity.bufLen } ∨
          after = { activity with locals := activity.locals.issue wait }) := by
  cases step with
  | wakes atHead goes answer next waits =>
      have turn := build.wait_turn direction activity.sock activity.bufLen activity.locals answer
      rw [waits] at turn
      cases turn with
      | ready wait isWait => exact ⟨atHead, goes, wait, isWait, Or.inl rfl⟩
  | waitsAgain atHead goes answer next waits =>
      have turn := build.wait_turn direction activity.sock activity.bufLen activity.locals answer
      rw [waits] at turn
      cases turn with
      | idled wait isWait => exact ⟨atHead, goes, wait, isWait, Or.inr (Or.inl rfl)⟩
      | spun wait isWait => exact ⟨atHead, goes, wait, isWait, Or.inr (Or.inr rfl)⟩

theorem Activity.Step.ends {last : Locals} {ret : RetCode}
    (step : activity.Step build direction (.inr (last, ret))) :
    activity.ready = false ∧
      ((activity.locals.running = true ∧ ret = .failed ∧
          ∃ wait : Call, wait.isWait = true ∧ last = activity.locals.issue wait) ∨
        (activity.locals.running = false ∧ last = activity.locals ∧
          ret = activity.locals.ret)) := by
  cases step with
  | failsWaiting atHead goes answer last ret waits =>
      have leaves : (build.loop direction activity.sock activity.bufLen).body activity.locals
          ⟨answer, noTransfer⟩ = .leave last ret := by
        rw [build.loop_body, waits]
      obtain ⟨failed, -, wait⟩ :=
        (build.isTransferLoop direction activity.sock activity.bufLen).leave _ _ _ _ leaves
      exact ⟨atHead, Or.inl ⟨goes, failed, wait⟩⟩
  | returns atHead stopped => exact ⟨atHead, Or.inr ⟨stopped, rfl, rfl⟩⟩

end Inversion

/-! ### Steps and passes -/

section Passes

variable {build : Build} {direction : Direction} {sock : NcSocket} {bufLen : Int}
variable {locals next last : Locals} {outcome : Locals × RetCode}

namespace Build

theorem run_of_stopped (build : Build) (direction : Direction) (sock : NcSocket) (bufLen : Int)
    (stopped : locals.running = false) (answers : List Answer) :
    (build.loop direction sock bufLen).run locals answers = some (locals, locals.ret) := by
  have transfer := build.isTransferLoop direction sock bufLen
  have guard : (build.loop direction sock bufLen).guard locals = false := by
    rw [transfer.guard]
    exact stopped
  rw [AnswerLoop.run_of_not_guard guard, transfer.finish]

/-- A pass in which the descriptor is ready. -/
theorem run_transfer (goes : locals.running = true) {wait : WaitAnswer}
    (waits : build.wait direction sock bufLen locals wait = .transfer next)
    (answer : TransferAnswer) (rest : List Answer) :
    (build.loop direction sock bufLen).run locals (⟨wait, answer⟩ :: rest) =
      (build.loop direction sock bufLen).run
        (build.transfer direction sock bufLen next answer) rest := by
  apply AnswerLoop.run_cons_again
  · rw [(build.isTransferLoop direction sock bufLen).guard]
    exact goes
  · rw [build.loop_body, waits]

/-- A pass that ends with its wait. -/
theorem run_again (goes : locals.running = true) {wait : WaitAnswer}
    (waits : build.wait direction sock bufLen locals wait = .done (.again next))
    (answer : TransferAnswer) (rest : List Answer) :
    (build.loop direction sock bufLen).run locals (⟨wait, answer⟩ :: rest) =
      (build.loop direction sock bufLen).run next rest := by
  apply AnswerLoop.run_cons_again
  · rw [(build.isTransferLoop direction sock bufLen).guard]
    exact goes
  · rw [build.loop_body, waits]

/-- A wait that fails. -/
theorem run_leave (goes : locals.running = true) {wait : WaitAnswer} {ret : RetCode}
    (waits : build.wait direction sock bufLen locals wait = .done (.leave last ret))
    (answer : TransferAnswer) (rest : List Answer) :
    (build.loop direction sock bufLen).run locals (⟨wait, answer⟩ :: rest) =
      some (last, ret) := by
  apply AnswerLoop.run_cons_leave
  · rw [(build.isTransferLoop direction sock bufLen).guard]
    exact goes
  · rw [build.loop_body, waits]

end Build

/-- The run of the loop from where the call is. Between its two halves a pass needs the
answer to its transfer call only. -/
def Activity.Runs (activity : Activity) (build : Build) (direction : Direction)
    (outcome : Locals × RetCode) : Prop :=
  if activity.ready then
    ∃ answer rest, (build.loop direction activity.sock activity.bufLen).run
      (build.transfer direction activity.sock activity.bufLen activity.locals answer) rest =
        some outcome
  else
    ∃ answers, (build.loop direction activity.sock activity.bufLen).run activity.locals answers =
      some outcome

theorem Activity.runs_of_step {activity : Activity}
    (step : activity.Step build direction (.inr outcome)) :
    activity.Runs build direction outcome := by
  cases step with
  | failsWaiting atHead goes answer last ret waits =>
      rw [Runs, if_neg (by simp [atHead])]
      exact ⟨_, Build.run_leave goes waits noTransfer []⟩
  | returns atHead stopped =>
      rw [Runs, if_neg (by simp [atHead])]
      exact ⟨[], build.run_of_stopped direction activity.sock activity.bufLen stopped []⟩

theorem Activity.runs_of_goes {activity after : Activity}
    (goes : activity.Goes build direction after) (runs : after.Runs build direction outcome) :
    activity.Runs build direction outcome := by
  cases goes with
  | alone after step =>
      cases step with
      | wakes atHead goes answer next waits =>
          rw [Runs, if_pos rfl] at runs
          obtain ⟨transfer, rest, returns⟩ := runs
          rw [Runs, if_neg (by simp [atHead])]
          exact ⟨_, (Build.run_transfer goes waits transfer rest).trans returns⟩
      | waitsAgain atHead goes answer next waits =>
          rw [Runs, if_neg (by simp [atHead])] at runs
          obtain ⟨rest, returns⟩ := runs
          rw [Runs, if_neg (by simp [atHead])]
          exact ⟨_, (Build.run_again goes waits noTransfer rest).trans returns⟩
  | transfers ready answer =>
      rw [Runs, if_neg (by simp [Activity.transfer])] at runs
      obtain ⟨rest, returns⟩ := runs
      rw [Runs, if_pos ready]
      exact ⟨answer, rest, returns⟩

theorem Activity.runs_of_steps {activity after : Activity}
    (steps : Relation.ReflTransGen (Activity.Goes build direction) activity after)
    (runs : after.Runs build direction outcome) : activity.Runs build direction outcome := by
  induction steps using Relation.ReflTransGen.head_induction_on with
  | refl => exact runs
  | head goes _ inductionHypothesis => exact Activity.runs_of_goes goes inductionHypothesis

/-- A run of the loop, step by step. -/
theorem Activity.ends_of_run (answers : List Answer) : ∀ locals : Locals,
    (build.loop direction sock bufLen).run locals answers = some outcome →
      Activity.Ends ⟨sock, bufLen, locals, false⟩ build direction outcome := by
  have stops : ∀ (answers : List Answer) (locals : Locals), locals.running = false →
      (build.loop direction sock bufLen).run locals answers = some outcome →
      Activity.Ends ⟨sock, bufLen, locals, false⟩ build direction outcome := by
    intro answers locals stopped returns
    rw [build.run_of_stopped direction sock bufLen stopped] at returns
    obtain rfl := Option.some.inj returns
    exact ⟨_, .refl, .returns rfl stopped⟩
  induction answers with
  | nil =>
      intro locals returns
      by_cases goes : locals.running = true
      · have guard := (build.isTransferLoop direction sock bufLen).guard
        simp [AnswerLoop.run, guard, goes] at returns
      · exact stops [] locals (Bool.not_eq_true _ ▸ goes) returns
  | cons answer rest inductionHypothesis =>
      intro locals returns
      by_cases goes : locals.running = true
      · cases waits : build.wait direction sock bufLen locals answer.wait with
        | transfer next =>
            rw [Build.run_transfer goes waits] at returns
            obtain ⟨last, steps, ends⟩ := inductionHypothesis _ returns
            have wakes : Activity.Goes build direction ⟨sock, bufLen, locals, false⟩
                ⟨sock, bufLen, next, true⟩ :=
              .alone _ (.wakes rfl goes answer.wait next waits)
            have transfers : Activity.Goes build direction ⟨sock, bufLen, next, true⟩
                ⟨sock, bufLen, build.transfer direction sock bufLen next answer.transfer, false⟩ :=
              .transfers rfl answer.transfer
            exact ⟨last, .head wakes (.head transfers steps), ends⟩
        | done pass =>
            cases pass with
            | again next =>
                rw [Build.run_again goes waits] at returns
                obtain ⟨last, steps, ends⟩ := inductionHypothesis _ returns
                exact ⟨last, .head (.alone _ (.waitsAgain rfl goes answer.wait next waits)) steps,
                  ends⟩
            | leave last ret =>
                rw [Build.run_leave goes waits] at returns
                obtain rfl := Option.some.inj returns
                exact ⟨_, .refl, .failsWaiting rfl goes answer.wait last ret waits⟩
      · exact stops _ locals (Bool.not_eq_true _ ▸ goes) returns

end Passes

/-- The steps of a call come to an end with exactly those results with which the call
returns on some answers of the kernel. -/
theorem call_ends_iff (build : Build) (direction : Direction) (sock : NcSocket) (bufLen : Int)
    (counted : Bool) (outcome : Locals × RetCode) :
    (Activity.start sock bufLen counted).Ends build direction outcome ↔
      ∃ answers, build.call direction sock bufLen counted answers = some outcome := by
  constructor
  · rintro ⟨last, steps, ends⟩
    have runs := Activity.runs_of_steps steps (Activity.runs_of_step ends)
    rw [Activity.Runs, if_neg (by simp [Activity.start])] at runs
    exact runs
  · rintro ⟨answers, returns⟩
    exact Activity.ends_of_run answers _ returns

end NetClass.Socket
