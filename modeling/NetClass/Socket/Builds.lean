import NetClass.Socket.Account

/-!
Contract: `readData` of the poll build against `readData` of the select build.

Owns: what a caller can observe of a call, the answers on which the two builds part,
and the proof that they agree on every sequence of answers that does not come to
one of these.

The two loops treat the value of `recv` differently in two places. When `recv` fails
because it would block, the poll loop tries again and the select loop shuts the
connection down. When `recv` returns 0 it is the other way round: the poll loop goes
on, and the select loop shuts the connection down unless `errno` happens to say that
the call would block.
-/

set_option autoImplicit false

namespace NetClass.Socket

/-! ### What a caller can observe -/

/-- The locals without the waits in their log. -/
def Locals.silence (locals : Locals) : Locals :=
  { locals with calls := locals.calls.filter (fun call => !call.isWait) }

/-- The receives and shutdowns of a call, the memory around the buffer, the count and
the return code. -/
structure Observed where
  calls : List Call
  memory : Int → UInt8
  numActualBytes : Option Int
  ret : RetCode

def observe (mem : Int → UInt8) (outcome : Locals × RetCode) : Observed where
  calls := outcome.1.silence.calls
  memory := stored mem outcome.1.calls
  numActualBytes := outcome.1.numActualBytes
  ret := outcome.2

namespace Locals

theorem silence_issue (locals : Locals) {wait : Call} (isWait : wait.isWait = true) :
    (locals.issue wait).silence = locals.silence := by
  simp [silence, issue, isWait]

theorem silence_attempt (locals : Locals) (sock : NcSocket) (direction : Direction)
    (answer : TransferAnswer) :
    (locals.attempt sock direction answer).silence =
      locals.silence.attempt sock direction answer := by
  simp [silence, attempt, issue]

theorem silence_account (locals : Locals) (sock : NcSocket) (bufLen : Int) :
    (locals.account sock bufLen).silence = locals.silence.account sock bufLen := rfl

theorem silence_disconnect (locals : Locals) (sock : NcSocket) (direction : Direction)
    (code : RetCode) :
    (locals.disconnect sock direction code).silence =
      locals.silence.disconnect sock direction code := by
  simp [silence, disconnect, giveUp, issue]

end Locals

/-- A wait stores nothing. -/
theorem stored_silence (calls : List Call) : ∀ mem : Int → UInt8,
    stored mem (calls.filter fun call => !call.isWait) = stored mem calls := by
  induction calls with
  | nil => exact fun _ => rfl
  | cons call rest inductionHypothesis =>
      intro mem
      by_cases isWait : call.isWait = true
      · have nothing : call.stored mem = mem := by
          cases call <;> simp_all [Call.isWait, Call.stored]
        rw [List.filter_cons_of_neg (by simp [isWait]), inductionHypothesis]
        simp [stored, nothing]
      · rw [List.filter_cons_of_pos (by simp [isWait])]
        exact inductionHypothesis (call.stored mem)

theorem observe_congr (mem : Int → UInt8) {left right : Locals}
    (same : left.silence = right.silence) (ret : RetCode) :
    observe mem (left, ret) = observe mem (right, ret) := by
  have calls := congrArg Locals.calls same
  have count := congrArg Locals.numActualBytes same
  have memory : stored mem left.calls = stored mem right.calls := by
    rw [← stored_silence left.calls, ← stored_silence right.calls]
    exact congrArg (stored mem) calls
  simp only [observe, calls, memory, Observed.mk.injEq, true_and, and_true]
  exact count

/-! ### Abstract events -/

/-- An answer that both builds can see: the wait fails, finds nothing, or finds the
descriptor ready without an error flag, and a transfer fails with -1 only. -/
structure Clean (answer : Answer) : Prop where
  plain : answer.wait.Plain
  ready : answer.wait.ret = 1 → Poll.Ready .read answer.wait ∧ answer.wait.isSet = true
  fails : -1 ≤ answer.transfer.ret

instance (answer : Answer) : Decidable (Clean answer) :=
  decidable_of_iff (answer.wait.Plain ∧
      (answer.wait.ret = 1 → Poll.Ready .read answer.wait ∧ answer.wait.isSet = true) ∧
      -1 ≤ answer.transfer.ret)
    ⟨fun ⟨plain, ready, fails⟩ => ⟨plain, ready, fails⟩,
      fun clean => ⟨clean.plain, clean.ready, clean.fails⟩⟩

/-- The receives on which the builds part. -/
def Divergent (answer : Answer) : Prop :=
  answer.wait.ret = 1 ∧
    ((answer.transfer.ret = -1 ∧ ncIsBlockingError answer.transfer.errno = true) ∨
      (answer.transfer.ret = 0 ∧ ncIsBlockingError answer.transfer.errno = false))

instance (answer : Answer) : Decidable (Divergent answer) := by
  unfold Divergent
  infer_instance

section Transfer

variable {sock : NcSocket} {bufLen : Int} {locals : Locals} {answer : TransferAnswer}

/-- The transfer halves of the loops agree on every other receive. -/
theorem transfer_agree (locals : Locals) (sock : NcSocket) (bufLen : Int)
    {answer : TransferAnswer} (fails : -1 ≤ answer.ret)
    (blocks : answer.ret = -1 → ncIsBlockingError answer.errno = false)
    (drained : answer.ret = 0 → ncIsBlockingError answer.errno = true) :
    Poll.transfer .read sock bufLen locals answer =
      Select.transfer .read sock bufLen locals answer := by
  unfold Poll.transfer Select.transfer
  by_cases failed : answer.ret < 0
  · have minusOne : answer.ret = -1 := by omega
    have notBlocking := blocks minusOne
    simp [minusOne, notBlocking, ncSocketError, Select.progress]
  · have forward : answer.ret = 0 ∨ 0 < answer.ret := by omega
    have noError : ncSocketError answer.ret = false := by
      simp only [ncSocketError, beq_eq_false_iff_ne, ne_eq]
      omega
    have progress : Select.progress .read answer = true := by
      rcases forward with zero | positive
      · simp [Select.progress, zero, drained zero]
      · simp [Select.progress, positive]
    simp [failed, noError, progress]

/-- What was issued before a transfer does not matter to it. -/
theorem Poll.transfer_silence (direction : Direction) (locals : Locals) :
    (Poll.transfer direction sock bufLen locals answer).silence =
      Poll.transfer direction sock bufLen locals.silence answer := by
  unfold Poll.transfer
  simp only [← Locals.silence_attempt]
  generalize locals.attempt sock direction answer = attempted
  by_cases failed : answer.ret < 0
  · simp only [failed, ↓reduceIte]
    by_cases reset : ncSocketReset answer.errno = true
    · simp only [reset, ↓reduceIte, Locals.silence_disconnect]
    · by_cases blocking : ncIsBlockingError answer.errno = true
      · simp only [reset, blocking, ↓reduceIte, Bool.false_eq_true]
        have same : (attempted.silence.account sock bufLen).ret =
            (attempted.account sock bufLen).ret := rfl
        rw [same]
        split_ifs <;> rfl
      · simp only [reset, blocking, ↓reduceIte, Bool.false_eq_true, Locals.silence_disconnect]
  · simp only [failed, ↓reduceIte]
    rfl

theorem Select.transfer_silence (direction : Direction) (locals : Locals) :
    (Select.transfer direction sock bufLen locals answer).silence =
      Select.transfer direction sock bufLen locals.silence answer := by
  unfold Select.transfer
  simp only [← Locals.silence_attempt]
  split_ifs
  · exact Locals.silence_disconnect _ _ _ _
  · rfl
  · exact Locals.silence_disconnect _ _ _ _

end Transfer

/-! ### Lock step -/

/-- Two calls that differ in the waits they have issued only. -/
def Alike (left right : Locals) : Prop := left.silence = right.silence

section Loops

variable {sock : NcSocket} {bufLen : Int} {left right : Locals} {answer : Answer}

theorem Alike.running (alike : Alike left right) : left.running = right.running := by
  have remaining := congrArg Locals.nRemaining alike
  have timedout := congrArg Locals.timedout alike
  simp only [Locals.silence] at remaining timedout
  rw [Locals.running, Locals.running, remaining, timedout]

theorem Alike.issue (alike : Alike left right) {wait wait' : Call}
    (isWait : wait.isWait = true) (isWait' : wait'.isWait = true) :
    Alike (left.issue wait) (right.issue wait') := by
  rw [Alike, Locals.silence_issue left isWait, Locals.silence_issue right isWait']
  exact alike

/-- The two loops do the same on a clean answer on which they do not part. -/
theorem body_agree (alike : Alike left right) (clean : Clean answer)
    (good : ¬ Divergent answer) :
    AnswerLoop.Agree Alike (Poll.body .read sock bufLen left answer)
      (Select.body .read sock bufLen right answer) := by
  have issued : (left.issue (.poll sock.sockfd (Poll.events .read) sock.polltime
        answer.wait)).silence =
      (right.issue (.select sock.sockfd .read (Select.timeoutSeconds sock)
        (Select.timeoutUSeconds sock) answer.wait)).silence := alike.issue rfl rfl
  unfold Poll.body Select.body
  rcases clean.plain with failed | idle | woken
  · simp only [Poll.wait, Select.wait, failed, ↓reduceIte]
    exact .leave _ _ _ issued
  · simp only [Poll.wait, Select.wait, idle, ↓reduceIte]
    refine .again _ _ ?_
    rw [Alike, Locals.silence_account, Locals.silence_account, issued]
  · obtain ⟨⟨-, clear, set⟩, isSet⟩ := clean.ready woken
    simp only [Poll.wait, Select.wait, woken, clear, set, isSet, ↓reduceIte, ne_eq,
      not_true_eq_false, reduceCtorEq]
    refine .again _ _ ?_
    have blocks : answer.transfer.ret = -1 →
        ncIsBlockingError answer.transfer.errno = false := by
      intro minusOne
      rw [← Bool.not_eq_true]
      exact fun blocking => good ⟨woken, Or.inl ⟨minusOne, blocking⟩⟩
    have drained : answer.transfer.ret = 0 →
        ncIsBlockingError answer.transfer.errno = true := by
      intro zero
      rw [← Bool.not_eq_false]
      exact fun free => good ⟨woken, Or.inr ⟨zero, free⟩⟩
    rw [Alike, Poll.transfer_silence, Select.transfer_silence, issued]
    exact transfer_agree _ sock bufLen clean.fails blocks drained

theorem lockStep (sock : NcSocket) (bufLen : Int) :
    AnswerLoop.LockStep (Poll.loop .read sock bufLen) (Select.loop .read sock bufLen) Alike
      (fun answer => Clean answer ∧ ¬ Divergent answer) where
  guard := fun _ _ alike => alike.running
  finish := fun left right alike =>
    show left.silence.ret = right.silence.ret from congrArg Locals.ret alike
  body := fun _ _ _ alike good => body_agree alike good.1 good.2

end Loops

/-! ### Where the builds part -/

/-- The log of `late` continues the one of `early`, and what it adds, waits apart,
begins with a transfer. -/
def Opens (early late : Locals) : Prop :=
  ∃ more, late.silence.calls = early.silence.calls ++ more ∧
    ∀ first others, more = first :: others → first.isTransfer = true

theorem Opens.append {early middle late : Locals} (opens : Opens early middle)
    (continues : Opens middle late) : Opens early late := by
  obtain ⟨more, same, begins⟩ := opens
  obtain ⟨further, same', begins'⟩ := continues
  refine ⟨more ++ further, by rw [same', same, List.append_assoc], ?_⟩
  cases more with
  | nil => exact begins'
  | cons earliest others =>
      intro first rest split
      obtain rfl := (List.cons.inj split).1
      exact begins _ _ rfl

theorem Opens.issue (locals : Locals) {wait : Call} (isWait : wait.isWait = true) :
    Opens locals (locals.issue wait) :=
  ⟨[], by rw [Locals.silence_issue locals isWait, List.append_nil], by simp⟩

/-- The step lemma: no pass begins with a shutdown. -/
theorem Turn.opens {policy : Policy} {direction : Direction} {sock : NcSocket}
    {bufLen : Int} {locals next : Locals} {answer : Answer}
    (turn : Turn policy direction sock bufLen locals answer next) : Opens locals next := by
  obtain ⟨wait, more, grown, isWait, noWaits, -, begins⟩ := turn.calls_grow
  refine ⟨more, ?_, begins⟩
  have all : more.filter (fun call => !call.isWait) = more := by
    rw [List.filter_eq_self]
    intro call member
    have notWait := List.countP_eq_zero.mp noWaits call member
    simpa using notWait
  simp [Locals.silence, grown, isWait, all]

/-- The run lemma. -/
theorem IsTransferLoop.opens {policy : Policy} {direction : Direction} {sock : NcSocket}
    {bufLen : Int} {loop : AnswerLoop Locals Answer RetCode} {early final : Locals}
    {answers : List Answer} {ret : RetCode}
    (transfer : IsTransferLoop policy direction sock bufLen loop)
    (returns : loop.run early answers = some (final, ret)) : Opens early final := by
  refine AnswerLoop.run_invariant (Opens early) (fun locals _ => Opens early locals) ?_ ?_
    (fun _ _ holds => holds) returns ⟨[], by simp, by simp⟩
  · intro locals answer next _ holds again
    exact holds.append (transfer.again locals next answer again).opens
  · intro locals answer last left _ holds leave
    obtain ⟨-, -, wait, isWait, rfl⟩ := transfer.leave locals last answer left leave
    exact holds.append (.issue locals isWait)

section Divergence

variable {sock : NcSocket} {bufLen : Int} {answer : Answer}

theorem Poll.transfer_divergent (locals : Locals) (divergent : Divergent answer) :
    (Poll.transfer .read sock bufLen locals answer.transfer).calls =
      (locals.attempt sock .read answer.transfer).calls := by
  unfold Poll.transfer
  rcases divergent.2 with ⟨minusOne, blocking⟩ | ⟨zero, -⟩
  · have failed : answer.transfer.ret < 0 := by omega
    simp only [failed, blocking, ncSocketReset_of_blocking blocking, Bool.false_eq_true,
      ↓reduceIte]
    split_ifs <;> rfl
  · simp only [zero, Int.lt_irrefl, ↓reduceIte]
    rfl

theorem Select.transfer_divergent (locals : Locals) (divergent : Divergent answer) :
    Select.transfer .read sock bufLen locals answer.transfer =
      (locals.attempt sock .read answer.transfer).disconnect sock .read .failed := by
  unfold Select.transfer
  rcases divergent.2 with ⟨minusOne, blocking⟩ | ⟨zero, free⟩
  · simp [minusOne, ncSocketReset_of_blocking blocking, Select.progress]
  · simp [zero, free, ncSocketError, Select.progress]

/-- After a divergent answer the select build shuts the connection down at once, which
the poll build does not. -/
theorem part_ways (mem : Int → UInt8) {left right : Locals} (alike : Alike left right)
    (goes : left.running = true) (clean : Clean answer) (divergent : Divergent answer)
    (rest : List Answer) :
    ((Poll.loop .read sock bufLen).run left (answer :: rest)).map (observe mem) ≠
      ((Select.loop .read sock bufLen).run right (answer :: rest)).map (observe mem) := by
  obtain ⟨⟨-, clear, set⟩, isSet⟩ := clean.ready divergent.1
  have goes' : right.running = true := alike.running ▸ goes
  let waited := left.issue (.poll sock.sockfd (Poll.events .read) sock.polltime answer.wait)
  let waited' := right.issue (.select sock.sockfd .read (Select.timeoutSeconds sock)
    (Select.timeoutUSeconds sock) answer.wait)
  have pollBody : (Poll.loop .read sock bufLen).body left answer =
      .again (Poll.transfer .read sock bufLen waited answer.transfer) := by
    simp only [Poll.loop, Poll.body, Poll.wait, divergent.1, clear, set, ↓reduceIte, ne_eq,
      not_true_eq_false, reduceCtorEq]
    rfl
  have selectBody : (Select.loop .read sock bufLen).body right answer =
      .again ((waited'.attempt sock .read answer.transfer).disconnect sock .read .failed) := by
    simp [Select.loop, Select.body, Select.wait, divergent.1, isSet, waited',
      Select.transfer_divergent _ divergent]
  have stopped : (Select.loop .read sock bufLen).guard
      ((waited'.attempt sock .read answer.transfer).disconnect sock .read .failed) = false :=
    Locals.disconnect_running (waited'.attempt sock .read answer.transfer) sock .read .failed
  rw [AnswerLoop.run_cons_again goes pollBody, AnswerLoop.run_cons_again goes' selectBody,
    AnswerLoop.run_of_not_guard stopped]
  intro same
  cases returns : (Poll.loop .read sock bufLen).run
      (Poll.transfer .read sock bufLen waited answer.transfer) rest with
  | none => simp [returns] at same
  | some outcome =>
      obtain ⟨more, log, begins⟩ := (Poll.isTransferLoop .read sock bufLen).opens returns
      have before : (Poll.transfer .read sock bufLen waited answer.transfer).silence.calls =
          (waited'.attempt sock .read answer.transfer).silence.calls := by
        have issued : waited.silence = waited'.silence := alike.issue rfl rfl
        rw [Locals.silence_attempt, ← issued, ← Locals.silence_attempt]
        simp only [Locals.silence, Poll.transfer_divergent waited divergent]
      rw [returns, Option.map_some, Option.map_some, Option.some.injEq] at same
      have logs := congrArg Observed.calls same
      simp only [observe] at logs
      rw [log, before, Locals.silence_disconnect, Locals.disconnect_calls,
        List.append_cancel_left_eq] at logs
      have first := begins _ [] logs
      exact Bool.noConfusion first

end Divergence

/-- The builds of `readData` agree on a sequence of events, including on whether the
call has returned, if and only if the call does not come to a divergent receive. -/
theorem readData_agree_iff (sock : NcSocket) (mem : Int → UInt8) (bufLen : Int)
    (counted : Bool) (answers : List Answer) (clean : ∀ answer ∈ answers, Clean answer) :
    (Poll.readData sock bufLen counted answers).map (observe mem) =
        (Select.readData sock bufLen counted answers).map (observe mem) ↔
      ¬ Meets (Poll.policy .read) Divergent sock bufLen answers := by
  have transfer := Poll.isTransferLoop .read sock bufLen
  have meets : (∃ pass ∈ (Poll.loop .read sock bufLen).passes (.start bufLen counted) answers,
      Divergent pass.2) ↔ Meets (Poll.policy .read) Divergent sock bufLen answers :=
    transfer.meets_iff (fun answer _ => Poll.forward .read answer)
      (Poll.settles .read fun answer member => (clean answer member).plain)
  have cleanPass : ∀ pass ∈ (Poll.loop .read sock bufLen).passes (.start bufLen counted) answers,
      Clean pass.2 := fun pass member => clean _ (AnswerLoop.mem_of_mem_passes member)
  have alike : Alike (.start bufLen counted) (.start bufLen counted) := rfl
  rw [← meets]
  constructor
  · rintro same ⟨pass, member, divergent⟩
    obtain ⟨before, first, after, split, firstDivergent, good⟩ :=
      AnswerLoop.first_split Divergent member divergent
    have cleanBefore : ∀ earlier ∈ before, Clean earlier.2 ∧ ¬ Divergent earlier.2 := by
      intro earlier inBefore
      refine ⟨cleanPass earlier ?_, good earlier inBefore⟩
      rw [split]
      exact List.mem_append_left _ inBefore
    obtain ⟨other, rest, alike, goes, run, run'⟩ :=
      (lockStep sock bufLen).reach answers before alike split cleanBefore
    have cleanFirst : Clean first.2 := by
      apply cleanPass
      rw [split]
      simp
    apply part_ways mem alike goes cleanFirst firstDivergent rest
    rw [← run, ← run']
    exact same
  · intro none
    have agree := (lockStep sock bufLen).run answers alike
      fun pass member => ⟨cleanPass pass member, fun divergent => none ⟨pass, member, divergent⟩⟩
    exact agree.map_eq fun _ _ ret alike => observe_congr mem alike ret

/-- Three bytes arrive in two parts. -/
def twoArrivals : List Answer :=
  [⟨⟨1, pollIn, true⟩, ⟨2, .other 0, [1, 2]⟩⟩, ⟨⟨0, 0, false⟩, ⟨0, .other 0, []⟩⟩,
    ⟨⟨1, pollIn, true⟩, ⟨1, .other 0, [3]⟩⟩]

theorem readData_agree_iff_twoArrivals :
    (Poll.readData (.ofSockfd 5) 3 true twoArrivals).map (observe fun _ => 0) =
      (Select.readData (.ofSockfd 5) 3 true twoArrivals).map (observe fun _ => 0) := by
  refine (readData_agree_iff (.ofSockfd 5) _ 3 true twoArrivals (by decide)).mpr fun meets => ?_
  obtain ⟨answer, member, divergent⟩ := meets.exists_bad
  have agree : ∀ answer ∈ twoArrivals, ¬ Divergent answer := by decide
  exact agree answer member divergent

/-- The peer has closed the connection: `recv` returns 0. -/
def endOfFile : Answer := ⟨⟨1, pollIn, true⟩, ⟨0, .other 0, []⟩⟩

/-- `recv` has nothing to read although the wait found the descriptor ready. -/
def nothingToRead : Answer := ⟨⟨1, pollIn, true⟩, ⟨-1, .eagain, []⟩⟩

/-- With a period of one poll interval the poll build reports a time-out on either
answer, and the select build reports a failure. -/
theorem builds_part :
    Clean endOfFile ∧ Clean nothingToRead ∧
      (Poll.readData ((NcSocket.ofSockfd 5).setTimeout 100) 1 true [endOfFile]).map Prod.snd =
        some .timedOut ∧
      (Select.readData ((NcSocket.ofSockfd 5).setTimeout 100) 1 true [endOfFile]).map Prod.snd =
        some .failed ∧
      (Poll.readData ((NcSocket.ofSockfd 5).setTimeout 100) 1 true [nothingToRead]).map
          Prod.snd = some .timedOut ∧
      (Select.readData ((NcSocket.ofSockfd 5).setTimeout 100) 1 true [nothingToRead]).map
          Prod.snd = some .failed :=
  ⟨by decide, by decide, rfl, rfl, rfl, rfl⟩

end NetClass.Socket
