import NetClass.Socket.Transfer

/-!
Contract: how long a transfer call can last.

Owns: the number of waits that the accounted time allows, and the proof that each
of the four transfer functions returns within it without wrapping its counter. The
measure is the accounted time: every branch that goes round again passes through
`checkTimeout` exactly once, whatever it does to the remaining length.
-/

set_option autoImplicit false

namespace NetClass.Socket

/-- `max(1, ceil(T/P))`. -/
def maxWaits (sock : NcSocket) : Nat :=
  max 1 ((sock.timeout.toNat + sock.polltime.toNat - 1) / sock.polltime.toNat)

/-- The loop has another pass to make exactly while the accounted time is below the
limit; the first pass is made in any case. -/
theorem lt_maxWaits_iff {sock : NcSocket} (polls : 0 < sock.polltime) (count : Nat) :
    count < maxWaits sock ↔
      count = 0 ∨ count * sock.polltime.toNat < sock.timeout.toNat := by
  have positive : 0 < sock.polltime.toNat := UInt32.lt_iff_toNat_lt.mp polls
  rw [maxWaits, lt_max_iff, Nat.lt_one_iff, Nat.lt_iff_add_one_le,
    Nat.le_div_iff_mul_le positive, Nat.succ_mul]
  constructor <;> rintro (first | early)
  · exact Or.inl first
  · exact Or.inr (by omega)
  · exact Or.inl first
  · exact Or.inr (by omega)

/-- After `count` passes the counter has been advanced `count` times, and while the
loop goes on it has not reached the limit. -/
def OnSchedule (sock : NcSocket) (count : Nat) (locals : Locals) : Prop :=
  locals.running = true →
    locals.timeout.toNat = count * sock.polltime.toNat ∧
      (count = 0 ∨ count * sock.polltime.toNat < sock.timeout.toNat)

namespace OnSchedule

variable {policy : Policy} {direction : Direction} {sock : NcSocket}
variable {bufLen : Int} {locals next : Locals} {answer : Answer} {count : Nat}

theorem start (sock : NcSocket) (bufLen : Int) (counted : Bool) :
    OnSchedule sock 0 (.start bufLen counted) :=
  fun _ => ⟨by simp [Locals.start], Or.inl rfl⟩

/-- The addition in the next `checkTimeout` stays below `2^32`. -/
theorem fits (schedule : OnSchedule sock count locals) (goes : locals.running = true)
    (limit : sock.timeout.toNat + sock.polltime.toNat ≤ 2 ^ 32) :
    locals.timeout.toNat + sock.polltime.toNat < 2 ^ 32 := by
  obtain ⟨counter, first | early⟩ := schedule goes
  · have small := sock.polltime.toNat_lt
    rw [counter, first, Nat.zero_mul, Nat.zero_add]
    exact small
  · omega

theorem turn (schedule : OnSchedule sock count locals) (goes : locals.running = true)
    (limit : sock.timeout.toNat + sock.polltime.toNat ≤ 2 ^ 32)
    (settles : ¬ policy.spins answer)
    (turn : Turn policy direction sock bufLen locals answer next) :
    OnSchedule sock (count + 1) next := by
  intro goesOn
  obtain ⟨counter, early⟩ := turn.accounted settles goesOn
  have sum : next.timeout.toNat = locals.timeout.toNat + sock.polltime.toNat := by
    rw [counter, UInt32.toNat_add, Nat.mod_eq_of_lt (schedule.fits goes limit)]
  have total : next.timeout.toNat = (count + 1) * sock.polltime.toNat := by
    rw [sum, (schedule goes).1, Nat.succ_mul]
  refine ⟨total, Or.inr ?_⟩
  rw [← total]
  exact UInt32.lt_iff_toNat_lt.mp early

theorem below (schedule : OnSchedule sock count locals) (goes : locals.running = true)
    (polls : 0 < sock.polltime) : count < maxWaits sock :=
  (lt_maxWaits_iff polls count).mpr (schedule goes).2

end OnSchedule

/-- A call issues one wait in each pass, and at most one transfer. -/
theorem IsTransferLoop.waits_eq {policy : Policy} {direction : Direction}
    {sock : NcSocket} {bufLen : Int} {loop : AnswerLoop Locals Answer RetCode}
    {counted : Bool} {answers : List Answer} {final : Locals} {ret : RetCode}
    (transfer : IsTransferLoop policy direction sock bufLen loop)
    (returns : loop.run (.start bufLen counted) answers = some (final, ret)) :
    final.calls.countP Call.isWait = (loop.passes (.start bufLen counted) answers).length ∧
      final.calls.countP Call.isTransfer ≤
        (loop.passes (.start bufLen counted) answers).length := by
  refine AnswerLoop.run_history
    (fun locals history => locals.calls.countP Call.isWait = history.length ∧
      locals.calls.countP Call.isTransfer ≤ history.length)
    (fun locals _ history => locals.calls.countP Call.isWait = history.length ∧
      locals.calls.countP Call.isTransfer ≤ history.length)
    ?_ ?_ (fun _ _ _ holds => holds) returns ⟨rfl, le_rfl⟩
  · intro locals answer next history _ _ holds again
    obtain ⟨wait, more, grown, isWait, waits, transfers, -⟩ :=
      (transfer.again locals next answer again).calls_grow
    have plain := Call.isTransfer_of_isWait isWait
    rw [grown, List.countP_append, List.countP_append, List.length_append]
    simp only [List.countP_cons, isWait, plain, waits, List.length_cons, List.length_nil]
    exact ⟨by simp [holds.1], by simp; omega⟩
  · intro locals answer last ret history _ _ holds leave
    obtain ⟨-, -, wait, isWait, rfl⟩ := transfer.leave locals last answer ret leave
    have plain := Call.isTransfer_of_isWait isWait
    simp only [Locals.issue, List.countP_append, List.countP_cons, List.countP_nil, isWait,
      plain, List.length_append, List.length_cons, List.length_nil]
    exact ⟨by simp [holds.1], by simp; omega⟩

/-- The step lemma for all loops. -/
theorem IsTransferLoop.onSchedule {policy : Policy} {direction : Direction} {sock : NcSocket}
    {bufLen : Int} {loop : AnswerLoop Locals Answer RetCode}
    (transfer : IsTransferLoop policy direction sock bufLen loop)
    (limit : sock.timeout.toNat + sock.polltime.toNat ≤ 2 ^ 32) (count : Nat)
    (locals : Locals) (answer : Answer) (next : Locals) (goes : loop.guard locals = true)
    (schedule : OnSchedule sock count locals) (settles : ¬ policy.spins answer)
    (again : loop.body locals answer = .again next) :
    OnSchedule sock (count + 1) next := by
  rw [transfer.guard] at goes
  exact schedule.turn goes limit settles (transfer.again locals next answer again)

/-- A call makes at most `maxWaits` passes, and returns on every list of that many
answers. -/
theorem IsTransferLoop.returns {policy : Policy} {direction : Direction} {sock : NcSocket}
    {bufLen : Int} {loop : AnswerLoop Locals Answer RetCode}
    (transfer : IsTransferLoop policy direction sock bufLen loop) (counted : Bool)
    {answers : List Answer} (polls : 0 < sock.polltime)
    (limit : sock.timeout.toNat + sock.polltime.toNat ≤ 2 ^ 32)
    (settles : ∀ answer ∈ answers, ¬ policy.spins answer) :
    (loop.passes (.start bufLen counted) answers).length ≤ maxWaits sock ∧
      (maxWaits sock ≤ answers.length →
        ∃ outcome, loop.run (.start bufLen counted) answers = some outcome) := by
  apply AnswerLoop.run_returns (transfer.onSchedule limit) ?_ (.start sock bufLen counted) settles
  intro count locals schedule goes
  rw [transfer.guard] at goes
  exact schedule.below goes polls

/-- The step lemma for all builds. -/
theorem Build.onSchedule (build : Build) {direction : Direction} {sock : NcSocket}
    {bufLen : Int} (limit : sock.timeout.toNat + sock.polltime.toNat ≤ 2 ^ 32) (count : Nat)
    (locals : Locals) (answer : Answer) (next : Locals)
    (goes : (build.loop direction sock bufLen).guard locals = true)
    (schedule : OnSchedule sock count locals) (plain : answer.wait.Plain)
    (again : (build.loop direction sock bufLen).body locals answer = .again next) :
    OnSchedule sock (count + 1) next :=
  (build.isTransferLoop direction sock bufLen).onSchedule limit count locals answer next goes
    schedule (build.settles direction plain) again

/-- No build needs more passes, and each returns on every list of that many answers. -/
theorem Build.returns (build : Build) (direction : Direction) {sock : NcSocket} (bufLen : Int)
    (counted : Bool) {answers : List Answer} (polls : 0 < sock.polltime)
    (limit : sock.timeout.toNat + sock.polltime.toNat ≤ 2 ^ 32)
    (plain : ∀ answer ∈ answers, answer.wait.Plain) :
    ((build.loop direction sock bufLen).passes (.start bufLen counted) answers).length ≤
        maxWaits sock ∧
      (maxWaits sock ≤ answers.length →
        ∃ outcome, build.call direction sock bufLen counted answers = some outcome) :=
  (build.isTransferLoop direction sock bufLen).returns counted polls limit
    fun answer member => build.settles direction (plain answer member)

/-- Every transfer call returns: within `maxWaits` passes, each with one wait and at
most one transfer, and without wrapping the counter of `checkTimeout`. -/
theorem transfer_returns (build : Build) (direction : Direction) (sock : NcSocket)
    (bufLen : Int) (counted : Bool) (supply : Nat → Answer) (polls : 0 < sock.polltime)
    (limit : sock.timeout.toNat + sock.polltime.toNat ≤ 2 ^ 32)
    (plain : ∀ index, (supply index).wait.Plain) :
    ∃ final ret,
      (∀ length, maxWaits sock ≤ length →
        build.call direction sock bufLen counted ((List.range length).map supply) =
          some (final, ret)) ∧
      final.calls.countP Call.isWait ≤ maxWaits sock ∧
      final.calls.countP Call.isTransfer ≤ maxWaits sock ∧
      ∀ pass ∈ (build.loop direction sock bufLen).passes (.start bufLen counted)
          ((List.range (maxWaits sock)).map supply),
        pass.1.timeout.toNat + sock.polltime.toNat < 2 ^ 32 := by
  have transfer := build.isTransferLoop direction sock bufLen
  have supplied : ∀ answer ∈ (List.range (maxWaits sock)).map supply, answer.wait.Plain :=
    List.forall_mem_map.mpr fun index _ => plain index
  obtain ⟨within, enough⟩ := build.returns direction bufLen counted polls limit supplied
  obtain ⟨⟨final, ret⟩, returns⟩ := enough (by simp)
  obtain ⟨waits, transfers⟩ := transfer.waits_eq returns
  refine ⟨final, ret, fun length atLeast => ?_, by omega, by omega, fun pass member => ?_⟩
  · obtain ⟨extra, rfl⟩ := Nat.exists_eq_add_of_le atLeast
    rw [List.range_add, List.map_append]
    exact AnswerLoop.run_append returns _
  · obtain ⟨index, below, rfl⟩ := List.getElem_of_mem member
    obtain ⟨goes, schedule⟩ := AnswerLoop.passes_invariant (build.onSchedule limit)
      (.start sock bufLen counted) supplied index below
    rw [transfer.guard] at goes
    exact schedule.fits goes limit

theorem transfer_returns_default :
    ∃ final ret, Build.select.call .write (.ofSockfd 5) 10 false
        ((List.range 100).map fun _ => ⟨⟨1, 0, true⟩, ⟨-1, .eagain, []⟩⟩) = some (final, ret) ∧
      final.calls.countP Call.isWait ≤ 100 := by
  obtain ⟨final, ret, returns, waits, -⟩ := transfer_returns .select .write (.ofSockfd 5) 10 false
    (fun _ => ⟨⟨1, 0, true⟩, ⟨-1, .eagain, []⟩⟩) (by decide) (by decide)
    (fun _ => by decide)
  exact ⟨final, ret, returns 100 (by decide), waits⟩

end NetClass.Socket
