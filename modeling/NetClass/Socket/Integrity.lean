import NetClass.Socket.Poll
import NetClass.Socket.Select

/-!
Contract: transfer integrity of one call.

Owns: the invariant that ties the pointer, the remaining length and
`*numActualBytes` to the log of transfers, its proof for the loops that only move
their pointer forward, and what it says about the bytes when the call returns.

The invariant speaks about `pPtr` and `nRemaining` only while the loop goes on:
the error branches set `nRemaining` to zero and so break the relation on their
way out, but they touch neither the count nor the log of transfers.
-/

set_option autoImplicit false

namespace NetClass.Socket

@[simp] theorem Locals.moved_attempt (locals : Locals) (sock : NcSocket)
    (direction : Direction) (answer : TransferAnswer) :
    moved (locals.attempt sock direction answer).calls =
      moved locals.calls + answer.ret.toNat := by
  simp [Locals.attempt, Locals.issue]

/-- The pointer and the remaining length describe exactly `buf[j..bufLen)`, `j`
being the number of bytes that the log of calls moved. -/
def Aligned (bufLen : Int) (locals : Locals) : Prop :=
  locals.pPtr = moved locals.calls ∧ locals.nRemaining = bufLen - moved locals.calls

namespace Aligned

variable {direction : Direction} {sock : NcSocket} {bufLen : Int} {locals : Locals}

theorem start (bufLen : Int) (counted : Bool) : Aligned bufLen (.start bufLen counted) := by
  simp [Aligned, Locals.start]

/-- A call that moves nothing changes nothing. -/
theorem issue (aligned : Aligned bufLen locals) {call : Call}
    (plain : call.isTransfer = false) : Aligned bufLen (locals.issue call) := by
  have silent := Call.moved_of_not_isTransfer plain
  rw [Aligned, Locals.issue, moved_append, moved_cons, silent, moved_nil]
  exact aligned

/-- A transfer that moves nothing leaves pointer and length as they are. -/
theorem attempt_lost (aligned : Aligned bufLen locals) {answer : TransferAnswer}
    (lost : answer.ret ≤ 0) : Aligned bufLen (locals.attempt sock direction answer) := by
  have same : moved (locals.attempt sock direction answer).calls = moved locals.calls := by
    rw [Locals.moved_attempt]
    omega
  rw [Aligned, same]
  exact aligned

/-- A transfer whose value is not negative moves pointer and length along with the
log. -/
theorem attempt_advance (aligned : Aligned bufLen locals) {answer : TransferAnswer}
    (forward : 0 ≤ answer.ret) :
    Aligned bufLen ((locals.attempt sock direction answer).advance answer.ret) := by
  obtain ⟨pointer, remaining⟩ := aligned
  have total := Locals.moved_attempt locals sock direction answer
  constructor
  · simp only [Locals.advance, total]
    simp only [Locals.attempt, Locals.issue, pointer]
    omega
  · simp only [Locals.advance, total]
    simp only [Locals.attempt, Locals.issue, remaining]
    omega

end Aligned

/-- The locals of a transfer of `bufLen` bytes agree with the log of its calls. -/
structure Tracks (direction : Direction) (bufLen : Int) (locals : Locals) : Prop where
  windowed : Windowed direction bufLen 0 locals.calls
  within : (moved locals.calls : Int) ≤ bufLen
  count : ∀ count, locals.numActualBytes = some count → count = moved locals.calls
  live : locals.running = true → Aligned bufLen locals

namespace Tracks

variable {direction : Direction} {sock : NcSocket} {bufLen : Int} {locals : Locals}

theorem start (direction : Direction) {bufLen : Int} (nonneg : 0 ≤ bufLen)
    (counted : Bool) : Tracks direction bufLen (.start bufLen counted) where
  windowed := trivial
  within := by simpa [Locals.start] using nonneg
  count := by
    intro count same
    cases counted <;> simp_all [Locals.start]
  live := fun _ => .start bufLen counted

/-- A call that moves nothing changes nothing. -/
theorem issue (holds : Tracks direction bufLen locals) {call : Call}
    (plain : call.isTransfer = false) : Tracks direction bufLen (locals.issue call) := by
  have silent := Call.moved_of_not_isTransfer plain
  have anywhere : ∀ j, call.Window direction bufLen j := by
    intro j
    cases call <;> simp_all [Call.Window, Call.isTransfer]
  have same : moved (locals.calls ++ [call]) = moved locals.calls := by simp [silent]
  exact {
    windowed := by
      rw [Locals.issue, windowed_append]
      exact ⟨holds.windowed, anywhere _, trivial⟩
    within := by rw [Locals.issue, same]; exact holds.within
    count := by rw [Locals.issue, same]; exact holds.count
    live := fun goes => (holds.live goes).issue plain }

theorem account (holds : Tracks direction bufLen locals) :
    Tracks direction bufLen (locals.account sock bufLen) where
  windowed := holds.windowed
  within := holds.within
  count := holds.count
  live := fun goes => holds.live (Locals.running_of_account goes)

theorem giveUp (holds : Tracks direction bufLen locals) :
    Tracks direction bufLen locals.giveUp where
  windowed := holds.windowed
  within := holds.within
  count := holds.count
  live := by simp

theorem disconnect (holds : Tracks direction bufLen locals) (code : RetCode) :
    Tracks direction bufLen (locals.disconnect sock direction code) := by
  have stopped := holds.giveUp.issue
    (show (Call.shutdown sock.sockfd direction.how).isTransfer = false from rfl)
  exact {
    windowed := stopped.windowed
    within := stopped.within
    count := stopped.count
    live := by simp }

/-- The transfer call is given `buf[j..bufLen)` and stays inside of it. -/
theorem attempt (holds : Tracks direction bufLen locals) (aligned : Aligned bufLen locals)
    (sock : NcSocket) {answer : TransferAnswer} (fits : answer.ret ≤ locals.nRemaining) :
    Windowed direction bufLen 0 (locals.attempt sock direction answer).calls ∧
      ((moved (locals.attempt sock direction answer).calls : Nat) : Int) ≤ bufLen := by
  obtain ⟨pointer, remaining⟩ := aligned
  constructor
  · rw [Locals.attempt, Locals.issue, windowed_append]
    refine ⟨holds.windowed, ⟨?_, ?_, ?_⟩, trivial⟩
    · exact sock.transferCall_direction direction
    · rw [pointer, Nat.zero_add]
    · rw [remaining, Nat.zero_add]
  · have within := holds.within
    rw [Locals.moved_attempt]
    omega

/-- A transfer that moves nothing leaves the invariant as it is. -/
theorem attempt_lost (holds : Tracks direction bufLen locals)
    (aligned : Aligned bufLen locals) (sock : NcSocket) {answer : TransferAnswer}
    (fits : answer.ret ≤ locals.nRemaining) (lost : answer.ret ≤ 0) :
    Tracks direction bufLen (locals.attempt sock direction answer) := by
  obtain ⟨windowed, within⟩ := holds.attempt aligned sock fits
  refine ⟨windowed, within, ?_, fun _ => aligned.attempt_lost lost⟩
  intro count same
  have counted := holds.count count same
  rw [Locals.moved_attempt]
  omega

/-- A transfer whose value is not negative moves the count along with the log. -/
theorem attempt_advance (holds : Tracks direction bufLen locals)
    (aligned : Aligned bufLen locals) (sock : NcSocket) {answer : TransferAnswer}
    (fits : answer.ret ≤ locals.nRemaining) (forward : 0 ≤ answer.ret) :
    Tracks direction bufLen ((locals.attempt sock direction answer).advance answer.ret) := by
  obtain ⟨windowed, within⟩ := holds.attempt aligned sock fits
  refine ⟨windowed, within, ?_, fun _ => aligned.attempt_advance forward⟩
  intro count same
  simp only [Locals.advance, Locals.attempt, Locals.issue, Option.map_eq_some_iff] at same
  obtain ⟨before, known, rfl⟩ := same
  have counted := holds.count before known
  have total := Locals.moved_attempt locals sock direction answer
  simp only [Locals.advance, total]
  omega

/-- Where a pass stands once its wait has been issued. -/
theorem waited (holds : Tracks direction bufLen locals) (goes : locals.running = true)
    {wait : Call} (isWait : wait.isWait = true) :
    Tracks direction bufLen (locals.issue wait) ∧ Aligned bufLen (locals.issue wait) := by
  have kept := holds.issue (Call.isTransfer_of_isWait isWait)
  exact ⟨kept, kept.live goes⟩

end Tracks

theorem Locals.ret_le_nRemaining {locals : Locals} {sock : NcSocket} {direction : Direction}
    {answer : TransferAnswer} (honest : Honest (locals.attempt sock direction answer).calls) :
    answer.ret ≤ locals.nRemaining := by
  rw [Locals.attempt, Locals.issue, honest_append, honest_cons] at honest
  exact honest.2.1.2.1

/-- The step lemma: a pass keeps the invariant, provided that the loop moves its
pointer only on answers that are not negative. -/
theorem Turn.tracks {policy : Policy} {direction : Direction}
    {sock : NcSocket} {bufLen : Int} {locals next : Locals} {answer : Answer}
    (turn : Turn policy direction sock bufLen locals answer next)
    (forward : policy.Forward answer)
    (goes : locals.running = true) (holds : Tracks direction bufLen locals)
    (honest : Honest next.calls) : Tracks direction bufLen next := by
  cases turn with
  | spun wait isWait odd => exact (holds.waited goes isWait).1
  | idled wait isWait idle continues => exact (holds.waited goes isWait).1.account
  | stepped wait isWait woken continues step =>
      obtain ⟨kept, aligned⟩ := holds.waited goes isWait
      exact (kept.attempt_advance aligned sock (Locals.ret_le_nRemaining honest)
        (forward woken continues step)).account
  | blocked wait isWait woken continues failed stays retry =>
      obtain ⟨kept, aligned⟩ := holds.waited goes isWait
      exact (kept.attempt_lost aligned sock (Locals.ret_le_nRemaining honest)
        (by omega)).account
  | gaveUp wait isWait woken continues failed stays ended =>
      obtain ⟨kept, aligned⟩ := holds.waited goes isWait
      exact (kept.attempt_lost aligned sock (Locals.ret_le_nRemaining honest)
        (by omega)).account.giveUp
  | disconnected wait isWait lost broken code failure =>
      obtain ⟨kept, aligned⟩ := holds.waited goes isWait
      rw [Locals.disconnect_calls, honest_append] at honest
      exact (kept.attempt_lost aligned sock (Locals.ret_le_nRemaining honest.1)
        lost).disconnect code

/-! ### Whole calls -/

/-- A `writeData` that has been told to count has had the first `count` bytes of
the buffer accepted, in order and each once, and never asked for others. -/
def WroteExactly (mem : Int → UInt8) (bufLen : Int) (final : Locals) : Prop :=
  ∃ count : Nat, final.numActualBytes = some (count : Int) ∧ (count : Int) ≤ bufLen ∧
    accepted mem final.calls = Memory.window mem 0 count ∧
    Windowed .write bufLen 0 final.calls

/-- A `readData` that has been told to count has stored what it received in the
first `count` bytes of the buffer and has left every other address alone. -/
def ReadExactly (mem : Int → UInt8) (bufLen : Int) (final : Locals) : Prop :=
  ∃ count : Nat, final.numActualBytes = some (count : Int) ∧ (count : Int) ≤ bufLen ∧
    Memory.window (stored mem final.calls) 0 count = received final.calls ∧
    (∀ address : Int, address < 0 ∨ count ≤ address →
      stored mem final.calls address = mem address) ∧
    Windowed .read bufLen 0 final.calls

namespace IsTransferLoop

variable {policy : Policy} {direction : Direction} {sock : NcSocket}
variable {bufLen : Int} {loop : AnswerLoop Locals Answer RetCode}
variable {counted : Bool} {answers : List Answer} {final : Locals} {ret : RetCode}

/-- `numActualBytes` is null at the end if it was null at the beginning. -/
theorem isSome_numActualBytes (transfer : IsTransferLoop policy direction sock bufLen loop)
    (returns : loop.run (.start bufLen counted) answers = some (final, ret)) :
    final.numActualBytes.isSome = counted := by
  refine AnswerLoop.run_invariant (fun locals => locals.numActualBytes.isSome = counted)
    (fun locals _ => locals.numActualBytes.isSome = counted) ?_ ?_ (fun _ _ holds => holds)
    returns (by cases counted <;> rfl)
  · intro locals answer next _ holds again
    exact (transfer.again locals next answer again).isSome_numActualBytes.trans holds
  · intro locals answer last left _ holds leave
    obtain ⟨-, -, wait, -, rfl⟩ := transfer.leave locals last answer left leave
    exact holds

/-- The run lemma. The answers of the run must not make it step backwards. -/
theorem tracks (transfer : IsTransferLoop policy direction sock bufLen loop)
    (forward : ∀ pass ∈ loop.passes (.start bufLen counted) answers, policy.Forward pass.2)
    (nonneg : 0 ≤ bufLen)
    (returns : loop.run (.start bufLen counted) answers = some (final, ret))
    (honest : Honest final.calls) : Tracks direction bufLen final := by
  have rule := AnswerLoop.run_history
    (fun locals history => (∀ pass ∈ history, policy.Forward pass.2) →
      Honest locals.calls → Tracks direction bufLen locals)
    (fun locals _ history => (∀ pass ∈ history, policy.Forward pass.2) →
      Honest locals.calls → Tracks direction bufLen locals)
    ?again ?leave ?finish returns ?start
  case again =>
    intro locals answer next history _ goes holds again forward honestNext
    rw [transfer.guard] at goes
    have turn := transfer.again locals next answer again
    obtain ⟨wait, more, grown, -⟩ := turn.calls_grow
    rw [grown, honest_append] at honestNext
    have before := holds (fun pass member => forward pass (List.mem_append_left _ member))
      honestNext.1
    exact turn.tracks (forward (locals, answer) (by simp)) goes before
      (by rw [grown, honest_append]; exact honestNext)
  case leave =>
    intro locals answer last left history _ goes holds leave forward honestLast
    obtain ⟨-, -, wait, isWait, rfl⟩ := transfer.leave locals last answer left leave
    rw [Locals.issue, honest_append] at honestLast
    have before := holds (fun pass member => forward pass (List.mem_append_left _ member))
      honestLast.1
    exact before.issue (Call.isTransfer_of_isWait isWait)
  case finish => exact fun locals history _ holds => holds
  case start => exact fun _ _ => Tracks.start direction nonneg counted
  exact rule forward honest

/-- A counted call ends with the count of the bytes that its log moved. -/
theorem counts (transfer : IsTransferLoop policy direction sock bufLen loop)
    (forward : ∀ pass ∈ loop.passes (.start bufLen true) answers, policy.Forward pass.2)
    (nonneg : 0 ≤ bufLen)
    (returns : loop.run (.start bufLen true) answers = some (final, ret))
    (honest : Honest final.calls) :
    final.numActualBytes = some (moved final.calls : Int) ∧
      (moved final.calls : Int) ≤ bufLen ∧
      Windowed direction bufLen 0 final.calls := by
  have tracked := transfer.tracks forward nonneg returns honest
  obtain ⟨count, known⟩ :=
    Option.isSome_iff_exists.mp (transfer.isSome_numActualBytes returns)
  exact ⟨by rw [known, tracked.count count known], tracked.within, tracked.windowed⟩

theorem wroteExactly (transfer : IsTransferLoop policy .write sock bufLen loop)
    (forward : ∀ pass ∈ loop.passes (.start bufLen true) answers, policy.Forward pass.2)
    (nonneg : 0 ≤ bufLen)
    (returns : loop.run (.start bufLen true) answers = some (final, ret))
    (honest : Honest final.calls) (mem : Int → UInt8) :
    WroteExactly mem bufLen final := by
  obtain ⟨count, within, windowed⟩ := transfer.counts forward nonneg returns honest
  exact ⟨_, count, within, accepted_of_windowed mem windowed, windowed⟩

theorem readExactly (transfer : IsTransferLoop policy .read sock bufLen loop)
    (forward : ∀ pass ∈ loop.passes (.start bufLen true) answers, policy.Forward pass.2)
    (nonneg : 0 ≤ bufLen)
    (returns : loop.run (.start bufLen true) answers = some (final, ret))
    (honest : Honest final.calls) (mem : Int → UInt8) :
    ReadExactly mem bufLen final := by
  obtain ⟨count, within, windowed⟩ := transfer.counts forward nonneg returns honest
  obtain ⟨window, outside⟩ := stored_of_windowed mem windowed honest
  refine ⟨_, count, within, window, fun address away => outside address ?_, windowed⟩
  simpa using away

end IsTransferLoop

/-- Transfer integrity of the poll `writeData`, the poll `readData` and the select
`readData`: on every return, the failing ones included, the count is the length of
the prefix of the buffer that was moved. -/
theorem transfer_integrity (sock : NcSocket) (mem : Int → UInt8) (bufLen : Int)
    (nonneg : 0 ≤ bufLen) (answers : List Answer) (final : Locals) (ret : RetCode)
    (honest : Honest final.calls) :
    (Poll.writeData sock bufLen true answers = some (final, ret) →
      WroteExactly mem bufLen final) ∧
    (Poll.readData sock bufLen true answers = some (final, ret) →
      ReadExactly mem bufLen final) ∧
    (Select.readData sock bufLen true answers = some (final, ret) →
      ReadExactly mem bufLen final) := by
  refine ⟨fun returns => ?_, fun returns => ?_, fun returns => ?_⟩
  · exact (Poll.isTransferLoop .write sock bufLen).wroteExactly (fun _ _ => Poll.forward _ _)
      nonneg returns honest mem
  · exact (Poll.isTransferLoop .read sock bufLen).readExactly (fun _ _ => Poll.forward _ _)
      nonneg returns honest mem
  · exact (Select.isTransferLoop .read sock bufLen).readExactly
      (fun _ _ => Select.forward_read _) nonneg returns honest mem

/-- Three bytes go out in two parts, with a would-block answer in between. -/
def twoParts : List Answer :=
  [⟨⟨1, pollOut, false⟩, ⟨2, .other 0, []⟩⟩, ⟨⟨1, pollOut, false⟩, ⟨-1, .eagain, []⟩⟩,
    ⟨⟨1, pollOut, false⟩, ⟨1, .eagain, []⟩⟩]

theorem transfer_integrity_twoParts :
    ∃ final, Poll.writeData (.ofSockfd 5) 3 true twoParts = some (final, .ok) ∧
      WroteExactly (fun address => address.toNat.toUInt8) 3 final :=
  ⟨_, rfl, (transfer_integrity (.ofSockfd 5) _ 3 (by decide) twoParts _ .ok (by decide)).1 rfl⟩

end NetClass.Socket
