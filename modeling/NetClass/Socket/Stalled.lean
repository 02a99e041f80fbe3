import NetClass.Socket.Idle
import NetClass.Socket.Timing

/-!
Contract: a transfer on which nothing moves any more.

Owns: the answers on which a loop goes on without moving a byte, and the proof that a call
that gets nothing else makes all the passes that its period has, and then reports a
time-out.

A `recv` that returns 0 is such an answer for the poll `readData`. `poll` does not wait
at the end of a file, so the passes of that call follow each other without a pause.
-/

set_option autoImplicit false

namespace NetClass.Socket

/-- The loop goes on, and neither the pointer nor the data have moved. -/
structure Policy.Barren (policy : Policy) (answer : Answer) : Prop where
  continues : policy.continues answer
  forward : policy.Forward answer
  plain : answer.wait.Plain
  nothing : answer.moves = 0

/-- The end of a file is barren for the poll `readData`. -/
theorem Poll.barren_of_endOfFile {answer : Answer} (ready : Ready .read answer.wait)
    (empty : answer.transfer.ret = 0) : (policy .read).Barren answer where
  continues := Or.inr ⟨ready, Or.inl (by omega)⟩
  forward := forward .read answer
  plain := Or.inr (Or.inr ready.1)
  nothing := by
    rw [Answer.moves, empty]
    split_ifs <;> rfl

/-- Before the last pass of the period the counter is below the limit. -/
theorem inTime_of_lt {sock : NcSocket} {count : Nat} (polls : 0 < sock.polltime)
    (before : count < maxWaits sock) : InTime sock count := by
  rcases (lt_maxWaits_iff polls count).mp before with rfl | early
  · exact InTime.zero sock
  · intro charge _ within
    have below : charge * sock.polltime.toNat ≤ count * sock.polltime.toNat :=
      Nat.mul_le_mul_right _ within
    have small := sock.timeout.toNat_lt
    rw [UInt32.lt_iff_toNat_lt, accounted_toNat, Nat.mod_eq_of_lt (by omega)]
    omega

section Stalled

variable {build : Build} {direction : Direction} {sock : NcSocket} {bufLen : Int}
variable {counted : Bool} {before after : List Answer} {final : Locals} {ret : RetCode}

/-- The passes of a stalled call: those for the answers before, and others on which nothing
moves. -/
theorem passes_of_stalled (asks : build.call direction sock bufLen counted before = none)
    (barren : ∀ answer ∈ after, (build.policy direction).Barren answer)
    (more : after ≠ []) :
    ∃ early pass late, (build.loop direction sock bufLen).passes (.start bufLen counted)
        (before ++ after) = early ++ pass :: late ∧ early.map Prod.snd = before ∧
      ∀ other ∈ pass :: late, (build.policy direction).Barren other.2 := by
  obtain ⟨unused, taken⟩ := (build.loop direction sock bufLen).passes_answers
    (.start bufLen counted) (before ++ after)
  have long : before.length < ((build.loop direction sock bufLen).passes
      (.start bufLen counted) (before ++ after)).length := by
    obtain ⟨next, later, rfl⟩ := List.exists_cons_of_ne_nil more
    exact AnswerLoop.passes_of_asks asks next later
  generalize (build.loop direction sock bufLen).passes (.start bufLen counted)
    (before ++ after) = passes at taken long
  have early : (passes.take before.length).map Prod.snd = before := by
    rw [List.map_take]
    have first := congrArg (List.take before.length) taken
    rw [List.take_left, List.take_append_of_le_length (by simpa using Nat.le_of_lt long)] at first
    exact first.symm
  have late : after = (passes.drop before.length).map Prod.snd ++ unused := by
    have rest := congrArg (List.drop before.length) taken
    rw [List.drop_left, List.drop_append_of_le_length (by simpa using Nat.le_of_lt long)] at rest
    rw [rest, List.map_drop]
  have split : passes = passes.take before.length ++ passes.drop before.length :=
    (List.take_append_drop ..).symm
  cases here : passes.drop before.length with
  | nil =>
      rw [List.drop_eq_nil_iff] at here
      omega
  | cons pass rest =>
      rw [here] at split late
      refine ⟨passes.take before.length, pass, rest, split, early, fun other member => ?_⟩
      apply barren
      rw [late]
      exact List.mem_append_left _ (List.mem_map_of_mem member)

theorem movedBy_of_barren {answers : List Answer}
    (barren : ∀ answer ∈ answers, answer.moves = 0) : movedBy answers = 0 := by
  unfold movedBy
  induction answers with
  | nil => rfl
  | cons answer answers inductionHypothesis =>
      rw [List.map_cons, List.sum_cons, barren answer List.mem_cons_self, Nat.zero_add]
      exact inductionHypothesis fun other member => barren other (List.mem_cons_of_mem _ member)

/-- A stalled call is on account to its end, and its end is the limit. -/
theorem onAccount_of_stalled (asks : build.call direction sock bufLen counted before = none)
    (forward : ∀ answer ∈ before, (build.policy direction).Forward answer)
    (plain : ∀ answer ∈ before, answer.wait.Plain)
    (barren : ∀ answer ∈ after, (build.policy direction).Barren answer) (more : after ≠ [])
    (returns : build.call direction sock bufLen counted (before ++ after) = some (final, ret)) :
    ∃ history, history = (build.loop direction sock bufLen).passes (.start bufLen counted)
        (before ++ after) ∧
      OnAccount (build.policy direction) sock bufLen final history ∧
      movedBy (history.map Prod.snd) = movedBy before ∧ (movedBy before : Int) < bufLen ∧
      final.timedout = true ∧ ret = final.ret := by
  have transfer := build.isTransferLoop direction sock bufLen
  obtain ⟨early, pass, late, split, first, later⟩ := passes_of_stalled asks barren more
  have all : ∀ answer ∈ before ++ after, answer.wait.Plain ∧
      (build.policy direction).Forward answer := by
    intro answer member
    rcases List.mem_append.mp member with inBefore | inAfter
    · exact ⟨plain answer inBefore, forward answer inBefore⟩
    · exact ⟨(barren answer inAfter).plain, (barren answer inAfter).forward⟩
  have settles : ∀ answer ∈ before ++ after, ¬ (build.policy direction).spins answer :=
    fun answer member => build.settles direction (all answer member).1
  have total : movedBy ((early ++ pass :: late).map Prod.snd) = movedBy before := by
    have nothing : movedBy ((pass :: late).map Prod.snd) = 0 := by
      refine movedBy_of_barren fun answer member => ?_
      obtain ⟨other, here, rfl⟩ := List.mem_map.mp member
      exact (later other here).nothing
    rw [List.map_append, movedBy_append, first, nothing, Nat.add_zero]
  have good : ∀ other ∈ (build.loop direction sock bufLen).passes (.start bufLen counted)
      (before ++ after), ¬ ¬ (build.policy direction).Forward other.2 :=
    fun other member => not_not.mpr (all other.2 (AnswerLoop.mem_of_mem_passes member)).2
  obtain ⟨onAccount, short, -⟩ := transfer.account_pass (fun _ => not_not.mp) settles split
    fun other member => good other (by rw [split]; exact List.mem_append_left _ member)
  rw [first] at short
  refine ⟨early ++ pass :: late, split.symm, ?_⟩
  have outcome := transfer.account (fun _ => not_not.mp) settles good returns
  rw [split] at outcome
  rcases outcome with ⟨account, stopped, code⟩ | stopped
  · refine ⟨account, total, short, ?_, code⟩
    rw [← Bool.not_eq_false]
    intro inTime
    have complete := account.complete stopped inTime
    rw [total] at complete
    omega
  · obtain ⟨other, member, broken⟩ := stopped.broken
    rcases List.mem_append.mp member with inEarly | inLate
    · exact absurd (onAccount.continues other inEarly) broken
    · exact absurd (later other inLate).continues broken

end Stalled

/-- A call on which nothing moves any more after some answers goes on to the end of its
period, whatever keeps it busy, and then reports a time-out: `NC_MOREDATA` if it has counted
some bytes before, and `NC_TIMEDOUT` if it has not. The interval is not zero and the counter
does not wrap, and no answer before has made the loop step back. -/
theorem stalled_transfer_times_out (build : Build) (direction : Direction) (sock : NcSocket)
    (bufLen : Int) (counted : Bool) (before after : List Answer) (polls : 0 < sock.polltime)
    (limit : sock.timeout.toNat + sock.polltime.toNat ≤ 2 ^ 32)
    (asks : build.call direction sock bufLen counted before = none)
    (plain : ∀ answer ∈ before, answer.wait.Plain)
    (forward : ∀ answer ∈ before, (build.policy direction).Forward answer)
    (barren : ∀ answer ∈ after, (build.policy direction).Barren answer)
    (enough : maxWaits sock ≤ before.length + after.length) :
    ∃ final ret, build.call direction sock bufLen counted (before ++ after) = some (final, ret) ∧
      final.calls.countP Call.isWait = maxWaits sock ∧ moved final.calls = movedBy before ∧
      (Honest final.calls →
        ret = if counted = true ∧ 0 < movedBy before then .moreData else .timedOut) := by
  have transfer := build.isTransferLoop direction sock bufLen
  have allPlain : ∀ answer ∈ before ++ after, answer.wait.Plain := by
    intro answer member
    rcases List.mem_append.mp member with inBefore | inAfter
    · exact plain answer inBefore
    · exact (barren answer inAfter).plain
  obtain ⟨atMost, returns⟩ := build.returns direction bufLen counted polls limit allPlain
  obtain ⟨⟨final, ret⟩, returned⟩ := returns (by rwa [List.length_append])
  have more : after ≠ [] := by
    rintro rfl
    rw [List.append_nil, asks] at returned
    cases returned
  obtain ⟨history, isHistory, account, total, short, late, code⟩ :=
    onAccount_of_stalled asks forward plain barren more returned
  refine ⟨final, ret, returned, ?_, ?_, fun honest => ?_⟩
  · rw [(transfer.waits_eq returned).1, ← isHistory]
    rw [← isHistory] at atMost
    refine Nat.le_antisymm atMost (Nat.le_of_not_lt fun early => ?_)
    rw [account.charged.flag.mpr (inTime_of_lt polls early)] at late
    cases late
  · rw [account.total, total]
  · rw [code, account.charged.late late]
    cases counted with
    | false =>
        have uncounted : final.numActualBytes = none := by
          rw [← Option.not_isSome_iff_eq_none, transfer.isSome_numActualBytes returned]
          decide
        simp [Locals.haveAllData, uncounted]
    | true =>
        have forwards : ∀ pass ∈ (build.loop direction sock bufLen).passes
            (.start bufLen true) (before ++ after), (build.policy direction).Forward pass.2 := by
          intro pass member
          rcases List.mem_append.mp (AnswerLoop.mem_of_mem_passes member) with
            inBefore | inAfter
          · exact forward pass.2 inBefore
          · exact (barren pass.2 inAfter).forward
        have count := (transfer.counts forwards (by omega) returned honest).1
        rw [account.total, total] at count
        by_cases positive : 0 < movedBy before
        · have part : (movedBy before : Int) ≠ bufLen := Int.ne_of_lt short
          simp [Locals.haveAllData, count, positive, part]
        · simp [Locals.haveAllData, count, positive]

/-- A reader that has got two bytes of three when the writer ends the connection. -/
theorem stalled_transfer_times_out_endOfFile :
    ∃ final ret, Poll.readData (.ofSockfd 5) 3 true
        ([⟨⟨1, pollIn, false⟩, ⟨2, .other 0, [1, 2]⟩⟩] ++
          List.replicate 100 ⟨⟨1, pollIn, false⟩, ⟨0, .other 0, []⟩⟩) = some (final, ret) ∧
      final.calls.countP Call.isWait = 100 := by
  have barren : ∀ answer ∈ List.replicate 100 (⟨⟨1, pollIn, false⟩, ⟨0, .other 0, []⟩⟩ : Answer),
      (Build.poll.policy .read).Barren answer := by
    intro answer member
    rw [List.eq_of_mem_replicate member]
    exact Poll.barren_of_endOfFile (by decide) rfl
  obtain ⟨final, ret, returns, waits, -⟩ := stalled_transfer_times_out .poll .read (.ofSockfd 5) 3
    true [⟨⟨1, pollIn, false⟩, ⟨2, .other 0, [1, 2]⟩⟩] _ (by decide) (by decide) rfl (by decide)
    (fun answer _ => Poll.forward .read answer) barren (by decide)
  exact ⟨final, ret, returns, waits⟩

end NetClass.Socket
