import NetClass.Socket.Integrity

/-!
Contract: what a transfer call does, told from its answers alone.

Owns: the bytes that a list of answers moves, the counter that `checkTimeout` has
after a number of charges, and the proof that a call keeps to both as long as its
answers let it go on. From it follows which answer of a given kind a call comes to:
`Meets` is a condition on the answers, the length and the limits only.

Does **not** own: what the kernel promises. Nothing here needs it.
-/

set_option autoImplicit false

namespace NetClass.Socket

/-- The number of bytes that a pass with this answer moves. -/
def Answer.moves (answer : Answer) : Nat :=
  if answer.wait.ret = 0 then 0 else answer.transfer.ret.toNat

def movedBy (answers : List Answer) : Nat := (answers.map Answer.moves).sum

@[simp] theorem movedBy_nil : movedBy [] = 0 := rfl

@[simp] theorem movedBy_append (left right : List Answer) :
    movedBy (left ++ right) = movedBy left + movedBy right := by
  simp [movedBy]

/-- The counter after `count` charges of one poll interval. -/
def accounted (sock : NcSocket) (count : Nat) : UInt32 := UInt32.ofNat count * sock.polltime

/-- None of the first `count` charges reaches the limit. -/
def InTime (sock : NcSocket) (count : Nat) : Prop :=
  ∀ charge, 0 < charge → charge ≤ count → accounted sock charge < sock.timeout

theorem accounted_succ (sock : NcSocket) (count : Nat) :
    accounted sock (count + 1) = accounted sock count + sock.polltime := by
  rw [accounted, accounted, UInt32.ofNat_add, UInt32.add_mul, UInt32.ofNat_one, UInt32.one_mul]

theorem InTime.zero (sock : NcSocket) : InTime sock 0 :=
  fun _ positive none => absurd positive (Nat.not_lt.mpr none)

theorem InTime.mono {sock : NcSocket} {less more : Nat} (inTime : InTime sock more)
    (le : less ≤ more) : InTime sock less :=
  fun charge positive within => inTime charge positive (within.trans le)

theorem inTime_succ_iff (sock : NcSocket) (count : Nat) :
    InTime sock (count + 1) ↔
      InTime sock count ∧ accounted sock (count + 1) < sock.timeout := by
  constructor
  · intro inTime
    exact ⟨inTime.mono (Nat.le_succ count), inTime _ (Nat.succ_pos count) le_rfl⟩
  · rintro ⟨before, last⟩ charge positive within
    rcases Nat.le_succ_iff.mp within with earlier | rfl
    · exact before charge positive earlier
    · exact last

/-- What `checkTimeout` has written after `count` passes. -/
structure Charged (sock : NcSocket) (bufLen : Int) (count : Nat) (locals : Locals) : Prop where
  counter : locals.timeout = accounted sock count
  before : InTime sock (count - 1)
  flag : locals.timedout = false ↔ InTime sock count
  early : locals.timedout = false → locals.ret = .ok
  late : locals.timedout = true → locals.ret =
    (if locals.haveAllData bufLen = -1 then .timedOut
     else if locals.haveAllData bufLen = 0 then .moreData else .ok)

namespace Charged

variable {sock : NcSocket} {bufLen : Int} {count : Nat} {locals : Locals}

theorem start (sock : NcSocket) (bufLen : Int) (counted : Bool) :
    Charged sock bufLen 0 (.start bufLen counted) where
  counter := by simp [Locals.start, accounted]
  before := .zero sock
  flag := iff_of_true rfl (.zero sock)
  early := fun _ => rfl
  late := by simp [Locals.start]

/-- One more charge, made by a pass that began before the limit. -/
theorem account (charged : Charged sock bufLen count locals) (early : locals.timedout = false)
    {middle : Locals} (counter : middle.timeout = locals.timeout)
    (flag : middle.timedout = locals.timedout) :
    Charged sock bufLen (count + 1) (middle.account sock bufLen) := by
  have total : middle.timeout + sock.polltime = accounted sock (count + 1) := by
    rw [counter, charged.counter, accounted_succ]
  have inTime := charged.flag.mp early
  have next := inTime_succ_iff sock count
  by_cases expired : sock.timeout ≤ middle.timeout + sock.polltime
  · obtain ⟨set, code⟩ := Locals.account_expired bufLen expired
    have notInTime : ¬ InTime sock (count + 1) := by
      rw [next, ← total]
      exact fun both => UInt32.not_lt.mpr expired both.2
    exact {
      counter := by rw [Locals.account_timeout, total]
      before := inTime
      flag := by simp [set, notInTime]
      early := by simp [set]
      late := fun _ => code }
  · obtain ⟨code, kept⟩ := Locals.account_early bufLen expired
    have unset : (middle.account sock bufLen).timedout = false := by rw [kept, flag, early]
    have inTimeNext : InTime sock (count + 1) := by
      rw [next, ← total]
      exact ⟨inTime, UInt32.not_le.mp expired⟩
    exact {
      counter := by rw [Locals.account_timeout, total]
      before := inTime
      flag := iff_of_true unset inTimeNext
      early := fun _ => code
      late := by simp [unset] }

/-- Giving up after `checkTimeout` changes none of what it wrote. -/
theorem giveUp (charged : Charged sock bufLen count locals) :
    Charged sock bufLen count locals.giveUp :=
  { charged with }

end Charged

/-- Where a call stands after the passes of `history`, as long as every answer let
the loop go on. -/
structure OnAccount (policy : Policy) (sock : NcSocket) (bufLen : Int) (locals : Locals)
    (history : List (Locals × Answer)) : Prop where
  continues : ∀ pass ∈ history, policy.continues pass.2
  charged : Charged sock bufLen history.length locals
  aligned : locals.timedout = false → Aligned bufLen locals
  total : moved locals.calls = movedBy (history.map Prod.snd)

/-- A call that has been stopped by an answer that does not let it go on. -/
structure Stopped (policy : Policy) (sock : NcSocket) (ret : RetCode)
    (history : List (Locals × Answer)) : Prop where
  failure : ret = .failed ∨ ret = .clientDisconnect
  before : InTime sock (history.length - 1)
  broken : ∃ pass ∈ history, ¬ policy.continues pass.2

section Passes

variable {policy : Policy} {direction : Direction} {sock : NcSocket} {bufLen : Int}
variable {locals next : Locals} {answer : Answer} {history : List (Locals × Answer)}

theorem OnAccount.start (policy : Policy) (sock : NcSocket) (bufLen : Int) (counted : Bool) :
    OnAccount policy sock bufLen (.start bufLen counted) [] where
  continues := by simp
  charged := .start sock bufLen counted
  aligned := fun _ => .start bufLen counted
  total := rfl

/-- A pass that charges the interval extends the account. -/
theorem OnAccount.extend (holds : OnAccount policy sock bufLen locals history)
    (continues : policy.continues answer)
    (charged : Charged sock bufLen (history.length + 1) next)
    (aligned : next.timedout = false → Aligned bufLen next)
    (moves : moved next.calls = moved locals.calls + answer.moves) :
    OnAccount policy sock bufLen next (history ++ [(locals, answer)]) where
  continues := by
    intro pass member
    rcases List.mem_append.mp member with before | last
    · exact holds.continues pass before
    · rw [List.mem_singleton.mp last]
      exact continues
  charged := by
    rw [List.length_append]
    exact charged
  aligned := aligned
  total := by
    rw [moves, holds.total, List.map_append, movedBy_append]
    simp [movedBy]

/-- A call that goes on lacks data. -/
theorem OnAccount.short (holds : OnAccount policy sock bufLen locals history)
    (goes : locals.running = true) : (movedBy (history.map Prod.snd) : Int) < bufLen := by
  obtain ⟨remaining, early⟩ := (Locals.running_iff locals).mp goes
  have rest := (holds.aligned early).2
  rw [← holds.total]
  omega

/-- A call that the limit has not ended has all its data at its end. -/
theorem OnAccount.complete (holds : OnAccount policy sock bufLen locals history)
    (stopped : locals.running = false) (early : locals.timedout = false) :
    bufLen ≤ (movedBy (history.map Prod.snd) : Int) := by
  have rest := (holds.aligned early).2
  have drained : ¬ 0 < locals.nRemaining := by
    intro remaining
    rw [(Locals.running_iff locals).mpr ⟨remaining, early⟩] at stopped
    exact Bool.noConfusion stopped
  rw [← holds.total]
  omega

/-- The answers of a stopped call do not all let the loop go on. -/
theorem Stopped.not_continues {ret : RetCode} {answers : List Answer}
    (stopped : Stopped policy sock ret history)
    (within : history.map Prod.snd <+: answers) :
    ¬ ∀ answer ∈ answers, policy.continues answer := by
  intro continues
  obtain ⟨pass, member, broken⟩ := stopped.broken
  exact broken (continues pass.2 (within.subset (List.mem_map_of_mem member)))

/-- A pass whose answer does not let the loop go on stops the call. -/
theorem OnAccount.stopped (holds : OnAccount policy sock bufLen locals history)
    (goes : locals.running = true) (broken : ¬ policy.continues answer) (code : RetCode)
    (failure : code = .failed ∨ code = .clientDisconnect) :
    Stopped policy sock code (history ++ [(locals, answer)]) where
  failure := failure
  before := by
    rw [List.length_append, List.length_singleton, Nat.add_sub_cancel]
    exact holds.charged.flag.mp ((Locals.running_iff locals).mp goes).2
  broken := ⟨(locals, answer), by simp, broken⟩

/-- The step lemma: a pass either extends the account or stops the call. -/
theorem Turn.onAccount (turn : Turn policy direction sock bufLen locals answer next)
    (forward : policy.Forward answer) (settles : ¬ policy.spins answer)
    (goes : locals.running = true)
    (holds : OnAccount policy sock bufLen locals history) :
    OnAccount policy sock bufLen next (history ++ [(locals, answer)]) ∨
      (next.running = false ∧
        Stopped policy sock next.ret (history ++ [(locals, answer)])) := by
  have early := ((Locals.running_iff locals).mp goes).2
  have waited : ∀ wait : Call, wait.isWait = true → Aligned bufLen (locals.issue wait) :=
    fun wait isWait => (holds.aligned early).issue (Call.isTransfer_of_isWait isWait)
  have silent : ∀ wait : Call, wait.isWait = true →
      moved (locals.issue wait).calls = moved locals.calls := by
    intro wait isWait
    simp [Locals.issue, Call.moved_of_not_isTransfer (Call.isTransfer_of_isWait isWait)]
  have awake : ∀ wait : Call, wait.isWait = true → answer.wait.ret ≠ 0 →
      moved ((locals.issue wait).attempt sock direction answer.transfer).calls =
        moved locals.calls + answer.moves := by
    intro wait isWait woken
    rw [Locals.moved_attempt, silent wait isWait, Answer.moves, if_neg woken]
  cases turn with
  | spun wait isWait odd => exact absurd odd settles
  | idled wait isWait idle continues =>
      refine Or.inl (holds.extend continues (holds.charged.account early rfl rfl)
        (fun _ => waited wait isWait) ?_)
      rw [Locals.account_calls, silent wait isWait, Answer.moves, if_pos idle, Nat.add_zero]
  | stepped wait isWait woken continues step =>
      exact Or.inl (holds.extend continues (holds.charged.account early rfl rfl)
        (fun _ => (waited wait isWait).attempt_advance (forward woken continues step))
        (awake wait isWait woken))
  | blocked wait isWait woken continues failed stays retry =>
      exact Or.inl (holds.extend continues (holds.charged.account early rfl rfl)
        (fun _ => (waited wait isWait).attempt_lost (Int.le_of_lt failed))
        (awake wait isWait woken))
  | gaveUp wait isWait woken continues failed stays ended =>
      have charged : Charged sock bufLen (history.length + 1)
          (((locals.issue wait).attempt sock direction answer.transfer).account sock bufLen) :=
        holds.charged.account early rfl rfl
      refine Or.inl (holds.extend continues charged.giveUp ?_ (awake wait isWait woken))
      -- The call gives up only when `checkTimeout` has set `timedout`.
      intro unset
      exact absurd (charged.early unset) ended
  | disconnected wait isWait lost broken code failure =>
      exact Or.inr ⟨Locals.disconnect_running _ _ _ _, holds.stopped goes broken code failure⟩

end Passes

/-! ### Whole calls -/

/-- The call comes to an answer that satisfies `bad`: every answer before it lets the
loop go on, and together they neither complete the data nor reach the limit. -/
def Meets (policy : Policy) (bad : Answer → Prop) (sock : NcSocket) (bufLen : Int)
    (answers : List Answer) : Prop :=
  ∃ before answer after, answers = before ++ answer :: after ∧ bad answer ∧
    (∀ earlier ∈ before, policy.continues earlier ∧ ¬ bad earlier) ∧
    (movedBy before : Int) < bufLen ∧ InTime sock before.length

theorem Meets.exists_bad {policy : Policy} {bad : Answer → Prop} {sock : NcSocket}
    {bufLen : Int} {answers : List Answer} (meets : Meets policy bad sock bufLen answers) :
    ∃ answer ∈ answers, bad answer := by
  obtain ⟨before, answer, after, rfl, isBad, -⟩ := meets
  exact ⟨answer, by simp, isBad⟩

namespace IsTransferLoop

variable {policy : Policy} {direction : Direction} {sock : NcSocket} {bufLen : Int}
variable {loop : AnswerLoop Locals Answer RetCode} {counted : Bool} {answers : List Answer}
variable {final : Locals} {ret : RetCode} {bad : Answer → Prop}

/-- The invariant that the run lemmas share: before the first bad answer the call is on
account, or it has been stopped. -/
theorem account_again (transfer : IsTransferLoop policy direction sock bufLen loop)
    (forward : ∀ answer, ¬ bad answer → policy.Forward answer)
    (settles : ∀ answer ∈ answers, ¬ policy.spins answer)
    (locals : Locals) (answer : Answer) (next : Locals) (history : List (Locals × Answer))
    (member : answer ∈ answers) (goes : loop.guard locals = true)
    (holds : (∀ pass ∈ history, ¬ bad pass.2) → OnAccount policy sock bufLen locals history ∨
      (locals.running = false ∧ Stopped policy sock locals.ret history))
    (again : loop.body locals answer = .again next)
    (good : ∀ pass ∈ history ++ [(locals, answer)], ¬ bad pass.2) :
    OnAccount policy sock bufLen next (history ++ [(locals, answer)]) ∨
      (next.running = false ∧
        Stopped policy sock next.ret (history ++ [(locals, answer)])) := by
  rw [transfer.guard] at goes
  have turn := transfer.again locals next answer again
  rcases holds (fun pass inHistory => good pass (List.mem_append_left _ inHistory)) with
    account | ⟨halted, -⟩
  · exact turn.onAccount (forward answer (good (locals, answer) (by simp)))
      (settles answer member) goes account
  · rw [halted] at goes
    exact Bool.noConfusion goes

/-- A call that has returned without a bad answer. -/
theorem account (transfer : IsTransferLoop policy direction sock bufLen loop)
    (forward : ∀ answer, ¬ bad answer → policy.Forward answer)
    (settles : ∀ answer ∈ answers, ¬ policy.spins answer)
    (good : ∀ pass ∈ loop.passes (.start bufLen counted) answers, ¬ bad pass.2)
    (returns : loop.run (.start bufLen counted) answers = some (final, ret)) :
    (OnAccount policy sock bufLen final (loop.passes (.start bufLen counted) answers) ∧
        final.running = false ∧ ret = final.ret) ∨
      Stopped policy sock ret (loop.passes (.start bufLen counted) answers) := by
  have rule := AnswerLoop.run_history
    (fun locals history => (∀ pass ∈ history, ¬ bad pass.2) →
      OnAccount policy sock bufLen locals history ∨
        (locals.running = false ∧ Stopped policy sock locals.ret history))
    (fun locals ret history => (∀ pass ∈ history, ¬ bad pass.2) →
      (OnAccount policy sock bufLen locals history ∧ locals.running = false ∧
        ret = locals.ret) ∨ Stopped policy sock ret history)
    (transfer.account_again forward settles) ?leave ?finish returns
    (fun _ => Or.inl (.start policy sock bufLen counted))
  case leave =>
    intro locals answer last left history member goes holds leave good
    rw [transfer.guard] at goes
    obtain ⟨rfl, broken, wait, -, rfl⟩ := transfer.leave locals last answer left leave
    rcases holds (fun pass inHistory => good pass (List.mem_append_left _ inHistory)) with
      account | ⟨halted, -⟩
    · exact Or.inr (account.stopped goes broken _ (Or.inl rfl))
    · rw [halted] at goes
      exact Bool.noConfusion goes
  case finish =>
    intro locals history stopped holds good
    rw [transfer.guard] at stopped
    rw [transfer.finish]
    rcases holds good with account | ⟨-, halted⟩
    · exact Or.inl ⟨account, stopped, rfl⟩
    · exact Or.inr halted
  exact rule good

/-- A pass of a call, no bad answer having come before. -/
theorem account_pass (transfer : IsTransferLoop policy direction sock bufLen loop)
    (forward : ∀ answer, ¬ bad answer → policy.Forward answer)
    (settles : ∀ answer ∈ answers, ¬ policy.spins answer)
    {before after : List (Locals × Answer)} {pass : Locals × Answer}
    (split : loop.passes (.start bufLen counted) answers = before ++ pass :: after)
    (good : ∀ pass ∈ before, ¬ bad pass.2) :
    OnAccount policy sock bufLen pass.1 before ∧ (movedBy (before.map Prod.snd) : Int) < bufLen ∧
      InTime sock before.length := by
  obtain ⟨goes, holds, -⟩ := AnswerLoop.passes_history
    (fun locals history => (∀ pass ∈ history, ¬ bad pass.2) →
      OnAccount policy sock bufLen locals history ∨
        (locals.running = false ∧ Stopped policy sock locals.ret history))
    (transfer.account_again forward settles)
    (fun _ => Or.inl (.start policy sock bufLen counted)) split
  rw [transfer.guard] at goes
  rcases holds good with account | ⟨halted, -⟩
  · have early := ((Locals.running_iff _).mp goes).2
    exact ⟨account, account.short goes, account.charged.flag.mp early⟩
  · rw [halted] at goes
    exact Bool.noConfusion goes

/-- The same for a loop that moves its pointer forward on every answer. -/
theorem account_of_forward (transfer : IsTransferLoop policy direction sock bufLen loop)
    (forward : ∀ answer, policy.Forward answer)
    (settles : ∀ answer ∈ answers, ¬ policy.spins answer)
    (returns : loop.run (.start bufLen counted) answers = some (final, ret)) :
    (OnAccount policy sock bufLen final (loop.passes (.start bufLen counted) answers) ∧
        final.running = false ∧ ret = final.ret) ∨
      Stopped policy sock ret (loop.passes (.start bufLen counted) answers) := by
  have never : ∀ answer : Answer, ¬ False → policy.Forward answer :=
    fun answer _ => forward answer
  exact transfer.account never settles (fun _ _ => id) returns

theorem account_pass_of_forward (transfer : IsTransferLoop policy direction sock bufLen loop)
    (forward : ∀ answer, policy.Forward answer)
    (settles : ∀ answer ∈ answers, ¬ policy.spins answer)
    {before after : List (Locals × Answer)} {pass : Locals × Answer}
    (split : loop.passes (.start bufLen counted) answers = before ++ pass :: after) :
    OnAccount policy sock bufLen pass.1 before ∧ (movedBy (before.map Prod.snd) : Int) < bufLen ∧
      InTime sock before.length := by
  have never : ∀ answer : Answer, ¬ False → policy.Forward answer :=
    fun answer _ => forward answer
  exact transfer.account_pass never settles split fun _ _ => id

/-- A call comes to an answer if those before it let the loop go on and neither complete
the data nor reach the limit. -/
theorem comes_to (transfer : IsTransferLoop policy direction sock bufLen loop)
    (forward : ∀ answer, ¬ bad answer → policy.Forward answer)
    (settles : ∀ answer ∈ answers, ¬ policy.spins answer) {before after : List Answer}
    {answer : Answer} (split : answers = before ++ answer :: after)
    (earlier : ∀ earlier ∈ before, policy.continues earlier ∧ ¬ bad earlier)
    (short : (movedBy before : Int) < bufLen) (inTime : InTime sock before.length) :
    before.length < (loop.passes (.start bufLen counted) answers).length := by
  by_contra ended
  have fewer := Nat.not_lt.mp ended
  obtain ⟨unused, taken⟩ : ∃ unused,
      answers = (loop.passes (.start bufLen counted) answers).map Prod.snd ++ unused :=
    AnswerLoop.passes_answers _ _
  -- The call has ended before it came to `answer`.
  have within : (loop.passes (.start bufLen counted) answers).map Prod.snd <+: before :=
    List.prefix_of_prefix_length_le ⟨unused, taken.symm⟩ ⟨answer :: after, split.symm⟩
      (by rwa [List.length_map])
  obtain ⟨rest, untaken⟩ := within
  have good : ∀ pass ∈ loop.passes (.start bufLen counted) answers, ¬ bad pass.2 := by
    intro pass member
    refine (earlier pass.2 ?_).2
    rw [← untaken]
    exact List.mem_append_left _ (List.mem_map_of_mem member)
  obtain ⟨⟨final, ret⟩, returns⟩ : ∃ outcome,
      loop.run (.start bufLen counted) answers = some outcome := by
    apply AnswerLoop.returns_of_unused
    rw [split, List.length_append, List.length_cons, ← split]
    omega
  rcases transfer.account forward settles good returns with ⟨account, stopped, -⟩ | stopped
  · have early := account.charged.flag.mpr (inTime.mono fewer)
    have complete := account.complete stopped early
    rw [← untaken, movedBy_append] at short
    push_cast at short
    omega
  · apply stopped.not_continues ⟨rest, untaken⟩
    exact fun answer member => (earlier answer member).1

theorem comes_to_of_forward (transfer : IsTransferLoop policy direction sock bufLen loop)
    (forward : ∀ answer, policy.Forward answer)
    (settles : ∀ answer ∈ answers, ¬ policy.spins answer) {before after : List Answer}
    {answer : Answer} (split : answers = before ++ answer :: after)
    (continues : ∀ earlier ∈ before, policy.continues earlier)
    (short : (movedBy before : Int) < bufLen) (inTime : InTime sock before.length) :
    before.length < (loop.passes (.start bufLen counted) answers).length := by
  have never : ∀ answer : Answer, ¬ False → policy.Forward answer :=
    fun answer _ => forward answer
  exact transfer.comes_to never settles split
    (fun earlier member => ⟨continues earlier member, id⟩) short inTime

/-- Whether a call comes to a bad answer can be told from the answers. -/
theorem meets_iff (transfer : IsTransferLoop policy direction sock bufLen loop)
    (forward : ∀ answer, ¬ bad answer → policy.Forward answer)
    (settles : ∀ answer ∈ answers, ¬ policy.spins answer) :
    (∃ pass ∈ loop.passes (.start bufLen counted) answers, bad pass.2) ↔
      Meets policy bad sock bufLen answers := by
  obtain ⟨unused, taken⟩ : ∃ unused,
      answers = (loop.passes (.start bufLen counted) answers).map Prod.snd ++ unused :=
    AnswerLoop.passes_answers _ _
  constructor
  · rintro ⟨pass, member, isBad⟩
    obtain ⟨before, first, after, split, firstBad, good⟩ :=
      AnswerLoop.first_split bad member isBad
    obtain ⟨account, short, inTime⟩ := transfer.account_pass forward settles split good
    refine ⟨before.map Prod.snd, first.2, after.map Prod.snd ++ unused, ?_, firstBad, ?_, short,
      by rwa [List.length_map]⟩
    · rw [split] at taken
      simpa using taken
    · intro earlier inBefore
      obtain ⟨pass, member, rfl⟩ := List.mem_map.mp inBefore
      exact ⟨account.continues pass member, good pass member⟩
  · rintro ⟨before, answer, after, split, isBad, earlier, short, inTime⟩
    have below : before.length < (loop.passes (.start bufLen counted) answers).length :=
      transfer.comes_to forward settles split earlier short inTime
    refine ⟨_, List.getElem_mem below, ?_⟩
    rw [AnswerLoop.passes_getElem split below]
    exact isBad

end IsTransferLoop

end NetClass.Socket
