import NetClass.Socket.InProgress

/-!
Contract: messages that are sent over a UDP socket, one `writeData` call for each.

Owns: a caller that makes such calls one after the other, the kernel that takes a datagram
as a whole or not at all, and the proof that what the caller knows from the return codes is
what the kernel has taken.

Does **not** own: what becomes of a datagram afterwards; see `NetClass.Listener.Traffic`.
-/

set_option autoImplicit false

namespace NetClass.Socket

/-! ### Locals of a call that sends one datagram -/

/-- Nothing of the message has been sent. -/
structure Locals.Fresh (message : List UInt8) (locals : Locals) : Prop where
  count : locals.numActualBytes = some 0
  whole : locals.running = true → locals.pPtr = 0 ∧ locals.nRemaining = message.length
  failed : locals.running = false → message = [] ∨ locals.ret ≠ .ok

/-- The message has been sent. -/
structure Locals.Sent (message : List UInt8) (locals : Locals) : Prop where
  nonempty : message ≠ []
  count : locals.numActualBytes = some (message.length : Int)
  stopped : locals.running = false
  ok : locals.ret = .ok

/-- The kernel takes all that it is given or nothing. -/
def WholeSend (locals : Locals) (answer : TransferAnswer) : Prop :=
  answer.ret = -1 ∨ answer.ret = locals.nRemaining

instance (locals : Locals) (answer : TransferAnswer) : Decidable (WholeSend locals answer) :=
  inferInstanceAs (Decidable (_ ∨ _))

namespace Locals.Fresh

variable {message : List UInt8} {locals : Locals}

theorem start (message : List UInt8) : (Locals.start message.length true).Fresh message where
  count := rfl
  whole := fun _ => ⟨rfl, rfl⟩
  failed := by
    intro stopped
    left
    simpa [Locals.start, Locals.running] using stopped

/-- A call without progress changes nothing. -/
theorem issue (fresh : locals.Fresh message) (call : Call) :
    (locals.issue call).Fresh message where
  count := fresh.count
  whole := fresh.whole
  failed := fresh.failed

/-- A loop that stops with an error. -/
theorem stop (fresh : locals.Fresh message) {last : Locals}
    (same : last.numActualBytes = locals.numActualBytes) (stopped : last.running = false)
    (code : last.ret ≠ .ok) : last.Fresh message where
  count := same.trans fresh.count
  whole := fun goes => by simp [stopped] at goes
  failed := fun _ => Or.inr code

theorem haveAllData (fresh : locals.Fresh message) (bufLen : Int) :
    locals.haveAllData bufLen = -1 := by
  simp [Locals.haveAllData, fresh.count]

/-- `checkTimeout` finds that nothing is there, and goes on or reports a time-out. -/
theorem account (fresh : locals.Fresh message) (goes : locals.running = true) (sock : NcSocket)
    (bufLen : Int) : (locals.account sock bufLen).Fresh message ∧
      ((locals.account sock bufLen).ret = .ok →
        (locals.account sock bufLen).running = true) := by
  by_cases expired : sock.timeout ≤ locals.timeout + sock.polltime
  · obtain ⟨timedout, ret⟩ := Locals.account_expired bufLen expired
    rw [if_pos (fresh.haveAllData bufLen)] at ret
    have stopped : (locals.account sock bufLen).running = false := by
      rw [Locals.running, timedout]
      simp
    refine ⟨fresh.stop rfl stopped (by simp [ret]), fun ok => ?_⟩
    rw [ret] at ok
    cases ok
  · obtain ⟨ret, timedout⟩ := Locals.account_early bufLen expired
    have running : (locals.account sock bufLen).running = true := by
      rw [Locals.running, timedout]
      exact goes
    refine ⟨⟨fresh.count, fun _ => fresh.whole goes, fun stopped => ?_⟩, fun _ => running⟩
    rw [running] at stopped
    cases stopped

/-- A `sendto` that fails. -/
theorem transfer_failed (fresh : locals.Fresh message) (goes : locals.running = true)
    {build : Build} {sock : NcSocket} {bufLen : Int} {answer : TransferAnswer}
    (failed : answer.ret = -1) (works : ¬ build.Blocks .write answer) :
    (build.transfer .write sock bufLen locals answer).Fresh message := by
  have attempted := fresh.issue
    (.transfer (sock.transferCall .write) sock.sockfd locals.pPtr locals.nRemaining answer)
  have disconnected : ∀ code, code ≠ .ok →
      ((locals.attempt sock .write answer).disconnect sock .write code).Fresh message :=
    fun code error => attempted.stop rfl (Locals.disconnect_running ..) error
  have negative : answer.ret < 0 := by omega
  cases build with
  | poll =>
      simp only [Build.transfer, Poll.transfer, negative, ↓reduceIte]
      obtain ⟨accounted, -⟩ := attempted.account goes sock bufLen
      split_ifs with reset blocking retry
      · exact disconnected _ (by decide)
      · exact accounted
      · exact accounted.stop rfl (Locals.giveUp_running _) retry
      · exact disconnected _ (by decide)
  | select =>
      have stuck : Select.progress .write answer = false := by
        simp only [Select.progress, Bool.or_eq_false_iff, decide_eq_false_iff_not]
        refine ⟨by omega, ?_⟩
        by_contra blocking
        exact works ⟨rfl, rfl, negative, Bool.not_eq_false _ ▸ blocking⟩
      simp only [Build.transfer, Select.transfer, stuck, Bool.false_eq_true, ↓reduceIte]
      split_ifs
      · exact disconnected _ (by decide)
      · exact disconnected _ (by decide)

/-- A `sendto` that succeeds. -/
theorem transfer_sent (fresh : locals.Fresh message) (goes : locals.running = true)
    {build : Build} {sock : NcSocket} {answer : TransferAnswer}
    (took : answer.ret = locals.nRemaining) :
    (build.transfer .write sock message.length locals answer).Sent message := by
  obtain ⟨-, all⟩ := fresh.whole goes
  obtain ⟨positive, -⟩ := (Locals.running_iff locals).mp goes
  have forward : 0 < answer.ret := by omega
  have size : answer.ret = (message.length : Int) := by omega
  have advanced : build.transfer .write sock message.length locals answer =
      ((locals.attempt sock .write answer).advance answer.ret).account sock message.length := by
    cases build with
    | poll => rw [Build.transfer, Poll.transfer, if_neg (by omega)]
    | select =>
        have noError : (ncSocketError answer.ret && ncSocketReset answer.errno) = false := by
          simp only [ncSocketError, Bool.and_eq_false_iff, beq_eq_false_iff_ne]
          omega
        have progress : Select.progress .write answer = true := by
          simp [Select.progress, forward]
        simp only [Build.transfer, Select.transfer, noError, progress, Bool.false_eq_true,
          ↓reduceIte]
  have count : ((locals.attempt sock .write answer).advance answer.ret).numActualBytes =
      some (message.length : Int) := by
    simp [Locals.advance, Locals.attempt, Locals.issue, fresh.count, size]
  have haveAll : ((locals.attempt sock .write answer).advance answer.ret).haveAllData
      message.length = 1 := by
    simp only [Locals.haveAllData, count]
    simp only [if_pos (show (0 : Int) < message.length by omega), ↓reduceIte]
  rw [advanced]
  refine ⟨?_, count, ?_, ?_⟩
  · rintro rfl
    simp only [List.length_nil] at size
    omega
  · simp [Locals.running, Locals.account, Locals.advance, Locals.attempt, Locals.issue, took]
  · by_cases expired : sock.timeout ≤
        ((locals.attempt sock .write answer).advance answer.ret).timeout + sock.polltime
    · rw [(Locals.account_expired _ expired).2, haveAll]
      rfl
    · exact (Locals.account_early _ expired).1

end Locals.Fresh

/-! ### Senders -/

/-- A caller that hands one message to each `writeData` call and asks for the count.
`returned` holds the messages of its earlier calls with their return codes. -/
structure Sender where
  returned : List (List UInt8 × RetCode)
  activity : Option (List UInt8 × Activity)

namespace Sender

def idle : Sender := ⟨[], none⟩

/-- The call goes on. -/
def proceed (sender : Sender) (message : List UInt8) (activity : Activity) : Sender :=
  { sender with activity := some (message, activity) }

/-- The call has returned. -/
def resume (sender : Sender) (message : List UInt8) (ret : RetCode) : Sender :=
  ⟨sender.returned ++ [(message, ret)], none⟩

/-- The steps of a sender that leave the network alone. -/
inductive Step (build : Build) (sender : Sender) : Sender → Prop where
  | begins (sock : NcSocket) (message : List UInt8) (idle : sender.activity = none)
      (udp : sock.socktype ≠ socktypeTcpip) :
      Step build sender (sender.proceed message (.start sock message.length true))
  | goesOn (message : List UInt8) (activity after : Activity)
      (here : sender.activity = some (message, activity))
      (step : activity.Step build .write (.inl after)) :
      Step build sender (sender.proceed message after)
  | returns (message : List UInt8) (activity : Activity) (last : Locals) (ret : RetCode)
      (here : sender.activity = some (message, activity))
      (step : activity.Step build .write (.inr (last, ret))) :
      Step build sender (sender.resume message ret)

/-- The `sendto` of the call in progress and what follows it. -/
def transfer (sender : Sender) (build : Build) (message : List UInt8) (activity : Activity)
    (answer : TransferAnswer) : Sender :=
  sender.proceed message (activity.transfer build .write answer)

/-- The message of a call that has returned `NC_OK`. Nothing is sent for an empty one. -/
def completes : List UInt8 × RetCode → Option (List UInt8)
  | (message, ret) => if ret = .ok ∧ message ≠ [] then some message else none

/-- The message of a call in progress whose count is the length of the message. -/
def counts : List UInt8 × Activity → Option (List UInt8)
  | (message, activity) =>
      if activity.locals.numActualBytes = some (message.length : Int) ∧ message ≠ [] then
        some message
      else none

/-- The messages that the sender knows to be sent: those of the calls that have returned
`NC_OK`, and the one that the call in progress has counted. -/
def posted (sender : Sender) : List (List UInt8) :=
  sender.returned.filterMap completes ++ (sender.activity.bind counts).toList

/-! ### The invariant -/

/-- The call in progress has sent its message, or nothing of it. -/
structure Carries (message : List UInt8) (activity : Activity) : Prop where
  bufLen : activity.bufLen = message.length
  locals : activity.locals.Fresh message ∨ activity.locals.Sent message
  ready : activity.ready = true → activity.locals.running = true

def Sound (sender : Sender) : Prop :=
  ∀ message activity, sender.activity = some (message, activity) → Carries message activity

variable {build : Build} {sender next : Sender} {message : List UInt8} {activity : Activity}

theorem Carries.fresh (carries : Carries message activity)
    (goes : activity.locals.running = true) : activity.locals.Fresh message := by
  rcases carries.locals with fresh | sent
  · exact fresh
  · rw [sent.stopped] at goes
    cases goes

/-- A count of 0 is not the length of a message. -/
theorem counts_fresh {activity : Activity} (fresh : activity.locals.Fresh message) :
    counts (message, activity) = none := by
  apply if_neg
  rintro ⟨count, nonempty⟩
  rw [fresh.count, Option.some.injEq] at count
  exact nonempty (List.length_eq_zero_iff.mp (by omega))

theorem counts_sent {activity : Activity} (sent : activity.locals.Sent message) :
    counts (message, activity) = some message :=
  if_pos ⟨sent.count, sent.nonempty⟩

theorem completes_failed {ret : RetCode} (failed : message = [] ∨ ret ≠ .ok) :
    completes (message, ret) = none :=
  if_neg fun ⟨ok, nonempty⟩ => failed.elim nonempty fun error => error ok

theorem sound_idle : Sender.idle.Sound := by
  intro message activity here
  cases here

theorem sound_proceed (carries : Carries message activity) :
    (sender.proceed message activity).Sound := by
  intro other current here
  obtain ⟨rfl, rfl⟩ := Prod.mk.inj (Option.some.inj here)
  exact carries

/-- A call that goes on with what it has counted. -/
theorem posted_proceed {after : Activity} (here : sender.activity = some (message, activity))
    (same : counts (message, after) = counts (message, activity)) :
    (sender.proceed message after).posted = sender.posted := by
  simp [posted, proceed, here, same]

/-- A call that returns with what it has counted. -/
theorem posted_resume {ret : RetCode} (here : sender.activity = some (message, activity))
    (same : completes (message, ret) = counts (message, activity)) :
    (sender.resume message ret).posted = sender.posted := by
  simp only [posted, resume, here, List.filterMap_append, Option.bind_some, Option.bind_none,
    Option.toList_none, List.append_nil, ← same]
  cases returned : completes (message, ret) <;> simp [returned]

/-- The step lemma: the steps of a sender keep the invariant, and none of them changes what
it knows to be sent. -/
theorem Step.sound (step : sender.Step build next) (sound : sender.Sound) :
    next.Sound ∧ next.posted = sender.posted := by
  cases step with
  | begins sock message idle udp =>
      have fresh : (Activity.start sock message.length true).locals.Fresh message := .start message
      refine ⟨sound_proceed ⟨rfl, Or.inl fresh, fun ready => Bool.noConfusion ready⟩, ?_⟩
      simp [posted, proceed, idle, counts_fresh fresh]
  | goesOn message activity after here step =>
      have carries := sound message activity here
      obtain ⟨atHead, goes, wait, -, next⟩ := step.goesOn
      have fresh := (carries.fresh goes).issue wait
      have before := counts_fresh (carries.fresh goes)
      rcases next with rfl | rfl | rfl
      · exact ⟨sound_proceed ⟨carries.bufLen, Or.inl fresh, fun _ => goes⟩,
          posted_proceed here ((counts_fresh fresh).trans before.symm)⟩
      · obtain ⟨accounted, -⟩ := fresh.account goes activity.sock activity.bufLen
        refine ⟨sound_proceed ⟨carries.bufLen, Or.inl accounted, ?_⟩,
          posted_proceed here ((counts_fresh accounted).trans before.symm)⟩
        simp [atHead]
      · refine ⟨sound_proceed ⟨carries.bufLen, Or.inl fresh, ?_⟩,
          posted_proceed here ((counts_fresh fresh).trans before.symm)⟩
        simp [atHead]
  | returns message activity last ret here step =>
      have carries := sound message activity here
      have idle : (sender.resume message ret).Sound := by
        intro other current again
        cases again
      refine ⟨idle, posted_resume here ?_⟩
      have ends := step.ends.2
      rcases ends with ⟨goes, rfl, -⟩ | ⟨stopped, -, rfl⟩
      · rw [counts_fresh (carries.fresh goes)]
        exact completes_failed (Or.inr (by decide))
      · rcases carries.locals with fresh | sent
        · rw [counts_fresh fresh]
          exact completes_failed (fresh.failed stopped)
        · rw [counts_sent sent]
          exact if_pos ⟨sent.ok, sent.nonempty⟩

/-- The datagram of a `sendto` that succeeds is the message, and the sender knows of it. -/
theorem Sound.transfer (sound : sender.Sound)
    (here : sender.activity = some (message, activity)) (ready : activity.ready = true)
    {answer : TransferAnswer} (whole : WholeSend activity.locals answer)
    (works : ¬ build.Blocks .write answer) :
    (sender.transfer build message activity answer).Sound ∧
      (sender.transfer build message activity answer).posted =
        sender.posted ++ (if answer.ret = -1 then [] else [message]) ∧
      (answer.ret ≠ -1 → activity.locals.pPtr = 0 ∧ answer.ret = message.length) := by
  have carries := sound message activity here
  have goes := carries.ready ready
  have fresh := carries.fresh goes
  obtain ⟨place, all⟩ := fresh.whole goes
  by_cases failed : answer.ret = -1
  · have still : (activity.transfer build .write answer).locals.Fresh message :=
      fresh.transfer_failed goes failed works
    have same := (counts_fresh still).trans (counts_fresh fresh).symm
    refine ⟨sound_proceed ⟨carries.bufLen, Or.inl still, fun ready => Bool.noConfusion ready⟩, ?_,
      fun took => absurd failed took⟩
    rw [if_pos failed, List.append_nil]
    exact posted_proceed here same
  · have took := whole.resolve_left failed
    have sent : (activity.transfer build .write answer).locals.Sent message := by
      show (build.transfer .write activity.sock activity.bufLen activity.locals answer).Sent message
      rw [carries.bufLen]
      exact fresh.transfer_sent goes took
    refine ⟨sound_proceed ⟨carries.bufLen, Or.inr sent, fun ready => Bool.noConfusion ready⟩, ?_,
      fun _ => ⟨place, took.trans all⟩⟩
    rw [if_neg failed]
    simp [Sender.transfer, posted, proceed, here, counts_sent sent, counts_fresh fresh]

end Sender

end NetClass.Socket
