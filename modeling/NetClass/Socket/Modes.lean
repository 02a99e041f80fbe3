import NetClass.Library.EventMachine
import NetClass.Library.Precedence
import NetClass.Socket.Descriptors

/-!
Contract: the mode of the descriptor that an `ncSocket` transfers on.

Owns: the descriptors that a log leaves in non-blocking mode, an object that is followed
from some moment of its life on, and the condition under which each of its transfer calls
is on a descriptor in non-blocking mode.

Does **not** own: how an object comes to hold a descriptor; see
`NetClass.Listener.Blocking`.

`connect` sets the descriptor of `socket` to non-blocking mode only when the host name has
been resolved. No other function of the class does it.
-/

set_option autoImplicit false

namespace NetClass.Socket

/-- The descriptors in non-blocking mode. `socket` returns one in blocking mode, whatever
was done under its number before. -/
def nonBlocking : Ledger Call Int where
  effect
    | .setNonBlocking fd => some (.acquires fd)
    | .socket fd => some (.releases fd)
    | _ => none

/-- Each transfer call finds its descriptor in non-blocking mode. `modes` are the
descriptors that are in this mode before the log. -/
def OnlyPollBlocks (modes : Set Int) (log : List Call) : Prop :=
  Justified (fun before call => ∀ name fd offset length answer,
    call = .transfer name fd offset length answer → 0 ≤ fd →
      fd ∈ nonBlocking.owned modes before) log

/-! ### An object from some moment on -/

/-- The object, and whether its descriptor comes from a connect that has got past the
resolution of the host name. -/
structure Connection where
  object : Object
  resolved : Bool
deriving DecidableEq, Repr

/-- What an operation tells about the descriptor. -/
def Operation.resolved (earlier : Bool) : Operation → Bool
  | .connect answers => answers.resolved
  | .connectTo host port _ answers =>
      if host.isSome = true ∧ port ≠ 0 then answers.resolved else earlier
  | _ => earlier

/-- The value that a connect returns. -/
def Operation.connectRet (sock : NcSocket) : Operation → Option RetCode
  | .connect answers => (sock.connect answers).map Outcome.ret
  | .connectTo host port sockType answers =>
      (sock.connectTo host port sockType answers).map Outcome.ret
  | _ => none

/-- An operation that does not come to an end is not followed. -/
def Connection.perform (connection : Connection) (operation : Operation) : Connection :=
  match connection.object.perform operation with
  | some object => ⟨object, operation.resolved connection.resolved⟩
  | none => connection

def connections : EventMachine Connection Operation where
  step := Connection.perform

/-- The operation comes to an end. -/
def Returns (connection : Connection) (operation : Operation) : Prop :=
  ∃ object, connection.object.perform operation = some object

/-- The operation makes a pass whose wait finds the descriptor ready, and so issues its
transfer call. -/
def Operation.Issues (sock : NcSocket) : Operation → Prop
  | .transfer build direction bufLen counted answers =>
      ∃ pass ∈ (build.loop direction sock bufLen).passes (.start bufLen counted) answers,
        build.Ready direction pass.2
  | _ => False

/-- The condition on an operation. -/
def Prepared (connection : Connection) (operation : Operation) : Prop :=
  operation.Issues connection.object.sock → 0 ≤ connection.object.sock.sockfd →
    connection.resolved = true

/-! ### The calls as entries of the ledger -/

theorem mode_of_isAttempt {call : Call} (attempt : call.IsAttempt) :
    nonBlocking.effect call = none := by
  cases call <;> first | rfl | exact attempt.elim

theorem mode_of_isOn {call : Call} {fd : Int} (on : call.IsOn fd) :
    nonBlocking.effect call = none := by
  rcases on with isWait | ⟨name, offset, length, answer, rfl⟩ | ⟨how, rfl⟩
  · cases call <;> simp_all [Call.isWait, nonBlocking]
  · rfl
  · rfl

/-- Calls that leave all modes alone. -/
theorem modes_of_silent {calls : List Call}
    (silent : ∀ call ∈ calls, nonBlocking.effect call = none) (modes : Set Int) :
    nonBlocking.owned modes calls = modes :=
  Ledger.owned_of_uses 0 calls modes fun call member => Or.inl (silent call member)

/-- After a connect that fails early the new descriptor is in blocking mode. -/
theorem not_mem_modes_socket (fd : Int) (modes : Set Int) :
    fd ∉ nonBlocking.owned modes [.socket fd] :=
  fun member => member.2 rfl

/-- After any other connect it is in non-blocking mode. -/
theorem mem_modes_attempts {attempts : List Call} (only : ∀ call ∈ attempts, call.IsAttempt)
    (fd : Int) (modes : Set Int) :
    fd ∈ nonBlocking.owned modes (.socket fd :: .setNonBlocking fd :: attempts) := by
  rw [Ledger.owned_cons, Ledger.owned_cons,
    modes_of_silent fun call member => mode_of_isAttempt (only call member)]
  exact Set.mem_insert fd _

namespace OnlyPollBlocks

variable {modes : Set Int} {log more : List Call}

theorem nil : OnlyPollBlocks modes [] := Justified.nil

/-- Calls that transfer nothing. -/
theorem append (old : OnlyPollBlocks modes log)
    (quiet : ∀ call ∈ more, call.isTransfer = false) : OnlyPollBlocks modes (log ++ more) := by
  apply Justified.append old
  rintro before _ later rfl name fd offset length answer rfl
  have isTransfer := quiet (.transfer name fd offset length answer) (by simp)
  exact Bool.noConfusion isTransfer

/-- The calls of a transfer. -/
theorem append_isOn {fd : Int} (on : ∀ call ∈ more, call.IsOn fd)
    (old : OnlyPollBlocks modes log) :
    OnlyPollBlocks modes (log ++ more) ↔
      ((∃ call ∈ more, call.isTransfer = true) → 0 ≤ fd → fd ∈ nonBlocking.owned modes log) := by
  have silent : ∀ part, part ⊆ more →
      nonBlocking.owned modes (log ++ part) = nonBlocking.owned modes log := by
    intro part within
    rw [Ledger.owned_append]
    exact modes_of_silent (fun call member => mode_of_isOn (on call (within member))) _
  constructor
  · rintro justified ⟨call, member, isTransfer⟩ nonneg
    obtain ⟨before, later, split⟩ := List.append_of_mem member
    have here := justified (log ++ before) call later (by rw [split, List.append_assoc])
    rcases on call member with isWait | ⟨name, offset, length, answer, rfl⟩ | ⟨how, rfl⟩
    · rw [Call.isTransfer_of_isWait isWait] at isTransfer
      exact Bool.noConfusion isTransfer
    · rw [← silent before (by rw [split]; exact List.subset_append_left _ _)]
      exact here name fd offset length answer rfl nonneg
    · exact Bool.noConfusion isTransfer
  · intro ready
    apply Justified.append old
    rintro before _ later split name other offset length answer rfl nonneg
    have member : Call.transfer name other offset length answer ∈ more := by simp [split]
    have same : other = fd := by
      rcases on _ member with isWait | ⟨_, _, _, _, same⟩ | ⟨_, same⟩
      · exact Bool.noConfusion isWait
      · exact (Call.transfer.inj same).2.1
      · exact Call.noConfusion same
    subst same
    rw [silent before (by rw [split]; exact List.subset_append_left _ _)]
    exact ready ⟨_, member, rfl⟩ nonneg

end OnlyPollBlocks

/-! ### The transfer call of a pass -/

/-- A pass that is woken and does not spin issues its transfer call. -/
theorem Turn.transfers {policy : Policy} {direction : Direction} {sock : NcSocket}
    {bufLen : Int} {locals next : Locals} {answer : Answer}
    (turn : Turn policy direction sock bufLen locals answer next)
    (woken : answer.wait.ret ≠ 0) (settles : ¬ policy.spins answer) :
    ∃ call ∈ next.calls, call.isTransfer = true := by
  have attempted : ∀ middle : Locals,
      ∃ call ∈ (middle.attempt sock direction answer.transfer).calls,
        call.isTransfer = true :=
    fun middle => ⟨_, List.mem_append_right _ List.mem_cons_self, rfl⟩
  cases turn with
  | spun wait isWait odd => exact absurd odd settles
  | idled wait isWait idle continues => exact absurd idle woken
  | stepped wait isWait woken continues step => exact attempted (locals.issue wait)
  | blocked wait isWait woken continues failed stays retry =>
      exact attempted (locals.issue wait)
  | gaveUp wait isWait woken continues failed stays ended =>
      exact attempted (locals.issue wait)
  | disconnected wait isWait lost broken code failure =>
      obtain ⟨call, member, isTransfer⟩ := attempted (locals.issue wait)
      exact ⟨call, List.mem_append_left _ member, isTransfer⟩

namespace Build

variable {build : Build} {direction : Direction} {sock : NcSocket} {bufLen : Int}

/-- A ready descriptor leads to the transfer call. -/
theorem body_of_ready (sock : NcSocket) (bufLen : Int) {answer : Answer}
    (ready : build.Ready direction answer) (locals : Locals) :
    ∃ next, (build.loop direction sock bufLen).body locals answer = .again next ∧
      ∃ call ∈ next.calls, call.isTransfer = true := by
  have transfer := build.isTransferLoop direction sock bufLen
  have woken : answer.wait.ret ≠ 0 := by
    cases build with
    | poll => rw [ready.1]; decide
    | select => exact ready.2.1
  have settles : ¬ (build.policy direction).spins answer := by
    cases build with
    | poll => exact fun odd => odd (Or.inr (Or.inr ready.1))
    | select => exact id
  have goes : ∃ next, (build.loop direction sock bufLen).body locals answer = .again next := by
    cases build with
    | poll =>
        obtain ⟨one, error, event⟩ := ready
        have event' : ¬ answer.wait.revents &&& Poll.events direction = 0#16 := event
        simp [Build.loop, Poll.loop, Poll.body, Poll.wait, one, error, event']
    | select =>
        obtain ⟨alive, woken, set⟩ := ready
        simp [Build.loop, Select.loop, Select.body, Select.wait, alive, woken, set]
  obtain ⟨next, again⟩ := goes
  exact ⟨next, again, (transfer.again locals next answer again).transfers woken settles⟩

/-- A call issues a transfer call exactly if one of its passes finds the descriptor
ready. -/
theorem transfers_iff {counted : Bool} {answers : List Answer} {final : Locals} {ret : RetCode}
    (returns : build.call direction sock bufLen counted answers = some (final, ret)) :
    (∃ call ∈ final.calls, call.isTransfer = true) ↔
      (Operation.transfer build direction bufLen counted answers).Issues sock := by
  have transfer := build.isTransferLoop direction sock bufLen
  have waited : ∀ (locals next : Locals) (wait : Call), wait.isWait = true →
      next.calls = locals.calls ++ [wait] →
      ((∃ call ∈ next.calls, call.isTransfer = true) ↔
        ∃ call ∈ locals.calls, call.isTransfer = true) := by
    intro locals next wait isWait log
    simp [log, or_and_right, exists_or, Call.isTransfer_of_isWait isWait]
  refine AnswerLoop.run_history
    (fun locals history => (∃ call ∈ locals.calls, call.isTransfer = true) ↔
      ∃ pass ∈ history, build.Ready direction pass.2)
    (fun locals _ history => (∃ call ∈ locals.calls, call.isTransfer = true) ↔
      ∃ pass ∈ history, build.Ready direction pass.2)
    ?again ?leave (fun _ _ _ holds => holds) returns (by simp [Locals.start])
  case again =>
    intro locals answer next history _ _ holds again
    by_cases ready : build.Ready direction answer
    · obtain ⟨_, same, issued⟩ := body_of_ready sock bufLen ready locals
      rw [again, Pass.again.injEq] at same
      subst same
      exact iff_of_true issued ⟨(locals, answer), by simp, ready⟩
    · obtain ⟨wait, isWait, log⟩ := Build.again_of_not_ready again ready
      rw [waited locals next wait isWait log, holds]
      simp [or_and_right, exists_or, ready]
  case leave =>
    intro locals answer last left history _ _ holds leave
    obtain ⟨-, -, wait, isWait, rfl⟩ := transfer.leave locals last answer left leave
    have unready : ¬ build.Ready direction answer := by
      intro ready
      obtain ⟨next, again, -⟩ := body_of_ready sock bufLen ready locals
      rw [leave] at again
      cases again
    rw [waited locals (locals.issue wait) wait isWait rfl, holds]
    simp [or_and_right, exists_or, unready]

end Build

/-! ### One operation -/

/-- What `resolved` knows: the object's descriptor is in non-blocking mode exactly if it
comes from a connect that has got past the resolution of the host name. -/
def Connection.Sound (modes : Set Int) (connection : Connection) : Prop :=
  connection.object.alive = true → 0 ≤ connection.object.sock.sockfd →
    (connection.object.sock.sockfd ∈ nonBlocking.owned modes connection.object.calls ↔
      connection.resolved = true)

/-- An operation that asks for a descriptor connects, and `resolved` follows it. -/
theorem Operation.connects_of_asks {operation : Operation} {sock next : NcSocket}
    {calls : List Call} (runs : operation.run sock = some (next, calls))
    (asks : operation.Asks) :
    ∃ before answers outcome, NcSocket.connect before answers = some outcome ∧
      outcome.sock = next ∧ outcome.calls = calls ∧
      ∀ earlier, operation.resolved earlier = answers.resolved := by
  cases operation with
  | connect answers =>
      obtain ⟨outcome, returns, same⟩ := Option.map_eq_some_iff.mp runs
      exact ⟨sock, answers, outcome, returns, (Prod.mk.inj same).1, (Prod.mk.inj same).2,
        fun _ => rfl⟩
  | connectTo host port sockType answers =>
      obtain ⟨outcome, returns, same⟩ := Option.map_eq_some_iff.mp runs
      cases host with
      | none => exact Bool.noConfusion asks.1
      | some name =>
          rw [NcSocket.connectTo, if_neg asks.2] at returns
          exact ⟨_, answers, outcome, returns, (Prod.mk.inj same).1, (Prod.mk.inj same).2,
            fun _ => if_pos asks⟩
  | _ => exact asks.elim

/-- A connect that succeeds has asked for a descriptor and got past the resolution. -/
theorem Operation.resolved_of_connectRet {operation : Operation} {sock : NcSocket}
    (succeeds : operation.connectRet sock = some .ok) (earlier : Bool) :
    operation.Asks ∧ operation.resolved earlier = true := by
  cases operation with
  | connect answers =>
      obtain ⟨outcome, returns, ok⟩ := Option.map_eq_some_iff.mp succeeds
      exact ⟨trivial, NcSocket.resolved_of_ok returns ok⟩
  | connectTo host port sockType answers =>
      obtain ⟨outcome, returns, ok⟩ := Option.map_eq_some_iff.mp succeeds
      unfold NcSocket.connectTo at returns
      cases host with
      | none =>
          obtain rfl := Option.some.inj returns
          cases ok
      | some name =>
          by_cases zero : port = 0
          · simp only [zero, ↓reduceIte, Option.some.injEq] at returns
            subst returns
            cases ok
          · simp only [zero, ↓reduceIte] at returns
            exact ⟨⟨rfl, zero⟩, (if_pos ⟨rfl, zero⟩).trans (NcSocket.resolved_of_ok returns ok)⟩
  | _ => cases succeeds

/-- Other operations tell nothing about the descriptor. -/
theorem Operation.resolved_of_not_asks {operation : Operation} (silent : ¬ operation.Asks)
    (earlier : Bool) : operation.resolved earlier = earlier := by
  cases operation with
  | connect answers => exact absurd trivial silent
  | connectTo host port sockType answers => exact if_neg silent
  | _ => rfl

section Step

variable {modes : Set Int} {connection : Connection} {operation : Operation}

/-- What an operation adds to the log and makes of the two fields. -/
structure Progress (connection : Connection) (operation : Operation) (next : NcSocket)
    (calls : List Call) : Prop where
  alive : connection.object.alive = true
  runs : operation.run connection.object.sock = some (next, calls)
  sock : (connection.perform operation).object.sock = next
  calls : (connection.perform operation).object.calls = connection.object.calls ++ calls
  lives : (connection.perform operation).object.alive = decide (operation ≠ .destroy)
  resolved : (connection.perform operation).resolved =
    operation.resolved connection.resolved

theorem Returns.progress (returns : Returns connection operation) :
    ∃ next calls, Progress connection operation next calls := by
  obtain ⟨object, performs⟩ := returns
  have here : connection.perform operation =
      ⟨object, operation.resolved connection.resolved⟩ := by
    rw [Connection.perform, performs]
  unfold Object.perform at performs
  split_ifs at performs with alive
  obtain ⟨⟨next, calls⟩, runs, rfl⟩ := Option.map_eq_some_iff.mp performs
  exact ⟨next, calls, alive, runs, by rw [here], by rw [here], by rw [here], by rw [here]⟩

/-- A connect. -/
theorem Progress.connected (modes : Set Int) {next : NcSocket} {calls : List Call}
    (progress : Progress connection operation next calls) (asks : operation.Asks) :
    (connection.perform operation).Sound modes ∧ ∀ call ∈ calls, call.isTransfer = false := by
  obtain ⟨before, answers, outcome, returns, rfl, rfl, resolves⟩ :=
    operation.connects_of_asks progress.runs asks
  unfold Connection.Sound
  rw [progress.sock, progress.calls, progress.resolved, resolves, Ledger.owned_append]
  rcases NcSocket.connect_cases returns with
    ⟨failed, rfl⟩ | ⟨resolved, address, attempts, same, log, only⟩
  · refine ⟨fun _ _ => ?_, by simp [Call.isTransfer]⟩
    rw [failed]
    exact iff_of_false (not_mem_modes_socket _ _) Bool.false_ne_true
  · rw [same, log, resolved]
    refine ⟨fun _ _ => iff_of_true (mem_modes_attempts only _ _) rfl, ?_⟩
    intro call member
    rcases List.mem_cons.mp member with rfl | member
    · rfl
    · rcases List.mem_cons.mp member with rfl | later
      · rfl
      · have attempt := only call later
        cases call <;> first | rfl | exact attempt.elim

/-- An operation that leaves the descriptor and its mode alone. -/
theorem Progress.keeps {next : NcSocket} {calls : List Call}
    (progress : Progress connection operation next calls) (sound : connection.Sound modes)
    (silent : ¬ operation.Asks)
    (sockfd : next.sockfd = connection.object.sock.sockfd)
    (still : ∀ call ∈ calls, nonBlocking.effect call = none) :
    (connection.perform operation).Sound modes := by
  intro _ nonneg
  rw [progress.sock, sockfd] at nonneg ⊢
  rw [progress.calls, progress.resolved, Operation.resolved_of_not_asks silent,
    Ledger.owned_append, modes_of_silent still]
  exact sound progress.alive nonneg

/-- An operation that asks for nothing and transfers nothing. -/
theorem Progress.quiet {next : NcSocket} {calls : List Call}
    (progress : Progress connection operation next calls) (sound : connection.Sound modes)
    (silent : ¬ operation.Asks)
    (other : ∀ build direction bufLen counted answers,
      operation ≠ .transfer build direction bufLen counted answers) :
    (connection.perform operation).Sound modes ∧ ∀ call ∈ calls, call.isTransfer = false := by
  have act := Operation.act progress.runs
  have dead : operation = .destroy → (connection.perform operation).Sound modes := by
    intro isDestroy lives
    rw [progress.lives, isDestroy] at lives
    exact absurd rfl (of_decide_eq_true lives)
  cases act with
  | connected _ rest asks stdiofd setup => exact absurd asks silent
  | idle _ lives sockfd stdiofd =>
      exact ⟨progress.keeps sound silent sockfd (by simp), by simp⟩
  | closed isClose =>
      refine ⟨fun _ nonneg => ?_, by simp [Call.isTransfer]⟩
      rw [progress.sock] at nonneg
      exact absurd nonneg (show ¬ (0 : Int) ≤ -1 by decide)
  | flushed opened value isFlush fd stream =>
      exact ⟨progress.keeps sound silent rfl (by simp [nonBlocking]), by simp [Call.isTransfer]⟩
  | streamed value isFlush noStream =>
      exact ⟨progress.keeps sound silent rfl (by simp [nonBlocking]), by simp [Call.isTransfer]⟩
  | notStreamed value isFlush noStream =>
      exact ⟨progress.keeps sound silent rfl (by simp [nonBlocking]), by simp [Call.isTransfer]⟩
  | transferred build direction bufLen counted answers isTransfer _ on waits =>
      exact absurd isTransfer (other build direction bufLen counted answers)
  | streamClosed isDestroy fd stream _ => exact ⟨dead isDestroy, by simp [Call.isTransfer]⟩
  | destroyed isDestroy noStream positive _ =>
      exact ⟨dead isDestroy, by simp [Call.isTransfer]⟩
  | dropped isDestroy noStream notPositive => exact ⟨dead isDestroy, by simp⟩

/-- The step lemma. -/
theorem Connection.Sound.step (sound : connection.Sound modes)
    (returns : Returns connection operation) :
    (connection.perform operation).Sound modes ∧
      (OnlyPollBlocks modes connection.object.calls →
        (OnlyPollBlocks modes (connection.perform operation).object.calls ↔
          Prepared connection operation)) := by
  obtain ⟨next, calls, progress⟩ := returns.progress
  have unissued : (∀ call ∈ calls, call.isTransfer = false) →
      ¬ operation.Issues connection.object.sock →
      OnlyPollBlocks modes connection.object.calls →
        (OnlyPollBlocks modes (connection.perform operation).object.calls ↔
          Prepared connection operation) := by
    intro transfers issues justified
    rw [progress.calls]
    exact iff_of_true (justified.append transfers) fun issued => absurd issued issues
  cases operation with
  | connect answers =>
      obtain ⟨next, transfers⟩ := Progress.connected modes progress trivial
      exact ⟨next, unissued transfers id⟩
  | connectTo host port sockType answers =>
      by_cases asks : (Operation.connectTo host port sockType answers).Asks
      · obtain ⟨next, transfers⟩ := Progress.connected modes progress asks
        exact ⟨next, unissued transfers id⟩
      · obtain ⟨next, transfers⟩ := progress.quiet sound asks (by simp)
        exact ⟨next, unissued transfers id⟩
  | transfer build direction bufLen counted answers =>
      obtain ⟨⟨final, ret⟩, returned, same⟩ := Option.map_eq_some_iff.mp progress.runs
      obtain ⟨rfl, rfl⟩ := Prod.mk.inj same
      have on := Build.call_isOn returned
      refine ⟨progress.keeps sound id rfl fun call member => mode_of_isOn (on call member), ?_⟩
      intro justified
      rw [progress.calls, OnlyPollBlocks.append_isOn on justified, Build.transfers_iff returned]
      unfold Prepared
      constructor
      · intro ready issues nonneg
        exact (sound progress.alive nonneg).mp (ready issues nonneg)
      · intro prepared issues nonneg
        exact (sound progress.alive nonneg).mpr (prepared issues nonneg)
  | _ =>
      obtain ⟨next, transfers⟩ := progress.quiet sound id (by simp)
      exact ⟨next, unissued transfers id⟩

end Step

/-- An object that has just been connected. -/
theorem Connection.Sound.connected (modes : Set Int) {before after : Object}
    {operation : Operation} (succeeds : operation.connectRet before.sock = some .ok)
    (performs : before.perform operation = some after) :
    Connection.Sound (nonBlocking.owned modes after.calls)
      ⟨{ after with calls := [] }, true⟩ := by
  have asks := Operation.resolved_of_connectRet succeeds false
  have here : Connection.perform ⟨before, false⟩ operation =
      ⟨after, operation.resolved false⟩ := by
    rw [Connection.perform, performs]
  have returns : Returns ⟨before, false⟩ operation := ⟨after, performs⟩
  obtain ⟨next, calls, progress⟩ := returns.progress
  have sound := (Progress.connected modes progress asks.1).1
  rw [here, asks.2] at sound
  exact sound

/-- The run lemma. -/
theorem onlyPollBlocks_iff {modes : Set Int} {first : Connection}
    (sound : first.Sound modes) (fresh : first.object.calls = [])
    {operations : List Operation} (returns : connections.Meets Returns first operations) :
    connections.Always (fun connection => OnlyPollBlocks modes connection.object.calls) first
      operations ↔ connections.Meets Prepared first operations := by
  have allowed : connections.Meets
      (fun connection operation => Returns connection operation ∧ connection.Sound modes) first
      operations :=
    EventMachine.meets_of_invariant (fun connection => connection.Sound modes)
      (fun _ _ sound returns => (sound.step returns).1)
      (fun _ _ sound returns => ⟨returns, sound⟩) sound returns
  apply EventMachine.always_iff_meets _ ?_ ?_ allowed
  · intro connection operation justified allows
    exact (allows.2.step allows.1).2 justified
  · rw [fresh]
    exact .nil

end NetClass.Socket
