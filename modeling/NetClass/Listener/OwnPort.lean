import NetClass.Library.Precedence
import NetClass.Listener.Steps

/-!
Contract: a listener serves on its own port only.

Owns: what it is to serve and to have bound the port, the condition under which
`startListening` serves only after it has bound the port, and the proof for every
interleaving with `stopListening`.

The bind loop is left on success, on a stop request, on an address that is in use and
after the eleventh failure. Only the last of these returns; the other two failures go
on as success does. In the TCP branch `listen` follows in any case. In the UDP branch
`m_listening` is tested first, so a stop request ends the call there. In both branches
`m_sockfd` is read anew for every call, and `stopListening` may have assigned 0 to it.
-/

set_option autoImplicit false

namespace NetClass.Listener

open NetClass.Socket

/-- The descriptor on which a call serves, if it is one of the three serving calls. -/
def Action.serves : Action → Option Int
  | .listen fd _ _ | .accept fd _ | .recvfrom fd _ => some fd
  | _ => none

/-- The descriptor has been bound to the port. -/
def BoundTo (port : UInt16) (actions : List Action) (fd : Int) : Prop :=
  ∃ ret errno, .bind fd port ret errno ∈ actions ∧ ret ≠ -1

/-- A bind has failed because the address is in use. -/
def Taken (actions : List Action) : Prop :=
  ∃ fd port errno, .bind fd port (-1) errno ∈ actions ∧ ncAddrInUse errno = true

/-- Nothing has been served. -/
def Quiet (actions : List Action) : Prop := actions.filterMap Action.serves = []

/-- What a serving call is justified by: its descriptor has been bound to the port. -/
def OnPort (port : UInt16) (before : List Action) (action : Action) : Prop :=
  ∀ fd, action.serves = some fd → BoundTo port before fd

/-- The descriptor of a `bind`. -/
def Action.binds : Action → Option Int
  | .bind fd _ _ _ => some fd
  | _ => none

/-- The descriptor that `bind` was last called on. -/
def Server.lastBind (server : Server) : Option Int :=
  (server.actions.filterMap Action.binds).getLast?

/-- The condition on a step. A TCP listener must not leave its bind loop through an
address in use or a stop request, and a UDP listener that has left it through an address
in use must have been stopped when it tests `m_listening`. At `listen`, `accept` and
`recvfrom` `m_sockfd` must still be what `bind` was called on: `stopListening` has not
assigned 0 since. -/
def Unhindered (server : Server) : Event → Prop
  | .stop => True
  | .start _ =>
      match server.pc with
      | .bindFailed errno =>
          server.listener.socktype = socktypeTcpip →
            server.listener.listening = true ∧
              (server.locals.bindAttempts = 10 ∨ ncAddrInUse errno = false)
      | .receiveTest => Taken server.actions → server.listener.listening = false
      | .listen | .accept | .receive => server.lastBind = some server.listener.sockfd
      | _ => True

theorem BoundTo.append {port : UInt16} {actions : List Action} {fd : Int}
    (bound : BoundTo port actions fd) (more : List Action) :
    BoundTo port (actions ++ more) fd := by
  obtain ⟨ret, errno, member, success⟩ := bound
  exact ⟨ret, errno, List.mem_append_left _ member, success⟩

theorem Taken.append {actions : List Action} (taken : Taken actions) (more : List Action) :
    Taken (actions ++ more) := by
  obtain ⟨fd, port, errno, member, inUse⟩ := taken
  exact ⟨fd, port, errno, List.mem_append_left _ member, inUse⟩

theorem Quiet.append {actions more : List Action} (quiet : Quiet actions) (rest : Quiet more) :
    Quiet (actions ++ more) := by
  rw [Quiet, List.filterMap_append, quiet, rest, List.append_nil]

theorem Quiet.serves {actions : List Action} (quiet : Quiet actions) {action : Action}
    (member : action ∈ actions) : action.serves = none :=
  List.filterMap_eq_nil_iff.mp quiet action member

/-! ### The invariant -/

/-- The program points after the bind loop. -/
def Pc.late : Pc → Bool
  | .socket | .checkArgs | .raise | .setReuse | .bind | .bindFailed _ => false
  | _ => true

@[simp] theorem Server.late_afterBind (server : Server) : server.afterBind.late = true := by
  unfold Server.afterBind
  split_ifs <;> rfl

/-- The last `bind` has succeeded. -/
def Bound (port : UInt16) (server : Server) : Prop :=
  ∃ fd, BoundTo port server.actions fd ∧ server.lastBind = some fd

/-- What is known at each program point. -/
def Phase (port : UInt16) (server : Server) : Prop :=
  match server.pc with
  | .socket | .checkArgs | .raise | .setReuse | .bind => Quiet server.actions
  | .bindFailed errno =>
      Quiet server.actions ∧ ∃ fd, .bind fd port (-1) errno ∈ server.actions
  | .receiveTest =>
      Bound port server ∨ (Quiet server.actions ∧
        (Taken server.actions ∨ server.listener.listening = false))
  | .returned ret =>
      Bound port server ∨ (Quiet server.actions ∧
        (ret = .ok → server.listener.listening = false))
  | _ => Bound port server

/-- The invariant of a call on a TCP or UDP listener. -/
structure Secured (port : UInt16) (server : Server) : Prop where
  own : server.listener.port = port
  kind : server.listener.socktype = socktypeTcpip ∨ server.listener.socktype = socktypeUdp
  attempts : server.pc.late = false → server.locals.bindAttempts ≤ 10
  justified : Justified (OnPort port) server.actions
  phase : Phase port server

/-- Whoever has bound the port is in the right phase after the bind loop. -/
theorem phase_of_bound {port : UInt16} {server : Server} (late : server.pc.late = true)
    (bound : Bound port server) : Phase port server := by
  unfold Phase
  cases pc : server.pc <;> simp_all [Pc.late]

/-- Nothing is bound any more. -/
theorem Bound.grow {port : UInt16} {server next : Server} (bound : Bound port server)
    {more : List Action} (grown : next.actions = server.actions ++ more)
    (silent : more.filterMap Action.binds = []) : Bound port next := by
  obtain ⟨fd, boundTo, last⟩ := bound
  refine ⟨fd, ?_, ?_⟩
  · rw [grown]
    exact boundTo.append more
  · rw [Server.lastBind, grown, List.filterMap_append, silent, List.append_nil]
    exact last

theorem Bound.stops {port : UInt16} {server next : Server} (bound : Bound port server)
    (stops : Stops server next) : Bound port next := by
  obtain ⟨more, grown, harmless⟩ := stops.actions
  refine bound.grow grown (List.filterMap_eq_nil_iff.mpr fun action member => ?_)
  rcases harmless action member with rfl | rfl | rfl <;> rfl

/-! ### Steps of `stopListening` -/

theorem Secured.stop {port : UInt16} {server : Server} (secured : Secured port server) :
    Secured port server.stopListening := by
  have stops := server.stops
  generalize server.stopListening = next at stops
  obtain ⟨more, actions, harmless⟩ := stops.actions
  have quiet : Quiet more := by
    apply List.filterMap_eq_nil_iff.mpr
    intro action member
    rcases harmless action member with rfl | rfl | rfl <;> rfl
  refine ⟨?_, ?_, ?_, ?_, ?_⟩
  · rw [stops.port]
    exact secured.own
  · rw [stops.socktype]
    exact secured.kind
  · rw [stops.pc, stops.locals]
    exact secured.attempts
  · rw [actions]
    apply secured.justified.append
    rintro before action later rfl fd serves
    rw [quiet.serves (by simp)] at serves
    simp at serves
  · have phase := secured.phase
    have listening : server.listener.listening = false → next.listener.listening = false := by
      intro stopped
      rcases stops.listening with unchanged | cleared
      · rw [unchanged]
        exact stopped
      · exact cleared
    unfold Phase at phase ⊢
    rw [stops.pc]
    cases pc : server.pc <;> simp only [pc] at phase ⊢
    case bindFailed errno =>
      obtain ⟨silent, fd, member⟩ := phase
      rw [actions]
      exact ⟨silent.append quiet, fd, List.mem_append_left _ member⟩
    case receiveTest =>
      refine phase.imp (fun bound => bound.stops stops) ?_
      rintro ⟨silent, reason⟩
      rw [actions]
      exact ⟨silent.append quiet, reason.imp (fun taken => taken.append more) listening⟩
    case returned ret =>
      refine phase.imp (fun bound => bound.stops stops) ?_
      rintro ⟨silent, reason⟩
      rw [actions]
      exact ⟨silent.append quiet, fun ok => listening (reason ok)⟩
    all_goals
      first
        | exact phase.stops stops
        | rw [actions]; exact phase.append quiet

/-! ### Steps of `startListening` -/

/-- The program points of the serving calls. -/
def Pc.serves : Pc → Bool
  | .listen | .accept | .receive => true
  | _ => false

/-- A step serves on `m_sockfd`, and only at the three program points. -/
theorem Server.serves_issued (haveThreads : Bool) (server : Server) (answer : Answer) :
    (server.issued haveThreads answer).filterMap Action.serves =
      if server.pc.serves then [server.listener.sockfd] else [] := by
  have silent : ∀ action : Action, action.onSocket = false → action.serves = none := by
    intro action elsewhere
    cases action <;> first | rfl | cases elsewhere
  cases pc : server.pc with
  | setReuse | bind | listen | setNonBlocking | receive => simp only [Server.issued, pc]; rfl
  | accept =>
      simp only [Server.issued, pc, Pc.serves, ↓reduceIte]
      split_ifs <;> rfl
  | _ => exact server.filterMap_elsewhere haveThreads answer silent (by rw [pc]; rfl)

/-- The bind loop is not entered again. -/
theorem Server.late_step (haveThreads : Bool) {server : Server} (answer : Answer)
    (late : server.pc.late = true) :
    (server.startListening haveThreads answer).pc.late = true := by
  unfold Server.startListening Server.afterThread
  cases pc : server.pc <;> simp only [pc, Pc.late, Bool.false_eq_true] at late <;>
    dsimp only <;> (try split_ifs) <;> simp [pc, Pc.late]

/-- `bind` is called at one program point. -/
theorem Server.no_bind_issued (haveThreads : Bool) {server : Server} (answer : Answer)
    (notBind : server.pc ≠ .bind) :
    (server.issued haveThreads answer).filterMap Action.binds = [] := by
  have silent : ∀ action : Action, action.onSocket = false → action.binds = none := by
    intro action elsewhere
    cases action <;> first | rfl | cases elsewhere
  cases pc : server.pc with
  | bind => exact absurd pc notBind
  | setReuse | listen | setNonBlocking | receive => simp only [Server.issued, pc]; rfl
  | accept =>
      simp only [Server.issued, pc]
      split_ifs <;> rfl
  | _ => exact server.filterMap_elsewhere haveThreads answer silent (by rw [pc]; rfl)

theorem Bound.start {port : UInt16} {server : Server} (bound : Bound port server)
    (haveThreads : Bool) (answer : Answer) (notBind : server.pc ≠ .bind) :
    Bound port (server.startListening haveThreads answer) :=
  bound.grow (Server.startListening_actions haveThreads server answer)
    (server.no_bind_issued haveThreads answer notBind)

theorem Secured.bound_of_serves {port : UInt16} {server : Server}
    (secured : Secured port server) (serves : server.pc.serves = true) : Bound port server := by
  have phase := secured.phase
  unfold Phase at phase
  cases pc : server.pc <;> simp_all [Pc.serves]

theorem unhindered_of_serves {server : Server} {answer : Answer}
    (unhindered : Unhindered server (.start answer)) (serves : server.pc.serves = true) :
    server.lastBind = some server.listener.sockfd := by
  unfold Unhindered at unhindered
  cases pc : server.pc <;> simp_all [Pc.serves]

/-- The log stays justified: whoever comes to a serving call has bound the port. -/
theorem Secured.justified_step {port : UInt16} {server : Server}
    (secured : Secured port server) (haveThreads : Bool) (answer : Answer)
    (unhindered : Unhindered server (.start answer)) :
    Justified (OnPort port) (server.startListening haveThreads answer).actions := by
  rw [Server.startListening_actions]
  apply secured.justified.append
  intro before action later split fd serves
  have member : fd ∈ (server.issued haveThreads answer).filterMap Action.serves :=
    List.mem_filterMap.mpr ⟨action, by simp [split], serves⟩
  rw [Server.serves_issued] at member
  split_ifs at member with atServing
  · obtain ⟨bound, boundTo, last⟩ := secured.bound_of_serves atServing
    have still := unhindered_of_serves unhindered atServing
    rw [last, Option.some.injEq] at still
    rw [List.mem_singleton.mp member, ← still]
    exact boundTo.append before
  · simp at member

/-- A bound on the number of steps that are left to a call whose binds all fail. -/
def patience (server : Server) : Nat :=
  match server.pc with
  | .socket => 29
  | .checkArgs => 28
  | .raise => 27
  | .setReuse => 26
  | .bind => 2 * (11 - server.locals.bindAttempts) + 3
  | .bindFailed _ => 2 * (11 - server.locals.bindAttempts) + 2
  | .receiveTest => 1
  | _ => 0

/-- Before the serving code a step moves on and keeps the locals, or goes back to `bind`
with one more attempt counted. -/
theorem Server.early_step (haveThreads : Bool) {server : Server} (answer : Answer)
    (early : server.pc.late = false) :
    (server.startListening haveThreads answer).pc.late = true ∨
      ((server.startListening haveThreads answer).locals = server.locals ∧
        patience (server.startListening haveThreads answer) < patience server) ∨
      ((∃ errno, server.pc = .bindFailed errno) ∧
        (server.startListening haveThreads answer).pc = .bind ∧
        server.locals.bindAttempts ≠ 10 ∧
        (server.startListening haveThreads answer).locals.bindAttempts =
          server.locals.bindAttempts + 1) := by
  cases pc : server.pc with
  | socket | checkArgs =>
      simp only [Server.startListening, pc]
      split_ifs
      · exact Or.inl rfl
      · exact Or.inr (Or.inl ⟨rfl, by simp [patience, pc]⟩)
  | raise =>
      simp only [Server.startListening, pc]
      split_ifs
      · exact Or.inr (Or.inl ⟨rfl, by simp [patience, pc]⟩)
      · exact Or.inr (Or.inl ⟨rfl, by simp [patience, pc]; omega⟩)
  | setReuse =>
      simp only [Server.startListening, pc]
      split_ifs
      · exact Or.inl rfl
      · exact Or.inr (Or.inl ⟨rfl, by simp [patience, pc]; omega⟩)
  | bind =>
      simp only [Server.startListening, pc]
      split_ifs
      · exact Or.inr (Or.inl ⟨rfl, by simp [patience, pc]⟩)
      · exact Or.inl (Server.late_afterBind _)
  | bindFailed errno =>
      simp only [Server.startListening, pc]
      split_ifs with listening last inUse
      · exact Or.inl rfl
      · exact Or.inl (Server.late_afterBind _)
      · exact Or.inr (Or.inr ⟨⟨errno, rfl⟩, rfl, last, rfl⟩)
      · exact Or.inl (Server.late_afterBind _)
  | _ =>
      rw [pc] at early
      exact Bool.noConfusion early

theorem Secured.attempts_step {port : UInt16} {server : Server}
    (secured : Secured port server) (haveThreads : Bool) (answer : Answer)
    (early : (server.startListening haveThreads answer).pc.late = false) :
    (server.startListening haveThreads answer).locals.bindAttempts ≤ 10 := by
  have before : server.pc.late = false := by
    by_contra late
    rw [Bool.not_eq_false] at late
    rw [Server.late_step haveThreads answer late] at early
    exact Bool.noConfusion early
  have few := secured.attempts before
  rcases server.early_step haveThreads answer before with late | ⟨same, -⟩ | ⟨-, -, more, counted⟩
  · rw [late] at early
    exact Bool.noConfusion early
  · rw [same]
    exact few
  · omega

/-- A step at which nothing is served leaves the log quiet. -/
theorem Quiet.step {server : Server} (quiet : Quiet server.actions) (haveThreads : Bool)
    (answer : Answer) (serves : server.pc.serves = false) :
    Quiet (server.startListening haveThreads answer).actions := by
  rw [Server.startListening_actions]
  apply quiet.append
  rw [Quiet, Server.serves_issued, serves]
  rfl

/-- A bind that succeeds leads to the serving code with the port bound. -/
theorem Secured.phase_bind {port : UInt16} {server : Server} (secured : Secured port server)
    (haveThreads : Bool) (answer : Answer) (atBind : server.pc = .bind) :
    Phase port (server.startListening haveThreads answer) := by
  have quiet : Quiet server.actions := by
    have phase := secured.phase
    rw [Phase, atBind] at phase
    exact phase
  have flow : (server.startListening haveThreads answer).pc =
      if answer.ret = -1 then .bindFailed answer.errno else server.afterBind := by
    simp only [Server.startListening, atBind]
    split_ifs <;> rfl
  have logged : .bind server.listener.sockfd port answer.ret answer.errno ∈
      (server.startListening haveThreads answer).actions := by
    rw [Server.startListening_actions, Server.issued, atBind, secured.own]
    simp
  by_cases failed : answer.ret = -1
  · rw [if_pos failed] at flow
    rw [failed] at logged
    rw [Phase, flow]
    exact ⟨quiet.step haveThreads answer (by rw [atBind]; rfl), _, logged⟩
  · rw [if_neg failed] at flow
    apply phase_of_bound
    · rw [flow]
      exact server.late_afterBind
    · refine ⟨server.listener.sockfd, ⟨_, _, logged, failed⟩, ?_⟩
      rw [Server.lastBind, Server.startListening_actions, Server.issued, atBind]
      simp [Action.binds]

/-- A bind that fails leads to another bind, out of the function, or, in the UDP branch,
to the test of `m_listening` with a reason for it to fail. -/
theorem Secured.phase_bindFailed {port : UInt16} {server : Server}
    (secured : Secured port server) (haveThreads : Bool) (answer : Answer) {errno : Errno}
    (atFailed : server.pc = .bindFailed errno)
    (unhindered : Unhindered server (.start answer)) :
    Phase port (server.startListening haveThreads answer) := by
  have phase := secured.phase
  rw [Phase, atFailed] at phase
  obtain ⟨quiet, fd, logged⟩ := phase
  rw [Unhindered, atFailed] at unhindered
  have still := quiet.step haveThreads answer (by rw [atFailed]; rfl)
  have kept := (server.starts haveThreads answer).listening (by simp [atFailed])
  have flow : (server.startListening haveThreads answer).pc =
      if server.listener.listening then
        if server.locals.bindAttempts = 10 then .returned .failed
        else if ncAddrInUse errno then server.afterBind else .bind
      else server.afterBind := by
    simp only [Server.startListening, atFailed]
    split_ifs <;> rfl
  rcases secured.kind with tcp | udp
  · obtain ⟨listening, gone⟩ := unhindered tcp
    rw [if_pos listening] at flow
    by_cases last : server.locals.bindAttempts = 10
    · rw [if_pos last] at flow
      rw [Phase, flow]
      exact Or.inr ⟨still, by simp⟩
    · rw [if_neg last, gone.resolve_left last] at flow
      rw [Phase, flow]
      exact still
  · have after : server.afterBind = .receiveTest := by
      rw [Server.afterBind, udp]
      rfl
    rw [after] at flow
    split_ifs at flow with listening last inUse
    · rw [Phase, flow]
      exact Or.inr ⟨still, by simp⟩
    · rw [Phase, flow]
      refine Or.inr ⟨still, Or.inl ⟨fd, port, errno, ?_, inUse⟩⟩
      rw [Server.startListening_actions]
      exact List.mem_append_left _ logged
    · rw [Phase, flow]
      exact still
    · rw [Phase, flow]
      refine Or.inr ⟨still, Or.inr ?_⟩
      rw [kept]
      exact Bool.not_eq_true _ ▸ listening

/-- The test of the UDP loop lets nobody through who has not bound the port. -/
theorem Secured.phase_receiveTest {port : UInt16} {server : Server}
    (secured : Secured port server) (haveThreads : Bool) (answer : Answer)
    (atTest : server.pc = .receiveTest) (unhindered : Unhindered server (.start answer)) :
    Phase port (server.startListening haveThreads answer) := by
  have phase := secured.phase
  rw [Phase, atTest] at phase
  rw [Unhindered, atTest] at unhindered
  rcases phase with bound | ⟨quiet, reason⟩
  · apply phase_of_bound
    · exact server.late_step haveThreads answer (by rw [atTest]; rfl)
    · exact bound.start haveThreads answer (by simp [atTest])
  · have stopped : server.listener.listening = false := reason.elim unhindered id
    have flow : (server.startListening haveThreads answer).pc = .returned .ok := by
      simp [Server.startListening, atTest, stopped]
    rw [Phase, flow]
    refine Or.inr ⟨quiet.step haveThreads answer (by rw [atTest]; rfl), fun _ => ?_⟩
    rw [(server.starts haveThreads answer).listening (by simp [atTest])]
    exact stopped

theorem Secured.phase_step {port : UInt16} {server : Server} (secured : Secured port server)
    (haveThreads : Bool) (answer : Answer) (unhindered : Unhindered server (.start answer)) :
    Phase port (server.startListening haveThreads answer) := by
  have phase := secured.phase
  -- Before the first bind nothing is served, and a return there is not `NC_OK`.
  have early : Quiet server.actions → server.pc.serves = false →
      ((server.startListening haveThreads answer).pc = .checkArgs ∨
        (server.startListening haveThreads answer).pc = .raise ∨
        (server.startListening haveThreads answer).pc = .setReuse ∨
        (server.startListening haveThreads answer).pc = .bind ∨
        (server.startListening haveThreads answer).pc = .returned .failed ∨
        (server.startListening haveThreads answer).pc = .returned .badArgs) →
      Phase port (server.startListening haveThreads answer) := by
    intro quiet serves flow
    have still := quiet.step haveThreads answer serves
    rcases flow with flow | flow | flow | flow | flow | flow <;> rw [Phase, flow]
    · exact still
    · exact still
    · exact still
    · exact still
    · exact Or.inr ⟨still, by simp⟩
    · exact Or.inr ⟨still, by simp⟩
  have late : server.pc.late = true → Bound port server →
      Phase port (server.startListening haveThreads answer) := by
    intro late bound
    apply phase_of_bound
    · exact server.late_step haveThreads answer late
    · apply bound.start
      rintro atBind
      rw [atBind] at late
      exact Bool.noConfusion late
  cases pc : server.pc with
  | bind => exact secured.phase_bind haveThreads answer pc
  | bindFailed errno => exact secured.phase_bindFailed haveThreads answer pc unhindered
  | receiveTest => exact secured.phase_receiveTest haveThreads answer pc unhindered
  | returned ret =>
      have same : server.startListening haveThreads answer = server := by
        simp only [Server.startListening, pc]
      rw [same]
      exact phase
  | socket | checkArgs | raise | setReuse =>
      rw [Phase, pc] at phase
      apply early phase (by rw [pc]; rfl)
      simp only [Server.startListening, pc]
      split_ifs <;> simp
  | _ =>
      rw [Phase, pc] at phase
      exact late (by rw [pc]; rfl) phase

theorem Secured.start {port : UInt16} {server : Server} (secured : Secured port server)
    (haveThreads : Bool) (answer : Answer) (unhindered : Unhindered server (.start answer)) :
    Secured port (server.startListening haveThreads answer) := by
  have starts := server.starts haveThreads answer
  exact {
    own := starts.port.trans secured.own
    kind := by rw [starts.socktype]; exact secured.kind
    attempts := secured.attempts_step haveThreads answer
    justified := secured.justified_step haveThreads answer unhindered
    phase := secured.phase_step haveThreads answer unhindered }

theorem Secured.step {port : UInt16} {server : Server} (secured : Secured port server)
    (haveThreads : Bool) (event : Event) (unhindered : Unhindered server event) :
    Secured port ((threads haveThreads).step server event) := by
  cases event with
  | start answer => exact secured.start haveThreads answer unhindered
  | stop => exact secured.stop

theorem Secured.begin {listener : NcSocketListener} {args : Arguments} {stopper : StopPc}
    (kind : listener.socktype = socktypeTcpip ∨ listener.socktype = socktypeUdp) :
    Secured listener.port (.begin listener args stopper) where
  own := rfl
  kind := kind
  attempts := fun _ => Nat.zero_le 10
  justified := .nil
  phase := rfl

/-! ### Without a bind the call returns -/

/-- The call has returned, or a bind has succeeded. -/
def Settled (port : UInt16) (server : Server) : Prop :=
  (∃ ret, server.pc = .returned ret) ∨ ∃ fd, BoundTo port server.actions fd

theorem Settled.step {port : UInt16} {server : Server} (settled : Settled port server)
    (haveThreads : Bool) (event : Event) :
    Settled port ((threads haveThreads).step server event) := by
  cases event with
  | start answer =>
      show Settled port (server.startListening haveThreads answer)
      rcases settled with ⟨ret, ended⟩ | ⟨fd, bound⟩
      · left
        refine ⟨ret, ?_⟩
        simp only [Server.startListening, ended]
      · right
        rw [Server.startListening_actions]
        exact ⟨fd, bound.append _⟩
  | stop =>
      show Settled port server.stopListening
      have stops := server.stops
      rcases settled with ⟨ret, ended⟩ | ⟨fd, bound⟩
      · exact Or.inl ⟨ret, stops.pc.trans ended⟩
      · obtain ⟨more, grown, -⟩ := stops.actions
        rw [Settled, grown]
        exact Or.inr ⟨fd, bound.append more⟩

theorem patience_stop (server : Server) : patience server.stopListening = patience server := by
  unfold patience
  rw [server.stops.pc, server.stops.locals]

/-- Behind the bind loop a call has bound the port or is over, the test of the UDP loop
apart. -/
theorem Secured.settled {port : UInt16} {server : Server} (secured : Secured port server)
    (late : server.pc.late = true) (notTest : server.pc ≠ .receiveTest) :
    Settled port server := by
  have phase := secured.phase
  have ofBound : Bound port server → Settled port server :=
    fun ⟨fd, bound, _⟩ => Or.inr ⟨fd, bound⟩
  unfold Phase at phase
  cases pc : server.pc <;> simp only [pc, Pc.late, Bool.false_eq_true] at late <;>
    simp only [pc] at phase
  case receiveTest => exact absurd pc notTest
  case returned ret => exact Or.inl ⟨ret, pc⟩
  all_goals exact ofBound phase

theorem patience_early {server : Server} (early : server.pc.late = false) :
    1 < patience server := by
  unfold patience
  cases pc : server.pc <;> simp_all [Pc.late]

/-- The bind loop and what comes before it lower the bound with every step. -/
theorem patience_loop (haveThreads : Bool) {server : Server} (answer : Answer)
    (early : server.pc.late = false) (few : server.locals.bindAttempts ≤ 10)
    (stays : (server.startListening haveThreads answer).pc.late = false) :
    patience (server.startListening haveThreads answer) < patience server := by
  rcases server.early_step haveThreads answer early with
    late | ⟨-, lower⟩ | ⟨⟨errno, failed⟩, again, more, counted⟩
  · rw [late] at stays
    exact Bool.noConfusion stays
  · exact lower
  · rw [patience, patience, failed, again, counted]
    dsimp only
    omega

theorem Secured.patience_lowers {port : UInt16} {server : Server}
    (secured : Secured port server) (haveThreads : Bool) (answer : Answer)
    (unhindered : Unhindered server (.start answer)) (unsettled : ¬ Settled port server) :
    Settled port (server.startListening haveThreads answer) ∨
      patience (server.startListening haveThreads answer) < patience server := by
  have next := secured.start haveThreads answer unhindered
  by_cases settled : Settled port (server.startListening haveThreads answer)
  · exact Or.inl settled
  right
  have atTest : (server.startListening haveThreads answer).pc.late = true →
      (server.startListening haveThreads answer).pc = .receiveTest := by
    intro late
    by_contra notTest
    exact settled (next.settled late notTest)
  cases here : server.pc.late with
  | true =>
      -- Only the test of the UDP loop is left, and it does not lead to itself.
      have test : server.pc = .receiveTest := by
        by_contra notTest
        exact unsettled (secured.settled here notTest)
      have again := atTest (server.late_step haveThreads answer here)
      simp only [Server.startListening, test] at again
      split_ifs at again <;> simp at again
  | false =>
      cases there : (server.startListening haveThreads answer).pc.late with
      | true =>
          have one : patience (server.startListening haveThreads answer) = 1 := by
            rw [patience, atTest there]
          rw [one]
          exact patience_early here
      | false => exact patience_loop haveThreads answer here (secured.attempts here) there

/-- In a run whose steps all meet the condition, `listen`, `accept` and `recvfrom` are called
only on a descriptor that a bind to the port of the listener has succeeded on. If none
succeeds, nothing is served, the call returns after at most 30 steps, and it does not return
`NC_OK` unless it was stopped. -/
theorem serves_own_port (haveThreads : Bool) (listener : NcSocketListener)
    (args : Arguments) (stopper : StopPc)
    (kind : listener.socktype = socktypeTcpip ∨ listener.socktype = socktypeUdp)
    (events : List Event)
    (unhindered : (threads haveThreads).Meets Unhindered (.begin listener args stopper) events) :
    let server := (threads haveThreads).run (.begin listener args stopper) events
    (∀ before action later fd, server.actions = before ++ action :: later →
      action.serves = some fd → BoundTo listener.port before fd) ∧
    ((∀ fd, ¬ BoundTo listener.port server.actions fd) →
      Quiet server.actions ∧
      (∀ ret, server.pc = .returned ret → ret = .ok → server.listener.listening = false) ∧
      (30 ≤ events.countP Event.isStart → ∃ ret, server.pc = .returned ret)) := by
  intro server
  have kept : ∀ server event, Secured listener.port server → Unhindered server event →
      Secured listener.port ((threads haveThreads).step server event) :=
    fun _ event secured => secured.step haveThreads event
  have secured : Secured listener.port server :=
    EventMachine.run_invariant _ kept (.begin kind) unhindered
  refine ⟨fun before action later fd split => secured.justified before action later split fd,
    fun unbound => ⟨?_, ?_, ?_⟩⟩
  · apply List.filterMap_eq_nil_iff.mpr
    intro action member
    obtain ⟨before, later, split⟩ := List.append_of_mem member
    by_contra serving
    obtain ⟨fd, serves⟩ := Option.ne_none_iff_exists'.mp serving
    apply unbound fd
    rw [split]
    exact (secured.justified before action later split fd serves).append _
  · intro ret ended ok
    have phase := secured.phase
    rw [Phase, ended] at phase
    rcases phase with ⟨fd, boundTo, -⟩ | ⟨-, reason⟩
    · exact absurd boundTo (unbound fd)
    · exact reason ok
  · intro enough
    have settled : Settled listener.port server := by
      refine EventMachine.run_reaches (Secured listener.port) (Settled listener.port) patience
        Event.isStart kept (fun _ event _ _ settled => settled.step haveThreads event) ?_ ?_
        (.begin kind) unhindered enough
      · rintro server (answer | _) secured unhindered unsettled counts
        · exact secured.patience_lowers haveThreads answer unhindered unsettled
        · exact Bool.noConfusion counts
      · rintro server (answer | _) secured unhindered unsettled counts
        · exact Bool.noConfusion counts
        · exact Or.inr (patience_stop server).le
    rcases settled with ended | ⟨fd, boundTo⟩
    · exact ended
    · exact absurd boundTo (unbound fd)

/-- A bind that is tried again. -/
theorem serves_own_port_retried :
    BoundTo 80 [.socket sockStream 7, .bind 7 80 (-1) (.other 13), .sleep 1000,
      .bind 7 80 0 (.other 0)] 7 := by
  refine (serves_own_port true (.make 80 socktypeTcpip) ⟨true, ncNonthreaded, ncJoined⟩ .begin
    (Or.inl rfl)
    [.start (.value 7), .start (.value 0), .start (.value 0), .start (.error (.other 13)),
      .start (.value 0), .start (.value 0), .start (.value 0)] ?_).1
    _ (.listen 7 16 0) [] 7 rfl rfl
  refine ⟨trivial, trivial, trivial, trivial, ?_, trivial, ?_, trivial⟩
  · exact fun _ => ⟨rfl, Or.inr rfl⟩
  · rfl

/-- A TCP listener whose port is taken listens and accepts, and one that is stopped while
its bind fails listens. A UDP listener whose port is taken receives. A listener that is
stopped between the test of `m_listening` and `accept` accepts on 0. -/
theorem serves_unbound :
    (∃ events, ((threads true).run (.begin (.make 80 socktypeTcpip)
        ⟨true, ncNonthreaded, ncJoined⟩ .begin) events).actions =
      [.socket sockStream 7, .bind 7 80 (-1) .eaddrinuse, .listen 7 16 0, .setNonBlocking 7,
        .accept 7 9]) ∧
    (∃ events, ((threads true).run (.begin (.make 80 socktypeTcpip)
        ⟨true, ncNonthreaded, ncJoined⟩ .begin) events).actions =
      [.socket sockStream 7, .bind 7 80 (-1) (.other 13), .listen 7 16 0]) ∧
    (∃ events, ((threads true).run (.begin (.make 80 socktypeUdp)
        ⟨true, ncNonthreaded, ncJoined⟩ .begin) events).actions =
      [.socket sockDgram 7, .bind 7 80 (-1) .eaddrinuse, .recvfrom 7 12]) ∧
    (∃ events, ((threads true).run (.begin (.make 80 socktypeTcpip)
        ⟨true, ncNonthreaded, ncJoined⟩ .begin) events).actions =
      [.socket sockStream 7, .bind 7 80 0 (.other 0), .listen 7 16 0, .setNonBlocking 7,
        .sleep 250, .shutdown 7 0, .close 7, .accept 0 (-1), .sleep 100]) ∧
    (∀ sockType fd errno, ¬ BoundTo 80 [.socket sockType 7, .bind 7 80 (-1) errno] fd) ∧
    ¬ BoundTo 80 [.socket sockStream 7, .bind 7 80 0 (.other 0), .listen 7 16 0,
      .setNonBlocking 7, .sleep 250, .shutdown 7 0, .close 7] 0 := by
  refine ⟨?_, ?_, ?_, ?_, ?_, ?_⟩
  · exact ⟨[.start (.value 7), .start (.value 0), .start (.value 0), .start (.error .eaddrinuse),
      .start (.value 0), .start (.value 0), .start (.value 0), .start (.value 0),
      .start (.value 9)], rfl⟩
  · exact ⟨[.start (.value 7), .start (.value 0), .start (.value 0),
      .start (.error (.other 13)), .stop, .start (.value 0), .start (.value 0)], rfl⟩
  · exact ⟨[.start (.value 7), .start (.value 0), .start (.value 0), .start (.error .eaddrinuse),
      .start (.value 0), .start (.value 0), .start (.value 12)], rfl⟩
  · exact ⟨[.start (.value 7), .start (.value 0), .start (.value 0), .start (.value 0),
      .start (.value 0), .start (.value 0), .start (.value 0), .stop, .stop, .stop, .stop,
      .stop, .stop, .start (.value (-1))], rfl⟩
  · rintro sockType fd errno ⟨ret, other, member, success⟩
    simp only [List.mem_cons, reduceCtorEq, Action.bind.injEq, List.not_mem_nil, or_false,
      false_or] at member
    exact success member.2.2.1
  · rintro ⟨ret, other, member, -⟩
    simp at member

end NetClass.Listener
