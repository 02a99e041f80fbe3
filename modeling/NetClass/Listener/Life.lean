import NetClass.Library.Ledger
import NetClass.Listener.Setup

/-!
Contract: the life of an `ncSocketListener`, from the constructor to the destructor.

Owns: the system of one object on which `startListening` is called again and again,
with `stopListening` at any point of it, the descriptors that its `socket` calls leave
open, and the condition under which none is left.

Does **not** own: the descriptors of the clients.

`startListening` creates its socket before it checks its arguments, and overwrites
`m_sockfd` with it whatever the field holds. 0 stands for "none", also as the result of
`socket`.
-/

set_option autoImplicit false

namespace NetClass.Listener

open NetClass.Socket

/-- `ncSocketListener::~ncSocketListener`. -/
def NcSocketListener.destroy (listener : NcSocketListener) : List Action :=
  if listener.sockfd ≠ 0 then [.close listener.sockfd] else []

/-- The object with its current call of `startListening`, if any. `entered` is the object
at the entry of that call as long as `stopListening` has done nothing since. -/
structure Life where
  server : Server
  entered : Option NcSocketListener
  alive : Bool
deriving DecidableEq, Repr

namespace Life

/-- A new object. No call has been made, which is like a call that has returned. -/
def make (port : UInt16) (sockType : Int) (args : Arguments) : Life :=
  { server := { Server.begin (.make port sockType) args .begin with pc := .returned .ok }
    entered := none
    alive := true }

/-- No call of `startListening` is in progress. -/
def idle (life : Life) : Bool :=
  match life.server.pc with
  | .returned _ => true
  | _ => false

end Life

/-- `call` enters `startListening`, `start` and `stop` are steps of the two functions, and
`destroy` is the destructor, which comes when neither is in progress. -/
inductive LifeEvent where
  | call (args : Arguments)
  | start (answer : Answer)
  | stop
  | destroy
deriving DecidableEq, Repr

namespace Life

/-- One event. Nothing happens to the object after its destructor. -/
def step (haveThreads : Bool) (life : Life) (event : LifeEvent) : Life :=
  if life.alive then
    match event with
    | .call args =>
        if life.idle then
          { life with
            server :=
              { Server.begin life.server.listener args life.server.stopper with
                actions := life.server.actions }
            entered := some life.server.listener }
        else life
    | .start answer => { life with server := life.server.startListening haveThreads answer }
    | .stop => { life with server := life.server.stopListening, entered := none }
    | .destroy =>
        if life.idle ∧ life.server.stopper = .begin then
          { life with
            server :=
              { life.server with
                actions := life.server.actions ++ life.server.listener.destroy }
            alive := false }
        else life
  else life

end Life

/-- One object and its threads. -/
def lives (haveThreads : Bool) : EventMachine Life LifeEvent where
  step := Life.step haveThreads

/-- `socket` acquires a descriptor and `close` releases one. Negative numbers are no
descriptors. -/
def ownSockets : Ledger Action Int where
  effect
    | .socket _ fd => if 0 ≤ fd then some (.acquires fd) else none
    | .close fd => if 0 ≤ fd then some (.releases fd) else none
    | _ => none

/-- What the `socket` calls of the object have left open. -/
def Life.owned (life : Life) : Set Int := ownSockets.owned ∅ life.server.actions

/-- The condition on a `socket` call. `m_sockfd` holds no descriptor, unless
`stopListening` has just closed it. The new descriptor is not 0, and is none at all if
`stopListening` is about to assign 0 or if the arguments are bad, when `m_sockfd` has to
hold the same number already. -/
def Uncrossed (life : Life) : LifeEvent → Prop
  | .start answer =>
      life.server.pc = .socket →
        answer.ret ≠ 0 ∧
        (if life.server.stopper = .zero then answer.ret < 0
          else life.server.listener.sockfd ≤ 0) ∧
        (life.server.args.bad = true → answer.ret = life.server.listener.sockfd)
  | _ => True

/-! ### The invariant -/

/-- The descriptor of a number: itself, if it is positive. -/
def descriptorOf (number : Int) : Set Int := {fd | fd = number ∧ 0 < fd}

/-- The descriptor that the object has to close. Between `close` and the assignment of 0
there is none. -/
def Life.held (life : Life) : Set Int :=
  if life.alive = true ∧ life.server.stopper ≠ .zero then
    descriptorOf life.server.listener.sockfd
  else ∅

/-- `startListening` has not changed the fields, as far as it can still return
`NC_BADARGS`. -/
def Unchanged (life : Life) : Prop :=
  ∀ before, life.entered = some before →
    (life.server.pc = .socket ∨ (life.server.pc = .checkArgs ∧ life.server.args.bad = true) ∨
      life.server.pc = .returned .badArgs) → life.server.listener = before

/-- The invariant of an object whose `socket` calls all meet the condition. -/
structure Owns (life : Life) : Prop where
  lawful : ownSockets.Lawful ∅ life.server.actions
  owned : life.owned = life.held
  nonzero : life.server.stopper = .shutdown ∨ life.server.stopper = .close →
    life.server.listener.sockfd ≠ 0
  unchanged : Unchanged life

/-! ### What is added to the log -/

section Log

variable {log more : List Action}

/-- Calls without an effect change nothing. -/
theorem owned_silent (silent : ∀ action ∈ more, ownSockets.effect action = none) :
    ownSockets.owned ∅ (log ++ more) = ownSockets.owned ∅ log := by
  rw [Ledger.owned_append]
  exact Ledger.owned_of_uses 0 more _ fun action member => Or.inl (silent action member)

theorem lawful_silent (lawful : ownSockets.Lawful ∅ log)
    (silent : ∀ action ∈ more, ownSockets.effect action = none) :
    ownSockets.Lawful ∅ (log ++ more) := by
  rw [Ledger.lawful_append]
  exact ⟨lawful, Ledger.lawful_of_uses 0 more _ fun action member =>
    Or.inl (silent action member)⟩

theorem descriptorOf_nonpos {number : Int} (nonpos : number ≤ 0) : descriptorOf number = ∅ := by
  apply Set.eq_empty_of_forall_notMem
  rintro fd ⟨rfl, positive⟩
  omega

theorem descriptorOf_pos {number : Int} (positive : 0 < number) :
    descriptorOf number = {number} := by
  ext fd
  constructor
  · exact fun member => member.1
  · rintro rfl
    exact ⟨rfl, positive⟩

/-- A `socket` call when nothing is owned. -/
theorem owned_socket (none : ownSockets.owned ∅ log = ∅) (sockType : Int) {fd : Int}
    (notZero : fd ≠ 0) :
    ownSockets.owned ∅ (log ++ [.socket sockType fd]) = descriptorOf fd := by
  rw [Ledger.owned_append, none, Ledger.owned_cons, Ledger.owned_nil]
  by_cases nonneg : 0 ≤ fd
  · have acquires : ownSockets.effect (.socket sockType fd) = some (.acquires fd) := if_pos nonneg
    rw [Ledger.after, acquires, descriptorOf_pos (by omega)]
    exact LawfulSingleton.insert_empty_eq fd
  · have silent : ownSockets.effect (.socket sockType fd) = Option.none := if_neg nonneg
    rw [Ledger.after_of_none silent, descriptorOf_nonpos (by omega)]

theorem lawful_socket (lawful : ownSockets.Lawful ∅ log) (sockType fd : Int) :
    ownSockets.Lawful ∅ (log ++ [.socket sockType fd]) := by
  rw [Ledger.lawful_append]
  refine ⟨lawful, fun other touches => ?_, trivial⟩
  unfold Ledger.Touches ownSockets at touches
  by_cases nonneg : 0 ≤ fd <;> simp [nonneg] at touches

/-- The one descriptor that is owned is closed. -/
theorem owned_close {fd : Int} (owned : ownSockets.owned ∅ log = descriptorOf fd) :
    ownSockets.owned ∅ (log ++ [.close fd]) = ∅ := by
  rw [Ledger.owned_append, owned, Ledger.owned_cons, Ledger.owned_nil]
  by_cases nonneg : 0 ≤ fd
  · have releases : ownSockets.effect (.close fd) = some (.releases fd) := if_pos nonneg
    rw [Ledger.after, releases]
    apply Set.eq_empty_of_forall_notMem
    rintro other ⟨member, differs⟩
    exact differs member.1
  · have silent : ownSockets.effect (.close fd) = Option.none := if_neg nonneg
    rw [Ledger.after_of_none silent, descriptorOf_nonpos (by omega)]

theorem lawful_close {fd : Int} (lawful : ownSockets.Lawful ∅ log)
    (owned : ownSockets.owned ∅ log = descriptorOf fd) (notZero : fd ≠ 0) :
    ownSockets.Lawful ∅ (log ++ [.close fd]) := by
  rw [Ledger.lawful_append]
  refine ⟨lawful, fun other touches => ?_, trivial⟩
  unfold Ledger.Touches ownSockets at touches
  by_cases nonneg : 0 ≤ fd
  · simp only [nonneg, ↓reduceIte, Option.some.injEq, reduceCtorEq, Effect.releases.injEq,
      false_or] at touches
    rw [owned, descriptorOf_pos (by omega), touches]
    exact Set.mem_singleton other
  · simp [nonneg] at touches

end Log

/-- Only the `socket` call of `startListening` has an effect. -/
theorem Server.effect_issued (haveThreads : Bool) {server : Server} (answer : Answer)
    (notSocket : server.pc ≠ .socket) :
    ∀ action ∈ server.issued haveThreads answer, ownSockets.effect action = none := by
  have starts : ∀ call ret, ownSockets.effect call = none →
      ∀ action ∈ (threadCall haveThreads call ret).2, ownSockets.effect action = none := by
    intro call ret silent action member
    rw [mem_threadCall member]
    exact silent
  unfold Server.issued NcThread.start NcThread.detach NcThread.join
  cases pc : server.pc <;> dsimp only
  case socket => exact absurd pc notSocket
  case release =>
    split_ifs
    · exact starts _ _ rfl
    · exact starts _ _ rfl
    · simp
  case spawn =>
    rw [List.forall_mem_append, List.forall_mem_cons]
    refine ⟨⟨rfl, starts _ _ rfl⟩, ?_⟩
    split_ifs
    · rw [List.forall_mem_cons]
      refine ⟨rfl, fun action member => ?_⟩
      obtain ⟨call, -, rfl⟩ := List.mem_map.mp member
      rfl
    · simp
  all_goals (try split_ifs) <;> simp [ownSockets]

/-- `NC_BADARGS` is returned by the argument check alone, which changes nothing. -/
theorem Server.badArgs_before {haveThreads : Bool} {server : Server} {answer : Answer}
    (notSocket : server.pc ≠ .socket)
    (early : (server.startListening haveThreads answer).pc = .socket ∨
      ((server.startListening haveThreads answer).pc = .checkArgs ∧ server.args.bad = true) ∨
      (server.startListening haveThreads answer).pc = .returned .badArgs) :
    (server.startListening haveThreads answer).listener = server.listener ∧
      ((server.pc = .checkArgs ∧ server.args.bad = true) ∨ server.pc = .returned .badArgs) := by
  revert early
  unfold Server.startListening Server.afterThread Server.afterBind
  cases pc : server.pc <;> dsimp only <;> (try split_ifs) <;> simp_all

/-! ### Steps -/

section Steps

variable {haveThreads : Bool} {life : Life}

theorem Owns.make (port : UInt16) (sockType : Int) (args : Arguments) :
    Owns (.make port sockType args) where
  lawful := trivial
  owned := (descriptorOf_nonpos (Int.le_refl 0)).symm
  nonzero := by rintro (atShutdown | atClose) <;> contradiction
  unchanged := by
    intro before entered
    cases entered

/-- The step `call`. -/
theorem Owns.call (owns : Owns life) (args : Arguments) :
    Owns { life with
      server := { Server.begin life.server.listener args life.server.stopper with
        actions := life.server.actions }
      entered := some life.server.listener } where
  lawful := owns.lawful
  owned := owns.owned
  nonzero := owns.nonzero
  unchanged := fun _ entered _ => Option.some.inj entered

/-- The `socket` call of `startListening`. -/
theorem Owns.socket (owns : Owns life) (alive : life.alive = true) {answer : Answer}
    (atSocket : life.server.pc = .socket) (clean : Uncrossed life (.start answer)) :
    Owns { life with server := life.server.startListening haveThreads answer } := by
  obtain ⟨notZero, kept, bad⟩ := clean atSocket
  have starts := life.server.starts haveThreads answer
  have grown := Server.startListening_actions haveThreads life.server answer
  rw [Server.issued, atSocket] at grown
  have next : (life.server.startListening haveThreads answer).pc = .checkArgs ∧
      (life.server.startListening haveThreads answer).listener =
        { life.server.listener with sockfd := answer.ret } := by
    simp only [Server.startListening, atSocket, if_neg notZero]
    exact ⟨rfl, rfl⟩
  have none : life.owned = ∅ := by
    rw [owns.owned, Life.held]
    split_ifs with open_
    · rw [if_neg open_.2] at kept
      exact descriptorOf_nonpos kept
    · rfl
  constructor
  · rw [grown]
    exact lawful_socket owns.lawful _ _
  · rw [Life.owned, grown, owned_socket none _ notZero, Life.held]
    show descriptorOf answer.ret = if life.alive = true ∧
      (life.server.startListening haveThreads answer).stopper ≠ .zero then
        descriptorOf (life.server.startListening haveThreads answer).listener.sockfd else ∅
    rw [starts.stopper, next.2]
    split_ifs with open_
    · rfl
    · have atZero : life.server.stopper = .zero := by
        by_contra other
        exact open_ ⟨alive, other⟩
      rw [if_pos atZero] at kept
      exact descriptorOf_nonpos (by omega)
  · intro _
    show (life.server.startListening haveThreads answer).listener.sockfd ≠ 0
    rw [next.2]
    exact notZero
  · intro before entered early
    have same := owns.unchanged before entered (Or.inl atSocket)
    show (life.server.startListening haveThreads answer).listener = before
    rcases early with again | ⟨-, isBad⟩ | returned
    · rw [next.1] at again
      cases again
    · rw [starts.args] at isBad
      rw [next.2, bad isBad, ← same]
    · rw [next.1] at returned
      cases returned

/-- The other steps of `startListening`. -/
theorem Owns.start (owns : Owns life) (alive : life.alive = true) {answer : Answer}
    (clean : Uncrossed life (.start answer)) :
    Owns { life with server := life.server.startListening haveThreads answer } := by
  by_cases atSocket : life.server.pc = .socket
  · exact owns.socket alive atSocket clean
  · have starts := life.server.starts haveThreads answer
    have grown := Server.startListening_actions haveThreads life.server answer
    have silent := Server.effect_issued haveThreads answer atSocket
    have sockfd := starts.sockfd atSocket
    constructor
    · rw [grown]
      exact lawful_silent owns.lawful silent
    · rw [Life.owned, grown, owned_silent silent]
      show life.owned = if life.alive = true ∧
        (life.server.startListening haveThreads answer).stopper ≠ .zero then
          descriptorOf (life.server.startListening haveThreads answer).listener.sockfd else ∅
      rw [starts.stopper, sockfd]
      exact owns.owned
    · show (life.server.startListening haveThreads answer).stopper = .shutdown ∨
        (life.server.startListening haveThreads answer).stopper = .close →
          (life.server.startListening haveThreads answer).listener.sockfd ≠ 0
      rw [starts.stopper, sockfd]
      exact owns.nonzero
    · intro before entered early
      show (life.server.startListening haveThreads answer).listener = before
      rw [starts.args] at early
      obtain ⟨same, was⟩ := Server.badArgs_before atSocket early
      rw [same]
      exact owns.unchanged before entered (Or.inr was)

theorem Life.held_of_alive (alive : life.alive = true) (notZero : life.server.stopper ≠ .zero) :
    life.held = descriptorOf life.server.listener.sockfd := if_pos ⟨alive, notZero⟩

theorem Life.held_of_zero (atZero : life.server.stopper = .zero) : life.held = ∅ :=
  if_neg fun open_ => open_.2 atZero

theorem unchanged_stop (server : Server) :
    Unchanged { life with server := server, entered := none } := by
  intro before entered
  cases entered

/-- A step of `stopListening` that neither closes the descriptor nor forgets it. -/
theorem Owns.keep (owns : Owns life) (alive : life.alive = true) {next : Server}
    {more : List Action} (grown : next.actions = life.server.actions ++ more)
    (silent : ∀ action ∈ more, ownSockets.effect action = none)
    (before : life.server.stopper ≠ .zero) (after : next.stopper ≠ .zero)
    (sockfd : next.listener.sockfd = life.server.listener.sockfd)
    (nonzero : next.stopper = .shutdown ∨ next.stopper = .close →
      life.server.listener.sockfd ≠ 0) :
    Owns { life with server := next, entered := none } where
  lawful := by
    show ownSockets.Lawful ∅ next.actions
    rw [grown]
    exact lawful_silent owns.lawful silent
  owned := by
    have held := owns.owned
    rw [Life.held_of_alive alive before] at held
    have holds : ({ life with server := next, entered := none } : Life).held =
        descriptorOf next.listener.sockfd := if_pos ⟨alive, after⟩
    rw [holds, sockfd, ← held]
    show ownSockets.owned ∅ next.actions = _
    rw [grown, owned_silent silent]
    rfl
  nonzero := by
    show next.stopper = .shutdown ∨ next.stopper = .close → next.listener.sockfd ≠ 0
    rw [sockfd]
    exact nonzero
  unchanged := unchanged_stop next

/-- A step of `stopListening`. -/
theorem Owns.stop (owns : Owns life) (alive : life.alive = true) :
    Owns { life with server := life.server.stopListening, entered := none } := by
  have nonzero := owns.nonzero
  unfold Server.stopListening
  cases stopper : life.server.stopper with
  | begin =>
      exact owns.keep alive (List.append_nil _).symm (by simp) (by simp [stopper])
        StopPc.noConfusion rfl (by rintro (again | again) <;> cases again)
  | sleep =>
      exact owns.keep alive rfl (by simp [ownSockets]) (by simp [stopper])
        StopPc.noConfusion rfl (by rintro (again | again) <;> cases again)
  | test =>
      dsimp only
      split_ifs with some
      · exact owns.keep alive (List.append_nil _).symm (by simp) (by simp [stopper])
          StopPc.noConfusion rfl (fun _ => some)
      · exact owns.keep alive (List.append_nil _).symm (by simp) (by simp [stopper])
          StopPc.noConfusion rfl (by rintro (again | again) <;> cases again)
  | shutdown =>
      exact owns.keep alive rfl (by simp [ownSockets]) (by simp [stopper])
        StopPc.noConfusion rfl (fun _ => nonzero (Or.inl stopper))
  | close =>
      have held := owns.owned
      rw [Life.held_of_alive alive (by simp [stopper])] at held
      exact {
        lawful := lawful_close owns.lawful held (nonzero (Or.inr stopper))
        owned := (owned_close held).trans (Life.held_of_zero rfl).symm
        nonzero := by rintro (again | again) <;> cases again
        unchanged := unchanged_stop _ }
  | zero =>
      have held := owns.owned
      rw [Life.held_of_zero stopper] at held
      exact {
        lawful := owns.lawful
        owned := by
          have holds : ∀ open_ : Prop, [Decidable open_] →
              (if open_ then descriptorOf 0 else ∅) = ∅ := by
            intro open_ _
            split_ifs
            · exact descriptorOf_nonpos (Int.le_refl 0)
            · rfl
          exact held.trans (holds _).symm
        nonzero := by rintro (again | again) <;> cases again
        unchanged := unchanged_stop _ }

/-- The destructor. -/
theorem Owns.destroy (owns : Owns life) (alive : life.alive = true)
    (stopped : life.server.stopper = .begin) :
    Owns { life with
      server := { life.server with
        actions := life.server.actions ++ life.server.listener.destroy }
      alive := false } where
  lawful := by
    have held := owns.owned
    rw [Life.held_of_alive alive (by simp [stopped])] at held
    show ownSockets.Lawful ∅ (life.server.actions ++ life.server.listener.destroy)
    unfold NcSocketListener.destroy
    split_ifs with some
    · exact lawful_close owns.lawful held some
    · rw [List.append_nil]
      exact owns.lawful
  owned := by
    have held := owns.owned
    rw [Life.held_of_alive alive (by simp [stopped])] at held
    have dead : ∀ server : Server, ({ life with server := server, alive := false } : Life).held =
        ∅ := fun server => if_neg fun open_ => Bool.noConfusion open_.1
    rw [dead]
    show ownSockets.owned ∅ (life.server.actions ++ life.server.listener.destroy) = ∅
    unfold NcSocketListener.destroy
    split_ifs with some
    · exact owned_close held
    · rw [List.append_nil]
      rw [not_not] at some
      rw [some, descriptorOf_nonpos (Int.le_refl 0)] at held
      exact held
  nonzero := owns.nonzero
  unchanged := owns.unchanged

theorem Owns.step (owns : Owns life) {event : LifeEvent} (clean : Uncrossed life event) :
    Owns (life.step haveThreads event) := by
  unfold Life.step
  by_cases alive : life.alive = true
  · rw [if_pos alive]
    cases event with
    | call args =>
        dsimp only
        split_ifs
        · exact owns.call args
        · exact owns
    | start answer => exact owns.start alive clean
    | stop => exact owns.stop alive
    | destroy =>
        dsimp only
        split_ifs with ready
        · exact owns.destroy alive ready.2
        · exact owns
  · rw [if_neg alive]
    exact owns

end Steps

/-! ### Whole lives -/

/-- If each `socket` call meets the condition, every descriptor that `socket` has returned
is closed exactly once by the end of the destructor, and a call that returns `NC_BADARGS`
has left the fields as they were. -/
theorem closes_each_socket (haveThreads : Bool) (port : UInt16) (sockType : Int)
    (args : Arguments) (events : List LifeEvent)
    (clean : (lives haveThreads).Meets Uncrossed (.make port sockType args) events) :
    let life := (lives haveThreads).run (.make port sockType args) events
    (∀ before fd later, life.server.actions = before ++ .close fd :: later → 0 ≤ fd →
      fd ∈ ownSockets.owned ∅ before) ∧
    (life.alive = false → life.owned = ∅ ∧
      ∀ before sockType fd later, life.server.actions = before ++ .socket sockType fd :: later →
        0 ≤ fd → .close fd ∈ later) ∧
    ∀ before, life.entered = some before → life.server.pc = .returned .badArgs →
      life.server.listener = before := by
  intro life
  have owns : Owns life :=
    EventMachine.run_invariant Owns (fun life event owns clean => owns.step clean)
      (.make port sockType args) clean
  refine ⟨?_, ?_, ?_⟩
  · intro before fd later split nonneg
    apply (Ledger.lawful_iff life.server.actions ∅).mp owns.lawful before _ later split
    exact Or.inr (if_pos nonneg)
  · intro dead
    have none : life.owned = ∅ :=
      owns.owned.trans (if_neg fun open_ => Bool.noConfusion (dead.symm.trans open_.1))
    refine ⟨none, fun before sockType fd later split nonneg => ?_⟩
    have lost : fd ∉ ownSockets.owned ∅ (before ++ .socket sockType fd :: later) := by
      rw [← split]
      show fd ∉ life.owned
      rw [none]
      exact id
    obtain ⟨action, member, releases⟩ := Ledger.released_of_acquired (if_pos nonneg) lost
    cases action with
    | close other =>
        simp only [ownSockets, Option.ite_none_right_eq_some, Option.some.injEq,
          Effect.releases.injEq] at releases
        rw [← releases.2]
        exact member
    | socket kind other =>
        simp only [ownSockets, Option.ite_none_right_eq_some, Option.some.injEq, reduceCtorEq,
          and_false] at releases
    | _ => cases releases
  · exact fun before entered returned =>
      owns.unchanged before entered (Or.inr (Or.inr returned))

/-- A listener that fails to listen is stopped before it is started again. -/
theorem closes_each_socket_restarted :
    Action.close 7 ∈ ([.bind 7 80 0 (.other 0), .listen 7 16 (-1), .sleep 250, .shutdown 7 0,
      .close 7, .socket 1 8, .bind 8 80 0 (.other 0), .listen 8 16 (-1), .close 8] :
        List Action) := by
  apply ((closes_each_socket true 80 socktypeTcpip ⟨true, ncNonthreaded, ncJoined⟩
    [.call ⟨true, ncNonthreaded, ncJoined⟩, .start (.value 7), .start (.value 0),
      .start (.value 0), .start (.value 0), .start (.value (-1)), .stop, .stop, .stop, .stop,
      .stop, .stop, .call ⟨true, ncNonthreaded, ncJoined⟩, .start (.value 8), .start (.value 0),
      .start (.value 0), .start (.value 0), .start (.value (-1)), .destroy] ?_).2.1 rfl).2
    [] 1 7 _ rfl (by decide)
  refine ⟨trivial, ?_, nofun, nofun, nofun, nofun, trivial, trivial, trivial, trivial, trivial,
    trivial, trivial, ?_, nofun, nofun, nofun, nofun, trivial, trivial⟩
  · exact fun _ => ⟨by decide, Int.le_refl 0, nofun⟩
  · exact fun _ => ⟨by decide, Int.le_refl 0, nofun⟩

/-- Two calls leave the first socket open. A call with bad arguments changes `m_sockfd`.
A socket with the number 0 is never closed. -/
theorem leaves_socket :
    (∃ events, ((lives true).run (.make 80 socktypeTcpip ⟨true, ncNonthreaded, ncJoined⟩)
        events).alive = false ∧
      ((lives true).run (.make 80 socktypeTcpip ⟨true, ncNonthreaded, ncJoined⟩)
        events).server.actions = [.socket 1 7, .bind 7 80 0 (.other 0), .listen 7 16 (-1),
          .socket 1 8, .bind 8 80 0 (.other 0), .listen 8 16 (-1), .close 8]) ∧
    (∃ events, ((lives true).run (.make 80 socktypeTcpip ⟨true, ncNonthreaded, ncJoined⟩)
        events).server.pc = .returned .badArgs ∧
      ((lives true).run (.make 80 socktypeTcpip ⟨true, ncNonthreaded, ncJoined⟩)
        events).entered = some (.make 80 socktypeTcpip) ∧
      ((lives true).run (.make 80 socktypeTcpip ⟨true, ncNonthreaded, ncJoined⟩)
        events).server.listener.sockfd = 7) ∧
    ∃ events, ((lives true).run (.make 80 socktypeTcpip ⟨true, ncNonthreaded, ncJoined⟩)
        events).alive = false ∧
      ((lives true).run (.make 80 socktypeTcpip ⟨true, ncNonthreaded, ncJoined⟩)
        events).server.actions = [.socket 1 0] := by
  refine ⟨⟨[.call ⟨true, ncNonthreaded, ncJoined⟩, .start (.value 7), .start (.value 0),
      .start (.value 0), .start (.value 0), .start (.value (-1)),
      .call ⟨true, ncNonthreaded, ncJoined⟩, .start (.value 8), .start (.value 0),
      .start (.value 0), .start (.value 0), .start (.value (-1)), .destroy], rfl, rfl⟩,
    ⟨[.call ⟨false, ncNonthreaded, ncJoined⟩, .start (.value 7), .start (.value 0)],
      rfl, rfl, rfl⟩,
    [.call ⟨true, ncNonthreaded, ncJoined⟩, .start (.value 0), .destroy], rfl, rfl⟩

end NetClass.Listener
