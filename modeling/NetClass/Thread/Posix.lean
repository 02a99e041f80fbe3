import NetClass.Arch
import NetClass.Library.EventMachine
import NetClass.Library.Ledger

/-!
Contract: `ncThread` on POSIX in a build with `HAVE_THREADS`, and what becomes of the threads
it has started.

Owns: the operations of the class, their `pthread` calls, and the proof of which histories
join or detach every thread once and name no other thread.

Does **not** own: what the threads do, and the functions that act on the calling thread: the
constructor's cancellation state, `testCancel` and `exit`.

`start` overwrites the name of the thread before, and a `pthread_create` that fails may leave
anything there. After a thread has been joined or detached, its name must not be used again,
also not to cancel it.
-/

set_option autoImplicit false

namespace NetClass.Thread.Posix

/-- The `pthread` calls with their answers. -/
inductive Call where
  | pthreadCreate (thread : Nat) (failed : Bool)
  | pthreadJoin (thread : Nat) (failed : Bool)
  | pthreadDetach (thread : Nat) (failed : Bool)
  | pthreadCancel (thread : Nat)
deriving DecidableEq, Repr

/-- The fields of `class ncThread`, and the calls issued so far. -/
structure NcThread where
  retVal : Nat
  ncthread : Nat
  calls : List Call
deriving DecidableEq, Repr

namespace NcThread

/-- `ncThread::ncThread`. `m_retVal` is the null pointer, and `ncthread` is not set. -/
def make (unset : Nat) : NcThread := { retVal := 0, ncthread := unset, calls := [] }

def issue (object : NcThread) (call : Call) : NcThread :=
  { object with calls := object.calls ++ [call] }

/-- `ncThread::start`. -/
def start (object : NcThread) (thread : Nat) (failed : Bool) : NcThread × RetCode :=
  ({ object with ncthread := thread }.issue (.pthreadCreate thread failed),
    if failed then .failed else .ok)

/-- `pthread_join(ncthread,&m_retVal)`. -/
def pthreadJoin (object : NcThread) (failed : Bool) (value : Nat) : NcThread :=
  { object with retVal := if failed then object.retVal else value }.issue
    (.pthreadJoin object.ncthread failed)

/-- `ncThread::join`. -/
def join (object : NcThread) (failed : Bool) (value : Nat) : NcThread × RetCode :=
  (object.pthreadJoin failed value, if failed then .failed else .ok)

/-- `ncThread::detach`. -/
def detach (object : NcThread) (failed : Bool) : NcThread × RetCode :=
  (object.issue (.pthreadDetach object.ncthread failed), if failed then .failed else .ok)

/-- `ncThread::stop`. The exit status is not used. -/
def stop (object : NcThread) (failed : Bool) (value : Nat) : NcThread :=
  (object.issue (.pthreadCancel object.ncthread)).pthreadJoin failed value

end NcThread

/-- One operation with what the system answers. -/
inductive Operation where
  | start (thread : Nat) (failed : Bool)
  | join (failed : Bool) (value : Nat)
  | detach (failed : Bool)
  | stop (exitStatus : Int) (failed : Bool) (value : Nat)
deriving DecidableEq, Repr

def NcThread.perform (object : NcThread) : Operation → NcThread
  | .start thread failed => (object.start thread failed).1
  | .join failed value => (object.join failed value).1
  | .detach failed => (object.detach failed).1
  | .stop _ failed value => object.stop failed value

def operations : EventMachine NcThread Operation where
  step := NcThread.perform

/-! ### Threads -/

/-- What a call does to a thread. One that is neither joined nor detached is owned. -/
def threads : Ledger Call Nat where
  effect
    | .pthreadCreate thread failed => if failed then none else some (.acquires thread)
    | .pthreadJoin thread failed | .pthreadDetach thread failed =>
        some (if failed then .uses thread else .releases thread)
    | .pthreadCancel thread => some (.uses thread)

/-- The threads that can be joined. -/
def NcThread.joinable (object : NcThread) : Set Nat := threads.owned ∅ object.calls

/-- A new thread has a name that no joinable one has. What a failed `pthread_create` leaves
behind is no such name either, unless it leaves the field alone. -/
def Fresh (object : NcThread) (operation : Operation) : Prop :=
  ∀ thread failed, operation = .start thread failed →
    thread ∉ object.joinable ∨ (failed = true ∧ thread = object.ncthread)

/-- How the class is meant to be used, with the running thread, if any: the phase after an
operation, or `none` for one that is out of place. -/
def phase : Option Nat → Operation → Option (Option Nat)
  | none, .start thread failed => some (if failed then none else some thread)
  | some handle, .start thread failed =>
      if failed ∧ thread = handle then some (some handle) else none
  | some handle, .join failed _ | some handle, .detach failed | some handle, .stop _ failed _ =>
      some (if failed then some handle else none)
  | none, .join _ _ | none, .detach _ | none, .stop _ _ _ => none

/-- The phase after a history of which no operation is out of place. -/
def phases : Option Nat → List Operation → Option (Option Nat)
  | running, [] => some running
  | running, operation :: rest => (phase running operation).bind (phases · rest)

section Calls

variable {object : NcThread} {call : Call} {thread : Nat}

theorem joinable_issue (object : NcThread) (call : Call) :
    (object.issue call).joinable = threads.after object.joinable call :=
  Ledger.owned_concat ∅ object.calls call

theorem lawful_issue (object : NcThread) (call : Call) :
    threads.Lawful ∅ (object.issue call).calls ↔ threads.Lawful ∅ object.calls ∧
      ∀ thread, threads.Touches call thread → thread ∈ object.joinable :=
  Ledger.lawful_concat ∅ object.calls call

theorem joinable_start (object : NcThread) (thread : Nat) (failed : Bool) :
    (object.start thread failed).1.joinable =
      threads.after object.joinable (.pthreadCreate thread failed) :=
  joinable_issue { object with ncthread := thread } (.pthreadCreate thread failed)

/-- `start` ends no thread. -/
theorem mem_joinable_start {other : Nat} {failed : Bool} (mine : other ∈ object.joinable) :
    other ∈ (object.start thread failed).1.joinable := by
  rw [joinable_start]
  refine Ledger.mem_after_of_not_releases mine ?_
  cases failed <;> simp [threads]

end Calls

/-! ### As long as the operations are in place -/

/-- The object in a phase: the running thread is the only one that can be joined, and it is
the one in the field. -/
structure InPhase (running : Option Nat) (object : NcThread) : Prop where
  lawful : threads.Lawful ∅ object.calls
  joinable : object.joinable = {thread | running = some thread}
  field : ∀ thread, running = some thread → object.ncthread = thread

/-- The object has made a call on a thread that could not be joined, or the name of one that
can is lost. -/
inductive Spoilt (object : NcThread) : Prop where
  | unlawful (unlawful : ¬ threads.Lawful ∅ object.calls)
  | lost (thread : Nat) (joinable : thread ∈ object.joinable) (gone : object.ncthread ≠ thread)

section Phases

variable {running next : Option Nat} {object : NcThread} {operation : Operation}

/-- A call that uses the running thread. -/
theorem InPhase.uses (inPhase : InPhase (some object.ncthread) object) {call : Call}
    (effect : threads.effect call = some (.uses object.ncthread)) :
    InPhase (some object.ncthread) (object.issue call) where
  lawful := by
    refine (lawful_issue object call).mpr ⟨inPhase.lawful, fun thread touches => ?_⟩
    obtain rfl : object.ncthread = thread := by simpa [Ledger.Touches, effect] using touches
    rw [inPhase.joinable]
    rfl
  joinable := by
    rw [joinable_issue, Ledger.after_of_uses effect]
    exact inPhase.joinable
  field := inPhase.field

/-- A call that joins or detaches it. -/
theorem InPhase.releases (inPhase : InPhase (some object.ncthread) object) {call : Call}
    (effect : threads.effect call = some (.releases object.ncthread)) :
    InPhase none (object.issue call) where
  lawful := by
    refine (lawful_issue object call).mpr ⟨inPhase.lawful, fun thread touches => ?_⟩
    obtain rfl : object.ncthread = thread := by simpa [Ledger.Touches, effect] using touches
    rw [inPhase.joinable]
    rfl
  joinable := by
    rw [joinable_issue, Ledger.after, effect, inPhase.joinable]
    ext thread
    simp [eq_comm]
  field := fun thread none => by cases none

/-- `pthread_join` in the right place. -/
theorem InPhase.pthreadJoin (inPhase : InPhase (some object.ncthread) object) (failed : Bool)
    (value : Nat) :
    InPhase (if failed then some object.ncthread else none)
      (object.pthreadJoin failed value) := by
  have stored : InPhase (some object.ncthread)
      { object with retVal := if failed then object.retVal else value } :=
    ⟨inPhase.lawful, inPhase.joinable, inPhase.field⟩
  cases failed with
  | true => exact stored.uses rfl
  | false => exact stored.releases rfl

theorem InPhase.detach (inPhase : InPhase (some object.ncthread) object) (failed : Bool) :
    InPhase (if failed then some object.ncthread else none) (object.detach failed).1 := by
  cases failed with
  | true => exact inPhase.uses rfl
  | false => exact inPhase.releases rfl

/-- A `start` while no thread is running. -/
theorem InPhase.start (inPhase : InPhase none object) (thread : Nat) (failed : Bool) :
    InPhase (if failed then none else some thread) (object.start thread failed).1 := by
  have nothing : object.joinable = ∅ := by simpa using inPhase.joinable
  have lawful : threads.Lawful ∅ (object.start thread failed).1.calls := by
    refine (lawful_issue _ _).mpr ⟨inPhase.lawful, fun other touches => ?_⟩
    cases failed <;> simp [Ledger.Touches, threads] at touches
  have joinable := joinable_start object thread failed
  rw [nothing] at joinable
  cases failed with
  | true =>
      have silent : threads.effect (.pthreadCreate thread true) = none := rfl
      refine ⟨lawful, ?_, fun other same => by cases same⟩
      rw [joinable, Ledger.after_of_none silent]
      simp
  | false =>
      refine ⟨lawful, ?_, fun other same => Option.some.inj same⟩
      rw [joinable]
      ext other
      simp [Ledger.after, threads, eq_comm]

/-- A `start` that fails and leaves the field alone. -/
theorem InPhase.notStarted (inPhase : InPhase (some object.ncthread) object) :
    InPhase (some object.ncthread) (object.start object.ncthread true).1 where
  lawful := by
    refine (lawful_issue _ _).mpr ⟨inPhase.lawful, fun other touches => ?_⟩
    simp [Ledger.Touches, threads] at touches
  joinable := by
    have silent : threads.effect (.pthreadCreate object.ncthread true) = none := rfl
    rw [joinable_start, Ledger.after_of_none silent]
    exact inPhase.joinable
  field := inPhase.field

/-- The step lemma for an operation in place. -/
theorem InPhase.step (inPhase : InPhase running object)
    (place : phase running operation = some next) : InPhase next (object.perform operation) := by
  cases running with
  | none =>
      cases operation with
      | start thread failed =>
          obtain rfl := Option.some.inj place
          exact inPhase.start thread failed
      | join failed value => cases place
      | detach failed => cases place
      | stop exitStatus failed value => cases place
  | some handle =>
      obtain rfl := inPhase.field handle rfl
      cases operation with
      | start thread failed =>
          rw [phase, Option.ite_none_right_eq_some] at place
          obtain ⟨⟨rfl, rfl⟩, same⟩ := place
          obtain rfl := Option.some.inj same
          exact inPhase.notStarted
      | join failed value =>
          obtain rfl := Option.some.inj place
          exact inPhase.pthreadJoin failed value
      | detach failed =>
          obtain rfl := Option.some.inj place
          exact inPhase.detach failed
      | stop exitStatus failed value =>
          obtain rfl := Option.some.inj place
          let cancelled := object.issue (.pthreadCancel object.ncthread)
          have inPlace : InPhase (some cancelled.ncthread) cancelled := inPhase.uses rfl
          exact inPlace.pthreadJoin failed value

end Phases

/-! ### Once one of them is out of place -/

section Spoilt

variable {running : Option Nat} {object : NcThread} {operation : Operation}

/-- A call that is made on the field alone cannot make good. -/
theorem Spoilt.issue (spoilt : Spoilt object) {call : Call}
    (only : ∀ thread, threads.effect call = some (.releases thread) →
      thread = object.ncthread) : Spoilt (object.issue call) := by
  cases spoilt with
  | unlawful unlawful =>
      exact .unlawful fun lawful => unlawful ((lawful_issue object call).mp lawful).1
  | lost thread joinable gone =>
      refine .lost thread ?_ gone
      rw [joinable_issue]
      exact Ledger.mem_after_of_not_releases joinable fun releases =>
        gone (only thread releases).symm

theorem Spoilt.pthreadJoin (spoilt : Spoilt object) (failed : Bool) (value : Nat) :
    Spoilt (object.pthreadJoin failed value) := by
  have stored : Spoilt { object with retVal := if failed then object.retVal else value } := by
    cases spoilt with
    | unlawful unlawful => exact .unlawful unlawful
    | lost thread joinable gone => exact .lost thread joinable gone
  refine stored.issue fun thread releases => ?_
  cases failed <;> simp [threads] at releases
  exact releases.symm

/-- A new name in the field is not one that was lost. -/
theorem Spoilt.start (spoilt : Spoilt object) {thread : Nat} {failed : Bool}
    (fresh : Fresh object (.start thread failed)) : Spoilt (object.start thread failed).1 := by
  cases spoilt with
  | unlawful unlawful =>
      exact .unlawful fun lawful => unlawful ((lawful_issue _ _).mp lawful).1
  | lost other joinable gone =>
      refine .lost other (mem_joinable_start joinable) ?_
      show thread ≠ other
      rcases fresh thread failed rfl with unused | ⟨-, rfl⟩
      · rintro rfl
        exact unused joinable
      · exact gone

/-- What is spoilt stays so. -/
theorem Spoilt.step (spoilt : Spoilt object) (fresh : Fresh object operation) :
    Spoilt (object.perform operation) := by
  cases operation with
  | start thread failed => exact spoilt.start fresh
  | join failed value => exact spoilt.pthreadJoin failed value
  | detach failed =>
      refine spoilt.issue fun thread releases => ?_
      cases failed <;> simp [threads] at releases
      exact releases.symm
  | stop exitStatus failed value =>
      have cancelled : Spoilt (object.issue (.pthreadCancel object.ncthread)) :=
        spoilt.issue fun thread releases => by simp [threads] at releases
      exact cancelled.pthreadJoin failed value

/-- A call on the field while no thread is running. -/
theorem InPhase.misuse (inPhase : InPhase none object) {call : Call}
    (touches : threads.Touches call object.ncthread) : Spoilt (object.issue call) := by
  refine .unlawful fun lawful => ?_
  have joinable := ((lawful_issue object call).mp lawful).2 object.ncthread touches
  rw [inPhase.joinable] at joinable
  cases joinable

/-- The step lemma for an operation out of place. -/
theorem InPhase.spoils (inPhase : InPhase running object) (fresh : Fresh object operation)
    (misplaced : phase running operation = none) : Spoilt (object.perform operation) := by
  cases running with
  | none =>
      cases operation with
      | start thread failed => cases misplaced
      | join failed value =>
          have stored : InPhase none
              { object with retVal := if failed then object.retVal else value } :=
            ⟨inPhase.lawful, inPhase.joinable, inPhase.field⟩
          apply stored.misuse
          cases failed <;> simp [Ledger.Touches, threads]
      | detach failed =>
          apply inPhase.misuse
          cases failed <;> simp [Ledger.Touches, threads]
      | stop exitStatus failed value =>
          have cancelled : Spoilt (object.issue (.pthreadCancel object.ncthread)) :=
            inPhase.misuse (Or.inl rfl)
          exact cancelled.pthreadJoin failed value
  | some handle =>
      obtain rfl := inPhase.field handle rfl
      cases operation with
      | start thread failed =>
          rw [phase, ite_eq_right_iff] at misplaced
          have changed : ¬ (failed = true ∧ thread = object.ncthread) := fun same => by
            cases misplaced same
          have unused : thread ∉ object.joinable :=
            (fresh thread failed rfl).resolve_right changed
          have running : object.ncthread ∈ object.joinable := by
            rw [inPhase.joinable]
            rfl
          refine .lost object.ncthread (mem_joinable_start running) fun same => unused ?_
          rw [show thread = object.ncthread from same]
          exact running
      | join failed value => cases misplaced
      | detach failed => cases misplaced
      | stop exitStatus failed value => cases misplaced

end Spoilt

/-! ### Whole histories -/

/-- Every thread that was started has been joined or detached, and no call was made on another
one. -/
def Released (object : NcThread) : Prop :=
  object.joinable = ∅ ∧ threads.Lawful ∅ object.calls

theorem Spoilt.not_released {object : NcThread} (spoilt : Spoilt object) : ¬ Released object := by
  rintro ⟨nothing, lawful⟩
  cases spoilt with
  | unlawful unlawful => exact unlawful lawful
  | lost thread joinable gone =>
      rw [nothing] at joinable
      exact joinable

/-- The run lemma, from any phase. -/
theorem InPhase.released_iff {running : Option Nat} {object : NcThread}
    (inPhase : InPhase running object) (history : List Operation)
    (fresh : operations.Meets Fresh object history) :
    Released (operations.run object history) ↔ phases running history = some none := by
  induction history generalizing running object with
  | nil =>
      have nothing : object.joinable = ∅ ↔ running = none := by
        rw [inPhase.joinable]
        cases running <;> simp [Set.eq_empty_iff_forall_notMem]
      exact (and_iff_left inPhase.lawful).trans (nothing.trans Option.some_inj.symm)
  | cons operation history inductionHypothesis =>
      cases place : phase running operation with
      | some next =>
          rw [phases, place]
          exact inductionHypothesis (inPhase.step place) fresh.2
      | none =>
          have spoilt : Spoilt (operations.run (object.perform operation) history) :=
            EventMachine.run_invariant Spoilt (fun _ _ spoilt fresh => spoilt.step fresh)
              (inPhase.spoils fresh.1 place) fresh.2
          rw [phases, place]
          exact iff_of_false spoilt.not_released nofun

/-- An `ncThread` joins or detaches every thread that it has started exactly once, and makes
no other call on a thread that is gone, exactly if it is used in turns: a `start` that
succeeds, which may follow others that have failed, and one `join`, `detach` or `stop` that
succeeds before the next `start`. A `start` that fails while a thread is running does no harm
if it leaves the field alone. -/
theorem releases_all_iff (unset : Nat) (history : List Operation)
    (fresh : operations.Meets Fresh (.make unset) history) :
    Released (operations.run (.make unset) history) ↔ phases none history = some none := by
  have inPhase : InPhase none (.make unset) := by
    refine ⟨trivial, ?_, fun thread none => by cases none⟩
    ext thread
    simp [NcThread.joinable, NcThread.make]
  exact inPhase.released_iff history fresh

/-- Two threads in turns, with a `join` that fails in between. -/
def inTurns : List Operation :=
  [.start 5 false, .join true 0, .stop 0 false 3, .start 5 false, .detach false]

theorem releases_all_iff_inTurns : Released (operations.run (.make 7) inTurns) := by
  have unused : ∀ object : NcThread, 5 ∉ object.joinable → Fresh object (.start 5 false) := by
    intro object free thread failed same
    cases same
    exact Or.inl free
  have other : ∀ (object : NcThread) (operation : Operation),
      (∀ thread failed, operation ≠ .start thread failed) → Fresh object operation :=
    fun _ _ notStart thread failed same => absurd same (notStart thread failed)
  have fresh : operations.Meets Fresh (.make 7) inTurns := by
    refine ⟨unused _ ?_, other _ _ ?_, other _ _ ?_, unused _ ?_, other _ _ ?_, trivial⟩
    · exact id
    · simp
    · simp
    · simp [operations, NcThread.perform, NcThread.start, NcThread.join, NcThread.stop,
        NcThread.pthreadJoin, NcThread.issue, NcThread.make, NcThread.joinable, Ledger.owned,
        Ledger.after, threads]
    · simp
  exact (releases_all_iff 7 inTurns fresh).mpr rfl

end NetClass.Thread.Posix
