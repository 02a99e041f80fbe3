import NetClass.Arch
import NetClass.Library.EventMachine
import NetClass.Library.Ledger
import Mathlib.Data.List.Nodup

/-!
Contract: `ncThread` on WIN32, and what becomes of the handles of its threads.

Owns: the operations of the class, their system calls, and the proof of which handles are
closed and which calls are made on a handle that the object has created.

Does **not** own: what the threads do. `testCancel` and `exit` do nothing on WIN32, and
`fnptr` and its argument are passed on as they are.

`start` overwrites the handle of the thread before, `join` and `detach` do not close it,
and the destructor closes whatever the field holds, which the constructor leaves unset.
-/

set_option autoImplicit false

namespace NetClass.Thread.Win32

/-- The system calls with their answers. The null handle is 0. -/
inductive Call where
  | createThread (handle : Nat)
  | waitForSingleObject (handle : Nat) (failed : Bool)
  | terminateThread (handle : Nat) (exitStatus : Int)
  | closeHandle (handle : Nat)
deriving DecidableEq, Repr

/-- The field of `class ncThread` that WIN32 uses, and the calls issued so far. -/
structure NcThread where
  ncthread : Nat
  calls : List Call
deriving DecidableEq, Repr

namespace NcThread

/-- `ncThread::ncThread`. The field is not set. -/
def make (unset : Nat) : NcThread := { ncthread := unset, calls := [] }

def issue (object : NcThread) (call : Call) : NcThread :=
  { object with calls := object.calls ++ [call] }

/-- `ncThread::start`. -/
def start (object : NcThread) (handle : Nat) : NcThread × RetCode :=
  ({ object with ncthread := handle }.issue (.createThread handle),
    if handle = 0 then .failed else .ok)

/-- `ncThread::join`. -/
def join (object : NcThread) (failed : Bool) : NcThread × RetCode :=
  (object.issue (.waitForSingleObject object.ncthread failed), if failed then .failed else .ok)

/-- `ncThread::detach`. -/
def detach (object : NcThread) : NcThread × RetCode := (object, .ok)

/-- `ncThread::stop`. -/
def stop (object : NcThread) (exitStatus : Int) : NcThread :=
  object.issue (.terminateThread object.ncthread exitStatus)

/-- `ncThread::~ncThread`. -/
def destroy (object : NcThread) : NcThread := object.issue (.closeHandle object.ncthread)

end NcThread

/-- One operation with what the kernel answers. -/
inductive Operation where
  | start (handle : Nat)
  | join (failed : Bool)
  | detach
  | stop (exitStatus : Int)
deriving DecidableEq, Repr

def NcThread.perform (object : NcThread) : Operation → NcThread
  | .start handle => (object.start handle).1
  | .join failed => (object.join failed).1
  | .detach => object.detach.1
  | .stop exitStatus => object.stop exitStatus

def operations : EventMachine NcThread Operation where
  step := NcThread.perform

/-! ### Handles -/

/-- What a call does to a handle. -/
def handles : Ledger Call Nat where
  effect
    | .createThread handle => if handle = 0 then none else some (.acquires handle)
    | .waitForSingleObject handle _ | .terminateThread handle _ => some (.uses handle)
    | .closeHandle handle => some (.releases handle)

/-- The handles that are open. -/
def NcThread.opened (object : NcThread) : Set Nat := handles.owned ∅ object.calls

/-- A new thread gets a handle that is not in use. -/
def Fresh (object : NcThread) (operation : Operation) : Prop :=
  ∀ handle, operation = .start handle → handle ≠ 0 → handle ∉ object.opened

/-- The handle of a thread that has been started. -/
def Operation.creates : Operation → Option Nat
  | .start handle => if handle = 0 then none else some handle
  | _ => none

def created (history : List Operation) : List Nat := history.filterMap Operation.creates

def Operation.isStart : Operation → Bool
  | .start _ => true
  | _ => false

/-- The operation makes a call on the handle in the field. -/
def Operation.touches : Operation → Bool
  | .join _ | .stop _ => true
  | _ => false

/-- The object after a history. -/
def after (unset : Nat) (history : List Operation) : NcThread :=
  operations.run (.make unset) history

section Steps

variable {object : NcThread} {operation : Operation}

theorem opened_issue (object : NcThread) (call : Call) :
    (object.issue call).opened = handles.after object.opened call :=
  Ledger.owned_concat ∅ object.calls call

theorem lawful_issue (object : NcThread) (call : Call) :
    handles.Lawful ∅ (object.issue call).calls ↔ handles.Lawful ∅ object.calls ∧
      ∀ handle, handles.Touches call handle → handle ∈ object.opened :=
  Ledger.lawful_concat ∅ object.calls call

/-- Nothing is closed before the destructor. -/
theorem opened_perform : (object.perform operation).opened =
    {handle | handle ∈ object.opened ∨ operation.creates = some handle} := by
  cases operation with
  | start handle =>
      have start : (object.perform (.start handle)).opened =
          handles.after object.opened (.createThread handle) :=
        opened_issue { object with ncthread := handle } (.createThread handle)
      rw [start]
      by_cases null : handle = 0
      · simp [Ledger.after, handles, null, Operation.creates]
      · ext other
        simp [Ledger.after, handles, null, Operation.creates, or_comm, eq_comm]
  | join failed =>
      have join : (object.perform (.join failed)).opened = object.opened :=
        opened_issue object (.waitForSingleObject object.ncthread failed)
      simp [join, Operation.creates]
  | detach => simp [NcThread.perform, NcThread.detach, Operation.creates]
  | stop exitStatus =>
      have stop : (object.perform (.stop exitStatus)).opened = object.opened :=
        opened_issue object (.terminateThread object.ncthread exitStatus)
      simp [stop, Operation.creates]

theorem lawful_perform : handles.Lawful ∅ (object.perform operation).calls ↔
    handles.Lawful ∅ object.calls ∧
      (operation.touches = true → object.ncthread ∈ object.opened) := by
  cases operation with
  | start handle =>
      have start := lawful_issue { object with ncthread := handle } (.createThread handle)
      refine start.trans (and_congr_right fun _ => iff_of_true ?_ (fun touches => ?_))
      · intro other touches
        by_cases null : handle = 0 <;> simp [Ledger.Touches, handles, null] at touches
      · cases touches
  | join failed =>
      refine (lawful_issue object _).trans (and_congr_right fun _ => ?_)
      simp [Ledger.Touches, handles, Operation.touches]
  | detach => simp [NcThread.perform, NcThread.detach, Operation.touches]
  | stop exitStatus =>
      refine (lawful_issue object _).trans (and_congr_right fun _ => ?_)
      simp [Ledger.Touches, handles, Operation.touches]

theorem ncthread_perform (quiet : operation.isStart = false) :
    (object.perform operation).ncthread = object.ncthread := by
  cases operation with
  | start handle => cases quiet
  | join failed => rfl
  | detach => rfl
  | stop exitStatus => rfl

end Steps

/-! ### Whole histories -/

section History

variable {unset : Nat} {history : List Operation}

theorem after_append (unset : Nat) (history : List Operation) (operation : Operation) :
    after unset (history ++ [operation]) = (after unset history).perform operation := by
  rw [after, EventMachine.run_append]
  rfl

theorem created_append (history : List Operation) (operation : Operation) :
    created (history ++ [operation]) = created history ++ operation.creates.toList := by
  rw [created, List.filterMap_append]
  cases creates : operation.creates <;> simp [creates, created]

/-- The run lemma: the handles of all threads that were started are open. -/
theorem opened_after (unset : Nat) (history : List Operation) :
    (after unset history).opened = {handle | handle ∈ created history} := by
  induction history using List.reverseRecOn with
  | nil =>
      ext handle
      simp [after, EventMachine.run, NcThread.make, NcThread.opened, created]
  | append_singleton history operation inductionHypothesis =>
      rw [after_append, opened_perform, inductionHypothesis, created_append]
      ext handle
      simp [eq_comm]

/-- A history makes its calls on handles that were created before exactly if each of its
operations does. -/
theorem lawful_after (unset : Nat) (history : List Operation) :
    handles.Lawful ∅ (after unset history).calls ↔
      ∀ before operation later, history = before ++ operation :: later →
        operation.touches = true → (after unset before).ncthread ∈ created before := by
  induction history using List.reverseRecOn with
  | nil => exact iff_of_true trivial fun before operation later split => by simp at split
  | append_singleton history operation inductionHypothesis =>
      rw [after_append, lawful_perform, inductionHypothesis, opened_after]
      constructor
      · rintro ⟨places, last⟩ before other later split touches
        rcases List.eq_nil_or_concat later with rfl | ⟨rest, final, rfl⟩
        · obtain ⟨rfl, same⟩ := List.append_inj' split rfl
          obtain rfl := (List.cons.inj same).1
          exact last touches
        · rw [List.concat_eq_append, ← List.cons_append, ← List.append_assoc] at split
          exact places before other rest (List.append_inj' split rfl).1 touches
      · intro places
        refine ⟨fun before other later split touches => ?_, places history operation [] rfl⟩
        exact places before other (later ++ [operation]) (by simp [split]) touches

/-- Handles that are open are not given out again. -/
theorem nodup_created (fresh : operations.Meets Fresh (.make unset) history) :
    (created history).Nodup := by
  induction history using List.reverseRecOn with
  | nil => exact List.nodup_nil
  | append_singleton history operation inductionHypothesis =>
      obtain ⟨before, here, -⟩ := (EventMachine.meets_append ..).mp fresh
      rw [created_append]
      cases creates : operation.creates with
      | none => simpa using inductionHypothesis before
      | some handle =>
          refine List.nodup_append.mpr ⟨inductionHypothesis before, by simp, ?_⟩
          rintro other member _ new rfl
          obtain rfl : other = handle := by simpa using new
          cases operation with
          | start started =>
              by_cases null : started = 0
              · simp [Operation.creates, null] at creates
              · simp only [Operation.creates, if_neg null, Option.some.injEq] at creates
                subst creates
                have unused := here started rfl null
                rw [show operations.run (.make unset) history = after unset history from rfl,
                  opened_after] at unused
                exact unused member
          | join failed => cases creates
          | detach => cases creates
          | stop exitStatus => cases creates

/-- The field holds what the last `start` has put there. -/
theorem last_start (history : List Operation) :
    (∀ operation ∈ history, operation.isStart = false) ∨
      ∃ before handle later, history = before ++ .start handle :: later ∧
        ∀ operation ∈ later, operation.isStart = false := by
  induction history with
  | nil => exact Or.inl fun operation member => by simp at member
  | cons operation history inductionHypothesis =>
      rcases inductionHypothesis with noStart | ⟨before, handle, later, rfl, noStart⟩
      · cases operation with
        | start handle => exact Or.inr ⟨[], handle, history, rfl, noStart⟩
        | join failed => exact Or.inl (List.forall_mem_cons.mpr ⟨rfl, noStart⟩)
        | detach => exact Or.inl (List.forall_mem_cons.mpr ⟨rfl, noStart⟩)
        | stop exitStatus => exact Or.inl (List.forall_mem_cons.mpr ⟨rfl, noStart⟩)
      · exact Or.inr ⟨operation :: before, handle, later, rfl, noStart⟩

theorem ncthread_after (unset : Nat) (before : List Operation) (handle : Nat)
    (later : List Operation) (noStart : ∀ operation ∈ later, operation.isStart = false) :
    (after unset (before ++ .start handle :: later)).ncthread = handle := by
  induction later using List.reverseRecOn with
  | nil =>
      rw [after_append]
      rfl
  | append_singleton later operation inductionHypothesis =>
      rw [← List.cons_append, ← List.append_assoc, after_append,
        ncthread_perform (noStart operation (by simp))]
      exact inductionHypothesis fun other member => noStart other (by simp [member])

/-- Before the destructor no handle is closed, and it closes the handle in the field only. -/
theorem opened_destroy (unset : Nat) (history : List Operation) :
    (after unset history).destroy.opened =
      {handle | handle ∈ created history ∧ handle ≠ (after unset history).ncthread} := by
  have close : (after unset history).destroy.opened =
      (after unset history).opened \ {(after unset history).ncthread} :=
    opened_issue _ (.closeHandle (after unset history).ncthread)
  rw [close, opened_after]
  rfl

theorem created_split (before : List Operation) (handle : Nat) (later : List Operation) :
    created (before ++ .start handle :: later) =
      created before ++ (if handle = 0 then [] else [handle]) ++ created later := by
  unfold created
  rw [List.filterMap_append]
  by_cases null : handle = 0 <;> simp [Operation.creates, null]

theorem created_of_none (noStart : ∀ operation ∈ history, operation.isStart = false) :
    created history = [] := by
  refine List.filterMap_eq_nil_iff.mpr fun operation member => ?_
  cases operation with
  | start handle => cases noStart _ member
  | join failed => rfl
  | detach => rfl
  | stop exitStatus => rfl

/-- A history with one thread whose handle the destructor closes. -/
def Single (history : List Operation) : Prop :=
  ∃ before handle later, history = before ++ .start handle :: later ∧ handle ≠ 0 ∧
    (∀ operation ∈ before, operation.touches = false ∧ operation.creates = none) ∧
    ∀ operation ∈ later, operation.isStart = false

/-- All handles that were created are the one in the field, and no call came before it. -/
theorem Single.of_closed (nodup : (created history).Nodup)
    (only : ∀ handle ∈ created history, handle = (after unset history).ncthread)
    (mine : (after unset history).ncthread ∈ created history)
    (places : ∀ before operation later, history = before ++ operation :: later →
      operation.touches = true → (after unset before).ncthread ∈ created before) :
    Single history := by
  rcases last_start history with noStart | ⟨before, handle, later, rfl, noStart⟩
  · rw [created_of_none noStart] at mine
    simp at mine
  · rw [ncthread_after unset before handle later noStart] at only mine
    rw [created_split, created_of_none noStart, List.append_nil] at nodup only mine
    have nonnull : handle ≠ 0 := by
      rintro rfl
      obtain ⟨operation, -, creates⟩ := List.mem_filterMap.mp
        (by simpa using mine : 0 ∈ created before)
      cases operation with
      | start handle =>
          by_cases null : handle = 0 <;> simp [Operation.creates, null] at creates
      | join failed => cases creates
      | detach => cases creates
      | stop exitStatus => cases creates
    rw [if_neg nonnull] at nodup only
    have nothing : ∀ other, other ∉ created before := by
      intro other member
      obtain rfl := only other (List.mem_append_left _ member)
      exact (List.nodup_append.mp nodup).2.2 other member other (List.mem_singleton_self other) rfl
    refine ⟨before, handle, later, rfl, nonnull, fun operation member => ⟨?_, ?_⟩, noStart⟩
    · rw [← Bool.not_eq_true]
      intro touches
      obtain ⟨first, rest, rfl⟩ := List.append_of_mem member
      have early := places first operation (rest ++ .start handle :: later) (by simp) touches
      apply nothing (after unset first).ncthread
      rw [created, List.filterMap_append]
      exact List.mem_append_left _ early
    · cases creates : operation.creates with
      | none => rfl
      | some other =>
          exact (nothing other (List.mem_filterMap.mpr ⟨operation, member, creates⟩)).elim

/-- The only handle is the one in the field. -/
theorem Single.closed (unset : Nat) (single : Single history) :
    created history = [(after unset history).ncthread] ∧
      ∀ before operation later, history = before ++ operation :: later →
        operation.touches = true → (after unset before).ncthread ∈ created before := by
  obtain ⟨before, handle, later, rfl, nonnull, quiet, noStart⟩ := single
  have nothing : created before = [] :=
    List.filterMap_eq_nil_iff.mpr fun operation member => (quiet operation member).2
  have here : ∀ rest, (∀ operation ∈ rest, operation.isStart = false) →
      created (before ++ .start handle :: rest) =
        [(after unset (before ++ .start handle :: rest)).ncthread] := by
    intro rest noStart
    rw [ncthread_after unset before handle rest noStart, created_split, created_of_none noStart,
      nothing, if_neg nonnull]
    rfl
  refine ⟨here later noStart, fun first operation rest split touches => ?_⟩
  rcases List.append_eq_append_iff.mp split with ⟨more, rfl, same⟩ | ⟨more, rfl, same⟩
  · cases more with
    | nil =>
        obtain rfl := (List.cons.inj same).1
        cases touches
    | cons next others =>
        obtain ⟨rfl, tail⟩ := List.cons.inj same
        have noStartYet : ∀ operation ∈ others, operation.isStart = false := by
          intro other member
          apply noStart other
          rw [tail]
          exact List.mem_append_left _ member
        rw [here others noStartYet]
        exact List.mem_singleton_self _
  · cases more with
    | nil =>
        obtain rfl := (List.cons.inj same).1
        cases touches
    | cons next others =>
        obtain rfl := (List.cons.inj same).1
        have silent := (quiet operation (by simp)).1
        rw [touches] at silent
        cases silent

end History

/-- An `ncThread` closes every handle it has created, and makes no call on another one,
exactly if one `start` succeeds, none comes after it, and before it there is no `join` and no
`stop`. -/
theorem closes_all_iff (unset : Nat) (history : List Operation)
    (fresh : operations.Meets Fresh (.make unset) history) :
    ((after unset history).destroy.opened = ∅ ∧
        handles.Lawful ∅ (after unset history).destroy.calls) ↔ Single history := by
  have destroyed : handles.Lawful ∅ (after unset history).destroy.calls ↔
      handles.Lawful ∅ (after unset history).calls ∧
        (after unset history).ncthread ∈ created history := by
    refine (lawful_issue _ _).trans (and_congr_right fun _ => ?_)
    simp [Ledger.Touches, handles, opened_after]
  rw [destroyed, opened_destroy, lawful_after, Set.eq_empty_iff_forall_notMem]
  constructor
  · rintro ⟨nothing, places, mine⟩
    refine .of_closed (nodup_created fresh) (fun handle member => ?_) mine places
    by_contra other
    exact nothing handle ⟨member, other⟩
  · intro single
    obtain ⟨only, places⟩ := single.closed unset
    rw [only]
    refine ⟨fun handle left => left.2 (List.mem_singleton.mp left.1), places,
      List.mem_singleton_self _⟩

/-- A thread that is started and joined. -/
theorem closes_all_iff_joined :
    (after 7 [.start 5, .join false]).destroy.opened = ∅ ∧
      handles.Lawful ∅ (after 7 [.start 5, .join false]).destroy.calls :=
  (closes_all_iff 7 [.start 5, .join false]
    ⟨fun _ _ _ => id, fun _ again => Operation.noConfusion again, trivial⟩).mpr
    ⟨[], 5, [.join false], rfl, by decide, by simp, by simp [Operation.isStart]⟩

end NetClass.Thread.Win32
