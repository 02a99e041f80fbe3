import NetClass.Arch
import NetClass.Library.EventMachine
import NetClass.Library.Holding

/-!
Contract: `ncMutex` on WIN32, and what its flag says about the critical section.

Owns: the operations of the class on a `CRITICAL_SECTION`, which its owner may enter
again, the runs of any threads on one object, and the exact condition under which
`isLocked` tells the truth and the destructor leaves the section unlocked.

Does **not** own: the calls of a thread that waits in `EnterCriticalSection`. An
operation is one step and a thread that has to wait has not made it yet.

`lock` counts entries of the section, but `unlock` clears the flag at the first of them
that is left, and `trylock` clears it when it has not entered at all.
-/

set_option autoImplicit false

namespace NetClass.Mutex.Win32

universe u

/-- The fields of `class ncMutex`. -/
structure NcMutex (Thread : Type u) where
  mutex : Holding Thread
  locked : Int
deriving DecidableEq, Repr

namespace NcMutex

variable {Thread : Type u}

/-- `ncMutex::ncMutex`. -/
def make : NcMutex Thread := { mutex := .free, locked := 0 }

/-- `ncMutex::lock`. `none` means that the thread waits. -/
def lock [DecidableEq Thread] (object : NcMutex Thread) (thread : Thread) :
    Option (NcMutex Thread) :=
  (object.mutex.enter thread).map fun entered => { mutex := entered, locked := 1 }

/-- `ncMutex::trylock`. `canTry` tells whether the build has `TryEnterCriticalSection`,
that is, whether `_WIN32_WINNT >= 0x0400`. -/
def trylock [DecidableEq Thread] (canTry : Bool) (object : NcMutex Thread) (thread : Thread) :
    NcMutex Thread × RetCode :=
  if canTry then
    match object.mutex.enter thread with
    | some entered => ({ mutex := entered, locked := 1 }, .ok)
    | none => ({ object with locked := 0 }, .failed)
  else (object, .notSupported)

/-- `ncMutex::unlock`. `LeaveCriticalSection` does not look at its caller. -/
def unlock (object : NcMutex Thread) : NcMutex Thread :=
  { mutex := object.mutex.leave, locked := 0 }

/-- `ncMutex::~ncMutex`, up to `DeleteCriticalSection`. -/
def destroy (object : NcMutex Thread) : NcMutex Thread :=
  if object.locked ≠ 0 then object.unlock else object

/-- `ncMutex::isLocked`. -/
def isLocked (object : NcMutex Thread) : Int := object.locked

end NcMutex

/-- One operation of one thread. -/
inductive Operation (Thread : Type u) where
  | lock (thread : Thread)
  | trylock (thread : Thread)
  | unlock (thread : Thread)
deriving DecidableEq, Repr

section Truth

variable {Thread : Type u}

/-- The flag is raised exactly if some thread holds the section. -/
def Truthful (object : NcMutex Thread) : Prop :=
  object.isLocked ≠ 0 ↔ ∃ thread, object.mutex.By thread

theorem truthful_make : Truthful (.make : NcMutex Thread) := by
  simp [Truthful, NcMutex.make, NcMutex.isLocked, Holding.By]

/-- An `unlock` is followed by the truth exactly if the section is then free. -/
theorem truthful_unlock_iff (object : NcMutex Thread) :
    Truthful object.unlock ↔ object.mutex.depth ≤ 1 := by
  have lowered : object.unlock.isLocked = 0 := rfl
  rw [Truthful, lowered, ← Holding.depth_pos_iff]
  simp only [NcMutex.unlock, Holding.depth_leave]
  omega

/-- The destructor unlocks once if the flag is raised. If the flag tells the truth, that
is enough for a section that has been entered once. -/
theorem destroy_free_iff {object : NcMutex Thread} (truthful : Truthful object) :
    object.destroy.mutex = .free ↔ object.mutex.depth ≤ 1 := by
  rw [← Holding.depth_eq_zero_iff]
  unfold NcMutex.destroy
  split_ifs with raised
  · simp only [NcMutex.unlock, Holding.depth_leave]
    omega
  · have free : ¬ 0 < object.mutex.depth := by
      rw [Holding.depth_pos_iff]
      exact fun holds => raised (truthful.mpr holds)
    omega

end Truth

section Runs

variable {Thread : Type u} [DecidableEq Thread]

/-- The threads on one object. -/
def operations (canTry : Bool) : EventMachine (NcMutex Thread) (Operation Thread) where
  step := fun object operation =>
    match operation with
    | .lock thread => (object.lock thread).getD object
    | .trylock thread => (object.trylock canTry thread).1
    | .unlock _ => object.unlock

/-- A thread unlocks only what it holds. -/
def UnlocksOwn (object : NcMutex Thread) : Operation Thread → Prop
  | .unlock thread => object.mutex.By thread
  | _ => True

/-- No thread tries a section that another one holds, and every `unlock` is of a section
that has been entered once. -/
def Plain (canTry : Bool) (object : NcMutex Thread) : Operation Thread → Prop
  | .lock _ => True
  | .trylock thread => canTry = true → ∀ owner, object.mutex.By owner → owner = thread
  | .unlock _ => object.mutex.depth ≤ 1

/-- Whoever enters raises the flag. -/
theorem truthful_of_enter {object : NcMutex Thread} {entered : Holding Thread}
    {thread : Thread} (enters : object.mutex.enter thread = some entered) :
    Truthful { mutex := entered, locked := 1 } := by
  apply iff_of_true
  · exact Int.one_ne_zero
  · exact ⟨thread, Holding.enter_by enters⟩

/-- A `trylock` that fails leaves a section that is held without its flag. -/
theorem truthful_trylock_iff (canTry : Bool) {object : NcMutex Thread}
    (truthful : Truthful object) (thread : Thread) :
    Truthful (object.trylock canTry thread).1 ↔ Plain canTry object (.trylock thread) := by
  have kept := object.mutex.enter_eq_none_iff thread
  unfold NcMutex.trylock Plain
  split_ifs with canTry
  · cases enters : object.mutex.enter thread with
    | some entered =>
        apply iff_of_true (truthful_of_enter enters)
        intro _ owner holds
        by_contra other
        have refused := kept.mpr ⟨owner, holds, other⟩
        simp [enters] at refused
    | none =>
        obtain ⟨owner, holds, other⟩ := kept.mp enters
        apply iff_of_false
        · exact fun truth => truth.mpr ⟨owner, holds⟩ rfl
        · exact fun plain => other (plain canTry owner holds)
  · exact iff_of_true truthful (fun can => absurd can canTry)

theorem truthful_step_iff (canTry : Bool) {object : NcMutex Thread}
    (truthful : Truthful object) (operation : Operation Thread) :
    Truthful ((operations canTry).step object operation) ↔ Plain canTry object operation := by
  cases operation with
  | lock thread =>
      apply iff_of_true _ trivial
      show Truthful ((object.lock thread).getD object)
      unfold NcMutex.lock
      cases enters : object.mutex.enter thread with
      | some entered => exact truthful_of_enter enters
      | none => exact truthful
  | trylock thread => exact truthful_trylock_iff canTry truthful thread
  | unlock thread => exact truthful_unlock_iff object

/-! ### The flag over a whole run -/

/-- The flag tells the truth after each operation and the destructor leaves the section
free exactly if no thread tries a section that another one holds, every `unlock` is of a
section entered once, and the destructor finds it entered at most once. -/
theorem isLocked_truthful_iff (canTry : Bool) (history : List (Operation Thread))
    (own : (operations canTry).Meets UnlocksOwn .make history) :
    ((operations canTry).Always Truthful .make history ∧
        ((operations canTry).run .make history).destroy.mutex = .free) ↔
      ((operations canTry).Meets (Plain canTry) .make history ∧
        ((operations canTry).run .make history).mutex.depth ≤ 1) := by
  have throughout : (operations canTry).Always Truthful (.make : NcMutex Thread) history ↔
      (operations canTry).Meets (Plain canTry) .make history :=
    EventMachine.always_iff_meets Truthful
      (fun object operation truthful _ => truthful_step_iff canTry truthful operation)
      truthful_make own
  rw [← throughout]
  apply and_congr_right
  intro always
  exact destroy_free_iff (always history [] (List.append_nil history).symm)

/-- One thread locks and unlocks, another one tries a free section. -/
theorem isLocked_truthful_iff_inTurns :
    (operations true).Always Truthful (.make : NcMutex Bool)
        [.lock true, .unlock true, .trylock false] ∧
      ((operations true).run (.make : NcMutex Bool)
        [.lock true, .unlock true, .trylock false]).destroy.mutex = .free := by
  apply (isLocked_truthful_iff true [.lock true, .unlock true, .trylock false] ?_).mpr
  · refine ⟨⟨trivial, ?_, ?_, trivial⟩, ?_⟩
    · exact Nat.le_refl 1
    · intro _ owner holds
      obtain ⟨again, same⟩ := holds
      cases same
    · exact Nat.le_refl 1
  · exact ⟨trivial, ⟨0, rfl⟩, trivial, trivial⟩

/-- A `trylock` that fails and an inner `unlock` both leave a section that is held with
its flag lowered. A section that has been entered twice is held after the destructor,
also where the flag has always told the truth. -/
theorem isLocked_lies :
    (∃ history : List (Operation Bool), (operations true).Meets UnlocksOwn .make history ∧
      ¬ Truthful ((operations true).run .make history) ∧
      ((operations true).run .make history).destroy.mutex ≠ .free) ∧
    (∃ history : List (Operation Bool), (operations false).Meets UnlocksOwn .make history ∧
      ¬ Truthful ((operations false).run .make history)) ∧
    ∃ history : List (Operation Bool), (operations false).Meets UnlocksOwn .make history ∧
      (operations false).Always Truthful .make history ∧
      ((operations false).run .make history).destroy.mutex ≠ .free := by
  refine ⟨⟨[.lock true, .trylock false], ?_, ?_, ?_⟩,
    ⟨[.lock true, .lock true, .unlock true], ?_, ?_⟩, [.lock true, .lock true], ?_, ?_, ?_⟩
  · exact ⟨trivial, trivial, trivial⟩
  · exact fun truthful => truthful.mpr ⟨true, 0, rfl⟩ rfl
  · decide
  · exact ⟨trivial, trivial, ⟨1, rfl⟩, trivial⟩
  · exact fun truthful => truthful.mpr ⟨true, 0, rfl⟩ rfl
  · exact ⟨trivial, trivial, trivial⟩
  · rw [EventMachine.always_cons, EventMachine.always_cons, EventMachine.always_nil]
    refine ⟨truthful_make, ?_, ?_⟩
    · exact iff_of_true Int.one_ne_zero ⟨true, 0, rfl⟩
    · exact iff_of_true Int.one_ne_zero ⟨true, 1, rfl⟩
  · decide

end Runs

end NetClass.Mutex.Win32
