import Mathlib.Logic.Function.Basic
import NetClass.Arch
import NetClass.Library.EventMachine

/-!
Contract: `ncMutex` on POSIX, step by step in any number of threads, and what its flag
says about the mutex.

Owns: the operations of the class as the `pthread` call on a mutex that is not recursive
and the assignment to `m_locked` after it, the system in which the steps of all threads
interleave in any order, and the condition under which `isLocked` tells the truth.

Does **not** own: who gets the mutex among several threads that wait for it. The order
of the events decides.

`lock` and `trylock` raise the flag while they hold the mutex. `unlock` lowers it when
it has already given the mutex up, and another thread may have raised it by then.
-/

set_option autoImplicit false

namespace NetClass.Mutex.Posix

universe u

/-- `EBUSY`, as the `pthread` functions return it. -/
def ebusy : Int := 16

/-- The fields of `class ncMutex`. The mutex is known by the thread that holds it. -/
structure NcMutex (Thread : Type u) where
  mutex : Option Thread
  locked : Int
deriving DecidableEq, Repr

/-- The calls of the destructor. -/
inductive PthreadCall where
  | unlock
  | destroy
deriving DecidableEq, Repr

section Object

variable {Thread : Type u}

/-- `pthread_mutex_trylock`. -/
def pthreadMutexTrylock (mutex : Option Thread) (thread : Thread) : Int × Option Thread :=
  match mutex with
  | none => (0, some thread)
  | some owner => (ebusy, some owner)

namespace NcMutex

/-- `ncMutex::ncMutex`. -/
def make : NcMutex Thread := { mutex := none, locked := 0 }

/-- `ncMutex::~ncMutex`. -/
def destroy (object : NcMutex Thread) : NcMutex Thread × List PthreadCall :=
  if object.locked ≠ 0 then ({ mutex := none, locked := 0 }, [.unlock, .destroy])
  else (object, [.destroy])

/-- `ncMutex::isLocked`. -/
def isLocked (object : NcMutex Thread) : Int := object.locked

/-- Some thread holds the mutex. -/
def Held (object : NcMutex Thread) : Prop := ∃ thread, object.mutex = some thread

theorem unlocks_iff (object : NcMutex Thread) :
    .unlock ∈ object.destroy.2 ↔ object.isLocked ≠ 0 := by
  unfold destroy isLocked
  split_ifs with raised <;> simp [raised]

/-- A mutex of which the flag tells the truth is free when it is destroyed. -/
theorem destroy_free {object : NcMutex Thread} (truth : object.isLocked ≠ 0 ↔ object.Held) :
    object.destroy.1.mutex = none := by
  unfold destroy
  split_ifs with raised
  · rfl
  · apply Option.eq_none_iff_forall_ne_some.mpr
    intro thread holds
    exact raised (truth.mpr ⟨thread, holds⟩)

end NcMutex

end Object

/-! ### Threads -/

inductive Operation where
  | lock
  | trylock
  | unlock
deriving DecidableEq, Repr

/-- Where a thread is: outside, at the `pthread` call of an operation, or at the
assignment to `m_locked` that follows it. -/
inductive Pc where
  | outside
  | lock
  | locked
  | trylock
  | trylocked
  | unlock
  | unlocked
deriving DecidableEq, Repr

/-- The object and the threads. `ret` is what the last `trylock` of a thread returned. -/
structure Threads (Thread : Type u) where
  object : NcMutex Thread
  pc : Thread → Pc
  ret : Thread → Option RetCode

inductive Event (Thread : Type u) where
  | call (thread : Thread) (operation : Operation)
  | step (thread : Thread)
deriving DecidableEq, Repr

section Steps

variable {Thread : Type u} [DecidableEq Thread]

namespace Threads

/-- A new object, and every thread outside. -/
def make : Threads Thread :=
  { object := .make, pc := fun _ => .outside, ret := fun _ => none }

def goto (threads : Threads Thread) (thread : Thread) (pc : Pc) : Threads Thread :=
  { threads with pc := Function.update threads.pc thread pc }

def returns (threads : Threads Thread) (thread : Thread) (ret : RetCode) : Threads Thread :=
  { threads with ret := Function.update threads.ret thread (some ret) }

def setMutex (threads : Threads Thread) (mutex : Option Thread) : Threads Thread :=
  { threads with object := { threads.object with mutex := mutex } }

def setLocked (threads : Threads Thread) (locked : Int) : Threads Thread :=
  { threads with object := { threads.object with locked := locked } }

/-- A thread that is outside calls an operation. -/
def call (threads : Threads Thread) (thread : Thread) (operation : Operation) :
    Threads Thread :=
  match threads.pc thread with
  | .outside =>
      match operation with
      | .lock => threads.goto thread .lock
      | .trylock => threads.goto thread .trylock
      | .unlock => threads.goto thread .unlock
  | _ => threads

/-- One step of a thread. In `pthread_mutex_lock` it waits for a mutex that is held, also
by itself. -/
def step (threads : Threads Thread) (thread : Thread) : Threads Thread :=
  match threads.pc thread with
  | .outside => threads
  | .lock =>
      match threads.object.mutex with
      | none => (threads.setMutex (some thread)).goto thread .locked
      | some _ => threads
  | .locked => (threads.setLocked 1).goto thread .outside
  | .trylock =>
      let answer := pthreadMutexTrylock threads.object.mutex thread
      let threads := threads.setMutex answer.2
      if answer.1 ≠ ebusy then threads.goto thread .trylocked
      else (threads.goto thread .outside).returns thread .failed
  | .trylocked => ((threads.setLocked 1).goto thread .outside).returns thread .ok
  | .unlock => (threads.setMutex none).goto thread .unlocked
  | .unlocked => (threads.setLocked 0).goto thread .outside

end Threads

/-- All threads on one object. -/
def interleaving : EventMachine (Threads Thread) (Event Thread) where
  step := fun threads event =>
    match event with
    | .call thread operation => threads.call thread operation
    | .step thread => threads.step thread

end Steps

section Truth

variable {Thread : Type u}

/-- A thread unlocks only what it holds. -/
def UnlocksOwn (threads : Threads Thread) : Event Thread → Prop
  | .call thread .unlock => threads.pc thread = .outside → threads.object.mutex = some thread
  | _ => True

/-- The points at which a thread holds the mutex inside an operation: it is about to
raise the flag, or about to give the mutex up. -/
def Pc.holding : Pc → Bool
  | .locked | .trylocked | .unlock => true
  | _ => false

/-- The flag is lowered while no other thread has raised it for good: whoever holds the
mutex is still in the operation that took it, or already in the one that gives it up. -/
def LowersOwn (threads : Threads Thread) : Event Thread → Prop
  | .step thread =>
      threads.pc thread = .unlocked →
        ∀ owner, threads.object.mutex = some owner → (threads.pc owner).holding = true
  | _ => True

/-! ### The invariant -/

/-- A thread inside an operation that holds the mutex does hold it, and a thread that
holds it otherwise has raised the flag. -/
structure Fits (object : NcMutex Thread) (thread : Thread) (pc : Pc) : Prop where
  holds : pc.holding = true → object.mutex = some thread
  raised : object.mutex = some thread → pc.holding = false → object.locked ≠ 0

/-- In any state the flag of a free mutex is lowered, or somebody is about to lower it. -/
structure Sound (threads : Threads Thread) : Prop where
  fits : ∀ thread, Fits threads.object thread (threads.pc thread)
  lowered : threads.object.mutex = none → threads.object.locked ≠ 0 →
    ∃ thread, threads.pc thread = .unlocked

theorem Sound.make : Sound (.make : Threads Thread) := by
  constructor
  · intro thread
    constructor <;> simp [Threads.make, NcMutex.make, Pc.holding]
  · simp [Threads.make, NcMutex.make]

/-- A free mutex fits every thread that does not claim to hold it. -/
theorem Fits.free {object : NcMutex Thread} {thread : Thread} {pc : Pc}
    (free : object.mutex = none) (outside : pc.holding = false) : Fits object thread pc := by
  constructor
  · intro holding
    rw [outside] at holding
    exact Bool.noConfusion holding
  · intro mine
    rw [free] at mine
    cases mine

/-- A mutex that another thread holds fits every thread that does not claim to hold it. -/
theorem Fits.other {object : NcMutex Thread} {owner thread : Thread} {pc : Pc}
    (owned : object.mutex = some owner) (differs : thread ≠ owner)
    (outside : pc.holding = false) : Fits object thread pc := by
  constructor
  · intro holding
    rw [outside] at holding
    exact Bool.noConfusion holding
  · intro mine
    rw [owned] at mine
    exact absurd (Option.some.inj mine).symm differs

/-- A thread that does not own the mutex is not inside an operation that holds it. -/
theorem Fits.outside {object : NcMutex Thread} {thread : Thread} {pc : Pc}
    (fits : Fits object thread pc) (notMine : object.mutex ≠ some thread) :
    pc.holding = false := by
  rw [← Bool.not_eq_true]
  exact fun holding => notMine (fits.holds holding)

theorem Sound.returns [DecidableEq Thread] {threads : Threads Thread} (sound : Sound threads)
    (thread : Thread) (ret : RetCode) : Sound (threads.returns thread ret) :=
  ⟨sound.fits, sound.lowered⟩

/-- Whoever is about to lower the flag stays so while another thread moves. -/
theorem Sound.lowering {threads : Threads Thread} (sound : Sound threads) {thread : Thread}
    (notHere : threads.pc thread ≠ .unlocked) (free : threads.object.mutex = none)
    (raised : threads.object.locked ≠ 0) :
    ∃ other, other ≠ thread ∧ threads.pc other = .unlocked := by
  obtain ⟨other, there⟩ := sound.lowered free raised
  refine ⟨other, ?_, there⟩
  intro same
  exact notHere (same ▸ there)

/-! ### The flag while nobody is inside an operation -/

/-- No thread is inside an operation. -/
def Quiet (threads : Threads Thread) : Prop := ∀ thread, threads.pc thread = .outside

/-- Then the flag of a sound object is raised exactly if the mutex is held. -/
theorem Sound.raised_iff {threads : Threads Thread} (sound : Sound threads)
    (quiet : Quiet threads) : threads.object.isLocked ≠ 0 ↔ threads.object.Held := by
  constructor
  · intro raised
    apply Option.ne_none_iff_exists'.mp
    intro free
    obtain ⟨thread, lowering⟩ := sound.lowered free raised
    rw [quiet thread] at lowering
    cases lowering
  · intro held
    obtain ⟨thread, mine⟩ := held
    exact (sound.fits thread).raised mine (by rw [quiet thread]; rfl)

end Truth

section Interleaving

variable {Thread : Type u} [DecidableEq Thread]

/-- To move one thread it is enough to look at that thread at its new point. -/
theorem Sound.goto {threads : Threads Thread} {thread : Thread} {pc : Pc}
    (others : ∀ other, other ≠ thread → Fits threads.object other (threads.pc other))
    (mine : Fits threads.object thread pc)
    (lowered : threads.object.mutex = none → threads.object.locked ≠ 0 →
      pc = .unlocked ∨ ∃ other, other ≠ thread ∧ threads.pc other = .unlocked) :
    Sound (threads.goto thread pc) := by
  constructor
  · intro other
    show Fits threads.object other (Function.update threads.pc thread pc other)
    by_cases same : other = thread
    · rw [same, Function.update_self]
      exact mine
    · rw [Function.update_of_ne same]
      exact others other same
  · intro free raised
    rcases lowered free raised with here | ⟨other, differs, there⟩
    · exact ⟨thread, (Function.update_self ..).trans here⟩
    · exact ⟨other, (Function.update_of_ne differs ..).trans there⟩

/-- A thread that takes a free mutex and goes on to raise the flag. -/
theorem Sound.take {threads : Threads Thread} (sound : Sound threads) {thread : Thread}
    {pc : Pc} (free : threads.object.mutex = none) (holding : pc.holding = true) :
    Sound ((threads.setMutex (some thread)).goto thread pc) := by
  apply Sound.goto
  · intro other differs
    have outside := (sound.fits other).outside (by simp [free])
    exact Fits.other rfl differs outside
  · constructor
    · exact fun _ => rfl
    · intro _ outside
      rw [holding] at outside
      exact Bool.noConfusion outside
  · intro nobody
    cases nobody

/-- The holder of the mutex raises the flag. -/
theorem Sound.raise {threads : Threads Thread} (sound : Sound threads) {thread : Thread}
    (mine : threads.object.mutex = some thread) :
    Sound ((threads.setLocked 1).goto thread .outside) := by
  apply Sound.goto
  · intro other differs
    exact ⟨(sound.fits other).holds, fun _ _ => Int.one_ne_zero⟩
  · constructor
    · exact fun holding => Bool.noConfusion holding
    · exact fun _ _ => Int.one_ne_zero
  · intro free
    have taken : threads.object.mutex = none := free
    rw [mine] at taken
    cases taken

/-- The holder of the mutex gives it up. -/
theorem Sound.giveUp {threads : Threads Thread} (sound : Sound threads) {thread : Thread}
    (mine : threads.object.mutex = some thread) :
    Sound ((threads.setMutex none).goto thread .unlocked) := by
  apply Sound.goto
  · intro other differs
    apply Fits.free rfl
    apply (sound.fits other).outside
    rw [mine]
    exact fun same => differs (Option.some.inj same).symm
  · exact Fits.free rfl rfl
  · exact fun _ _ => Or.inl rfl

/-- The flag is lowered when nobody outside an operation holds the mutex. -/
theorem Sound.lower {threads : Threads Thread} (sound : Sound threads) {thread : Thread}
    (atLower : threads.pc thread = .unlocked)
    (own : ∀ owner, threads.object.mutex = some owner → (threads.pc owner).holding = true) :
    Sound ((threads.setLocked 0).goto thread .outside) := by
  apply Sound.goto
  · intro other _
    refine ⟨(sound.fits other).holds, fun holder outside => ?_⟩
    have inside := own other holder
    exact Bool.noConfusion (inside.symm.trans outside)
  · refine ⟨fun holding => Bool.noConfusion holding, fun holder _ => ?_⟩
    have inside := own thread holder
    rw [atLower] at inside
    exact Bool.noConfusion inside
  · exact fun _ raised => absurd rfl raised

/-- A thread that moves between two points outside the operations that hold the mutex. -/
theorem Sound.move {threads : Threads Thread} (sound : Sound threads) {thread : Thread}
    {pc : Pc} (notHere : threads.pc thread ≠ .unlocked)
    (before : (threads.pc thread).holding = false)
    (after : pc.holding = true → threads.object.mutex = some thread) :
    Sound (threads.goto thread pc) := by
  apply Sound.goto
  · exact fun other _ => sound.fits other
  · exact ⟨after, fun mine _ => (sound.fits thread).raised mine before⟩
  · exact fun free raised => Or.inr (sound.lowering notHere free raised)

theorem Sound.step {threads : Threads Thread} (sound : Sound threads) (thread : Thread)
    (lowers : LowersOwn threads (.step thread)) : Sound (threads.step thread) := by
  have fits := sound.fits thread
  unfold Threads.step
  cases pc : threads.pc thread <;> rw [pc] at fits <;> dsimp only
  case outside => exact sound
  case lock =>
    cases free : threads.object.mutex with
    | none => exact sound.take free rfl
    | some owner => exact sound
  case locked => exact sound.raise (fits.holds rfl)
  case trylock =>
    cases mutex : threads.object.mutex with
    | none => exact sound.take mutex rfl
    | some owner =>
        have same : threads.setMutex (some owner) = threads := by
          rw [← mutex]
          rfl
        show Sound (((threads.setMutex (some owner)).goto thread .outside).returns thread .failed)
        rw [same]
        apply Sound.returns
        exact sound.move (by simp [pc]) (by rw [pc]; rfl) (fun holding => Bool.noConfusion holding)
  case trylocked => exact (sound.raise (fits.holds rfl)).returns thread .ok
  case unlock => exact sound.giveUp (fits.holds rfl)
  case unlocked => exact sound.lower pc (lowers pc)

theorem Sound.call {threads : Threads Thread} (sound : Sound threads) (thread : Thread)
    (operation : Operation) (own : UnlocksOwn threads (.call thread operation)) :
    Sound (threads.call thread operation) := by
  unfold Threads.call
  cases pc : threads.pc thread <;> dsimp only
  case outside =>
    have notHere : threads.pc thread ≠ .unlocked := by simp [pc]
    have before : (threads.pc thread).holding = false := by rw [pc]; rfl
    cases operation with
    | lock => exact sound.move notHere before fun holding => Bool.noConfusion holding
    | trylock => exact sound.move notHere before fun holding => Bool.noConfusion holding
    | unlock => exact sound.move notHere before fun _ => own pc
  all_goals exact sound

/-! ### Whole runs -/

/-- If every thread unlocks only what it holds and lowers the flag only while no other
thread has raised it for good, then whenever no thread is inside an operation the flag
is raised exactly if the mutex is held, and the destructor unlocks exactly then. -/
theorem isLocked_truthful {history : List (Event Thread)}
    (own : interleaving.Meets UnlocksOwn .make history)
    (lowers : interleaving.Meets LowersOwn .make history)
    (quiet : Quiet (interleaving.run .make history)) :
    let object := (interleaving.run (.make : Threads Thread) history).object
    (object.isLocked ≠ 0 ↔ object.Held) ∧ (.unlock ∈ object.destroy.2 ↔ object.Held) ∧
      object.destroy.1.mutex = none := by
  intro object
  have sound : Sound (interleaving.run (.make : Threads Thread) history) := by
    apply EventMachine.run_invariant Sound _ Sound.make (own.and lowers)
    rintro threads (⟨thread, operation⟩ | thread) sound ⟨own, lowers⟩
    · exact sound.call thread operation own
    · exact sound.step thread lowers
  have truth : object.isLocked ≠ 0 ↔ object.Held := sound.raised_iff quiet
  exact ⟨truth, (object.unlocks_iff).trans truth, object.destroy_free truth⟩

/-- One thread lowers the flag while another one has taken the mutex and is about to
raise it. -/
theorem isLocked_truthful_inTime :
    (interleaving.run (.make : Threads Bool)
        [.call true .lock, .step true, .step true, .call true .unlock, .step true,
          .call false .lock, .step false, .step true, .step false]).object.isLocked ≠ 0 ↔
      (interleaving.run (.make : Threads Bool)
        [.call true .lock, .step true, .step true, .call true .unlock, .step true,
          .call false .lock, .step false, .step true, .step false]).object.Held := by
  apply (isLocked_truthful _ _ _).1
  · exact ⟨trivial, trivial, trivial, fun _ => rfl, trivial, trivial, trivial, trivial, trivial,
      trivial⟩
  · refine ⟨trivial, nofun, nofun, trivial, nofun, trivial, nofun, ?_, nofun, trivial⟩
    intro _ owner holds
    cases holds
    rfl
  · intro thread
    cases thread <;> rfl

/-- The thread that has given the mutex up lowers the flag when another one has taken
the mutex and raised it. Then nobody is inside an operation, the mutex is held, its flag
is lowered, and the destructor does not unlock it. -/
theorem isLocked_overwritten : ∃ history : List (Event Bool),
    interleaving.Meets UnlocksOwn .make history ∧
      Quiet (interleaving.run .make history) ∧
      (interleaving.run .make history).object.isLocked = 0 ∧
      (interleaving.run .make history).object.Held ∧
      (interleaving.run .make history).object.destroy.2 = [.destroy] := by
  refine ⟨[.call true .lock, .step true, .step true, .call true .unlock, .step true,
    .call false .lock, .step false, .step false, .step true], ?_, ?_, rfl, ⟨false, rfl⟩, rfl⟩
  · exact ⟨trivial, trivial, trivial, fun _ => rfl, trivial, trivial, trivial, trivial, trivial,
      trivial⟩
  · intro thread
    cases thread <;> rfl

end Interleaving

end NetClass.Mutex.Posix
