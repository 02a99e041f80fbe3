import NetClass.Mutex.Exclusion

/-!
Contract: programs that behave on WIN32 as they do on POSIX.

Owns: the order in which the operations on a POSIX `ncMutex` take effect, and the proof that
it is a run of the WIN32 `ncMutex` with the same results if no thread asks for a mutex that
it holds.

Does **not** own: the flag, which the two may leave different.

A thread that does ask for it waits for ever on POSIX and enters again on WIN32.
-/

set_option autoImplicit false

namespace NetClass.Mutex

universe u

namespace Win32

variable {Thread : Type u} [DecidableEq Thread]

/-- An operation has happened on the object, and `trylock` has returned this code. -/
def NcMutex.follow (canTry : Bool) (object : NcMutex Thread) :
    Operation Thread × Option RetCode → Option (NcMutex Thread)
  | (.lock thread, _) => object.lock thread
  | (.trylock thread, ret) =>
      let outcome := object.trylock canTry thread
      if ret = some outcome.2 then some outcome.1 else none
  | (.unlock _, _) => some object.unlock

end Win32

namespace Posix

variable {Thread : Type u} [DecidableEq Thread]

/-- The moment at which an operation takes effect is its `pthread` call. -/
def takesEffect : Threads Thread × Event Thread →
    Option (Win32.Operation Thread × Option RetCode)
  | (threads, .step thread) =>
      match threads.pc thread, threads.object.mutex with
      | .lock, none => some (.lock thread, none)
      | .trylock, none => some (.trylock thread, some .ok)
      | .trylock, some _ => some (.trylock thread, some .failed)
      | .unlock, _ => some (.unlock thread, none)
      | _, _ => none
  | (_, .call _ _) => none

/-- A thread unlocks only what it holds, and does not ask for what it holds. -/
def LocksOnce (threads : Threads Thread) : Event Thread → Prop
  | .call thread .unlock => threads.pc thread = .outside → threads.object.mutex = some thread
  | .call thread _ => threads.pc thread = .outside → threads.object.mutex ≠ some thread
  | .step _ => True

/-- The critical section of a mutex. -/
def asSection : Option Thread → Holding Thread
  | none => .free
  | some owner => .held owner 0

/-- The operations in the order in which they take effect are a run on WIN32. -/
structure Ported (threads : Threads Thread)
    (history : List (Threads Thread × Event Thread)) : Prop where
  holds : threads.Holds
  asks : ∀ thread, threads.pc thread = .lock ∨ threads.pc thread = .trylock →
    threads.object.mutex ≠ some thread
  follows : ∃ object : Win32.NcMutex Thread,
    (history.filterMap takesEffect).foldlM (Win32.NcMutex.follow true) .make = some object ∧
      object.mutex = asSection threads.object.mutex

section Steps

variable {threads next : Threads Thread} {thread : Thread} {pc : Pc}
variable {history : List (Threads Thread × Event Thread)} {entry : Threads Thread × Event Thread}

theorem Ported.silent (ported : Ported threads history) (holds : next.Holds)
    (asks : ∀ thread, next.pc thread = .lock ∨ next.pc thread = .trylock →
      next.object.mutex ≠ some thread)
    (nothing : takesEffect entry = none) (same : next.object.mutex = threads.object.mutex) :
    Ported next (history ++ [entry]) where
  holds := holds
  asks := asks
  follows := by
    rw [List.filterMap_append, List.filterMap_cons_none nothing, List.filterMap_nil,
      List.append_nil, same]
    exact ported.follows

theorem Ported.effect (ported : Ported threads history) (holds : next.Holds)
    (asks : ∀ thread, next.pc thread = .lock ∨ next.pc thread = .trylock →
      next.object.mutex ≠ some thread)
    {operation : Win32.Operation Thread × Option RetCode}
    (effect : takesEffect entry = some operation)
    (follows : ∀ object : Win32.NcMutex Thread,
      object.mutex = asSection threads.object.mutex →
      ∃ after, object.follow true operation = some after ∧
        after.mutex = asSection next.object.mutex) : Ported next (history ++ [entry]) where
  holds := holds
  asks := asks
  follows := by
    obtain ⟨object, run, same⟩ := ported.follows
    obtain ⟨after, step, agrees⟩ := follows object same
    refine ⟨after, ?_, agrees⟩
    rw [List.filterMap_append, List.filterMap_cons_some effect, List.filterMap_nil,
      List.foldlM_append, run]
    exact (bind_pure _).trans step

/-- A thread moves. If it then asks for the mutex, it does not hold it. -/
theorem Ported.asks_move (ported : Ported threads history)
    (moves : next.pc = Function.update threads.pc thread pc)
    (others : ∀ other, other ≠ thread → next.object.mutex = some other →
      threads.object.mutex = some other)
    (mine : pc = .lock ∨ pc = .trylock → next.object.mutex ≠ some thread) :
    ∀ other, next.pc other = .lock ∨ next.pc other = .trylock →
      next.object.mutex ≠ some other := by
  intro other asking holder
  rw [moves] at asking
  by_cases same : other = thread
  · subst same
    rw [Function.update_self] at asking
    exact mine asking holder
  · rw [Function.update_of_ne same] at asking
    exact ported.asks other asking (others other same holder)

/-- A thread takes a free mutex, and enters the free section. -/
theorem Ported.take (ported : Ported threads history) (free : threads.object.mutex = none)
    (nothing : ¬ (pc = .lock ∨ pc = .trylock))
    {operation : Win32.Operation Thread × Option RetCode}
    (effect : takesEffect entry = some operation)
    (locks : operation = (.lock thread, none) ∨ operation = (.trylock thread, some .ok)) :
    Ported ((threads.setMutex (some thread)).goto thread pc) (history ++ [entry]) := by
  refine ported.effect (ported.holds.take free thread pc) ?_ effect ?_
  · refine ported.asks_move rfl ?_ fun asking => absurd asking nothing
    intro other differs holder
    exact absurd (Option.some.inj holder).symm differs
  · intro object same
    rw [free] at same
    have enters : object.mutex.enter thread = some (.held thread 0) := by
      rw [same]
      rfl
    refine ⟨⟨.held thread 0, 1⟩, ?_, rfl⟩
    rcases locks with rfl | rfl
    · simp [Win32.NcMutex.follow, Win32.NcMutex.lock, enters]
    · simp [Win32.NcMutex.follow, Win32.NcMutex.trylock, enters]

theorem Ported.step (ported : Ported threads history) (thread : Thread) :
    Ported (threads.step thread) (history ++ [(threads, .step thread)]) := by
  have holds := ported.holds
  unfold Threads.step
  cases pc : threads.pc thread <;> dsimp only
  case outside =>
    exact ported.silent holds ported.asks (by simp [takesEffect, pc]) rfl
  case lock =>
    cases mutex : threads.object.mutex with
    | none => exact ported.take mutex (by decide) (by simp [takesEffect, pc, mutex]) (Or.inl rfl)
    | some owner => exact ported.silent holds ported.asks (by simp [takesEffect, pc, mutex]) rfl
  case locked =>
    have raised : (threads.setLocked 1).Holds := holds
    exact ported.silent (raised.goto fun holding => Bool.noConfusion holding)
      (ported.asks_move rfl (fun _ _ holder => holder) fun asking => absurd asking (by decide))
      (by simp [takesEffect, pc]) rfl
  case trylock =>
    cases mutex : threads.object.mutex with
    | none =>
        show Ported ((threads.setMutex (some thread)).goto thread .trylocked) _
        exact ported.take mutex (by decide) (by simp [takesEffect, pc, mutex]) (Or.inr rfl)
    | some owner =>
        have same : threads.setMutex (some owner) = threads := by
          rw [← mutex]
          rfl
        show Ported (((threads.setMutex (some owner)).goto thread .outside).returns thread
          .failed) _
        rw [same]
        have moved : (threads.goto thread .outside).Holds :=
          holds.goto fun holding => Bool.noConfusion holding
        have effect : takesEffect (threads, .step thread) =
            some (.trylock thread, some .failed) := by simp [takesEffect, pc, mutex]
        refine ported.effect moved (ported.asks_move rfl (fun _ _ holder => holder)
          fun asking => absurd asking (by decide)) effect ?_
        intro object agrees
        -- The thread does not hold the mutex, so another one does.
        have differs : owner ≠ thread := by
          rintro rfl
          exact ported.asks owner (Or.inr pc) mutex
        have refused : object.mutex.enter thread = none := by
          rw [agrees, mutex, asSection, Holding.enter, if_neg differs]
        refine ⟨{ object with locked := 0 }, ?_, agrees⟩
        simp [Win32.NcMutex.follow, Win32.NcMutex.trylock, refused]
  case trylocked =>
    have raised : (threads.setLocked 1).Holds := holds
    exact ported.silent (raised.goto fun holding => Bool.noConfusion holding)
      (ported.asks_move rfl (fun _ _ holder => holder) fun asking => absurd asking (by decide))
      (by simp [takesEffect, pc]) rfl
  case unlock =>
    have mine := holds thread (by rw [pc]; rfl)
    have effect : takesEffect (threads, .step thread) = some (.unlock thread, none) := by
      simp [takesEffect, pc]
    refine ported.effect (holds.giveUp mine rfl) (ported.asks_move rfl ?_ ?_) effect ?_
    · intro other _ holder
      cases holder
    · exact fun asking => absurd asking (by decide)
    · intro object agrees
      refine ⟨object.unlock, rfl, ?_⟩
      rw [Win32.NcMutex.unlock, agrees, mine]
      rfl
  case unlocked =>
    have lowered : (threads.setLocked 0).Holds := holds
    exact ported.silent (lowered.goto fun holding => Bool.noConfusion holding)
      (ported.asks_move rfl (fun _ _ holder => holder) fun asking => absurd asking (by decide))
      (by simp [takesEffect, pc]) rfl

theorem Ported.call (ported : Ported threads history) {operation : Operation}
    (once : LocksOnce threads (.call thread operation)) :
    Ported (threads.call thread operation) (history ++ [(threads, .call thread operation)]) := by
  have holds := ported.holds
  by_cases outside : threads.pc thread = .outside
  · cases operation with
    | lock =>
        simp only [Threads.call, outside]
        exact ported.silent (holds.goto fun holding => Bool.noConfusion holding)
          (ported.asks_move rfl (fun _ _ holder => holder) fun _ => once outside) rfl rfl
    | trylock =>
        simp only [Threads.call, outside]
        exact ported.silent (holds.goto fun holding => Bool.noConfusion holding)
          (ported.asks_move rfl (fun _ _ holder => holder) fun _ => once outside) rfl rfl
    | unlock =>
        simp only [Threads.call, outside]
        exact ported.silent (holds.goto fun _ => once outside)
          (ported.asks_move rfl (fun _ _ holder => holder) fun asking => absurd asking (by decide))
          rfl rfl
  · have stays : threads.call thread operation = threads := by
      unfold Threads.call
      cases pc : threads.pc thread <;> first | rfl | exact absurd pc outside
    rw [stays]
    exact ported.silent holds ported.asks rfl rfl

end Steps

end Posix

end NetClass.Mutex
