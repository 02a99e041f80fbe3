import NetClass.Library.Sections
import NetClass.Mutex.Posix
import NetClass.Mutex.Win32

/-!
Contract: what `ncMutex` is for. Threads that call `lock` or `trylock` before a critical
section and `unlock` after it are never in their sections together.

Owns: the sections of the threads on POSIX and on WIN32 as the callers see them, the proof
for every interleaving, and what becomes of a thread that locks a mutex it holds.

Does **not** own: the flag; see `NetClass.Mutex.Posix` and `NetClass.Mutex.Win32`.
-/

set_option autoImplicit false

namespace NetClass.Mutex

universe u

namespace Posix

/-! ### Sections -/

section Sections

variable {Thread : Type u}

/-- The holder of the mutex is in its section while it is outside of the operations. -/
def Threads.sections (threads : Threads Thread) : Holding Thread :=
  match threads.object.mutex with
  | some owner => if (threads.pc owner).holding then .free else .held owner 0
  | none => .free

/-- A thread inside an operation that holds the mutex does hold it. -/
def Threads.Holds (threads : Threads Thread) : Prop :=
  ∀ thread, (threads.pc thread).holding = true → threads.object.mutex = some thread

variable {threads : Threads Thread} {thread : Thread}

theorem sections_free (free : threads.object.mutex = none) : threads.sections = .free := by
  simp [Threads.sections, free]

theorem sections_inside (mine : threads.object.mutex = some thread)
    (holding : (threads.pc thread).holding = true) : threads.sections = .free := by
  simp [Threads.sections, mine, holding]

theorem sections_held (mine : threads.object.mutex = some thread)
    (outside : (threads.pc thread).holding = false) : threads.sections = .held thread 0 := by
  simp [Threads.sections, mine, outside]

end Sections

variable {Thread : Type u} [DecidableEq Thread]

/-- A thread is in its section from the return of the `lock` or `trylock` that has taken the
mutex to the call of `unlock`. -/
def boundary : Threads Thread × Event Thread → Option (Mark Thread)
  | (threads, .step thread) =>
      if threads.pc thread = .locked ∨ threads.pc thread = .trylocked then
        some (.enters thread)
      else none
  | (threads, .call thread .unlock) =>
      if threads.pc thread = .outside then some (.leaves thread) else none
  | (_, .call _ _) => none

variable {threads next : Threads Thread} {thread : Thread} {pc : Pc}

theorem goto_self (threads : Threads Thread) (thread : Thread) (pc : Pc) :
    (threads.goto thread pc).pc thread = pc := by
  simp [Threads.goto]

theorem goto_other (threads : Threads Thread) (pc : Pc) {other : Thread}
    (differs : other ≠ thread) : (threads.goto thread pc).pc other = threads.pc other := by
  simp [Threads.goto, differs]

/-- A thread moves on while the mutex stays as it is. -/
theorem Threads.Holds.goto (holds : threads.Holds)
    (mine : pc.holding = true → threads.object.mutex = some thread) :
    (threads.goto thread pc).Holds := by
  intro other holding
  by_cases same : other = thread
  · subst same
    rw [goto_self] at holding
    exact mine holding
  · rw [goto_other threads pc same] at holding
    exact holds other holding

/-- A thread takes a free mutex. -/
theorem Threads.Holds.take (holds : threads.Holds) (free : threads.object.mutex = none)
    (thread : Thread) (pc : Pc) :
    ((threads.setMutex (some thread)).goto thread pc).Holds := by
  intro other holding
  by_cases same : other = thread
  · rw [same]
    rfl
  · rw [goto_other _ pc same] at holding
    have mine := holds other holding
    rw [free] at mine
    cases mine

/-- The holder gives the mutex up. -/
theorem Threads.Holds.giveUp (holds : threads.Holds)
    (mine : threads.object.mutex = some thread) (outside : pc.holding = false) :
    ((threads.setMutex none).goto thread pc).Holds := by
  intro other holding
  by_cases same : other = thread
  · subst same
    rw [goto_self, outside] at holding
    cases holding
  · rw [goto_other _ pc same] at holding
    have other := holds other holding
    rw [mine] at other
    exact absurd (Option.some.inj other).symm same

/-- A thread moves on without entering or leaving its section. -/
theorem sections_goto
    (same : threads.object.mutex = some thread →
      pc.holding = (threads.pc thread).holding) :
    (threads.goto thread pc).sections = threads.sections := by
  show (match threads.object.mutex with
    | some owner => if ((threads.goto thread pc).pc owner).holding then .free else .held owner 0
    | none => .free) = threads.sections
  unfold Threads.sections
  cases mutex : threads.object.mutex with
  | none => rfl
  | some owner =>
      dsimp only
      by_cases mine : owner = thread
      · subst mine
        rw [goto_self, same mutex]
      · rw [goto_other threads pc mine]

/-- The log of the sections is one of a lock that its owner may not enter again. -/
structure Excludes (threads : Threads Thread)
    (history : List (Threads Thread × Event Thread)) : Prop where
  holds : threads.Holds
  replays : Holding.free.replay false (history.filterMap boundary) = some threads.sections

section Steps

variable {history : List (Threads Thread × Event Thread)} {entry : Threads Thread × Event Thread}

theorem Excludes.silent (excludes : Excludes threads history) (holds : next.Holds)
    (nothing : boundary entry = none) (same : next.sections = threads.sections) :
    Excludes next (history ++ [entry]) where
  holds := holds
  replays := by
    rw [List.filterMap_append, List.filterMap_cons_none nothing, List.filterMap_nil,
      List.append_nil, same]
    exact excludes.replays

theorem Excludes.marks (excludes : Excludes threads history) (holds : next.Holds)
    {mark : Mark Thread} (marks : boundary entry = some mark)
    (allowed : threads.sections.mark false mark = some next.sections) :
    Excludes next (history ++ [entry]) where
  holds := holds
  replays := by
    rw [List.filterMap_append, List.filterMap_cons_some marks, List.filterMap_nil,
      Holding.replay_concat excludes.replays]
    exact allowed

/-- `lock` or `trylock` returns with the mutex. -/
theorem Excludes.enters (excludes : Excludes threads history)
    (atReturn : threads.pc thread = .locked ∨ threads.pc thread = .trylocked)
    (mutex : next.object.mutex = threads.object.mutex)
    (outside : (next.pc thread).holding = false) (holds : next.Holds) :
    Excludes next (history ++ [(threads, .step thread)]) := by
  have holding : (threads.pc thread).holding = true := by
    rcases atReturn with locked | trylocked
    · rw [locked]
      rfl
    · rw [trylocked]
      rfl
  have mine := excludes.holds thread holding
  refine excludes.marks holds (if_pos atReturn) ?_
  rw [sections_inside mine holding, sections_held (mutex.trans mine) outside]
  rfl

theorem Excludes.step (excludes : Excludes threads history) (thread : Thread) :
    Excludes (threads.step thread) (history ++ [(threads, .step thread)]) := by
  have holds := excludes.holds
  have quiet : threads.pc thread ≠ .locked → threads.pc thread ≠ .trylocked →
      boundary (threads, Event.step thread) = none :=
    fun notLocked notTrylocked => if_neg (not_or.mpr ⟨notLocked, notTrylocked⟩)
  unfold Threads.step
  cases pc : threads.pc thread <;> rw [pc] at quiet <;> dsimp only
  case outside => exact excludes.silent holds (quiet (by decide) (by decide)) rfl
  case lock =>
    cases mutex : threads.object.mutex with
    | none =>
        refine excludes.silent (holds.take mutex thread .locked)
          (quiet (by decide) (by decide)) ?_
        rw [sections_free mutex]
        exact sections_inside rfl (by rw [goto_self]; rfl)
    | some owner => exact excludes.silent holds (quiet (by decide) (by decide)) rfl
  case locked =>
    have lowered : (threads.setLocked 1).Holds := holds
    exact excludes.enters (Or.inl pc) rfl (by rw [goto_self]; rfl)
      (lowered.goto fun holding => Bool.noConfusion holding)
  case trylock =>
    cases mutex : threads.object.mutex with
    | none =>
        show Excludes ((threads.setMutex (some thread)).goto thread .trylocked) _
        refine excludes.silent (holds.take mutex thread .trylocked)
          (quiet (by decide) (by decide)) ?_
        rw [sections_free mutex]
        exact sections_inside rfl (by rw [goto_self]; rfl)
    | some owner =>
        have same : threads.setMutex (some owner) = threads := by
          rw [← mutex]
          rfl
        show Excludes (((threads.setMutex (some owner)).goto thread .outside).returns thread
          .failed) _
        rw [same]
        have moved : (threads.goto thread .outside).Holds :=
          holds.goto fun holding => Bool.noConfusion holding
        have stays : (threads.goto thread .outside).sections = threads.sections := by
          apply sections_goto
          intro _
          rw [pc]
          rfl
        exact excludes.silent moved (quiet (by decide) (by decide)) stays
  case trylocked =>
    have lowered : (threads.setLocked 1).Holds := holds
    exact excludes.enters (Or.inr pc) rfl (by rw [Threads.returns, goto_self]; rfl)
      (lowered.goto fun holding => Bool.noConfusion holding)
  case unlock =>
    have mine := holds thread (by rw [pc]; rfl)
    refine excludes.silent (holds.giveUp mine rfl) (quiet (by decide) (by decide)) ?_
    rw [sections_inside mine (by rw [pc]; rfl)]
    exact sections_free rfl
  case unlocked =>
    have lowered : (threads.setLocked 0).Holds := holds
    have stays : ((threads.setLocked 0).goto thread .outside).sections =
        (threads.setLocked 0).sections := by
      apply sections_goto
      intro _
      show _ = (threads.pc thread).holding
      rw [pc]
      rfl
    exact excludes.silent (lowered.goto fun holding => Bool.noConfusion holding)
      (quiet (by decide) (by decide)) stays

theorem Excludes.call (excludes : Excludes threads history) {operation : Operation}
    (own : UnlocksOwn threads (.call thread operation)) :
    Excludes (threads.call thread operation) (history ++ [(threads, .call thread operation)]) := by
  have holds := excludes.holds
  by_cases outside : threads.pc thread = .outside
  · have before : (threads.pc thread).holding = false := by
      rw [outside]
      rfl
    cases operation with
    | lock =>
        simp only [Threads.call, outside]
        refine excludes.silent (holds.goto fun holding => Bool.noConfusion holding) rfl ?_
        exact sections_goto fun _ => before.symm
    | trylock =>
        simp only [Threads.call, outside]
        refine excludes.silent (holds.goto fun holding => Bool.noConfusion holding) rfl ?_
        exact sections_goto fun _ => before.symm
    | unlock =>
        have mine := own outside
        simp only [Threads.call, outside]
        refine excludes.marks (holds.goto fun _ => mine) (if_pos outside) ?_
        rw [sections_held mine before]
        have free : (threads.goto thread .unlock).sections = .free :=
          sections_inside mine (by rw [goto_self]; rfl)
        rw [free, Holding.mark, if_pos ⟨0, rfl⟩]
        rfl
  · have stays : threads.call thread operation = threads := by
      unfold Threads.call
      cases pc : threads.pc thread <;> first | rfl | exact absurd pc outside
    rw [stays]
    refine excludes.silent holds ?_ rfl
    cases operation with
    | lock => rfl
    | trylock => rfl
    | unlock => exact if_neg outside

end Steps

theorem Excludes.run {events : List (Event Thread)}
    (own : interleaving.Meets UnlocksOwn .make events) :
    Excludes (interleaving.run (.make : Threads Thread) events)
      (interleaving.trace .make events) := by
  refine EventMachine.run_history Excludes ?_ ⟨?_, rfl⟩ own
  · rintro threads history (⟨thread, operation⟩ | thread) excludes own
    · exact excludes.call own
    · exact excludes.step thread
  · intro thread holding
    cases holding

/-- Whenever `lock` or `trylock` returns with the mutex, no thread is in its section: each
has left as often as it has entered. -/
theorem sections_exclude {events : List (Event Thread)}
    (own : interleaving.Meets UnlocksOwn .make events) {before later : List (Mark Thread)}
    {entering : Thread}
    (split : (interleaving.trace (.make : Threads Thread) events).filterMap boundary =
      before ++ .enters entering :: later) (thread : Thread) :
    before.count (.enters thread) = before.count (.leaves thread) := by
  have replays := (Excludes.run own).replays
  rw [split] at replays
  exact Holding.alone_of_replay replays fun again => Bool.noConfusion again

/-- One thread leaves its section and another one enters its own. -/
def inTurns : List (Event Bool) :=
  [.call true .lock, .step true, .step true, .call true .unlock, .call false .trylock,
    .step true, .step false, .step false]

theorem sections_exclude_inTurns :
    [Mark.enters true, .leaves true].count (.enters true) =
      [Mark.enters true, .leaves true].count (.leaves true) := by
  have own : interleaving.Meets UnlocksOwn .make inTurns :=
    ⟨trivial, trivial, trivial, fun _ => rfl, trivial, trivial, trivial, trivial, trivial⟩
  have split : (interleaving.trace .make inTurns).filterMap boundary =
      [.enters true, .leaves true] ++ .enters false :: [] := by decide
  exact sections_exclude own split true

/-! ### A thread that locks twice -/

/-- The thread waits for itself. -/
structure Stuck (thread : Thread) (threads : Threads Thread) : Prop where
  holds : threads.Holds
  waits : threads.pc thread = .lock
  mine : threads.object.mutex = some thread

section Stuck

/-- A thread that is not about to give a mutex up, and another one that moves. -/
theorem Stuck.goto (stuck : Stuck thread threads) {other : Thread} (differs : other ≠ thread)
    (outside : pc.holding = false) : Stuck thread (threads.goto other pc) where
  holds := stuck.holds.goto fun holding => Bool.noConfusion (outside.symm.trans holding)
  waits := (goto_other threads pc differs.symm).trans stuck.waits
  mine := stuck.mine

omit [DecidableEq Thread] in
/-- Nobody is inside an operation that holds the mutex. -/
theorem Stuck.outside (stuck : Stuck thread threads) (other : Thread) :
    (threads.pc other).holding = false := by
  by_contra inside
  rw [Bool.not_eq_false] at inside
  have holder := stuck.holds other inside
  rw [stuck.mine] at holder
  obtain rfl := Option.some.inj holder
  rw [stuck.waits] at inside
  cases inside

theorem Stuck.step (stuck : Stuck thread threads) (other : Thread) :
    Stuck thread (threads.step other) := by
  have outside := stuck.outside other
  by_cases same : other = thread
  · subst same
    have stays : threads.step other = threads := by
      simp [Threads.step, stuck.waits, stuck.mine]
    rwa [stays]
  · unfold Threads.step
    cases pc : threads.pc other <;> rw [pc] at outside <;> dsimp only
    case outside => exact stuck
    case lock =>
      rw [stuck.mine]
      exact stuck
    case trylock =>
      rw [stuck.mine]
      have kept : threads.setMutex (some thread) = threads := by
        rw [← stuck.mine]
        rfl
      show Stuck thread (((threads.setMutex (some thread)).goto other .outside).returns other
        .failed)
      rw [kept]
      have moved : Stuck thread (threads.goto other .outside) := stuck.goto same rfl
      exact ⟨moved.holds, moved.waits, moved.mine⟩
    case unlocked =>
      have lowered : Stuck thread (threads.setLocked 0) := ⟨stuck.holds, stuck.waits, stuck.mine⟩
      exact lowered.goto same rfl
    case locked | trylocked | unlock => cases outside

theorem Stuck.call (stuck : Stuck thread threads) {other : Thread} {operation : Operation}
    (own : UnlocksOwn threads (.call other operation)) :
    Stuck thread (threads.call other operation) := by
  by_cases outside : threads.pc other = .outside
  · have differs : other ≠ thread := by
      rintro rfl
      rw [stuck.waits] at outside
      cases outside
    cases operation with
    | lock =>
        simp only [Threads.call, outside]
        exact stuck.goto differs rfl
    | trylock =>
        simp only [Threads.call, outside]
        exact stuck.goto differs rfl
    | unlock =>
        have holder := own outside
        rw [stuck.mine] at holder
        exact absurd (Option.some.inj holder).symm differs
  · have stays : threads.call other operation = threads := by
      unfold Threads.call
      cases pc : threads.pc other <;> first | rfl | exact absurd pc outside
    rwa [stays]

omit [DecidableEq Thread] in
/-- Nobody enters a section. -/
theorem Stuck.silent (stuck : Stuck thread threads) (event : Event Thread) (other : Thread) :
    boundary (threads, event) ≠ some (.enters other) := by
  cases event with
  | step moving =>
      have outside := stuck.outside moving
      have quiet : ¬ (threads.pc moving = .locked ∨ threads.pc moving = .trylocked) := by
        rintro (locked | trylocked)
        · rw [locked] at outside
          cases outside
        · rw [trylocked] at outside
          cases outside
      rw [boundary, if_neg quiet]
      exact Option.some_ne_none _ |>.symm
  | call calling operation =>
      cases operation with
      | lock => exact Option.some_ne_none _ |>.symm
      | trylock => exact Option.some_ne_none _ |>.symm
      | unlock =>
          rw [boundary]
          split_ifs
          · simp
          · simp

end Stuck

/-- A thread that locks a mutex it holds never returns, and from then on nobody enters a
section, as long as each thread unlocks only what it holds. The mutex is of the normal
type. -/
theorem relock_blocks {events more : List (Event Thread)} {thread : Thread}
    (own : interleaving.Meets UnlocksOwn .make (events ++ .call thread .lock :: more))
    (outside : (interleaving.run .make events).pc thread = .outside)
    (mine : (interleaving.run .make events).object.mutex = some thread) :
    (interleaving.run .make (events ++ .call thread .lock :: more)).pc thread = .lock ∧
      ∀ other, .enters other ∉ (interleaving.trace (interleaving.run .make events)
        (.call thread .lock :: more)).filterMap boundary := by
  obtain ⟨ownBefore, -, ownMore⟩ := (EventMachine.meets_append ..).mp own
  have holds := (Excludes.run ownBefore).holds
  rw [EventMachine.run_append]
  generalize interleaving.run .make events = threads at outside mine holds ownMore
  have called : interleaving.step threads (.call thread .lock) = threads.goto thread .lock := by
    show threads.call thread .lock = _
    simp only [Threads.call, outside]
  rw [called] at ownMore
  have stuck : Stuck thread (threads.goto thread .lock) :=
    ⟨holds.goto fun holding => Bool.noConfusion holding, goto_self threads thread .lock, mine⟩
  have run := EventMachine.run_history (fun threads history => Stuck thread threads ∧
    ∀ other, .enters other ∉ history.filterMap boundary) ?kept ⟨stuck, by simp⟩ ownMore
  case kept =>
    rintro before history event ⟨stuck, nobody⟩ own
    refine ⟨?_, fun other member => ?_⟩
    · cases event with
      | call other operation => exact stuck.call own
      | step other => exact stuck.step other
    · rw [List.filterMap_append] at member
      rcases List.mem_append.mp member with old | new
      · exact nobody other old
      · obtain ⟨entry, here, enters⟩ := List.mem_filterMap.mp new
        rw [List.mem_singleton.mp here] at enters
        exact stuck.silent event other enters
  have first : interleaving.run threads (.call thread .lock :: more) =
      interleaving.run (threads.goto thread .lock) more := by
    rw [← called]
    rfl
  rw [first]
  refine ⟨run.1.waits, fun other member => ?_⟩
  rw [EventMachine.trace, called] at member
  exact run.2 other member

/-- Another thread tries in vain. -/
theorem relock_blocks_once :
    (interleaving.run (.make : Threads Bool)
      ([.call true .lock, .step true, .step true] ++ .call true .lock ::
        [.step true, .call false .trylock, .step false])).pc true = .lock := by
  have own : interleaving.Meets UnlocksOwn (.make : Threads Bool)
      ([.call true .lock, .step true, .step true] ++ .call true .lock ::
        [.step true, .call false .trylock, .step false]) :=
    ⟨trivial, trivial, trivial, trivial, trivial, trivial, trivial, trivial⟩
  exact (relock_blocks own rfl rfl).1

end Posix

namespace Win32

variable {Thread : Type u} [DecidableEq Thread]

/-- A thread enters with each `lock` or `trylock` that has entered the critical section, and
leaves with each `unlock`. -/
def boundary (canTry : Bool) : NcMutex Thread × Operation Thread → Option (Mark Thread)
  | (object, .lock thread) => (object.lock thread).map fun _ => .enters thread
  | (object, .trylock thread) =>
      if (object.trylock canTry thread).2 = .ok then some (.enters thread) else none
  | (_, .unlock thread) => some (.leaves thread)

/-- The log of the sections is one of a lock that its owner may enter again. -/
def Excludes (canTry : Bool) (object : NcMutex Thread)
    (history : List (NcMutex Thread × Operation Thread)) : Prop :=
  Holding.free.replay true (history.filterMap (boundary canTry)) = some object.mutex

section Steps

variable {canTry : Bool} {object next : NcMutex Thread}
variable {history : List (NcMutex Thread × Operation Thread)}
variable {entry : NcMutex Thread × Operation Thread}

theorem Excludes.silent (excludes : Excludes canTry object history)
    (nothing : boundary canTry entry = none) (same : next.mutex = object.mutex) :
    Excludes canTry next (history ++ [entry]) := by
  rw [Excludes, List.filterMap_append, List.filterMap_cons_none nothing, List.filterMap_nil,
    List.append_nil, same]
  exact excludes

theorem Excludes.marks (excludes : Excludes canTry object history) {mark : Mark Thread}
    (marks : boundary canTry entry = some mark)
    (allowed : object.mutex.mark true mark = some next.mutex) :
    Excludes canTry next (history ++ [entry]) := by
  rw [Excludes, List.filterMap_append, List.filterMap_cons_some marks, List.filterMap_nil,
    Holding.replay_concat excludes]
  exact allowed

/-- Entering the section is what the lock allows. -/
theorem mark_enters {holding entered : Holding Thread} {thread : Thread}
    (enters : holding.enter thread = some entered) :
    holding.mark true (.enters thread) = some entered := by
  rw [Holding.mark, if_pos (Or.inl rfl)]
  exact enters

theorem Excludes.step (excludes : Excludes canTry object history) {operation : Operation Thread}
    (own : UnlocksOwn object operation) :
    Excludes canTry ((operations canTry).step object operation)
      (history ++ [(object, operation)]) := by
  cases operation with
  | lock thread =>
      show Excludes canTry ((object.lock thread).getD object) _
      cases enters : object.mutex.enter thread with
      | some entered =>
          have locks : object.lock thread = some ⟨entered, 1⟩ := by
            rw [NcMutex.lock, enters]
            rfl
          rw [locks]
          exact excludes.marks (by rw [boundary, locks]; rfl) (mark_enters enters)
      | none =>
          have waits : object.lock thread = none := by
            rw [NcMutex.lock, enters]
            rfl
          rw [waits]
          exact excludes.silent (by rw [boundary, waits]; rfl) rfl
  | trylock thread =>
      show Excludes canTry (object.trylock canTry thread).1 _
      cases enters : object.mutex.enter thread with
      | some entered =>
          cases canTry with
          | true =>
              have tries : object.trylock true thread = (⟨entered, 1⟩, .ok) := by
                simp [NcMutex.trylock, enters]
              rw [tries]
              exact excludes.marks (by rw [boundary, tries]; rfl) (mark_enters enters)
          | false => exact excludes.silent rfl rfl
      | none =>
          cases canTry with
          | true =>
              have tries : object.trylock true thread = ({ object with locked := 0 }, .failed) := by
                simp [NcMutex.trylock, enters]
              rw [tries]
              exact excludes.silent (by rw [boundary, tries]; rfl) rfl
          | false => exact excludes.silent rfl rfl
  | unlock thread =>
      have holder : object.mutex.By thread := own
      refine excludes.marks rfl ?_
      rw [Holding.mark, if_pos holder]
      rfl

end Steps

/-- Whenever a thread enters the critical section, every other thread has left it as often as
it has entered. -/
theorem entries_exclude (canTry : Bool) {history : List (Operation Thread)}
    (own : (operations canTry).Meets UnlocksOwn .make history)
    {before later : List (Mark Thread)} {entering : Thread}
    (split : ((operations canTry).trace (.make : NcMutex Thread) history).filterMap
      (boundary canTry) = before ++ .enters entering :: later)
    {thread : Thread} (other : thread ≠ entering) :
    before.count (.enters thread) = before.count (.leaves thread) := by
  have excludes : Excludes canTry ((operations canTry).run .make history)
      ((operations canTry).trace .make history) :=
    EventMachine.run_history (Excludes canTry) (fun _ _ _ excludes own => excludes.step own) rfl
      own
  rw [Excludes, split] at excludes
  exact Holding.alone_of_replay excludes fun _ => other

/-- The owner enters twice and leaves twice before another thread gets in. -/
theorem entries_exclude_twice :
    [Mark.enters true, .enters true, .leaves true, .leaves true].count (.enters true) =
      [Mark.enters true, .enters true, .leaves true, .leaves true].count (.leaves true) := by
  have own : (operations true).Meets UnlocksOwn .make
      [.lock true, .trylock true, .trylock false, .unlock true, .unlock true, .lock false] :=
    ⟨trivial, trivial, trivial, ⟨1, rfl⟩, ⟨0, rfl⟩, trivial, trivial⟩
  have split : ((operations true).trace (.make : NcMutex Bool)
      [.lock true, .trylock true, .trylock false, .unlock true, .unlock true,
        .lock false]).filterMap (boundary true) =
      [.enters true, .enters true, .leaves true, .leaves true] ++ .enters false :: [] := by
    decide
  exact entries_exclude true own split (by decide)

end Win32

end NetClass.Mutex
