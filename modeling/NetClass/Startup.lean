import NetClass.Library.Counter

/-!
Contract: `netClass` on WIN32, and whether WinSock can be used.

Owns: `netClass::initialize` and the destructor with their system calls, the count that
WinSock keeps of its users, and the proof of when it is above zero.

Does **not** own: other platforms, where both functions do nothing and `initialize`
returns 0.

`WSACleanup` undoes one successful `WSAStartup`, and fails if there is none. The destructor
calls it whether or not its object has anything to do with a `WSAStartup`.
-/

set_option autoImplicit false

namespace NetClass.Startup

/-- `LOBYTE`. -/
def lobyte (word : UInt16) : UInt16 := word &&& 0xff

/-- `HIBYTE`. -/
def hibyte (word : UInt16) : UInt16 := word >>> 8

/-- `MAKEWORD(2,2)`. -/
def wVersionRequested : UInt16 := 0x0202

/-- What `WSAStartup` answers: whether it has failed, and `wsaData.wVersion`. -/
structure StartupAnswer where
  failed : Bool
  wVersion : UInt16
deriving DecidableEq, Repr

inductive Call where
  | wsaStartup (wVersionRequested : UInt16) (answer : StartupAnswer)
  | wsaCleanup
deriving DecidableEq, Repr

/-- `netClass::initialize`: its value and its calls. -/
def netClassInitialize (answer : StartupAnswer) : Int × List Call :=
  let calls : List Call := [.wsaStartup wVersionRequested answer]
  if answer.failed then (1, calls)
  else if lobyte answer.wVersion ≠ 2 ∨ hibyte answer.wVersion ≠ 2 then (1, calls ++ [.wsaCleanup])
  else (0, calls)

/-- `netClass::~netClass`. -/
def netClassDestroy : List Call := [.wsaCleanup]

/-- What a process does with `netClass`. -/
inductive Event where
  | initializes (answer : StartupAnswer)
  | destroys
deriving DecidableEq, Repr

def Event.calls : Event → List Call
  | .initializes answer => (netClassInitialize answer).2
  | .destroys => netClassDestroy

/-- `initialize` has returned 0. -/
def Event.succeeds : Event → Bool
  | .initializes answer => decide ((netClassInitialize answer).1 = 0)
  | .destroys => false

def Event.isDestroy : Event → Bool
  | .initializes _ => false
  | .destroys => true

/-! ### The users of WinSock -/

/-- What a call does to the count. -/
def Call.tick : Call → Option Tick
  | .wsaStartup _ answer => if answer.failed then none else some .up
  | .wsaCleanup => some .down

/-- The users that WinSock counts after a history. -/
def users (history : List Event) : Nat :=
  Tick.value 0 ((history.flatMap Event.calls).filterMap Call.tick)

/-- What an event does to the count in all. -/
def Event.tick (event : Event) : Option Tick :=
  if event.succeeds then some .up else if event.isDestroy then some .down else none

/-- An `initialize` that does not return 0 leaves the count alone. -/
theorem value_calls (start : Nat) (event : Event) :
    Tick.value start (event.calls.filterMap Call.tick) = Tick.value start event.tick.toList := by
  cases event with
  | destroys => rfl
  | initializes answer =>
      by_cases failed : answer.failed = true
      · simp [Event.calls, Event.tick, Event.succeeds, Event.isDestroy, netClassInitialize, failed,
          Call.tick]
      · by_cases other : lobyte answer.wVersion ≠ 2 ∨ hibyte answer.wVersion ≠ 2
        · simp [Event.calls, Event.tick, Event.succeeds, Event.isDestroy, netClassInitialize,
            failed, other, Call.tick, Tick.value, Tick.apply]
        · simp [Event.calls, Event.tick, Event.succeeds, netClassInitialize, failed, other,
            Call.tick]

theorem users_eq (history : List Event) :
    users history = Tick.value 0 (history.filterMap Event.tick) := by
  induction history using List.reverseRecOn with
  | nil => rfl
  | append_singleton history event inductionHypothesis =>
      have single : [event].filterMap Event.tick = event.tick.toList := by
        cases tick : event.tick <;> simp [tick]
      rw [users, List.flatMap_append, List.filterMap_append, Tick.value_append,
        List.filterMap_append, Tick.value_append, single, ← inductionHypothesis]
      have calls : [event].flatMap Event.calls = event.calls := List.append_nil _
      rw [calls]
      exact value_calls (users history) event

/-- The ticks of a history, counted by its events. -/
theorem count_ticks (history : List Event) :
    (history.filterMap Event.tick).count .up = history.countP Event.succeeds ∧
      (history.filterMap Event.tick).count .down = history.countP Event.isDestroy := by
  induction history with
  | nil => exact ⟨rfl, rfl⟩
  | cons event history inductionHypothesis =>
      obtain ⟨up, down⟩ := inductionHypothesis
      cases event with
      | destroys =>
          have tick : Event.destroys.tick = some .down := rfl
          have fails : Event.destroys.succeeds = false := rfl
          have destroys : Event.destroys.isDestroy = true := rfl
          simp [tick, up, down, fails, destroys]
      | initializes answer =>
          have keeps : (Event.initializes answer).isDestroy = false := rfl
          by_cases succeeds : (Event.initializes answer).succeeds = true
          · have tick : (Event.initializes answer).tick = some .up := if_pos succeeds
            simp [tick, up, down, succeeds, keeps]
          · have tick : (Event.initializes answer).tick = none := if_neg succeeds
            simp [tick, up, down, succeeds, keeps]

/-- WinSock counts at least so many users exactly if they have come in the last part of the
history: that part has so many more calls of `initialize` that returned 0 than objects that
were destroyed. -/
theorem users_iff (history : List Event) (level : Nat) :
    level ≤ users history ↔ ∃ before later, history = before ++ later ∧
      later.countP Event.isDestroy + level ≤ later.countP Event.succeeds := by
  rw [users_eq, Tick.le_value_iff]
  constructor
  · rintro ⟨before, later, split, rises⟩
    obtain ⟨first, rest, rfl, rfl, rfl⟩ := List.filterMap_eq_append_iff.mp split
    rw [(count_ticks rest).1, (count_ticks rest).2] at rises
    exact ⟨first, rest, rfl, rises⟩
  · rintro ⟨before, later, rfl, rises⟩
    refine ⟨before.filterMap Event.tick, later.filterMap Event.tick, List.filterMap_append .., ?_⟩
    rw [(count_ticks later).1, (count_ticks later).2]
    exact rises

end NetClass.Startup
