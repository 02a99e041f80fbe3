import Mathlib.Data.List.Basic

/-!
Contract: deterministic systems that are driven by a list of events.

Owns: the run of a system and its history, the runs whose events all come when a condition holds,
the induction over such a run, the rule that a goal is reached because a measure
runs out, and the rule for a property that the states of a run have exactly if its
events meet a condition.

Does **not** own: any particular system.
-/

set_option autoImplicit false

universe u v

/-- A system that reacts to every event in every state. -/
structure EventMachine (State : Type u) (Event : Type v) where
  step : State → Event → State

namespace EventMachine

variable {State : Type u} {Event : Type v} (machine : EventMachine State Event)

def run (start : State) (events : List Event) : State := events.foldl machine.step start

/-- The history of the run: each event with the state in which it comes. -/
def trace : State → List Event → List (State × Event)
  | _, [] => []
  | state, event :: rest => (state, event) :: trace (machine.step state event) rest

/-- Every event of the run comes in a state in which it satisfies the condition. -/
def Meets (condition : State → Event → Prop) : State → List Event → Prop
  | _, [] => True
  | state, event :: rest =>
      condition state event ∧ Meets condition (machine.step state event) rest

variable {machine}

variable {condition : State → Event → Prop}

instance decidableMeets [∀ state event, Decidable (condition state event)] (start : State) :
    ∀ events, Decidable (machine.Meets condition start events)
  | [] => inferInstanceAs (Decidable True)
  | event :: rest =>
      have := decidableMeets (machine.step start event) rest
      inferInstanceAs (Decidable (_ ∧ _))

theorem run_append (start : State) (left right : List Event) :
    machine.run start (left ++ right) = machine.run (machine.run start left) right := by
  simp [run]

theorem trace_append (start : State) (left right : List Event) :
    machine.trace start (left ++ right) =
      machine.trace start left ++ machine.trace (machine.run start left) right := by
  induction left generalizing start with
  | nil => rfl
  | cons event rest inductionHypothesis =>
      simp only [List.cons_append, trace, inductionHypothesis]
      rfl

theorem meets_append (start : State) (left right : List Event) :
    machine.Meets condition start (left ++ right) ↔
      machine.Meets condition start left ∧
        machine.Meets condition (machine.run start left) right := by
  induction left generalizing start with
  | nil => simp [Meets, run]
  | cons event rest inductionHypothesis =>
      simp only [List.cons_append, Meets, inductionHypothesis, and_assoc]
      rfl

theorem meets_of_forall (all : ∀ state event, condition state event) (start : State)
    (events : List Event) : machine.Meets condition start events := by
  induction events generalizing start with
  | nil => trivial
  | cons event rest inductionHypothesis => exact ⟨all start event, inductionHypothesis _⟩

/-- The events of a run meet a condition if the entries of its history do. -/
theorem meets_of_trace {start : State} {events : List Event}
    (all : ∀ entry ∈ machine.trace start events, condition entry.1 entry.2) :
    machine.Meets condition start events := by
  induction events generalizing start with
  | nil => trivial
  | cons event rest inductionHypothesis =>
      rw [trace, List.forall_mem_cons] at all
      exact ⟨all.1, inductionHypothesis all.2⟩

theorem Meets.and {condition other : State → Event → Prop} {start : State}
    {events : List Event} (left : machine.Meets condition start events)
    (right : machine.Meets other start events) :
    machine.Meets (fun state event => condition state event ∧ other state event) start
      events := by
  induction events generalizing start with
  | nil => trivial
  | cons event rest inductionHypothesis =>
      exact ⟨⟨left.1, right.1⟩, inductionHypothesis left.2 right.2⟩

/-- What holds at the beginning and is kept by every event holds at the end. -/
theorem run_invariant (Inv : State → Prop)
    (kept : ∀ state event, Inv state → condition state event → Inv (machine.step state event))
    {start : State} {events : List Event} (holds : Inv start)
    (meets : machine.Meets condition start events) : Inv (machine.run start events) := by
  induction events generalizing start with
  | nil => exact holds
  | cons event rest inductionHypothesis =>
      exact inductionHypothesis (kept start event holds meets.1) meets.2

/-- An invariant gives a condition that every event of the run meets. -/
theorem meets_of_invariant {other : State → Event → Prop} (Inv : State → Prop)
    (kept : ∀ state event, Inv state → condition state event → Inv (machine.step state event))
    (implies : ∀ state event, Inv state → condition state event → other state event)
    {start : State} {events : List Event} (holds : Inv start)
    (meets : machine.Meets condition start events) : machine.Meets other start events := by
  induction events generalizing start with
  | nil => trivial
  | cons event rest inductionHypothesis =>
      refine ⟨implies start event holds meets.1, ?_⟩
      exact inductionHypothesis (kept start event holds meets.1) meets.2

/-- Two runs on the same events stay related if each event keeps them so. -/
theorem run_related (related : State → State → Prop)
    (kept : ∀ left right event, related left right →
      related (machine.step left event) (machine.step right event)) (events : List Event) :
    ∀ left right : State, related left right →
      related (machine.run left events) (machine.run right events) := by
  induction events with
  | nil => exact fun _ _ relates => relates
  | cons event rest inductionHypothesis =>
      intro left right relates
      exact inductionHypothesis _ _ (kept left right event relates)

/-- An invariant that also knows the history. -/
theorem run_history (Inv : State → List (State × Event) → Prop)
    (kept : ∀ state history event, Inv state history → condition state event →
      Inv (machine.step state event) (history ++ [(state, event)]))
    {start : State} {events : List Event} (holds : Inv start [])
    (meets : machine.Meets condition start events) :
    Inv (machine.run start events) (machine.trace start events) := by
  have general : ∀ events start history, Inv start history →
      machine.Meets condition start events →
      Inv (machine.run start events) (history ++ machine.trace start events) := by
    intro events
    induction events with
    | nil =>
        intro start history holds _
        rw [trace, List.append_nil]
        exact holds
    | cons event rest inductionHypothesis =>
        intro start history holds meets
        have next := inductionHypothesis _ _ (kept start history event holds meets.1) meets.2
        rw [List.append_assoc] at next
        exact next
  exact general events start [] holds meets

/-! ### Every state of a run -/

/-- The property holds in every state that the run comes through. -/
def Always (machine : EventMachine State Event) (property : State → Prop) (start : State)
    (events : List Event) : Prop :=
  ∀ before later, events = before ++ later → property (machine.run start before)

theorem always_nil (property : State → Prop) (start : State) :
    machine.Always property start [] ↔ property start := by
  constructor
  · exact fun always => always [] [] rfl
  · intro holds before later split
    rw [(List.append_eq_nil_iff.mp split.symm).1]
    exact holds

theorem always_cons (property : State → Prop) (start : State) (event : Event)
    (rest : List Event) :
    machine.Always property start (event :: rest) ↔
      property start ∧ machine.Always property (machine.step start event) rest := by
  constructor
  · intro always
    refine ⟨always [] _ rfl, fun before later split => ?_⟩
    exact always (event :: before) later (by rw [split, List.cons_append])
  · rintro ⟨here, always⟩ before later split
    cases before with
    | nil => exact here
    | cons first others =>
        obtain ⟨rfl, splitRest⟩ := List.cons.inj split
        exact always others later splitRest

/-- If an event keeps the property exactly when it meets the condition, a run has the
property throughout exactly when all its events meet the condition. -/
theorem always_iff_meets {allowed : State → Event → Prop} (property : State → Prop)
    (decides : ∀ state event, property state → allowed state event →
      (property (machine.step state event) ↔ condition state event))
    {start : State} {events : List Event} (holds : property start)
    (allows : machine.Meets allowed start events) :
    machine.Always property start events ↔ machine.Meets condition start events := by
  induction events generalizing start with
  | nil =>
      rw [always_nil]
      exact iff_of_true holds trivial
  | cons event rest inductionHypothesis =>
      rw [always_cons, Meets, ← decides start event holds allows.1]
      constructor
      · rintro ⟨-, always⟩
        have next : property (machine.step start event) := always [] rest rfl
        exact ⟨next, (inductionHypothesis next allows.2).mp always⟩
      · rintro ⟨next, meets⟩
        exact ⟨holds, (inductionHypothesis next allows.2).mpr meets⟩

/-! ### Progress -/

/-- A run reaches its goal when it has more counted events than the measure allows. As
long as the goal is not reached, a counted event lowers the measure and no event raises
it. -/
theorem run_reaches (Inv Goal : State → Prop) (measure : State → Nat) (counted : Event → Bool)
    (kept : ∀ state event, Inv state → condition state event → Inv (machine.step state event))
    (stays : ∀ state event, Inv state → condition state event → Goal state →
      Goal (machine.step state event))
    (lowers : ∀ state event, Inv state → condition state event → ¬ Goal state →
      counted event = true →
      Goal (machine.step state event) ∨ measure (machine.step state event) < measure state)
    (keeps : ∀ state event, Inv state → condition state event → ¬ Goal state →
      counted event = false →
      Goal (machine.step state event) ∨ measure (machine.step state event) ≤ measure state)
    {start : State} {events : List Event} (holds : Inv start)
    (meets : machine.Meets condition start events)
    (enough : measure start < events.countP counted) : Goal (machine.run start events) := by
  induction events generalizing start with
  | nil => simp at enough
  | cons event rest inductionHypothesis =>
      have next := kept start event holds meets.1
      have reached : Goal (machine.step start event) →
          Goal (machine.run start (event :: rest)) := by
        intro goal
        refine (run_invariant (fun state => Inv state ∧ Goal state) ?_ ⟨next, goal⟩ meets.2).2
        rintro state event ⟨holds, goal⟩ met
        exact ⟨kept state event holds met, stays state event holds met goal⟩
      by_cases goal : Goal start
      · exact reached (stays start event holds meets.1 goal)
      · cases counts : counted event with
        | true =>
            rcases lowers start event holds meets.1 goal counts with goal | lower
            · exact reached goal
            · apply inductionHypothesis next meets.2
              rw [List.countP_cons_of_pos counts] at enough
              omega
        | false =>
            rcases keeps start event holds meets.1 goal counts with goal | lower
            · exact reached goal
            · apply inductionHypothesis next meets.2
              rw [List.countP_cons_of_neg (by simp [counts])] at enough
              omega

end EventMachine
