import Mathlib.Data.List.Basic
import Mathlib.Tactic.SplitIfs

/-!
Contract: `while` loops whose body asks its environment for one answer in each
pass.

Owns: the run of such a loop on a list of answers, the passes the run makes,
and the rules to reason about it: an invariant rule that also sees the passes
already made, a termination rule with a bound, and a lock-step rule for two
loops on the same answers.

Does **not** own: what a state, an answer or a result is.
-/

set_option autoImplicit false

universe u v w

/-- What one pass through the body of a loop decides: go back to the head of
the loop, or leave the function with a result. -/
inductive Pass (State : Type u) (Result : Type v) where
  | again (state : State)
  | leave (state : State) (result : Result)
deriving DecidableEq, Repr

/-- A loop `while (guard) body`, where each pass of the body consumes one
answer, and `finish` is the result when the guard fails. -/
structure AnswerLoop (State : Type u) (Answer : Type v) (Result : Type w) where
  guard : State → Bool
  body : State → Answer → Pass State Result
  finish : State → Result

namespace AnswerLoop

variable {State : Type u} {Answer : Type v} {Result : Type w}
variable (loop : AnswerLoop State Answer Result)

/-- The run on a list of answers. `none` means that the loop asks for more
answers than the list has, that is, that it has not returned yet. -/
def run : State → List Answer → Option (State × Result)
  | state, [] =>
      if loop.guard state then none else some (state, loop.finish state)
  | state, answer :: rest =>
      if loop.guard state then
        match loop.body state answer with
        | .again next => run next rest
        | .leave last result => some (last, result)
      else some (state, loop.finish state)

/-- The passes of the run: for each, the state at the head of the loop and the
answer that the body consumed. -/
def passes : State → List Answer → List (State × Answer)
  | _, [] => []
  | state, answer :: rest =>
      if loop.guard state then
        (state, answer) ::
          match loop.body state answer with
          | .again next => passes next rest
          | .leave _ _ => []
      else []

variable {loop}

theorem run_of_not_guard {state : State} (stopped : loop.guard state = false)
    (answers : List Answer) :
    loop.run state answers = some (state, loop.finish state) := by
  cases answers <;> simp [run, stopped]

theorem passes_of_not_guard {state : State} (stopped : loop.guard state = false)
    (answers : List Answer) : loop.passes state answers = [] := by
  cases answers <;> simp [passes, stopped]

theorem run_cons_again {state next : State} {answer : Answer}
    (goes : loop.guard state = true) (body : loop.body state answer = .again next)
    (rest : List Answer) :
    loop.run state (answer :: rest) = loop.run next rest := by
  simp [run, goes, body]

theorem passes_cons_again {state next : State} {answer : Answer}
    (goes : loop.guard state = true) (body : loop.body state answer = .again next)
    (rest : List Answer) :
    loop.passes state (answer :: rest) = (state, answer) :: loop.passes next rest := by
  simp [passes, goes, body]

theorem run_cons_leave {state last : State} {answer : Answer} {result : Result}
    (goes : loop.guard state = true)
    (body : loop.body state answer = .leave last result) (rest : List Answer) :
    loop.run state (answer :: rest) = some (last, result) := by
  simp [run, goes, body]

theorem passes_cons_leave {state last : State} {answer : Answer} {result : Result}
    (goes : loop.guard state = true)
    (body : loop.body state answer = .leave last result) (rest : List Answer) :
    loop.passes state (answer :: rest) = [(state, answer)] := by
  simp [passes, goes, body]

theorem passes_cons {state : State} (goes : loop.guard state = true) (answer : Answer)
    (rest : List Answer) :
    ∃ later, loop.passes state (answer :: rest) = (state, answer) :: later := by
  simp [passes, goes]

/-- A run that has returned does not look at later answers. -/
theorem run_append {state : State} {answers : List Answer} {outcome : State × Result}
    (returns : loop.run state answers = some outcome) (later : List Answer) :
    loop.run state (answers ++ later) = some outcome := by
  induction answers generalizing state with
  | nil =>
      by_cases goes : loop.guard state = true
      · simp [run, goes] at returns
      · rw [Bool.not_eq_true] at goes
        rw [run_of_not_guard goes] at returns ⊢
        exact returns
  | cons answer rest inductionHypothesis =>
      by_cases goes : loop.guard state = true
      · cases body : loop.body state answer with
        | again next =>
            rw [run_cons_again goes body] at returns
            rw [List.cons_append, run_cons_again goes body]
            exact inductionHypothesis returns
        | leave last result =>
            rw [run_cons_leave goes body] at returns
            rw [List.cons_append, run_cons_leave goes body]
            exact returns
      · rw [Bool.not_eq_true] at goes
        rw [run_of_not_guard goes] at returns ⊢
        exact returns

/-- The passes consume the answers from the front. -/
theorem passes_answers (start : State) (answers : List Answer) :
    ∃ unused, answers = (loop.passes start answers).map Prod.snd ++ unused := by
  induction answers generalizing start with
  | nil => exact ⟨[], rfl⟩
  | cons answer rest inductionHypothesis =>
      by_cases goes : loop.guard start = true
      · cases body : loop.body start answer with
        | again next =>
            obtain ⟨unused, same⟩ := inductionHypothesis next
            refine ⟨unused, ?_⟩
            rw [passes_cons_again goes body, List.map_cons, List.cons_append, ← same]
        | leave last result =>
            rw [passes_cons_leave goes body]
            exact ⟨rest, rfl⟩
      · rw [Bool.not_eq_true] at goes
        rw [passes_of_not_guard goes]
        exact ⟨answer :: rest, rfl⟩

theorem mem_of_mem_passes {start : State} {answers : List Answer} {pass : State × Answer}
    (member : pass ∈ loop.passes start answers) : pass.2 ∈ answers := by
  obtain ⟨unused, taken⟩ : ∃ unused, answers = (loop.passes start answers).map Prod.snd ++ unused :=
    passes_answers start answers
  rw [taken]
  exact List.mem_append_left _ (List.mem_map_of_mem member)

/-- The answer of a pass, told from its number. -/
theorem passes_getElem {start : State} {answers before after : List Answer} {answer : Answer}
    (split : answers = before ++ answer :: after)
    (below : before.length < (loop.passes start answers).length) :
    (loop.passes start answers)[before.length].2 = answer := by
  obtain ⟨unused, taken⟩ : ∃ unused, answers = (loop.passes start answers).map Prod.snd ++ unused :=
    passes_answers start answers
  have here : answers[before.length]? = some answer := by
    rw [split]
    simp
  rw [taken, List.getElem?_append_left (by rwa [List.length_map]), List.getElem?_map,
    List.getElem?_eq_getElem below] at here
  exact Option.some.inj here

/-- The first pass whose answer satisfies `bad`. -/
theorem first_split (bad : Answer → Prop) {passes : List (State × Answer)}
    {pass : State × Answer} (member : pass ∈ passes) (isBad : bad pass.2) :
    ∃ before first after, passes = before ++ first :: after ∧ bad first.2 ∧
      ∀ earlier ∈ before, ¬ bad earlier.2 := by
  classical
  obtain ⟨first, found⟩ : ∃ first, passes.find? (fun pass => decide (bad pass.2)) = some first := by
    rw [← Option.isSome_iff_exists, List.find?_isSome]
    exact ⟨pass, member, by simpa using isBad⟩
  obtain ⟨firstBad, before, after, split, good⟩ := List.find?_eq_some_iff_append.mp found
  exact ⟨before, first, after, split, by simpa using firstBad, by simpa using good⟩

/-- A run that leaves answers over has returned. -/
theorem returns_of_unused {start : State} {answers : List Answer}
    (unused : (loop.passes start answers).length < answers.length) :
    ∃ outcome, loop.run start answers = some outcome := by
  induction answers generalizing start with
  | nil => simp [passes] at unused
  | cons answer rest inductionHypothesis =>
      by_cases goes : loop.guard start = true
      · cases body : loop.body start answer with
        | again next =>
            rw [passes_cons_again goes body, List.length_cons, List.length_cons] at unused
            rw [run_cons_again goes body]
            exact inductionHypothesis (Nat.lt_of_succ_lt_succ unused)
        | leave last result => exact ⟨_, run_cons_leave goes body rest⟩
      · rw [Bool.not_eq_true] at goes
        exact ⟨_, run_of_not_guard goes _⟩

/-- A run that has not returned asks for the next answer. -/
theorem passes_of_asks {start : State} {answers : List Answer}
    (asks : loop.run start answers = none) (next : Answer) (later : List Answer) :
    answers.length < (loop.passes start (answers ++ next :: later)).length := by
  induction answers generalizing start with
  | nil =>
      by_cases goes : loop.guard start = true
      · simp [passes, goes]
      · simp [run, goes] at asks
  | cons answer rest inductionHypothesis =>
      by_cases goes : loop.guard start = true
      · cases body : loop.body start answer with
        | again next =>
            rw [run_cons_again goes body] at asks
            rw [List.cons_append, passes_cons_again goes body, List.length_cons,
              List.length_cons]
            exact Nat.succ_lt_succ (inductionHypothesis asks)
        | leave last result =>
            rw [run_cons_leave goes body] at asks
            cases asks
      · simp [run, goes] at asks

/-- A run that has not returned is at the head of the loop and goes on from there. -/
theorem run_continues {start : State} {answers : List Answer}
    (asks : loop.run start answers = none) :
    ∃ head, loop.guard head = true ∧
      ∀ later, loop.run start (answers ++ later) = loop.run head later := by
  induction answers generalizing start with
  | nil =>
      by_cases goes : loop.guard start = true
      · exact ⟨start, goes, fun later => rfl⟩
      · simp [run, goes] at asks
  | cons answer rest inductionHypothesis =>
      by_cases goes : loop.guard start = true
      · cases body : loop.body start answer with
        | again next =>
            rw [run_cons_again goes body] at asks
            obtain ⟨head, goesOn, same⟩ := inductionHypothesis asks
            refine ⟨head, goesOn, fun later => ?_⟩
            rw [List.cons_append, run_cons_again goes body, same]
        | leave last result =>
            rw [run_cons_leave goes body] at asks
            cases asks
      · simp [run, goes] at asks

/-! ## The invariant rule -/

/-- The invariant rule with history. `Inv` relates the state at the head of the
loop to the passes made so far; what it gives at each way out holds of the
outcome and of all the passes of the run. -/
theorem run_history (Inv : State → List (State × Answer) → Prop)
    (Post : State → Result → List (State × Answer) → Prop)
    {start last : State} {answers : List Answer} {result : Result}
    (again : ∀ state answer next history, answer ∈ answers → loop.guard state = true →
      Inv state history → loop.body state answer = .again next →
      Inv next (history ++ [(state, answer)]))
    (leave : ∀ state answer last result history, answer ∈ answers →
      loop.guard state = true → Inv state history →
      loop.body state answer = .leave last result →
      Post last result (history ++ [(state, answer)]))
    (finish : ∀ state history, loop.guard state = false → Inv state history →
      Post state (loop.finish state) history)
    (returns : loop.run start answers = some (last, result))
    (holds : Inv start []) :
    Post last result (loop.passes start answers) := by
  -- Generalized to a run that begins in the middle of another one.
  have general : ∀ part, part ⊆ answers → ∀ start history, Inv start history →
      loop.run start part = some (last, result) →
      Post last result (history ++ loop.passes start part) := by
    intro part
    induction part with
    | nil =>
        intro _ start history holds returns
        by_cases goes : loop.guard start = true
        · simp [run, goes] at returns
        · rw [Bool.not_eq_true] at goes
          rw [run_of_not_guard goes, Option.some.injEq, Prod.mk.injEq] at returns
          obtain ⟨rfl, rfl⟩ := returns
          simpa [passes] using finish _ history goes holds
    | cons answer rest inductionHypothesis =>
        intro within start history holds returns
        obtain ⟨member, later⟩ := List.cons_subset.mp within
        by_cases goes : loop.guard start = true
        · cases body : loop.body start answer with
          | again next =>
              rw [run_cons_again goes body] at returns
              have result := inductionHypothesis later next (history ++ [(start, answer)])
                (again _ _ _ history member goes holds body) returns
              rw [passes_cons_again goes body]
              simpa using result
          | leave left value =>
              rw [run_cons_leave goes body, Option.some.injEq, Prod.mk.injEq] at returns
              obtain ⟨rfl, rfl⟩ := returns
              rw [passes_cons_leave goes body]
              exact leave _ _ _ _ history member goes holds body
        · rw [Bool.not_eq_true] at goes
          rw [run_of_not_guard goes, Option.some.injEq, Prod.mk.injEq] at returns
          obtain ⟨rfl, rfl⟩ := returns
          rw [passes_of_not_guard goes, List.append_nil]
          exact finish _ history goes holds
  simpa using general answers (List.Subset.refl _) start [] holds returns

/-- The same invariant holds at every pass, also of a run that has not returned. -/
theorem passes_history (Inv : State → List (State × Answer) → Prop)
    {start : State} {answers : List Answer}
    (again : ∀ state answer next history, answer ∈ answers → loop.guard state = true →
      Inv state history → loop.body state answer = .again next →
      Inv next (history ++ [(state, answer)]))
    (holds : Inv start []) {before after : List (State × Answer)} {pass : State × Answer}
    (split : loop.passes start answers = before ++ pass :: after) :
    loop.guard pass.1 = true ∧ Inv pass.1 before ∧ pass.2 ∈ answers := by
  have general : ∀ part, part ⊆ answers → ∀ start history before, Inv start history →
      loop.passes start part = before ++ pass :: after →
      loop.guard pass.1 = true ∧ Inv pass.1 (history ++ before) ∧ pass.2 ∈ answers := by
    intro part
    induction part with
    | nil =>
        intro _ start history before _ split
        simp [passes] at split
    | cons answer rest inductionHypothesis =>
        intro within start history before holds split
        obtain ⟨member, later⟩ := List.cons_subset.mp within
        by_cases goes : loop.guard start = true
        · have here : before = [] → (start, answer) = pass →
              loop.guard pass.1 = true ∧ Inv pass.1 (history ++ before) ∧ pass.2 ∈ answers := by
            rintro rfl rfl
            exact ⟨goes, by simpa using holds, member⟩
          cases body : loop.body start answer with
          | again next =>
              rw [passes_cons_again goes body] at split
              cases before with
              | nil => exact here rfl (List.cons.inj split).1
              | cons first others =>
                  obtain ⟨rfl, splitLater⟩ := List.cons.inj split
                  have result := inductionHypothesis later next (history ++ [(start, answer)])
                    others (again _ _ _ history member goes holds body) splitLater
                  simpa using result
          | leave last value =>
              rw [passes_cons_leave goes body] at split
              cases before with
              | nil => exact here rfl (List.cons.inj split).1
              | cons first others => simp at split
        · rw [Bool.not_eq_true] at goes
          rw [passes_of_not_guard goes] at split
          simp at split
  simpa using general answers (List.Subset.refl _) start [] before holds split

/-- The plain invariant rule. -/
theorem run_invariant (Inv : State → Prop) (Post : State → Result → Prop)
    (again : ∀ state answer next, loop.guard state = true → Inv state →
      loop.body state answer = .again next → Inv next)
    (leave : ∀ state answer last result, loop.guard state = true → Inv state →
      loop.body state answer = .leave last result → Post last result)
    (finish : ∀ state, loop.guard state = false → Inv state →
      Post state (loop.finish state))
    {start last : State} {answers : List Answer} {result : Result}
    (returns : loop.run start answers = some (last, result)) (holds : Inv start) :
    Post last result :=
  run_history (fun state _ => Inv state) (fun state value _ => Post state value)
    (fun state answer next _ _ => again state answer next)
    (fun state answer left value _ _ => leave state answer left value)
    (fun state _ => finish state) returns holds

/-! ### The termination rule -/

section Counting

variable {Inv : Nat → State → Prop} {Admissible : Answer → Prop}
variable {start : State} {answers : List Answer}

/-- An invariant that knows the number of passes made holds at every pass. -/
theorem passes_invariant
    (again : ∀ count state answer next, loop.guard state = true → Inv count state →
      Admissible answer → loop.body state answer = .again next → Inv (count + 1) next)
    (holds : Inv 0 start) (admissible : ∀ answer ∈ answers, Admissible answer)
    (index : Nat) (below : index < (loop.passes start answers).length) :
    loop.guard (loop.passes start answers)[index].1 = true ∧
      Inv index (loop.passes start answers)[index].1 := by
  have split : loop.passes start answers = (loop.passes start answers).take index ++
      (loop.passes start answers)[index] :: (loop.passes start answers).drop (index + 1) := by
    rw [List.getElem_cons_drop, List.take_append_drop]
  have size : ((loop.passes start answers).take index).length = index :=
    List.length_take_of_le (Nat.le_of_lt below)
  obtain ⟨goes, atIndex, -⟩ := passes_history (fun state history => Inv history.length state)
    (fun state answer next history member goes holds body => by
      rw [List.length_append]
      exact again _ _ _ _ goes holds (admissible answer member) body)
    holds split
  rw [size] at atIndex
  exact ⟨goes, atIndex⟩

/-- A loop whose guard fails after `bound` passes makes at most `bound` of them, and
returns on every list of that many answers. -/
theorem run_returns {bound : Nat}
    (again : ∀ count state answer next, loop.guard state = true → Inv count state →
      Admissible answer → loop.body state answer = .again next → Inv (count + 1) next)
    (bounded : ∀ count state, Inv count state → loop.guard state = true → count < bound)
    (holds : Inv 0 start) (admissible : ∀ answer ∈ answers, Admissible answer) :
    (loop.passes start answers).length ≤ bound ∧
      (bound ≤ answers.length → ∃ outcome, loop.run start answers = some outcome) := by
  constructor
  · by_contra tooMany
    have below : bound < (loop.passes start answers).length := by omega
    obtain ⟨goes, atBound⟩ := passes_invariant again holds admissible bound below
    exact Nat.lt_irrefl bound (bounded bound _ atBound goes)
  · have general : ∀ answers count start, Inv count start →
        (∀ answer ∈ answers, Admissible answer) → bound ≤ count + answers.length →
        ∃ outcome, loop.run start answers = some outcome := by
      intro answers
      induction answers with
      | nil =>
          intro count start holds admissible enough
          have stopped : loop.guard start = false := by
            rw [← Bool.not_eq_true]
            intro goes
            have room := bounded count start holds goes
            simp only [List.length_nil] at enough
            omega
          exact ⟨_, run_of_not_guard stopped []⟩
      | cons answer rest inductionHypothesis =>
          intro count start holds admissible enough
          by_cases goes : loop.guard start = true
          · cases body : loop.body start answer with
            | again next =>
                rw [run_cons_again goes body]
                have admissibleHere := admissible answer (by simp)
                apply inductionHypothesis (count + 1) next
                  (again count start answer next goes holds admissibleHere body)
                · exact fun other member => admissible other (by simp [member])
                · simp only [List.length_cons] at enough
                  omega
            | leave last result => exact ⟨_, run_cons_leave goes body rest⟩
          · rw [Bool.not_eq_true] at goes
            exact ⟨_, run_of_not_guard goes _⟩
    exact fun enough => general answers 0 start holds admissible (by omega)

end Counting

/-! ### The lock-step rule -/

section LockStep

universe u'

variable {State' : Type u'} {left : AnswerLoop State Answer Result}
variable {right : AnswerLoop State' Answer Result}
variable {related : State → State' → Prop} {good : Answer → Prop}

/-- The two passes go the same way, to related states and with the same result. -/
inductive Agree (related : State → State' → Prop) :
    Pass State Result → Pass State' Result → Prop where
  | again (state : State) (state' : State') (relates : related state state') :
      Agree related (.again state) (.again state')
  | leave (state : State) (state' : State') (result : Result)
      (relates : related state state') :
      Agree related (.leave state result) (.leave state' result)

/-- Two loops that do the same in related states on every good answer. -/
structure LockStep (left : AnswerLoop State Answer Result)
    (right : AnswerLoop State' Answer Result) (related : State → State' → Prop)
    (good : Answer → Prop) : Prop where
  guard : ∀ state state', related state state' → left.guard state = right.guard state'
  finish : ∀ state state', related state state' → left.finish state = right.finish state'
  body : ∀ state state' answer, related state state' → good answer →
    Agree related (left.body state answer) (right.body state' answer)

namespace LockStep

variable {start : State} {start' : State'}

/-- The outcomes of two runs agree: neither has returned, or both have, with the same
result and in related states. -/
def SameOutcome (related : State → State' → Prop) :
    Option (State × Result) → Option (State' × Result) → Prop
  | none, none => True
  | some (state, result), some (state', result') => related state state' ∧ result = result'
  | _, _ => False

/-- What can be seen of such outcomes is the same if it is for related states. -/
theorem SameOutcome.map_eq {Seen : Type*} {seen : State × Result → Seen}
    {seen' : State' × Result → Seen} {outcome : Option (State × Result)}
    {outcome' : Option (State' × Result)} (same : SameOutcome related outcome outcome')
    (agree : ∀ state state' result, related state state' →
      seen (state, result) = seen' (state', result)) :
    outcome.map seen = outcome'.map seen' := by
  match outcome, outcome' with
  | none, none => rfl
  | none, some _ => exact same.elim
  | some _, none => exact same.elim
  | some (state, result), some (state', result') =>
      obtain ⟨relates, rfl⟩ := same
      exact congrArg some (agree state state' result relates)

/-- If the left run meets good answers only, the right run agrees with it. -/
theorem run (lockStep : LockStep left right related good) :
    ∀ (answers : List Answer) {start : State} {start' : State'}, related start start' →
      (∀ pass ∈ left.passes start answers, good pass.2) →
      SameOutcome related (left.run start answers) (right.run start' answers) := by
  intro answers
  induction answers with
  | nil =>
      intro start start' relates _
      have same := lockStep.guard _ _ relates
      by_cases goes : left.guard start = true
      · simp [AnswerLoop.run, goes, same ▸ goes, SameOutcome]
      · rw [Bool.not_eq_true] at goes
        rw [run_of_not_guard goes, run_of_not_guard (same ▸ goes)]
        exact ⟨relates, lockStep.finish _ _ relates⟩
  | cons answer rest inductionHypothesis =>
      intro start start' relates all
      have same := lockStep.guard _ _ relates
      by_cases goes : left.guard start = true
      · have goes' : right.guard start' = true := same ▸ goes
        have here : good answer := by
          apply all (start, answer)
          obtain ⟨later, first⟩ := passes_cons goes answer rest
          rw [first]
          exact List.mem_cons_self
        have agree := lockStep.body _ _ answer relates here
        generalize body : left.body start answer = pass at agree
        generalize body' : right.body start' answer = pass' at agree
        cases agree with
        | again next next' relates =>
            rw [run_cons_again goes body, run_cons_again goes' body']
            apply inductionHypothesis relates
            intro pass member
            apply all
            rw [passes_cons_again goes body]
            exact List.mem_cons_of_mem _ member
        | leave last last' result relates =>
            rw [run_cons_leave goes body, run_cons_leave goes' body']
            exact ⟨relates, rfl⟩
      · rw [Bool.not_eq_true] at goes
        rw [run_of_not_guard goes, run_of_not_guard (same ▸ goes)]
        exact ⟨relates, lockStep.finish _ _ relates⟩

/-- If the left run comes to an answer after good ones only, both runs come to it in
related states. -/
theorem reach (lockStep : LockStep left right related good) {pass : State × Answer}
    {after : List (State × Answer)} :
    ∀ (answers : List Answer) (before : List (State × Answer)) {start : State}
      {start' : State'}, related start start' →
      left.passes start answers = before ++ pass :: after →
      (∀ earlier ∈ before, good earlier.2) →
      ∃ state' rest, related pass.1 state' ∧ left.guard pass.1 = true ∧
        left.run start answers = left.run pass.1 (pass.2 :: rest) ∧
        right.run start' answers = right.run state' (pass.2 :: rest) := by
  intro answers
  induction answers with
  | nil =>
      intro before start start' _ split
      simp [passes] at split
  | cons answer rest inductionHypothesis =>
      intro before start start' relates split all
      have same := lockStep.guard _ _ relates
      by_cases goes : left.guard start = true
      · obtain ⟨later, first⟩ := passes_cons goes answer rest
        cases before with
        | nil =>
            obtain rfl := (List.cons.inj (first.symm.trans split)).1
            exact ⟨start', rest, relates, goes, rfl, rfl⟩
        | cons earliest others =>
            have goes' : right.guard start' = true := same ▸ goes
            obtain rfl := (List.cons.inj (first.symm.trans split)).1
            have agree := lockStep.body _ _ answer relates (all _ List.mem_cons_self)
            generalize body : left.body start answer = outcome at agree
            generalize body' : right.body start' answer = outcome' at agree
            cases agree with
            | again next next' relates =>
                rw [passes_cons_again goes body] at split
                rw [run_cons_again goes body, run_cons_again goes' body']
                exact inductionHypothesis others relates (List.cons.inj split).2
                  fun earlier member => all earlier (List.mem_cons_of_mem _ member)
            | leave last last' result relates =>
                rw [passes_cons_leave goes body] at split
                simp at split
      · rw [Bool.not_eq_true] at goes
        rw [passes_of_not_guard goes] at split
        simp at split

end LockStep

end LockStep

/-! ### Answers read through a function -/

section Comap

variable {Source : Type v} (loop) (read : Source → Answer)

/-- The loop that reads each of its answers through `read`. -/
def comap : AnswerLoop State Source Result where
  guard := loop.guard
  body := fun state source => loop.body state (read source)
  finish := loop.finish

theorem run_comap (sources : List Source) : ∀ start : State,
    (loop.comap read).run start sources = loop.run start (sources.map read) := by
  induction sources with
  | nil => exact fun _ => rfl
  | cons source rest inductionHypothesis =>
      intro start
      simp only [run, List.map_cons, inductionHypothesis]
      rfl

theorem passes_comap (sources : List Source) : ∀ start : State,
    loop.passes start (sources.map read) =
      ((loop.comap read).passes start sources).map fun pass => (pass.1, read pass.2) := by
  induction sources with
  | nil => exact fun _ => rfl
  | cons source rest inductionHypothesis =>
      intro start
      by_cases goes : loop.guard start = true
      · have goes' : (loop.comap read).guard start = true := goes
        cases body : loop.body start (read source) with
        | again next =>
            have body' : (loop.comap read).body start source = .again next := body
            rw [List.map_cons, passes_cons_again goes body, passes_cons_again goes' body',
              List.map_cons, inductionHypothesis]
        | leave last result =>
            have body' : (loop.comap read).body start source = .leave last result := body
            rw [List.map_cons, passes_cons_leave goes body, passes_cons_leave goes' body']
            rfl
      · rw [Bool.not_eq_true] at goes
        have stopped : (loop.comap read).guard start = false := goes
        rw [passes_of_not_guard goes, passes_of_not_guard stopped]
        rfl

end Comap

end AnswerLoop
