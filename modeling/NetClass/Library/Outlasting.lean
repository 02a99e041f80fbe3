import NetClass.Library.AnswerLoop

/-!
Contract: two loops on the same answers, one of which goes on at least as long as the
other.

Owns: the rule that carries a relation between their states from pass to pass until the
shorter loop has returned, and the rule that answers on which a loop does nothing may be
left out.

Does **not** own: what the longer loop does when the shorter one has returned.
-/

set_option autoImplicit false

universe u v w u' w'

namespace AnswerLoop

variable {State : Type u} {Answer : Type v} {Result : Type w}
variable {State' : Type u'} {Result' : Type w'}

/-- The two passes go the same way. -/
inductive Matched (related : State → State' → Prop)
    (ended : State → Result → State' → Result' → Prop) :
    Pass State Result → Pass State' Result' → Prop where
  | again (state : State) (state' : State') (relates : related state state') :
      Matched related ended (.again state) (.again state')
  | leave (state : State) (result : Result) (state' : State') (result' : Result')
      (ends : ended state result state' result') :
      Matched related ended (.leave state result) (.leave state' result')

/-- Passes that leave with one result agree. -/
theorem Matched.agree {related : State → State' → Prop} {pass : Pass State Result}
    {pass' : Pass State' Result}
    (matched : Matched related
      (fun last result last' result' => related last last' ∧ result = result') pass pass') :
    Agree related pass pass' := by
  cases matched with
  | again state state' relates => exact .again state state' relates
  | leave last result last' result' ends =>
      rw [← ends.2]
      exact .leave last last' result ends.1

/-- As long as the left loop goes on, the right one goes on with it. -/
structure Outlasts (left : AnswerLoop State Answer Result)
    (right : AnswerLoop State' Answer Result') (related : State → State' → Prop)
    (ended : State → Result → State' → Result' → Prop) : Prop where
  guard : ∀ state state', related state state' → left.guard state = true →
    right.guard state' = true
  body : ∀ state state' answer, related state state' → left.guard state = true →
    Matched related ended (left.body state answer) (right.body state' answer)

/-- What becomes of the right run when the left one has returned: it goes on from a
related state, or it has been left together with the other. -/
inductive Continued (left : AnswerLoop State Answer Result)
    (right : AnswerLoop State' Answer Result') (related : State → State' → Prop)
    (ended : State → Result → State' → Result' → Prop) (last : State) :
    Result → Option (State' × Result') → Prop where
  | stopped (state' : State') (rest : List Answer) (relates : related last state')
      (ends : left.guard last = false) :
      Continued left right related ended last (left.finish last) (right.run state' rest)
  | left (result : Result) (last' : State') (result' : Result')
      (ends : ended last result last' result') :
      Continued left right related ended last result (some (last', result'))

namespace Outlasts

variable {left : AnswerLoop State Answer Result} {right : AnswerLoop State' Answer Result'}
variable {related : State → State' → Prop}
variable {ended : State → Result → State' → Result' → Prop}

/-- The right run returns no earlier than the left one. -/
theorem run_none (outlasts : Outlasts left right related ended) {answers : List Answer}
    {start : State} {start' : State'} (relates : related start start')
    (asks : left.run start answers = none) : right.run start' answers = none := by
  induction answers generalizing start start' with
  | nil =>
      by_cases goes : left.guard start = true
      · simp [AnswerLoop.run, outlasts.guard _ _ relates goes]
      · simp [AnswerLoop.run, goes] at asks
  | cons answer rest inductionHypothesis =>
      by_cases goes : left.guard start = true
      · have goes' := outlasts.guard _ _ relates goes
        have same := outlasts.body _ _ answer relates goes
        generalize body : left.body start answer = pass at same
        generalize body' : right.body start' answer = pass' at same
        cases same with
        | again next next' relates =>
            rw [run_cons_again goes body] at asks
            rw [run_cons_again goes' body']
            exact inductionHypothesis relates asks
        | leave last result last' result' ends =>
            rw [run_cons_leave goes body] at asks
            cases asks
      · simp [AnswerLoop.run, goes] at asks

theorem run_some (outlasts : Outlasts left right related ended) {answers : List Answer}
    {start last : State} {start' : State'} {result : Result} (relates : related start start')
    (returns : left.run start answers = some (last, result)) :
    Continued left right related ended last result (right.run start' answers) := by
  induction answers generalizing start start' with
  | nil =>
      by_cases goes : left.guard start = true
      · simp [AnswerLoop.run, goes] at returns
      · rw [Bool.not_eq_true] at goes
        rw [run_of_not_guard goes, Option.some.injEq, Prod.mk.injEq] at returns
        obtain ⟨rfl, rfl⟩ := returns
        exact .stopped start' [] relates goes
  | cons answer rest inductionHypothesis =>
      by_cases goes : left.guard start = true
      · have goes' := outlasts.guard _ _ relates goes
        have same := outlasts.body _ _ answer relates goes
        generalize body : left.body start answer = pass at same
        generalize body' : right.body start' answer = pass' at same
        cases same with
        | again next next' relates =>
            rw [run_cons_again goes body] at returns
            rw [run_cons_again goes' body']
            exact inductionHypothesis relates returns
        | leave left value last' result' ends =>
            rw [run_cons_leave goes body, Option.some.injEq, Prod.mk.injEq] at returns
            obtain ⟨rfl, rfl⟩ := returns
            rw [run_cons_leave goes' body']
            exact .left _ last' result' ends
      · rw [Bool.not_eq_true] at goes
        rw [run_of_not_guard goes, Option.some.injEq, Prod.mk.injEq] at returns
        obtain ⟨rfl, rfl⟩ := returns
        exact .stopped start' (answer :: rest) relates goes

/-- While the left run asks for more answers, both runs go on from related states. -/
theorem run_asks (outlasts : Outlasts left right related ended) {answers : List Answer}
    {start : State} {start' : State'} (relates : related start start')
    (asks : left.run start answers = none) :
    ∃ head head', related head head' ∧ left.guard head = true ∧ ∀ later,
      left.run start (answers ++ later) = left.run head later ∧
        right.run start' (answers ++ later) = right.run head' later := by
  induction answers generalizing start start' with
  | nil =>
      by_cases goes : left.guard start = true
      · exact ⟨start, start', relates, goes, fun later => ⟨rfl, rfl⟩⟩
      · simp [AnswerLoop.run, goes] at asks
  | cons answer rest inductionHypothesis =>
      by_cases goes : left.guard start = true
      · have goes' := outlasts.guard _ _ relates goes
        have same := outlasts.body _ _ answer relates goes
        generalize body : left.body start answer = pass at same
        generalize body' : right.body start' answer = pass' at same
        cases same with
        | again next next' relates =>
            rw [run_cons_again goes body] at asks
            obtain ⟨head, head', relates, goesOn, ahead⟩ := inductionHypothesis relates asks
            refine ⟨head, head', relates, goesOn, fun later => ?_⟩
            rw [List.cons_append, run_cons_again goes body, run_cons_again goes' body']
            exact ahead later
        | leave last result last' result' ends =>
            rw [run_cons_leave goes body] at asks
            cases asks
      · simp [AnswerLoop.run, goes] at asks

/-- If the right loop stops whenever the left one does, the two runs return together. -/
theorem run_together (outlasts : Outlasts left right related ended)
    (stops : ∀ state state', related state state' → left.guard state = false →
      right.guard state' = false ∧ ended state (left.finish state) state' (right.finish state'))
    (answers : List Answer) {start : State} {start' : State'} (relates : related start start') :
    (left.run start answers = none ∧ right.run start' answers = none) ∨
      ∃ last result last' result', left.run start answers = some (last, result) ∧
        right.run start' answers = some (last', result') ∧ ended last result last' result' := by
  cases returns : left.run start answers with
  | none => exact Or.inl ⟨rfl, outlasts.run_none relates returns⟩
  | some outcome =>
      obtain ⟨last, result⟩ := outcome
      right
      have continued := outlasts.run_some relates returns
      generalize right.run start' answers = outcome' at continued
      cases continued with
      | stopped last' rest relates ends =>
          obtain ⟨stopped, both⟩ := stops last last' relates ends
          exact ⟨last, _, last', _, rfl, run_of_not_guard stopped rest, both⟩
      | left result last' result' ends => exact ⟨last, result, last', result', rfl, rfl, ends⟩

end Outlasts

/-! ### Answers that may be left out -/

/-- If the left loop does nothing on the answers that are not kept, it agrees with the
right one on the others. -/
theorem LockStep.run_filter {left : AnswerLoop State Answer Result}
    {right : AnswerLoop State' Answer Result} {related : State → State' → Prop}
    {keep : Answer → Bool}
    (lockStep : LockStep left right related (fun answer => keep answer = true))
    (skips : ∀ state state' answer, related state state' → keep answer = false →
      ∃ next, left.body state answer = .again next ∧ related next state')
    (answers : List Answer) {start : State} {start' : State'} (relates : related start start') :
    SameOutcome related (left.run start answers) (right.run start' (answers.filter keep)) := by
  induction answers generalizing start start' with
  | nil => exact lockStep.run [] relates (by simp [passes])
  | cons answer rest inductionHypothesis =>
      have same := lockStep.guard _ _ relates
      by_cases goes : left.guard start = true
      · cases kept : keep answer with
        | true =>
            have goes' : right.guard start' = true := same ▸ goes
            have agree := lockStep.body _ _ answer relates kept
            rw [List.filter_cons_of_pos kept]
            generalize body : left.body start answer = pass at agree
            generalize body' : right.body start' answer = pass' at agree
            cases agree with
            | again next next' relates =>
                rw [run_cons_again goes body, run_cons_again goes' body']
                exact inductionHypothesis relates
            | leave last last' result relates =>
                rw [run_cons_leave goes body, run_cons_leave goes' body']
                exact ⟨relates, rfl⟩
        | false =>
            have skip := skips _ _ answer relates kept
            rw [List.filter_cons_of_neg (by simp [kept])]
            obtain ⟨next, body, relates⟩ := skip
            rw [run_cons_again goes body]
            exact inductionHypothesis relates
      · rw [Bool.not_eq_true] at goes
        rw [run_of_not_guard goes, run_of_not_guard (same ▸ goes)]
        exact ⟨relates, lockStep.finish _ _ relates⟩

end AnswerLoop
