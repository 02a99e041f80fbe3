import Mathlib.Tactic.Ring
import NetClass.Listener.Datagrams

/-!
Contract: the retries of the bind loop.

Owns: the attempts to bind and the pauses between them over whole runs: what leads to a
further attempt, how long the loop waits before it, and when it gives up.

Does **not** own: what is served after a loop that has bound nothing; see
`NetClass.Listener.OwnPort`.
-/

set_option autoImplicit false

namespace NetClass.Listener

open NetClass.Socket

/-- The result of an attempt to bind, with the errno. -/
def Action.attempts : Action → Option (Int × Errno)
  | .bind _ _ ret errno => some (ret, errno)
  | _ => none

/-- A pause of the bind loop. The other pauses of the two threads are shorter than a
second. -/
def Action.pauses : Action → Option Nat
  | .sleep millisecs => if 1000 ≤ millisecs then some millisecs else none
  | _ => none

/-- A failed attempt that is worth another one. -/
def Again (attempt : Int × Errno) : Prop := attempt.1 = -1 ∧ ncAddrInUse attempt.2 = false

/-- The first pauses: one second, two seconds and so on. -/
def pauses (count : Nat) : List Nat := (List.range count).map fun index => (index + 1) * 1000

theorem pauses_succ (count : Nat) : pauses (count + 1) = pauses count ++ [(count + 1) * 1000] := by
  simp [pauses, List.range_succ]

theorem pauses_sum (count : Nat) : 2 * (pauses count).sum = count * (count + 1) * 1000 := by
  induction count with
  | zero => rfl
  | succ count inductionHypothesis =>
      rw [pauses_succ, List.sum_append, List.sum_singleton, Nat.mul_add, inductionHypothesis]
      ring

/-! ### Kinds of actions -/

def Action.ofBindLoop : Action → Bool
  | .bind _ _ _ _ => true
  | .sleep millisecs => decide (1000 ≤ millisecs)
  | _ => false

theorem readsOnly_attempts : ReadsOnly Action.ofBindLoop Action.attempts := by
  intro action other
  cases action <;> first | rfl | cases other

theorem readsOnly_pauses : ReadsOnly Action.ofBindLoop Action.pauses := by
  intro action other
  cases action <;> try rfl
  simp only [Action.ofBindLoop, decide_eq_false_iff_not] at other
  exact if_neg other

/-- The program points of the bind loop. -/
def Pc.ofBindLoop : Pc → Bool
  | .bind | .bindFailed _ => true
  | _ => false

/-- The rest of the call is not about binding. -/
theorem Server.binds_issued (haveThreads : Bool) {server : Server} (answer : Answer)
    (outside : server.pc.ofBindLoop = false) :
    (server.issued haveThreads answer).filter Action.ofBindLoop = [] := by
  have deletes : (server.locals.newSock.destroy.2.map Action.client).filter
      Action.ofBindLoop = [] := filter_clients (fun _ => rfl) _
  unfold Server.issued NcThread.start NcThread.detach NcThread.join threadCall
  cases pc : server.pc <;> rw [pc] at outside <;> dsimp only
  case bind | bindFailed => cases outside
  case spawn => split_ifs <;> simp [Action.ofBindLoop, deletes]
  all_goals (try split_ifs) <;> rfl

/-! ### The invariant -/

/-- After the loop all attempts but perhaps the last one were worth another one. -/
def BindDone (attempts : List (Int × Errno)) (count : Nat) : Prop :=
  attempts.length ≤ count + 1 ∧ count ≤ attempts.length ∧
    ∀ attempt ∈ attempts.take count, Again attempt

/-- Before the loop nothing has been tried. In the loop each attempt so far was worth another
one, apart from the one that is being looked at. -/
def BindPhase (attempts : List (Int × Errno)) (bindAttempts count : Nat) : Pc → Prop
  | .socket | .checkArgs | .raise | .setReuse => attempts = [] ∧ bindAttempts = 0 ∧ count = 0
  | .bind => attempts.length = count ∧ bindAttempts = count ∧ ∀ attempt ∈ attempts, Again attempt
  | .bindFailed errno => bindAttempts = count ∧
      ∃ earlier, attempts = earlier ++ [(-1, errno)] ∧ earlier.length = count ∧
        ∀ attempt ∈ earlier, Again attempt
  | _ => BindDone attempts count

/-- The pauses so far are the first `count` of the schedule. -/
structure Retries (server : Server) (count : Nat) : Prop where
  pauses : server.actions.filterMap Action.pauses = NetClass.Listener.pauses count
  few : count ≤ 10
  phase : BindPhase (server.actions.filterMap Action.attempts) server.locals.bindAttempts count
    server.pc

theorem Retries.begin (listener : NcSocketListener) (args : Arguments) (stopper : StopPc) :
    Retries (.begin listener args stopper) 0 :=
  ⟨rfl, by decide, rfl, rfl, rfl⟩

section Step

variable {haveThreads : Bool} {server next : Server} {answer : Answer} {count : Nat}
variable {attempts : List (Int × Errno)}

theorem bindDone_nil : BindDone [] 0 := ⟨by simp, by simp, by simp⟩

/-- An attempt after which the loop is left. -/
theorem bindDone_concat {earlier : List (Int × Errno)} (length : earlier.length = count)
    (again : ∀ attempt ∈ earlier, Again attempt) (last : Int × Errno) :
    BindDone (earlier ++ [last]) count := by
  subst length
  refine ⟨by simp, by simp, ?_⟩
  rw [List.take_left]
  exact again

theorem bindPhase_afterBind (server : Server) (bindAttempts : Nat)
    (done : BindDone attempts count) : BindPhase attempts bindAttempts count server.afterBind := by
  unfold Server.afterBind
  split_ifs
  · exact done
  · exact done
  · exact done

/-- A step that is not about binding. -/
theorem Retries.silent (retries : Retries server count) {more : List Action}
    (grown : next.actions = server.actions ++ more)
    (silent : more.filter Action.ofBindLoop = [])
    (phase : BindPhase (server.actions.filterMap Action.attempts) next.locals.bindAttempts count
      next.pc) : Retries next count where
  pauses := by
    rw [grown, readsOnly_pauses.append_silent _ silent]
    exact retries.pauses
  few := retries.few
  phase := by
    rw [grown, readsOnly_attempts.append_silent _ silent]
    exact phase

/-- Outside of the loop the phase goes on. -/
theorem Retries.outside (retries : Retries server count)
    (outside : server.pc.ofBindLoop = false) :
    BindPhase (server.actions.filterMap Action.attempts)
      (server.startListening haveThreads answer).locals.bindAttempts count
      (server.startListening haveThreads answer).pc := by
  have phase := retries.phase
  generalize server.actions.filterMap Action.attempts = attempts at phase
  unfold Server.startListening Server.afterThread
  cases pc : server.pc <;> rw [pc] at phase outside <;> dsimp only
  case bind | bindFailed => cases outside
  case socket | checkArgs =>
    obtain ⟨rfl, none, rfl⟩ := phase
    split_ifs
    · exact bindDone_nil
    · exact ⟨rfl, none, rfl⟩
  case raise =>
    obtain ⟨rfl, none, rfl⟩ := phase
    split_ifs
    · exact ⟨rfl, none, rfl⟩
    · exact ⟨rfl, none, by simp⟩
  case setReuse =>
    obtain ⟨rfl, none, rfl⟩ := phase
    split_ifs
    · exact bindDone_nil
    · exact ⟨rfl, none, by simp⟩
  case returned ret =>
    rw [pc]
    exact phase
  all_goals (try split_ifs) <;> exact phase

theorem Retries.bind (retries : Retries server count) (atBind : server.pc = .bind) :
    Retries (server.startListening haveThreads answer) count := by
  obtain ⟨length, same, again⟩ : BindPhase _ _ count .bind := atBind ▸ retries.phase
  have issued : server.issued haveThreads answer =
      [.bind server.listener.sockfd server.listener.port answer.ret answer.errno] := by
    rw [Server.issued, atBind]
  have grown := Server.startListening_actions haveThreads server answer
  rw [issued] at grown
  constructor
  · rw [grown, List.filterMap_append]
    exact (List.append_nil _).trans retries.pauses
  · exact retries.few
  · rw [grown, List.filterMap_append]
    show BindPhase (_ ++ [(answer.ret, answer.errno)]) _ _ _
    simp only [Server.startListening, atBind]
    split_ifs with failed
    · rw [failed]
      exact ⟨same, _, rfl, length, again⟩
    · exact bindPhase_afterBind _ _ (bindDone_concat length again _)

theorem Retries.bindFailed (retries : Retries server count) {errno : Errno}
    (atFailed : server.pc = .bindFailed errno) : ∃ after,
      Retries (server.startListening haveThreads answer) after := by
  obtain ⟨same, earlier, tried, length, again⟩ : BindPhase _ _ count (.bindFailed errno) :=
    atFailed ▸ retries.phase
  have done : BindDone (server.actions.filterMap Action.attempts) count := by
    rw [tried]
    exact bindDone_concat length again _
  have grown := Server.startListening_actions haveThreads server answer
  by_cases retry : server.listener.listening = true ∧ server.locals.bindAttempts ≠ 10 ∧
      ¬ ncAddrInUse errno = true
  · obtain ⟨listening, early, free⟩ := retry
    have issued : server.issued haveThreads answer = [.sleep ((count + 1) * 1000)] := by
      rw [Server.issued, atFailed]
      dsimp only
      rw [if_pos ⟨listening, early, free⟩, same]
    have next : (server.startListening haveThreads answer).pc = .bind ∧
        (server.startListening haveThreads answer).locals.bindAttempts = count + 1 := by
      simp only [Server.startListening, atFailed, if_pos listening, if_neg early, if_neg free]
      exact ⟨rfl, congrArg (· + 1) same⟩
    rw [issued] at grown
    have long : 1000 ≤ (count + 1) * 1000 := by omega
    refine ⟨count + 1, ?_, ?_, ?_⟩
    · rw [grown, List.filterMap_append, retries.pauses, pauses_succ]
      simp [Action.pauses, long]
    · have few := retries.few
      omega
    · have kept : (server.actions ++ [Action.sleep ((count + 1) * 1000)]).filterMap
          Action.attempts = server.actions.filterMap Action.attempts := by
        rw [List.filterMap_append]
        exact List.append_nil _
      rw [grown, kept, next.1, next.2, tried]
      refine ⟨by simp [length], rfl, ?_⟩
      intro attempt member
      rcases List.mem_append.mp member with old | new
      · exact again attempt old
      · rw [List.mem_singleton.mp new]
        exact ⟨rfl, Bool.not_eq_true _ ▸ free⟩
  · have issued : server.issued haveThreads answer = [] := by
      rw [Server.issued, atFailed]
      exact if_neg retry
    refine ⟨count, retries.silent grown (by rw [issued]; rfl) ?_⟩
    simp only [Server.startListening, atFailed]
    split_ifs with listening last inUse
    · exact done
    · exact bindPhase_afterBind _ _ done
    · exact absurd ⟨listening, last, inUse⟩ retry
    · exact bindPhase_afterBind _ _ done

theorem Retries.stop (retries : Retries server count) : Retries server.stopListening count := by
  have stops := server.stops
  obtain ⟨more, grown, issues⟩ := stops.actions
  refine retries.silent grown ?_ ?_
  · apply List.filter_eq_nil_iff.mpr
    intro action member
    rcases issues action member with rfl | rfl | rfl <;> simp [Action.ofBindLoop]
  · rw [stops.pc, stops.locals]
    exact retries.phase

theorem Retries.start (retries : Retries server count) :
    ∃ after, Retries (server.startListening haveThreads answer) after := by
  by_cases outside : server.pc.ofBindLoop = false
  · exact ⟨count, retries.silent (Server.startListening_actions haveThreads server answer)
      (server.binds_issued haveThreads answer outside) (retries.outside outside)⟩
  · cases pc : server.pc with
    | bind => exact ⟨count, retries.bind pc⟩
    | bindFailed errno => exact retries.bindFailed pc
    | _ =>
        rw [pc] at outside
        exact absurd rfl outside

end Step

/-! ### Whole runs -/

/-- In every run the bind loop tries at most eleven times. Each attempt but the last one has
failed with another error than `EADDRINUSE`, and the pauses between the attempts are one
second, two seconds and so on, 55 seconds at most. -/
theorem bind_retries (haveThreads : Bool) (listener : NcSocketListener) (args : Arguments)
    (stopper : StopPc) (events : List Event) :
    let log := ((threads haveThreads).run (.begin listener args stopper) events).actions
    let attempts := log.filterMap Action.attempts
    let waits := log.filterMap Action.pauses
    waits = pauses waits.length ∧ waits.length ≤ 10 ∧ waits.sum ≤ 55000 ∧
      waits.length ≤ attempts.length ∧ attempts.length ≤ waits.length + 1 ∧
      ∀ attempt ∈ attempts.take waits.length, Again attempt := by
  intro log attempts waits
  obtain ⟨count, retries⟩ : ∃ count,
      Retries ((threads haveThreads).run (.begin listener args stopper) events) count := by
    apply EventMachine.run_invariant (fun server => ∃ count, Retries server count) _
      ⟨0, .begin listener args stopper⟩
      (EventMachine.meets_of_forall (fun _ _ => trivial) _ events)
    rintro server event ⟨count, retries⟩ -
    cases event with
    | start answer => exact retries.start
    | stop => exact ⟨count, retries.stop⟩
  have schedule : waits = pauses count := retries.pauses
  have length : waits.length = count := by simp [schedule, pauses]
  have few := retries.few
  have total := pauses_sum count
  have done : BindDone attempts count ∨ (count = 0 ∧ attempts = []) := by
    have phase := retries.phase
    cases pc : ((threads haveThreads).run (.begin listener args stopper) events).pc <;>
      rw [pc] at phase
    case socket | checkArgs | raise | setReuse => exact Or.inr ⟨phase.2.2, phase.1⟩
    case bind =>
      obtain ⟨length, -, again⟩ := phase
      refine Or.inl ⟨?_, Nat.le_of_eq length.symm, fun attempt member => ?_⟩
      · exact Nat.le_succ_of_le (Nat.le_of_eq length)
      · exact again attempt (List.mem_of_mem_take member)
    case bindFailed errno =>
      obtain ⟨-, earlier, tried, length, again⟩ := phase
      left
      show BindDone (List.filterMap _ _) count
      rw [tried]
      exact bindDone_concat length again _
    all_goals exact Or.inl phase
  rw [length, schedule]
  refine ⟨rfl, few, ?_, ?_⟩
  · have bound : count * (count + 1) ≤ 10 * 11 := Nat.mul_le_mul few (by omega)
    omega
  · rcases done with ⟨atMost, atLeast, again⟩ | ⟨rfl, none⟩
    · exact ⟨atLeast, atMost, again⟩
    · rw [none]
      exact ⟨Nat.zero_le _, Nat.zero_le _, by simp⟩

end NetClass.Listener
