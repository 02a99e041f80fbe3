import NetClass.Listener.Steps

/-!
Contract: the thread flags of a listener that does not start threads.

Owns: two runs whose flags differ in `NC_DETACHED` and `NC_JOINED` only, and the exact flags
for which the two do the same.

Does **not** own: what the flags are for in a listener that starts threads.

The argument check comes before the option is looked at. It wants one of the three flags to
be set.
-/

set_option autoImplicit false

namespace NetClass.Listener

open NetClass.Socket

/-- The flags that are about threads. -/
def threadFlags : BitVec 32 := ncDetached ||| ncJoined

/-- The flags have one of these bits. -/
def Arguments.HasThreadFlag (args : Arguments) : Prop := args.flags &&& threadFlags ≠ 0

instance (args : Arguments) : Decidable args.HasThreadFlag :=
  inferInstanceAs (Decidable (_ ≠ _))

/-- Two calls with the same callback and option whose flags differ in these bits only. -/
structure SameButThreads (args args' : Arguments) : Prop where
  callback : args.callback = args'.callback
  option : args.option = args'.option
  flags : args.flags &&& ~~~threadFlags = args'.flags &&& ~~~threadFlags

/-- The return code of a call that has returned. -/
def Server.result (server : Server) : Option RetCode :=
  match server.pc with
  | .returned ret => some ret
  | _ => none

/-- The two runs have made the same system calls, invoked the callback with the same sockets
and returned the same code, if any. -/
structure SameRun (server server' : Server) : Prop where
  actions : server.actions = server'.actions
  result : server.result = server'.result

/-! ### The argument check -/

section Arguments

variable {args args' : Arguments}

theorem SameButThreads.reuse (same : SameButThreads args args') :
    args.flags &&& ncReuseaddr = args'.flags &&& ncReuseaddr := by
  have outside : ~~~threadFlags &&& ncReuseaddr = ncReuseaddr := by decide
  rw [← outside, ← BitVec.and_assoc, ← BitVec.and_assoc, same.flags]

theorem Arguments.hasThreadFlag_iff (args : Arguments) :
    args.HasThreadFlag ↔ ¬ (args.flags &&& ncDetached = 0 ∧ args.flags &&& ncJoined = 0) := by
  rw [Arguments.HasThreadFlag, threadFlags, BitVec.and_or_distrib_left]
  exact not_congr BitVec.or_eq_zero_iff

/-- What the check asks of the arguments of a call that starts no threads. -/
theorem Arguments.bad_iff (nonthreaded : args.option = ncNonthreaded) :
    args.bad = true ↔ args.callback = false ∨
      (¬ args.HasThreadFlag ∧ args.flags &&& ncReuseaddr = 0) := by
  rw [Arguments.hasThreadFlag_iff, not_not]
  simp [Arguments.bad, nonthreaded, ncThreaded, ncNonthreaded]

/-- The check does not see the difference exactly if there is no callback, or
`NC_REUSEADDR` is set, or both calls or neither have a thread flag. -/
theorem SameButThreads.bad_iff (same : SameButThreads args args')
    (nonthreaded : args.option = ncNonthreaded) :
    args.bad = args'.bad ↔ args.callback = false ∨ args.flags &&& ncReuseaddr ≠ 0 ∨
      (args.HasThreadFlag ↔ args'.HasThreadFlag) := by
  have nonthreaded' : args'.option = ncNonthreaded := same.option ▸ nonthreaded
  rw [Bool.eq_iff_iff, Arguments.bad_iff nonthreaded, Arguments.bad_iff nonthreaded',
    ← same.callback, ← same.reuse]
  tauto

end Arguments

/-! ### Two runs -/

/-- Two servers that differ in their arguments only, and are not about to ask for the thread
flags. -/
structure Alike (server server' : Server) : Prop where
  same : server' = { server with args := server'.args }
  bad : server.args.bad = server'.args.bad
  reuse : server.args.flags &&& ncReuseaddr = server'.args.flags &&& ncReuseaddr
  nonthreaded : server.args.option = ncNonthreaded
  nonthreaded' : server'.args.option = ncNonthreaded
  threadless : server.pc ≠ .spawn ∧ server.pc ≠ .release

section Alike

variable {server server' : Server}

theorem Alike.begin (listener : NcSocketListener) (stopper : StopPc) {args args' : Arguments}
    (same : SameButThreads args args') (nonthreaded : args.option = ncNonthreaded)
    (bad : args.bad = args'.bad) :
    Alike (.begin listener args stopper) (.begin listener args' stopper) where
  same := rfl
  bad := bad
  reuse := same.reuse
  nonthreaded := nonthreaded
  nonthreaded' := same.option ▸ nonthreaded
  threadless := ⟨Pc.noConfusion, Pc.noConfusion⟩

theorem Alike.sameRun (alike : Alike server server') : SameRun server server' := by
  rw [alike.same]
  exact ⟨rfl, rfl⟩

/-- A call without threads does not come to the place where they are started. -/
theorem Server.threadless (haveThreads : Bool) (answer : Answer)
    (nonthreaded : server.args.option = ncNonthreaded)
    (threadless : server.pc ≠ .spawn ∧ server.pc ≠ .release) :
    (server.startListening haveThreads answer).pc ≠ .spawn ∧
      (server.startListening haveThreads answer).pc ≠ .release := by
  have other : ¬ server.args.option = ncThreaded := by
    rw [nonthreaded]
    decide
  unfold Server.startListening Server.afterBind
  cases pc : server.pc <;> dsimp only
  case spawn => exact absurd pc threadless.1
  case release => exact absurd pc threadless.2
  case accept =>
    split_ifs with failed threaded
    · simp
    · exact absurd threaded other
    · simp
  all_goals (try split_ifs) <;> simp [pc]

/-- The step lemma. -/
theorem Alike.start (alike : Alike server server') (haveThreads : Bool) (answer : Answer) :
    Alike (server.startListening haveThreads answer)
      (server'.startListening haveThreads answer) := by
  obtain ⟨same, bad, reuse, nonthreaded, nonthreaded', threadless⟩ := alike
  generalize server'.args = args' at *
  subst same
  have starts := server.starts haveThreads answer
  have starts' := Server.starts haveThreads { server with args := args' } answer
  constructor
  case same =>
    rw [starts'.args]
    have other : ¬ server.args.option = ncThreaded := by
      rw [nonthreaded]
      decide
    have other' : ¬ args'.option = ncThreaded := by
      rw [nonthreaded']
      decide
    unfold Server.startListening
    cases pc : server.pc <;> dsimp only
    case checkArgs =>
      rw [← bad]
      split_ifs <;> rfl
    case raise =>
      rw [← reuse]
      split_ifs <;> rfl
    case accept =>
      split_ifs <;> first | rfl | exact absurd ‹_› other | exact absurd ‹_› other'
    case spawn => exact absurd pc threadless.1
    case release => exact absurd pc threadless.2
    case returned => rw [pc]
    all_goals (try split_ifs) <;> rfl
  case bad => rw [starts.args, starts'.args, bad]
  case reuse => rw [starts.args, starts'.args, reuse]
  case nonthreaded => rw [starts.args, nonthreaded]
  case nonthreaded' => rw [starts'.args, nonthreaded']
  case threadless => exact server.threadless haveThreads answer nonthreaded threadless

theorem Alike.stop (alike : Alike server server') :
    Alike server.stopListening server'.stopListening := by
  obtain ⟨same, bad, reuse, nonthreaded, nonthreaded', threadless⟩ := alike
  generalize server'.args = args' at *
  subst same
  have stops := server.stops
  have stops' := Server.stops { server with args := args' }
  constructor
  case same =>
    rw [stops'.args]
    unfold Server.stopListening
    cases server.stopper <;> dsimp only <;> (try split_ifs) <;> rfl
  case bad => rw [stops.args, stops'.args, bad]
  case reuse => rw [stops.args, stops'.args, reuse]
  case nonthreaded => rw [stops.args, nonthreaded]
  case nonthreaded' => rw [stops'.args, nonthreaded']
  case threadless => rwa [stops.pc]

/-- The run lemma. -/
theorem Alike.run (alike : Alike server server') (haveThreads : Bool) (events : List Event) :
    Alike ((threads haveThreads).run server events) ((threads haveThreads).run server' events) := by
  apply EventMachine.run_related Alike _ events server server' alike
  intro left right event alike
  cases event with
  | start answer => exact alike.start haveThreads answer
  | stop => exact alike.stop

end Alike

/-! ### Where the runs part -/

/-- The answers that bring a call past the argument check to its next system call. -/
def pastTheCheck : List Event :=
  [.start (.value 3), .start (.value 0), .start (.value 0), .start (.value 0)]

/-- A call with bad arguments has only created its socket. -/
theorem actions_of_bad (haveThreads : Bool) (listener : NcSocketListener) (stopper : StopPc)
    {args : Arguments} (bad : args.bad = true) :
    ((threads haveThreads).run (.begin listener args stopper) pastTheCheck).actions.length = 1 := by
  simp [EventMachine.run, threads, pastTheCheck, Server.begin, Server.startListening, bad,
    Answer.value, Server.issue, Server.goto]

/-- A call with good ones has made one more call. -/
theorem actions_of_good (haveThreads : Bool) (listener : NcSocketListener) (stopper : StopPc)
    {args : Arguments} (good : args.bad = false) :
    ((threads haveThreads).run (.begin listener args stopper) pastTheCheck).actions.length = 2 := by
  by_cases reuse : args.flags &&& ncReuseaddr = 0
  · simp [EventMachine.run, threads, pastTheCheck, Server.begin, Server.startListening, good,
      reuse, Answer.value, Server.issue, Server.goto]
  · have set : ¬ args.flags &&& ncReuseaddr = 0#32 := reuse
    simp [EventMachine.run, threads, pastTheCheck, Server.begin, Server.startListening, good,
      set, Answer.value, Server.issue, Server.goto]

/-- The two runs of a listener that starts no threads do the same on all answers and stop
requests if and only if the argument check does not see the difference of their flags. -/
theorem thread_flags_ignored_iff (haveThreads : Bool) (listener : NcSocketListener)
    (stopper : StopPc) (args args' : Arguments) (same : SameButThreads args args')
    (nonthreaded : args.option = ncNonthreaded) :
    (∀ events, SameRun ((threads haveThreads).run (.begin listener args stopper) events)
        ((threads haveThreads).run (.begin listener args' stopper) events)) ↔
      args.callback = false ∨ args.flags &&& ncReuseaddr ≠ 0 ∨
        (args.HasThreadFlag ↔ args'.HasThreadFlag) := by
  rw [← same.bad_iff nonthreaded]
  constructor
  · intro sameRuns
    have length := congrArg List.length (sameRuns pastTheCheck).actions
    cases bad : args.bad <;> cases bad' : args'.bad
    · rfl
    · rw [actions_of_good haveThreads listener stopper bad,
        actions_of_bad haveThreads listener stopper bad'] at length
      cases length
    · rw [actions_of_bad haveThreads listener stopper bad,
        actions_of_good haveThreads listener stopper bad'] at length
      cases length
    · rfl
  · intro bad events
    exact ((Alike.begin listener stopper same nonthreaded bad).run haveThreads events).sameRun

/-- `NC_REUSEADDR` alone, and together with `NC_JOINED`. -/
theorem thread_flags_ignored_iff_reuse :
    ncReuseaddr ||| ncJoined ≠ ncReuseaddr ∧
    ∀ events, SameRun
      ((threads true).run (.begin (.make 80 socktypeTcpip) ⟨true, ncNonthreaded, ncReuseaddr⟩
        .begin) events)
      ((threads true).run (.begin (.make 80 socktypeTcpip)
        ⟨true, ncNonthreaded, ncReuseaddr ||| ncJoined⟩ .begin) events) := by
  refine ⟨by decide, ?_⟩
  exact (thread_flags_ignored_iff true (.make 80 socktypeTcpip) .begin
    ⟨true, ncNonthreaded, ncReuseaddr⟩ ⟨true, ncNonthreaded, ncReuseaddr ||| ncJoined⟩
    ⟨rfl, rfl, by decide⟩ rfl).mpr (Or.inr (Or.inl (by decide)))

/-- Without any flag a listener that starts no threads returns `NC_BADARGS`. With
`NC_DETACHED` it serves a client. -/
theorem thread_flags_matter :
    SameButThreads ⟨true, ncNonthreaded, 0⟩ ⟨true, ncNonthreaded, ncDetached⟩ ∧
    ∃ events,
      ((threads true).run (.begin (.make 80 socktypeTcpip) ⟨true, ncNonthreaded, 0⟩ .begin)
        events).result = some .badArgs ∧
      Action.callback { NcSocket.ofSockfd 4 with ipaddr := 16777343 } ∈
        ((threads true).run (.begin (.make 80 socktypeTcpip) ⟨true, ncNonthreaded, ncDetached⟩
          .begin) events).actions := by
  refine ⟨⟨rfl, rfl, by decide⟩, [.start (.value 3), .start (.value 0), .start (.value 0),
    .start (.value 0), .start (.value 0), .start (.value 0), .start (.value 0),
    .start { Answer.value 4 with address := [2, 0, 0, 80, 127, 0, 0, 1, 0, 0, 0, 0, 0, 0, 0, 0] },
    .start (.value 0)], rfl, by decide⟩

end NetClass.Listener
