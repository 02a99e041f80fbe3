import NetClass.Library.Precedence
import NetClass.Library.Reading
import NetClass.Listener.Setup

/-!
Contract: every client thread is joined or detached.

Owns: what the log says about the threads that were created and how they were released,
and the exact flags for which `startListening` releases each thread before it accepts
the next client.

The argument check and `SO_REUSEADDR` test `flags` bit by bit, but a thread is released
only if `flags` is one of two whole values.
-/

set_option autoImplicit false

namespace NetClass.Listener

open NetClass.Socket

/-- How a thread is released. -/
inductive Release where
  | detached (thread : Nat)
  | joined (thread : Nat)
deriving DecidableEq, Repr

/-- How a thread is to be released: detached if the flags have the `NC_DETACHED` bit, and
otherwise joined. -/
def Release.due (flags : BitVec 32) (thread : Nat) : Release :=
  if flags &&& ncDetached ≠ 0 then .detached thread else .joined thread

/-- The thread that an action creates. -/
def Action.creates : Action → Option Nat
  | .create thread _ ret => if ret = 0 then some thread else none
  | _ => none

/-- The release that an action tries. -/
def Action.tries : Action → Option Release
  | .detach thread _ => some (.detached thread)
  | .join thread _ => some (.joined thread)
  | _ => none

/-- The release that an action achieves. -/
def Action.releases : Action → Option Release
  | .detach thread ret => if ret = 0 then some (.detached thread) else none
  | .join thread ret => if ret = 0 then some (.joined thread) else none
  | _ => none

/-- The releases that the threads of a log need. -/
def releasesDue (flags : BitVec 32) (log : List Action) : List Release :=
  (log.filterMap Action.creates).map (Release.due flags)

/-- For each thread of the log, in this order, one release was tried and achieved. The
pending ones are still to come. -/
structure Releases (flags : BitVec 32) (pending : List Release) (log : List Action) : Prop where
  tried : log.filterMap Action.tries ++ pending = releasesDue flags log
  achieved : log.filterMap Action.releases ++ pending = releasesDue flags log

/-- Each thread is released exactly once before the next `accept`, and also before
`startListening` returns, unless the release itself fails. -/
structure ReleasesEach (server : Server) : Prop where
  beforeAccept : Justified (fun before action =>
    ∀ fd client, action = .accept fd client → Releases server.args.flags [] before) server.actions
  atReturn : ∀ ret, server.pc = .returned ret →
    server.actions.filterMap Action.tries = releasesDue server.args.flags server.actions ∧
      (ret = .ok → Releases server.args.flags [] server.actions)

/-! ### Calls about threads -/

def Action.ofThread : Action → Bool
  | .create _ _ _ | .detach _ _ | .join _ _ => true
  | _ => false

theorem readsOnly_creates : ReadsOnly Action.ofThread Action.creates := by
  intro action other
  cases action <;> first | rfl | cases other

theorem readsOnly_tries : ReadsOnly Action.ofThread Action.tries := by
  intro action other
  cases action <;> first | rfl | cases other

theorem readsOnly_releases : ReadsOnly Action.ofThread Action.releases := by
  intro action other
  cases action <;> first | rfl | cases other

/-- A step creates and releases threads at two program points only. -/
theorem Server.threads_issued (server : Server) (answer : Answer) :
    (server.issued true answer).filter Action.ofThread =
      match server.pc with
      | .spawn => [.create answer.thread server.locals.newSock answer.ret]
      | .release =>
          if server.args.flags = ncDetached then [.detach server.locals.thread answer.ret]
          else if server.args.flags = ncJoined then [.join server.locals.thread answer.ret]
          else []
      | _ => [] := by
  unfold Server.issued NcThread.start NcThread.detach NcThread.join
  simp only [threadCall, ↓reduceIte]
  cases pc : server.pc <;> dsimp only
  case bindFailed | accept | release => split_ifs <;> rfl
  case spawn =>
    rw [List.filter_append, List.filter_cons_of_neg (by simp [Action.ofThread])]
    have deletes : (Action.delete server.locals.newSock ::
        server.locals.newSock.destroy.2.map Action.client).filter Action.ofThread = [] := by
      rw [List.filter_cons_of_neg (by simp [Action.ofThread])]
      exact filter_clients (fun _ => rfl) _
    split_ifs <;> simp only [deletes, List.filter_nil, List.append_nil] <;> rfl
  all_goals rfl

/-! ### The invariant -/

/-- What is known at each program point. -/
def ReleasePhase (server : Server) : Prop :=
  match server.pc with
  | .release =>
      Releases server.args.flags [.due server.args.flags server.locals.thread] server.actions
  | .returned ret =>
      server.actions.filterMap Action.tries = releasesDue server.args.flags server.actions ∧
        (ret = .ok → Releases server.args.flags [] server.actions)
  | _ => Releases server.args.flags [] server.actions

theorem Releases.tries {flags : BitVec 32} {log : List Action} (released : Releases flags [] log) :
    log.filterMap Action.tries = releasesDue flags log := by
  have tried := released.tried
  rw [List.append_nil] at tried
  exact tried

theorem releasePhase_of_releases {server : Server}
    (released : Releases server.args.flags [] server.actions) (notRelease : server.pc ≠ .release) :
    ReleasePhase server := by
  unfold ReleasePhase
  cases pc : server.pc
  case release => exact absurd pc notRelease
  case returned ret => exact ⟨released.tries, fun _ => released⟩
  all_goals exact released

section Append

variable {flags : BitVec 32} {pending : List Release} {log more : List Action} {call : Action}

theorem releasesDue_append (flags : BitVec 32) (log : List Action)
    (silent : more.filter Action.ofThread = []) :
    releasesDue flags (log ++ more) = releasesDue flags log := by
  rw [releasesDue, readsOnly_creates.append_silent log silent, releasesDue]

/-- Calls that are not about threads change nothing. -/
theorem Releases.append (released : Releases flags pending log)
    (silent : more.filter Action.ofThread = []) : Releases flags pending (log ++ more) := by
  have due := releasesDue_append flags log silent
  constructor
  · rw [readsOnly_tries.append_silent log silent, due]
    exact released.tried
  · rw [readsOnly_releases.append_silent log silent, due]
    exact released.achieved

/-- A thread that is created has to be released. -/
theorem Releases.create {thread : Nat} {sock : NcSocket} (released : Releases flags [] log)
    (creates : more.filter Action.ofThread = [.create thread sock 0]) :
    Releases flags [.due flags thread] (log ++ more) := by
  have due : releasesDue flags (log ++ more) =
      releasesDue flags log ++ [.due flags thread] := by
    rw [releasesDue, readsOnly_creates.append log creates, List.map_append]
    rfl
  have tried := released.tried
  have achieved := released.achieved
  rw [List.append_nil] at tried achieved
  constructor
  · rw [readsOnly_tries.append log creates, due, ← tried]
    simp [Action.tries]
  · rw [readsOnly_releases.append log creates, due, ← achieved]
    simp [Action.releases]

/-- A thread whose creation fails has not to be released. -/
theorem Releases.createFailed {thread : Nat} {sock : NcSocket} {ret : Int}
    (released : Releases flags [] log) (failed : ret ≠ 0)
    (creates : more.filter Action.ofThread = [.create thread sock ret]) :
    Releases flags [] (log ++ more) := by
  have due : releasesDue flags (log ++ more) = releasesDue flags log := by
    rw [releasesDue, readsOnly_creates.append log creates]
    simp [Action.creates, failed, releasesDue]
  constructor
  · rw [readsOnly_tries.append log creates, due, ← released.tried]
    simp [Action.tries]
  · rw [readsOnly_releases.append log creates, due, ← released.achieved]
    simp [Action.releases]

/-- The call that the pending thread needs has been tried. -/
theorem Releases.attempt {due : Release} (released : Releases flags [due] log)
    (tries : call.tries = some due) (creates : call.creates = none)
    (calls : more.filter Action.ofThread = [call]) :
    (log ++ more).filterMap Action.tries = releasesDue flags (log ++ more) := by
  rw [releasesDue, readsOnly_tries.append log calls, readsOnly_creates.append log calls,
    List.filterMap_cons_none creates, List.filterMap_cons_some tries]
  simp only [List.filterMap_nil, List.append_nil]
  exact released.tried

/-- It has also been achieved. -/
theorem Releases.achieve {due : Release} (released : Releases flags [due] log)
    (tries : call.tries = some due) (achieves : call.releases = some due)
    (creates : call.creates = none) (calls : more.filter Action.ofThread = [call]) :
    Releases flags [] (log ++ more) := by
  constructor
  · rw [List.append_nil]
    exact released.attempt tries creates calls
  · rw [releasesDue, readsOnly_releases.append log calls, readsOnly_creates.append log calls,
      List.filterMap_cons_none creates, List.filterMap_cons_some achieves]
    simp only [List.filterMap_nil, List.append_nil]
    exact released.achieved

end Append

/-! ### Steps -/

/-- The two values of `flags` that are compared as a whole. -/
def WholeFlags (flags : BitVec 32) : Prop := flags = ncDetached ∨ flags = ncJoined

/-- With such flags the thread gets the call that it needs. -/
theorem Server.release_call {server : Server} (answer : Answer)
    (whole : WholeFlags server.args.flags) (atRelease : server.pc = .release) :
    (∃ call, (server.issued true answer).filter Action.ofThread = [call] ∧
      call.creates = none ∧
      call.tries = some (.due server.args.flags server.locals.thread) ∧
      (answer.ret = 0 →
        call.releases = some (.due server.args.flags server.locals.thread))) ∧
    (server.startListening true answer).pc =
      if answer.ret ≠ 0 then .returned .failed else .acceptAgain := by
  have threads := server.threads_issued answer
  rw [atRelease] at threads
  unfold Server.startListening Server.afterThread
  rcases whole with detached | joined
  · rw [detached] at threads ⊢
    rw [atRelease]
    refine ⟨⟨_, threads, rfl, rfl, ?_⟩, ?_⟩
    · intro success
      simp only [Action.releases, if_pos success]
      rfl
    · by_cases success : answer.ret = 0 <;> simp [NcThread.detach, threadCall, success]
  · have other : ¬ ncJoined = ncDetached := by decide
    rw [joined] at threads ⊢
    rw [atRelease]
    refine ⟨⟨_, threads, rfl, rfl, ?_⟩, ?_⟩
    · intro success
      simp only [Action.releases, if_pos success]
      rfl
    · by_cases success : answer.ret = 0 <;>
        simp [other, NcThread.join, threadCall, success]

/-- Only the creation of a thread leads to its release. -/
theorem Server.release_after {server : Server} {answer : Answer}
    (atRelease : (server.startListening true answer).pc = .release) : server.pc = .spawn := by
  revert atRelease
  unfold Server.startListening Server.afterThread Server.afterBind
  cases pc : server.pc <;> dsimp only <;> (try split_ifs) <;> simp [pc]

theorem ReleasePhase.start {server : Server} (phase : ReleasePhase server)
    (whole : WholeFlags server.args.flags) (answer : Answer) :
    ReleasePhase (server.startListening true answer) := by
  have args := (server.starts true answer).args
  have grown := Server.startListening_actions true server answer
  have threads := server.threads_issued answer
  unfold ReleasePhase at phase
  cases pc : server.pc <;> rw [pc] at phase threads <;> dsimp only at phase threads
  case returned ret =>
    have same : server.startListening true answer = server := by
      simp only [Server.startListening, pc]
    rw [same, ReleasePhase, pc]
    exact phase
  case release =>
    obtain ⟨⟨call, calls, creates, tries, achieves⟩, next⟩ := server.release_call answer whole pc
    unfold ReleasePhase
    rw [next, args, grown]
    split_ifs with failed
    · exact ⟨phase.attempt tries creates calls, fun ok => RetCode.noConfusion ok⟩
    · rw [not_not] at failed
      exact phase.achieve tries (achieves failed) creates calls
  case spawn =>
    have next : (server.startListening true answer).pc =
        (if answer.ret ≠ 0 then .returned .failed else .release) ∧
        (server.startListening true answer).locals.thread = answer.thread := by
      simp only [Server.startListening, pc, NcThread.start, threadCall, ↓reduceIte]
      split_ifs <;> simp_all
    by_cases failed : answer.ret ≠ 0
    · rw [if_pos failed] at next
      apply releasePhase_of_releases
      · rw [args, grown]
        exact phase.createFailed failed threads
      · simp [next.1]
    · rw [if_neg failed] at next
      rw [not_not] at failed
      rw [failed] at threads
      rw [ReleasePhase, next.1, next.2, args, grown]
      exact phase.create threads
  all_goals
    apply releasePhase_of_releases
    · rw [args, grown]
      exact phase.append threads
    · intro atRelease
      rw [Server.release_after atRelease] at pc
      cases pc

theorem ReleasePhase.stop {server : Server} (phase : ReleasePhase server) :
    ReleasePhase server.stopListening := by
  have stops := server.stops
  generalize server.stopListening = next at stops
  obtain ⟨more, grown, silent⟩ : ∃ more, next.actions = server.actions ++ more ∧
      more.filter Action.ofThread = [] :=
    stops.silent (fun _ => rfl) (fun _ _ => rfl) (fun _ => rfl)
  unfold ReleasePhase at phase ⊢
  rw [stops.pc, stops.args, stops.locals, grown]
  cases pc : server.pc <;> rw [pc] at phase
  case returned ret =>
    dsimp only at phase ⊢
    rw [readsOnly_tries.append_silent _ silent, releasesDue_append _ _ silent]
    exact ⟨phase.1, fun ok => (phase.2 ok).append silent⟩
  all_goals exact phase.append silent

/-! ### Before each accept -/

/-- What an `accept` is justified by. -/
def AfterReleases (flags : BitVec 32) (before : List Action) (action : Action) : Prop :=
  ∀ fd client, action = .accept fd client → Releases flags [] before

/-- A step accepts at one program point, and accepts first. -/
theorem Server.accept_issued {server : Server} {answer : Answer} {before later : List Action}
    {fd client : Int}
    (split : server.issued true answer = before ++ .accept fd client :: later) :
    server.pc = .accept ∧ before = [] := by
  have member : .accept fd client ∈ server.issued true answer := by simp [split]
  have atAccept : server.pc = .accept := by
    revert member
    unfold Server.issued NcThread.start NcThread.detach NcThread.join
    simp only [threadCall, ↓reduceIte]
    cases pc : server.pc <;> dsimp only <;> (try split_ifs) <;> simp
  refine ⟨atAccept, ?_⟩
  simp only [Server.issued, atAccept] at split
  cases before with
  | nil => rfl
  | cons first others =>
      have rest := (List.cons.inj split).2
      split_ifs at rest <;> simp [List.cons_eq_append_iff] at rest

/-- The invariant of a call with such flags. -/
structure KeepsReleasing (flags : BitVec 32) (server : Server) : Prop where
  own : server.args.flags = flags
  justified : Justified (AfterReleases flags) server.actions
  phase : ReleasePhase server

theorem KeepsReleasing.start {flags : BitVec 32} {server : Server}
    (keeps : KeepsReleasing flags server) (whole : WholeFlags flags) (answer : Answer) :
    KeepsReleasing flags (server.startListening true answer) where
  own := by
    rw [(server.starts true answer).args]
    exact keeps.own
  justified := by
    rw [Server.startListening_actions]
    apply keeps.justified.append
    rintro before action later split fd client rfl
    obtain ⟨atAccept, rfl⟩ := Server.accept_issued split
    have phase := keeps.phase
    rw [ReleasePhase, atAccept] at phase
    rw [List.append_nil, ← keeps.own]
    exact phase
  phase := keeps.phase.start (keeps.own ▸ whole) answer

theorem KeepsReleasing.stop {flags : BitVec 32} {server : Server}
    (keeps : KeepsReleasing flags server) : KeepsReleasing flags server.stopListening where
  own := by
    rw [server.stops.args]
    exact keeps.own
  justified := by
    obtain ⟨more, grown, harmless⟩ := server.stops.actions
    rw [grown]
    apply keeps.justified.append
    rintro before action later rfl fd client rfl
    rcases harmless (.accept fd client) (by simp) with same | same | same <;> cases same
  phase := keeps.phase.stop

theorem KeepsReleasing.begin (listener : NcSocketListener) (args : Arguments)
    (stopper : StopPc) : KeepsReleasing args.flags (.begin listener args stopper) where
  own := rfl
  justified := .nil
  phase := ⟨rfl, rfl⟩

theorem KeepsReleasing.each {flags : BitVec 32} {server : Server}
    (keeps : KeepsReleasing flags server) : ReleasesEach server := by
  constructor
  · rw [keeps.own]
    exact keeps.justified
  · intro ret returned
    have phase := keeps.phase
    rw [ReleasePhase, returned] at phase
    exact phase

/-! ### Other flags -/

/-- Two clients arrive one after the other. -/
def twoClients : List Event :=
  [.start (.value 0), .start (arrival 5), .start (.value 0), .start (.value 0),
    .start (.value 0), .start (.value 0), .start (arrival 6)]

/-- With other flags the second client is accepted while the first one's thread is neither
joined nor detached. -/
theorem run_twoClients {listener : NcSocketListener} {args : Arguments} (stopper : StopPc)
    (threaded : args.option = ncThreaded) (other : ¬ WholeFlags args.flags) :
    ((threads true).run (.accepting listener args stopper) twoClients).actions =
      ((Server.accepting listener args stopper).actions ++
        [.accept 7 5, .construct (arrived 5), .create 0 (arrived 5) 0]) ++ [.accept 7 6] := by
  have notDetached : ¬ args.flags = ncDetached := fun same => other (Or.inl same)
  have notJoined : ¬ args.flags = ncJoined := fun same => other (Or.inr same)
  have first : (5 : Int) ≠ -1 := by decide
  have second : (6 : Int) ≠ -1 := by decide
  have okNotFailed : ¬ RetCode.ok = .failed := by decide
  generalize opening : (Server.accepting listener args stopper).actions = log
  unfold Server.accepting at opening ⊢
  dsimp only at opening
  rw [opening]
  simp only [twoClients, EventMachine.run, threads, List.foldl_cons, List.foldl_nil,
    Server.startListening, Server.goto, Server.issue, arrival, Answer.value, NcThread.start,
    threadCall, if_neg first, if_neg second, threaded, notDetached, notJoined, okNotFailed,
    not_true_eq_false, ne_eq, ↓reduceIte]
  simp only [List.append_assoc]
  rfl

/-- The log of a setup is not about threads. -/
theorem filter_accepting (listener : NcSocketListener) (args : Arguments) (stopper : StopPc) :
    (Server.accepting listener args stopper).actions.filter Action.ofThread = [] := by
  unfold Server.accepting
  dsimp only
  split_ifs <;> rfl

/-- Each thread is released before the next `accept`, in every run, exactly if `flags` is
`NC_DETACHED` or `NC_JOINED` and nothing else. -/
theorem releases_each_iff {listener : NcSocketListener} {args : Arguments} (stopper : StopPc)
    (tcp : listener.socktype = socktypeTcpip) (good : args.bad = false)
    (threaded : args.option = ncThreaded) :
    (∀ events, ReleasesEach ((threads true).run (.begin listener args stopper) events)) ↔
      args.flags = ncDetached ∨ args.flags = ncJoined := by
  constructor
  · intro each
    by_contra other
    have beforeAccept := (each (setup args ++ twoClients)).beforeAccept
    rw [EventMachine.run_append, run_setup true stopper tcp good] at beforeAccept
    have released := beforeAccept _ _ [] (run_twoClients stopper threaded other) 7 6 rfl
    have opening := filter_accepting listener args stopper
    have achieved := released.achieved
    rw [releasesDue, List.filterMap_append, List.filterMap_append,
      readsOnly_releases.of_silent opening, readsOnly_creates.of_silent opening] at achieved
    cases achieved
  · intro whole events
    have always : (threads true).Meets (fun _ _ => True) (.begin listener args stopper) events :=
      EventMachine.meets_of_forall (fun _ _ => trivial) _ events
    have keeps : KeepsReleasing args.flags
        ((threads true).run (.begin listener args stopper) events) := by
      apply EventMachine.run_invariant _ _ (.begin listener args stopper) always
      intro server event keeps _
      cases event with
      | start answer => exact keeps.start whole answer
      | stop => exact keeps.stop
    exact keeps.each

/-- The same events with the flag `NC_JOINED` alone. -/
theorem releases_each_iff_joined : ReleasesEach ((threads true).run
    (.begin (.make 80 socktypeTcpip) ⟨true, ncThreaded, ncJoined⟩ .begin)
    (setup ⟨true, ncThreaded, ncJoined⟩ ++ twoClients)) :=
  (releases_each_iff .begin rfl (by decide) rfl).mpr (Or.inr rfl) _

/-- With the flag `NC_REUSEADDR` as well the thread of the first client is neither joined
nor detached when the second one is accepted, and with both other flags as well. -/
theorem leaves_thread :
    ¬ ReleasesEach ((threads true).run
      (.begin (.make 80 socktypeTcpip) ⟨true, ncThreaded, ncDetached ||| ncReuseaddr⟩ .begin)
      (setup ⟨true, ncThreaded, ncDetached ||| ncReuseaddr⟩ ++ twoClients)) := by
  intro each
  have released := each.beforeAccept [.socket 1 7, .setReuse 7 0, .bind 7 80 0 (.other 0),
    .listen 7 16 0, .setNonBlocking 7, .accept 7 5, .construct (arrived 5),
    .create 0 (arrived 5) 0] (.accept 7 6) [] rfl 7 6 rfl
  cases released.achieved

end NetClass.Listener
