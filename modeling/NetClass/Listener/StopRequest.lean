import NetClass.Listener.Steps

/-!
Contract: a stop request is seen by the call that it is meant for.

Owns: what it is to observe `m_listening`, and the exact states of `startListening` in
which a stop request is not lost, whatever the two threads do afterwards.

`startListening` assigns 1 to `m_listening` after it has created its socket and checked
its arguments. A request that comes before that is overwritten.
-/

set_option autoImplicit false

namespace NetClass.Listener

open NetClass.Socket

/-- The program points at which `m_listening` is read. -/
def Pc.tests : Pc → Bool
  | .bindFailed _ | .acceptTest | .acceptAgain | .receiveTest | .receiveAgain => true
  | _ => false

/-- The step observes `m_listening` nonzero, and so goes on with its loop. -/
def Observes (server : Server) : Event → Prop
  | .start _ => server.pc.tests = true ∧ server.listener.listening = true
  | .stop => False

/-- The assignment of 1 to `m_listening` may still come. -/
def MayRaise (server : Server) : Prop :=
  server.pc = .raise ∨
    ((server.pc = .socket ∨ server.pc = .checkArgs) ∧ server.args.bad = false)

/-! ### A request that is seen -/

/-- Nobody assigns 1 any more. -/
theorem not_mayRaise_start {haveThreads : Bool} {server : Server} (answer : Answer)
    (ended : ¬ MayRaise server) : ¬ MayRaise (server.startListening haveThreads answer) := by
  revert ended
  unfold MayRaise Server.startListening Server.afterThread Server.afterBind
  cases pc : server.pc <;> dsimp only <;> (try split_ifs) <;> simp_all

/-- The request has been made and will not be overwritten. -/
structure Stopped (server : Server) : Prop where
  lowered : server.listener.listening = false
  stays : ¬ MayRaise server

theorem Stopped.start {haveThreads : Bool} {server : Server} (stopped : Stopped server)
    (answer : Answer) : Stopped (server.startListening haveThreads answer) where
  lowered := by
    rw [(server.starts haveThreads answer).listening fun raise => stopped.stays (Or.inl raise)]
    exact stopped.lowered
  stays := not_mayRaise_start answer stopped.stays

theorem mayRaise_stop (server : Server) : MayRaise server.stopListening ↔ MayRaise server := by
  rw [MayRaise, MayRaise, server.stops.pc, server.stops.args]

theorem Stopped.stop {server : Server} (stopped : Stopped server) :
    Stopped server.stopListening where
  lowered := by
    rcases server.stops.listening with same | cleared
    · rw [same]
      exact stopped.lowered
    · exact cleared
  stays := by
    rw [mayRaise_stop]
    exact stopped.stays

theorem Stopped.step {haveThreads : Bool} {server : Server} (stopped : Stopped server)
    (event : Event) : Stopped ((threads haveThreads).step server event) := by
  cases event with
  | start answer => exact stopped.start answer
  | stop => exact stopped.stop

/-- A request that stays is not observed as 1 by any later test. -/
theorem Stopped.unobserved {haveThreads : Bool} {server : Server} (stopped : Stopped server)
    (later : List Event) :
    (threads haveThreads).Meets (fun server event => ¬ Observes server event) server later := by
  apply EventMachine.meets_of_invariant Stopped _ _ stopped
    (EventMachine.meets_of_forall (fun _ _ => trivial) server later)
  · exact fun server event stopped _ => stopped.step event
  · intro server event stopped _ observes
    cases event with
    | start answer =>
        rw [Observes, stopped.lowered] at observes
        exact Bool.noConfusion observes.2
    | stop => exact observes

/-! ### A request that is lost -/

/-- Some continuation of the run observes `m_listening` nonzero. -/
def LosesRequest (haveThreads : Bool) (server : Server) : Prop :=
  ∃ later, ¬ (threads haveThreads).Meets (fun server event => ¬ Observes server event) server
    later

/-- It is enough that a later state has such a continuation. -/
theorem LosesRequest.before {haveThreads : Bool} {server : Server} (event : Event)
    (loses : LosesRequest haveThreads ((threads haveThreads).step server event)) :
    LosesRequest haveThreads server := by
  obtain ⟨later, observed⟩ := loses
  exact ⟨event :: later, fun meets => observed meets.2⟩

variable {haveThreads : Bool} {server : Server}

/-- A bind that fails is followed by a test. -/
theorem losesRequest_of_bind (atBind : server.pc = .bind)
    (raised : server.listener.listening = true) : LosesRequest haveThreads server := by
  apply LosesRequest.before (.start (.error (.other 13)))
  refine ⟨[.start (.value 0)], fun meets => meets.1 ?_⟩
  simp [Observes, threads, Server.startListening, atBind, Answer.error, Answer.value, Pc.tests,
    raised]

theorem losesRequest_of_raise (atRaise : server.pc = .raise) :
    LosesRequest haveThreads server := by
  apply LosesRequest.before (.start (.value 0))
  by_cases reuse : server.args.flags &&& ncReuseaddr ≠ 0
  · apply LosesRequest.before (.start (.value 0))
    apply losesRequest_of_bind
    · simp only [threads, Server.startListening, atRaise, if_pos reuse]
      rfl
    · simp only [threads, Server.startListening, atRaise, if_pos reuse]
      rfl
  · apply losesRequest_of_bind
    · simp only [threads, Server.startListening, atRaise, if_neg reuse]
      rfl
    · simp only [threads, Server.startListening, atRaise, if_neg reuse]
      rfl

theorem losesRequest_of_checkArgs (atCheck : server.pc = .checkArgs)
    (good : server.args.bad = false) : LosesRequest haveThreads server := by
  apply LosesRequest.before (.start (.value 0))
  apply losesRequest_of_raise
  simp [threads, Server.startListening, atCheck, good]

theorem losesRequest_of_socket (atSocket : server.pc = .socket)
    (good : server.args.bad = false) : LosesRequest haveThreads server := by
  apply LosesRequest.before (.start (.value 7))
  apply losesRequest_of_checkArgs
  · simp [threads, Server.startListening, atSocket, Answer.value]
  · simp [threads, Server.startListening, atSocket, Answer.value, good]

theorem losesRequest_of_mayRaise (may : MayRaise server) : LosesRequest haveThreads server := by
  rcases may with atRaise | ⟨atSocket | atCheck, good⟩
  · exact losesRequest_of_raise atRaise
  · exact losesRequest_of_socket atSocket good
  · exact losesRequest_of_checkArgs atCheck good

/-- A stop request that is made after any part of a call of `startListening` is kept,
whatever follows, exactly if the call has assigned 1 to `m_listening` already or its
arguments are bad. -/
theorem stop_kept_iff (haveThreads : Bool) (listener : NcSocketListener) (args : Arguments)
    (stopper : StopPc) (earlier : List Event) :
    let server := (threads haveThreads).run (.begin listener args stopper) earlier
    server.stopper = .begin →
      ((∀ later, (threads haveThreads).Meets (fun server event => ¬ Observes server event)
        server.stopListening later) ↔ ¬ MayRaise server) := by
  intro server begins
  constructor
  · intro kept may
    rw [← mayRaise_stop] at may
    have loses : LosesRequest haveThreads server.stopListening := losesRequest_of_mayRaise may
    obtain ⟨later, observed⟩ := loses
    exact observed (kept later)
  · intro ended later
    apply Stopped.unobserved
    constructor
    · rw [Server.stopListening, begins]
    · rw [mayRaise_stop]
      exact ended

/-- A request while the accept loop tests the field. -/
theorem stop_kept_iff_accepting : (threads true).Meets
    (fun server event => ¬ Observes server event)
    ((threads true).run (.begin (.make 80 socktypeTcpip) ⟨true, ncNonthreaded, ncJoined⟩ .begin)
      [.start (.value 7), .start (.value 0), .start (.value 0), .start (.value 0),
        .start (.value 0), .start (.value 0)]).stopListening
    [.start (.value 0), .stop] := by
  apply (stop_kept_iff true (.make 80 socktypeTcpip) ⟨true, ncNonthreaded, ncJoined⟩ .begin
    [.start (.value 7), .start (.value 0), .start (.value 0), .start (.value 0),
      .start (.value 0), .start (.value 0)] rfl).mpr
  rintro (raise | ⟨socket | check, -⟩)
  · cases raise
  · cases socket
  · cases check

/-- `stopListening` runs to its end between the argument check and the assignment of 1.
The call goes on to accept. -/
theorem stop_lost : ∃ earlier later,
    ((threads true).run (.begin (.make 80 socktypeTcpip) ⟨true, ncNonthreaded, ncJoined⟩ .begin)
      earlier).stopper = .begin ∧
    ((threads true).run ((threads true).run
      (.begin (.make 80 socktypeTcpip) ⟨true, ncNonthreaded, ncJoined⟩ .begin)
        earlier).stopListening later).stopper = .begin ∧
    ((threads true).run ((threads true).run
      (.begin (.make 80 socktypeTcpip) ⟨true, ncNonthreaded, ncJoined⟩ .begin)
        earlier).stopListening later).pc = .accept ∧
    ¬ (threads true).Meets (fun server event => ¬ Observes server event) ((threads true).run
      (.begin (.make 80 socktypeTcpip) ⟨true, ncNonthreaded, ncJoined⟩ .begin)
        earlier).stopListening later := by
  refine ⟨[.start (.value 7), .start (.value 0)],
    [.stop, .stop, .stop, .stop, .stop, .start (.value 0), .start (.value 0), .start (.value 0),
      .start (.value 0), .start (.value 0)], rfl, rfl, rfl, ?_⟩
  rintro ⟨-, -, -, -, -, -, -, -, -, test, -⟩
  exact test ⟨rfl, rfl⟩

end NetClass.Listener
