import NetClass.Listener.Setup
import NetClass.Listener.StopRequest

/-!
Contract: how a call of `startListening` comes to its end once it has been asked to stop.

Owns: the number of its steps until it returns, and what it may still do in them, whatever
the kernel answers and however the steps of the two threads interleave.

Does **not** own: requests that are overwritten; see `NetClass.Listener.StopRequest`.

A step may take its time: an `accept` of the kernel, the callback or the thread that is
joined. The call returns because none of them comes twice.
-/

set_option autoImplicit false

namespace NetClass.Listener

open NetClass.Socket

/-- The steps that may follow the next one before the call returns. -/
def Pc.stepsAfter : Pc → Nat
  | .setReuse => 5
  | .bind => 4
  | .bindFailed _ | .accept => 3
  | .listen | .spawn | .receive => 2
  | .socket | .setNonBlocking | .release | .call | .deliver => 1
  | _ => 0

/-- The calls that wait for a client or a datagram. -/
def Action.waitsForClient : Action → Bool
  | .accept _ _ | .recvfrom _ _ => true
  | _ => false

/-- The calls that hand a client or a datagram over. -/
def Action.handsOver : Action → Bool
  | .create _ _ _ | .callback _ | .deliver _ => true
  | _ => false

/-- The program points from which a client may still be waited for. -/
def Pc.beforeClient : Pc → Nat
  | .accept | .receive => 1
  | _ => 0

/-- The program points from which a client may still be handed over. -/
def Pc.beforeHandover : Pc → Nat
  | .accept | .spawn | .call | .receive | .deliver => 1
  | _ => 0

section Steps

variable {haveThreads : Bool} {server : Server} {answer : Answer}

/-- The call has returned. -/
def Server.Ended (server : Server) : Prop := ∃ ret, server.pc = .returned ret

theorem Server.ended_start (ended : server.Ended) (answer : Answer) :
    (server.startListening haveThreads answer).Ended := by
  obtain ⟨ret, returned⟩ := ended
  refine ⟨ret, ?_⟩
  rw [Server.startListening, returned]
  exact returned

/-- A step of a call that has been asked to stop is one step less to go. -/
theorem Stopped.comes_closer (stopped : Stopped server) (answer : Answer) :
    (server.startListening haveThreads answer).Ended ∨
      (server.startListening haveThreads answer).pc.stepsAfter < server.pc.stepsAfter := by
  have lowered := stopped.lowered
  have stays := stopped.stays
  unfold MayRaise at stays
  unfold Server.Ended Server.startListening Server.afterThread Server.afterBind
  cases pc : server.pc <;> rw [pc] at stays <;> dsimp only <;> (try split_ifs) <;>
    simp_all [Pc.stepsAfter]

theorem countP_clients {kind : Action → Bool} (silent : ∀ call, kind (.client call) = false)
    (calls : List Call) : (calls.map Action.client).countP kind = 0 := by
  rw [List.countP_eq_length_filter, filter_clients silent]
  rfl

/-- No client is waited for twice. -/
theorem Stopped.waits_once (stopped : Stopped server) (answer : Answer) :
    (server.issued haveThreads answer).countP Action.waitsForClient +
        (server.startListening haveThreads answer).pc.beforeClient ≤ server.pc.beforeClient := by
  have deletes : (server.locals.newSock.destroy.2.map Action.client).countP
      Action.waitsForClient = 0 := countP_clients (fun _ => rfl) _
  have lowered := stopped.lowered
  unfold Server.issued Server.startListening Server.afterThread Server.afterBind NcThread.start
    NcThread.detach NcThread.join threadCall
  cases pc : server.pc <;> dsimp only <;> (try split_ifs) <;>
    simp_all [Pc.beforeClient, Action.waitsForClient, List.countP_cons]

/-- No client is handed over twice. -/
theorem Stopped.hands_once (stopped : Stopped server) (answer : Answer) :
    (server.issued haveThreads answer).countP Action.handsOver +
      (server.startListening haveThreads answer).pc.beforeHandover ≤
        server.pc.beforeHandover := by
  have deletes : (server.locals.newSock.destroy.2.map Action.client).countP
      Action.handsOver = 0 := countP_clients (fun _ => rfl) _
  have lowered := stopped.lowered
  unfold Server.issued Server.startListening Server.afterThread Server.afterBind NcThread.start
    NcThread.detach NcThread.join threadCall
  cases pc : server.pc <;> dsimp only <;> (try split_ifs) <;>
    simp_all [Pc.beforeHandover, Action.handsOver, List.countP_cons]

end Steps

/-! ### Whole runs -/

section Runs

variable {haveThreads : Bool} {server : Server}

theorem Stopped.run (stopped : Stopped server) (later : List Event) :
    Stopped ((threads haveThreads).run server later) :=
  EventMachine.run_invariant Stopped (fun _ event stopped _ => stopped.step event) stopped
    (EventMachine.meets_of_forall (fun _ _ => trivial) server later)

/-- A call that has been asked to stop returns after as many steps of its own. -/
theorem Stopped.returns (stopped : Stopped server) (later : List Event)
    (enough : server.pc.stepsAfter < later.countP Event.isStart) :
    ((threads haveThreads).run server later).Ended := by
  refine EventMachine.run_reaches Stopped Server.Ended (fun server => server.pc.stepsAfter)
    Event.isStart (fun _ event stopped _ => stopped.step event) ?_ ?_ ?_ stopped
    (EventMachine.meets_of_forall (fun _ _ => trivial) server later) enough
  · intro server event _ _ ended
    cases event with
    | start answer => exact Server.ended_start ended answer
    | stop =>
        obtain ⟨ret, returned⟩ := ended
        exact ⟨ret, server.stops.pc.trans returned⟩
  · intro server event stopped _ _ isStart
    cases event with
    | start answer => exact stopped.comes_closer answer
    | stop => cases isStart
  · intro server event _ _ _ isStop
    cases event with
    | start answer => cases isStop
    | stop => exact Or.inr (Nat.le_of_eq (congrArg Pc.stepsAfter server.stops.pc))

/-- What each step of the call pays for is bounded over the run. `left` is what may still be
paid for, and `stopListening` pays for nothing. -/
theorem Stopped.spends {kind : Action → Bool} {left : Pc → Nat}
    (pays : ∀ (server : Server) (answer : Answer), Stopped server →
      (server.issued haveThreads answer).countP kind +
        left (server.startListening haveThreads answer).pc ≤ left server.pc)
    (sleep : ∀ millisecs, kind (.sleep millisecs) = false)
    (shutdown : ∀ fd how, kind (.shutdown fd how) = false)
    (close : ∀ fd, kind (.close fd) = false) (stopped : Stopped server) (later : List Event) :
    ((threads haveThreads).run server later).actions.countP kind ≤
      server.actions.countP kind + left server.pc := by
  have always : (threads haveThreads).Meets (fun _ _ => True) server later :=
    EventMachine.meets_of_forall (fun _ _ => trivial) server later
  have bound := EventMachine.run_invariant
    (fun after => Stopped after ∧ after.actions.countP kind + left after.pc ≤
      server.actions.countP kind + left server.pc) ?kept ⟨stopped, Nat.le_refl _⟩ always
  case kept =>
    rintro now event ⟨stopped, bound⟩ -
    refine ⟨stopped.step event, ?_⟩
    cases event with
    | start answer =>
        show (now.startListening haveThreads answer).actions.countP kind +
          left (now.startListening haveThreads answer).pc ≤ _
        have paid := pays now answer stopped
        rw [Server.startListening_actions, List.countP_append]
        omega
    | stop =>
        show now.stopListening.actions.countP kind + left now.stopListening.pc ≤ _
        obtain ⟨more, grown, silent⟩ := now.stops.silent sleep shutdown close
        have nothing : more.countP kind = 0 := by
          rw [List.countP_eq_length_filter, silent]
          rfl
        rw [now.stops.pc, grown, List.countP_append, nothing]
        exact bound
  omega

/-- A stop request that is not overwritten ends the call: `startListening` returns within six
steps of its own, waits for at most one more client or datagram, and hands at most one over. -/
theorem stop_ends_listening (haveThreads : Bool) (listener : NcSocketListener)
    (args : Arguments) (stopper : StopPc) (earlier later : List Event) :
    let server := (threads haveThreads).run (.begin listener args stopper) earlier
    let after := (threads haveThreads).run server.stopListening later
    server.stopper = .begin → ¬ MayRaise server →
      (6 ≤ later.countP Event.isStart → after.Ended) ∧
        after.actions.countP Action.waitsForClient ≤
          server.actions.countP Action.waitsForClient + 1 ∧
        after.actions.countP Action.handsOver ≤ server.actions.countP Action.handsOver + 1 := by
  intro server after begins stays
  have asked : server.stopListening =
      { server with
        listener := { server.listener with listening := false }
        stopper := .sleep } := by
    rw [Server.stopListening, begins]
  have stopped : Stopped server.stopListening := by
    rw [asked]
    exact ⟨rfl, stays⟩
  have actions : server.stopListening.actions = server.actions := by rw [asked]
  have few : server.stopListening.pc.stepsAfter ≤ 5 ∧
      server.stopListening.pc.beforeClient ≤ 1 ∧
      server.stopListening.pc.beforeHandover ≤ 1 := by
    cases server.stopListening.pc <;>
      simp [Pc.stepsAfter, Pc.beforeClient, Pc.beforeHandover]
  refine ⟨fun enough => stopped.returns later (by omega), ?_, ?_⟩
  · have waits : after.actions.countP Action.waitsForClient ≤
        server.stopListening.actions.countP Action.waitsForClient +
          server.stopListening.pc.beforeClient :=
      stopped.spends (fun _ answer stopped => stopped.waits_once answer) (fun _ => rfl)
        (fun _ _ => rfl) (fun _ => rfl) later
    rw [actions] at waits
    exact waits.trans (by omega)
  · have hands : after.actions.countP Action.handsOver ≤
        server.stopListening.actions.countP Action.handsOver +
          server.stopListening.pc.beforeHandover :=
      stopped.spends (fun _ answer stopped => stopped.hands_once answer) (fun _ => rfl)
        (fun _ _ => rfl) (fun _ => rfl) later
    rw [actions] at hands
    exact hands.trans (by omega)

/-- A listener that waits in `accept`. -/
def waiting : List Event := setup ⟨true, ncNonthreaded, ncJoined⟩ ++ [.start (.value 0)]

/-- A client comes after the request. -/
def lastClient : List Event :=
  [.start (arrival 5), .stop, .start (.value 0), .start (.value 0), .start (.value 0),
    .start (.value 0), .start (.value 0)]

theorem stop_ends_listening_accepting :
    ((threads true).run ((threads true).run
      (.begin (.make 80 socktypeTcpip) ⟨true, ncNonthreaded, ncJoined⟩ .begin)
      waiting).stopListening lastClient).Ended := by
  have ends := stop_ends_listening true (.make 80 socktypeTcpip) ⟨true, ncNonthreaded, ncJoined⟩
    .begin waiting lastClient (by decide) (by
      rintro (raise | ⟨socket | check, -⟩)
      · cases raise
      · cases socket
      · cases check)
  exact ends.1 (by decide)

end Runs

end NetClass.Listener
