import NetClass.Listener.Handover
import NetClass.Socket.Modes

/-!
Contract: only the wait of a transfer may block.

Owns: the modes that a listener leaves its clients in, the two ways in which the library
makes an `ncSocket` that holds a descriptor, and the condition under which each transfer
call of such a socket is on a descriptor in non-blocking mode.

Before it accepts, `startListening` sets its own socket to non-blocking mode. The sockets
of its clients do not inherit the mode, and it does not set it for them as `connect` does.
-/

set_option autoImplicit false

namespace NetClass.Listener

open NetClass.Socket

/-- The descriptors in non-blocking mode. `socket` and `accept` return one in blocking
mode. -/
def listenerModes : Ledger Action Int where
  effect
    | .setNonBlocking fd => some (.acquires fd)
    | .socket _ fd => some (.releases fd)
    | .accept _ client => some (.releases client)
    | .client call => nonBlocking.effect call
    | _ => none

/-- A socket that the library has connected or handed to a callback, and the descriptors
in non-blocking mode at that moment. A thread with the socket may go on at any later
moment of the listener. -/
inductive Begins : Set Int → Connection → Prop where
  | connected (modes : Set Int) (before after : Object) (operation : Operation)
      (reachable : (Object.machine fun _ _ => True).Reachable before)
      (succeeds : operation.connectRet before.sock = some .ok)
      (performs : before.perform operation = some after) :
      Begins (nonBlocking.owned modes after.calls) ⟨{ after with calls := [] }, true⟩
  | handed (modes : Set Int) (haveThreads : Bool) (listener : NcSocketListener)
      (args : Arguments) (stopper : StopPc) (events : List Event) (sock : NcSocket)
      (hands : sock ∈ ((threads haveThreads).run (.begin listener args stopper)
        events).actions.filterMap Action.hands) :
      Begins (listenerModes.owned modes
          ((threads haveThreads).run (.begin listener args stopper) events).actions)
        ⟨⟨.ofSockfd sock.sockfd, sock, [], true⟩, false⟩

/-! ### The listener -/

/-- The program points up to the call that sets the listener's own socket to non-blocking
mode. -/
def Pc.setsUp : Pc → Bool
  | .socket | .checkArgs | .raise | .setReuse | .bind | .bindFailed _ | .listen
  | .setNonBlocking => true
  | _ => false

/-- Neither an accepted client nor one that has been handed over is in non-blocking
mode. -/
structure LeavesBlocking (modes : Set Int) (server : Server) : Prop where
  accepted : server.pc = .spawn ∨ server.pc = .call →
    server.locals.client ∉ listenerModes.owned modes server.actions
  handed : ∀ sock ∈ server.actions.filterMap Action.hands,
    sock.sockfd ∉ listenerModes.owned modes server.actions
  early : server.pc.setsUp = true → server.actions.filterMap Action.hands = []

section Listener

variable {modes : Set Int} {haveThreads : Bool} {server : Server} {answer : Answer}

/-- Only one program point sets a mode. -/
theorem Server.modes_issued (other : server.pc ≠ .setNonBlocking) :
    ∀ action ∈ server.issued haveThreads answer, ∀ fd,
      listenerModes.effect action ≠ some (.acquires fd) := by
  have deletes : ∀ call ∈ server.locals.newSock.destroy.2, ∀ fd,
      nonBlocking.effect call ≠ some (.acquires fd) := by
    intro call member fd
    simp only [NcSocket.destroy, Locals.newSock, NcSocket.ofSockfd] at member
    split_ifs at member <;> simp_all [nonBlocking]
  unfold Server.issued NcThread.start NcThread.detach NcThread.join threadCall
  cases pc : server.pc <;> dsimp only
  case setNonBlocking => exact absurd pc other
  all_goals (try split_ifs) <;> simp_all [listenerModes]

/-- The setup hands nothing over, and what comes after it never leads back. -/
theorem Server.setsUp_before
    (early : (server.startListening haveThreads answer).pc.setsUp = true) :
    server.pc.setsUp = true := by
  revert early
  unfold Server.startListening Server.afterThread Server.afterBind
  cases pc : server.pc <;> dsimp only <;> (try split_ifs) <;> simp [pc, Pc.setsUp]

/-- What a step can hand over is the accepted client. -/
theorem Server.hands_issued {sock : NcSocket}
    (hands : sock ∈ (server.issued haveThreads answer).filterMap Action.hands) :
    (server.pc = .spawn ∨ server.pc = .call) ∧ sock.sockfd = server.locals.client := by
  by_cases serves : server.pc = .spawn ∨ server.pc = .call
  · refine ⟨serves, ?_⟩
    have deletes : (server.locals.newSock.destroy.2.map Action.client).filterMap
        Action.hands = [] := by
      rw [List.filterMap_map]
      exact List.filterMap_none _
    have only : sock = server.locals.newSock := by
      rcases serves with atSpawn | atCall
      · simp only [Server.issued, atSpawn, NcThread.start, threadCall] at hands
        split_ifs at hands <;> simp_all [Action.hands]
      · simpa [Server.issued, atCall, Action.hands, eq_comm] using hands
    rw [only]
    rfl
  · rw [not_or] at serves
    rw [readsOnly_hands.of_silent
      (Server.sockets_issued haveThreads answer serves.1 serves.2)] at hands
    cases hands

/-- The descriptor that `accept` returns is in blocking mode. -/
theorem Server.accept_blocking (atAccept : server.pc = .accept) :
    (server.startListening haveThreads answer).locals.client ∉
      listenerModes.owned modes (server.startListening haveThreads answer).actions := by
  have client : (server.startListening haveThreads answer).locals.client = answer.ret := by
    simp only [Server.startListening, atAccept]
    split_ifs <;> rfl
  rw [client, Server.startListening_actions, Ledger.owned_append]
  simp only [Server.issued, atAccept]
  split_ifs <;> exact fun member => member.2 rfl

/-- A step that sets no mode. -/
theorem LeavesBlocking.shrink (leaves : LeavesBlocking modes server)
    (other : server.pc ≠ .setNonBlocking) (sock : NcSocket)
    (hands : sock ∈ (server.startListening haveThreads answer).actions.filterMap
      Action.hands) :
    sock.sockfd ∉
      listenerModes.owned modes (server.startListening haveThreads answer).actions := by
  rw [Server.startListening_actions, List.filterMap_append] at hands
  rw [Server.startListening_actions, Ledger.owned_append]
  intro member
  have before := Ledger.owned_subset _ _ (Server.modes_issued other) member
  rcases List.mem_append.mp hands with old | new
  · exact leaves.handed sock old before
  · have issued := Server.hands_issued new
    rw [issued.2] at before
    exact leaves.accepted issued.1 before

theorem LeavesBlocking.start (leaves : LeavesBlocking modes server) :
    LeavesBlocking modes (server.startListening haveThreads answer) := by
  have grown := Server.startListening_actions haveThreads server answer
  have nothing : server.pc.setsUp = true →
      (server.startListening haveThreads answer).actions.filterMap Action.hands = [] := by
    intro early
    have silent := Server.sockets_issued haveThreads answer
      (fun atSpawn => by rw [atSpawn] at early; cases early)
      (fun atCall => by rw [atCall] at early; cases early)
    rw [grown, readsOnly_hands.append_silent _ silent, leaves.early early]
  constructor
  · intro serves
    exact Server.accept_blocking (Server.accept_before serves)
  · intro sock hands
    by_cases sets : server.pc = .setNonBlocking
    · rw [nothing (by rw [sets]; rfl)] at hands
      cases hands
    · exact leaves.shrink sets sock hands
  · intro early
    exact nothing (Server.setsUp_before early)

theorem LeavesBlocking.stop (leaves : LeavesBlocking modes server) :
    LeavesBlocking modes server.stopListening := by
  have stops := server.stops
  generalize server.stopListening = next at stops
  obtain ⟨more, grown, harmless⟩ := stops.actions
  have hands : next.actions.filterMap Action.hands = server.actions.filterMap Action.hands := by
    obtain ⟨more, grown, silent⟩ : ∃ more, next.actions = server.actions ++ more ∧
        more.filter Action.ofSocket = [] :=
      stops.silent (fun _ => rfl) (fun _ _ => rfl) (fun _ => rfl)
    rw [grown, readsOnly_hands.append_silent _ silent]
  have same : listenerModes.owned modes next.actions =
      listenerModes.owned modes server.actions := by
    rw [grown, Ledger.owned_append]
    apply Ledger.owned_of_uses 0
    intro action member
    left
    rcases harmless action member with rfl | rfl | rfl <;> rfl
  constructor
  · rw [stops.pc, stops.locals, same]
    exact leaves.accepted
  · rw [hands, same]
    exact leaves.handed
  · rw [stops.pc, hands]
    exact leaves.early

end Listener

theorem LeavesBlocking.begin (modes : Set Int) (listener : NcSocketListener) (args : Arguments)
    (stopper : StopPc) : LeavesBlocking modes (.begin listener args stopper) where
  accepted := fun serves => serves.elim Pc.noConfusion Pc.noConfusion
  handed := fun _ member => absurd member List.not_mem_nil
  early := fun _ => rfl

theorem LeavesBlocking.run (modes : Set Int) (haveThreads : Bool) (listener : NcSocketListener)
    (args : Arguments) (stopper : StopPc) (events : List Event) :
    LeavesBlocking modes ((threads haveThreads).run (.begin listener args stopper) events) := by
  apply EventMachine.run_invariant (LeavesBlocking modes) _
    (.begin modes listener args stopper)
    (EventMachine.meets_of_forall (fun _ _ => trivial) _ events)
  intro server event leaves _
  cases event with
  | start answer => exact leaves.start
  | stop => exact leaves.stop

/-! ### The library's sockets -/

theorem Begins.sound {modes : Set Int} {first : Connection} (begins : Begins modes first) :
    first.Sound modes := by
  cases begins with
  | connected modes before after operation reachable succeeds performs =>
      exact .connected modes succeeds performs
  | handed modes haveThreads listener args stopper events sock hands =>
      intro _ _
      have leaves := LeavesBlocking.run modes haveThreads listener args stopper events
      exact iff_of_false (leaves.handed sock hands) Bool.false_ne_true

/-- Whatever is done with a socket that the library has connected or handed over, each of
its transfer calls is on a descriptor in non-blocking mode exactly if, whenever a transfer
finds its descriptor ready, the descriptor comes from a connect that has got past the
resolution of the host name. -/
theorem only_poll_blocks_iff (modes : Set Int) (first : Connection)
    (begins : Begins modes first) (operations : List Operation)
    (returns : connections.Meets Returns first operations) :
    connections.Always (fun connection => OnlyPollBlocks modes connection.object.calls) first
      operations ↔ connections.Meets Prepared first operations := by
  have fresh : first.object.calls = [] := by cases begins <;> rfl
  exact onlyPollBlocks_iff begins.sound fresh returns

/-- A write through a socket that has been connected. -/
theorem only_poll_blocks_iff_connected :
    connections.Always
      (fun connection => OnlyPollBlocks (nonBlocking.owned ∅
        [.socket 7, .setNonBlocking 7, .connect 7 ⟨afInet, 0, 1⟩ 0 (.other 0)])
        connection.object.calls)
      ⟨⟨.default, { NcSocket.default with sockfd := 7, ipaddr := 1 }, [], true⟩, true⟩
      [.transfer .poll .write 1 false [⟨⟨1, pollOut, false⟩, ⟨1, .other 0, []⟩⟩]] := by
  have begins : Begins (nonBlocking.owned ∅
      [.socket 7, .setNonBlocking 7, .connect 7 ⟨afInet, 0, 1⟩ 0 (.other 0)])
      ⟨⟨.default, { NcSocket.default with sockfd := 7, ipaddr := 1 }, [], true⟩, true⟩ :=
    .connected ∅ (.make .default)
      ⟨.default, { NcSocket.default with sockfd := 7, ipaddr := 1 },
        [.socket 7, .setNonBlocking 7, .connect 7 ⟨afInet, 0, 1⟩ 0 (.other 0)], true⟩
      (.connect ⟨7, some 1, [⟨0, .other 0⟩]⟩) (.start ⟨_, rfl⟩) rfl rfl
  exact (only_poll_blocks_iff _ _ begins
    [.transfer .poll .write 1 false [⟨⟨1, pollOut, false⟩, ⟨1, .other 0, []⟩⟩]]
    ⟨⟨_, rfl⟩, trivial⟩).mpr ⟨fun _ _ => rfl, trivial⟩

/-- A client is in blocking mode when the callback writes to it, and so is the descriptor
of a connect that has failed to resolve the host name after an earlier one succeeded. -/
theorem blocks_in_send :
    (∃ modes sock, Begins modes ⟨⟨.ofSockfd 5, sock, [], true⟩, false⟩ ∧
      ∃ operation, Returns ⟨⟨.ofSockfd 5, sock, [], true⟩, false⟩ operation ∧
        ¬ connections.Always (fun connection => OnlyPollBlocks modes connection.object.calls)
          ⟨⟨.ofSockfd 5, sock, [], true⟩, false⟩ [operation]) ∧
    ∃ modes sock, Begins modes ⟨⟨.default, sock, [], true⟩, true⟩ ∧
      ∃ operations, connections.Meets Returns ⟨⟨.default, sock, [], true⟩, true⟩ operations ∧
        ¬ connections.Always (fun connection => OnlyPollBlocks modes connection.object.calls)
          ⟨⟨.default, sock, [], true⟩, true⟩ operations := by
  constructor
  · refine ⟨_, _, .handed ∅ true (.make 80 socktypeTcpip) ⟨true, ncNonthreaded, ncJoined⟩ .begin
      [.start (.value 7), .start (.value 0), .start (.value 0), .start (.value 0),
        .start (.value 0), .start (.value 0), .start (.value 0), .start (arrival 5),
        .start (.value 0)] (arrived 5) List.mem_cons_self,
      .transfer .poll .write 1 false [⟨⟨1, pollOut, false⟩, ⟨1, .other 0, []⟩⟩], ⟨_, rfl⟩, ?_⟩
    intro always
    have blocks := always
      [.transfer .poll .write 1 false [⟨⟨1, pollOut, false⟩, ⟨1, .other 0, []⟩⟩]] [] rfl
    have member := blocks [_] _ [] rfl _ 5 _ _ _ rfl (by decide)
    exact member.2 rfl
  · refine ⟨_, { NcSocket.default with sockfd := 7, ipaddr := 1 }, .connected ∅ (.make .default)
      ⟨.default, { NcSocket.default with sockfd := 7, ipaddr := 1 },
        [.socket 7, .setNonBlocking 7, .connect 7 ⟨afInet, 0, 1⟩ 0 (.other 0)], true⟩
      (.connect ⟨7, some 1, [⟨0, .other 0⟩]⟩) (.start ⟨_, rfl⟩) rfl rfl,
      [.connect ⟨8, none, []⟩,
        .transfer .poll .write 1 false [⟨⟨1, pollOut, false⟩, ⟨1, .other 0, []⟩⟩]],
      ⟨⟨_, rfl⟩, ⟨_, rfl⟩, trivial⟩, ?_⟩
    intro always
    have blocks := always [.connect ⟨8, none, []⟩,
      .transfer .poll .write 1 false [⟨⟨1, pollOut, false⟩, ⟨1, .other 0, []⟩⟩]] [] rfl
    have member := blocks [_, _] _ [] rfl _ 8 _ _ _ rfl (by decide)
    exact member.2 rfl

end NetClass.Listener
