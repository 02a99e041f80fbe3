import NetClass.Listener.Life
import NetClass.Socket.Process

/-!
Contract: the descriptors of a process with an `ncSocketListener`, the `ncSocket`s that it
hands over and others that the program has made.

Owns: the system of the listener over its whole life, of the objects and of the rest of the
program, with the steps of all of them interleaved, and the proof that the listener is a
well-behaved party of the process: it uses and closes only what is its own, and in the end
it has nothing left.

Does **not** own: the objects among themselves, see `NetClass.Socket.Process`, and the
address of the client, which no operation of an object looks at.

The build has `HAVE_THREADS`. An accepted descriptor is the listener's until `fnptr` is
called with its socket or a thread is created for it.
-/

set_option autoImplicit false

namespace NetClass.Listener

open NetClass.Socket

/-- The parties of the process besides the objects. -/
inductive Party where
  | program
  | listener
deriving DecidableEq, Repr

/-- Something is done to a descriptor. Negative numbers are no descriptors. -/
def onTable (use : Int → TableUse) (fd : Int) : List TableUse := if 0 ≤ fd then [use fd] else []

theorem onTable_of_nonneg {use : Int → TableUse} {fd : Int} (nonneg : 0 ≤ fd) :
    onTable use fd = [use fd] :=
  if_pos nonneg

theorem onTable_of_negative {use : Int → TableUse} {fd : Int} (negative : ¬ 0 ≤ fd) :
    onTable use fd = [] :=
  if_neg negative

/-- What an action does to the table. -/
def Action.uses : Action → List TableUse
  | .socket _ fd => onTable .opens fd
  | .setReuse fd _ | .bind fd _ _ _ | .listen fd _ _ | .setNonBlocking fd | .recvfrom fd _
  | .shutdown fd _ => onTable .uses fd
  | .accept fd peer => onTable .uses fd ++ onTable .opens peer
  | .close fd | .client (.close fd) => onTable .closes fd
  | .callback sock => onTable .gives sock.sockfd
  | .create _ sock ret => if ret = 0 then onTable .gives sock.sockfd else []
  | _ => []

/-- What an event does to the table. -/
def Life.uses (life : Life) (event : LifeEvent) : List TableUse :=
  ((life.step true event).server.actions.drop life.server.actions.length).flatMap Action.uses

/-- The accepted descriptor that has not been handed over yet. -/
def Life.inHand (life : Life) : Set Int :=
  {fd | life.alive = true ∧ (life.server.pc = .spawn ∨ life.server.pc = .call) ∧
    fd = life.server.locals.client ∧ 0 ≤ fd}

/-- The condition on an event. Besides what a `socket` call has to meet, `startListening`
calls nothing on `m_sockfd` once `stopListening` has closed it, and `accept` does not answer
with the descriptor 0. -/
def Orderly (life : Life) : LifeEvent → Prop
  | .start answer =>
      Uncrossed life (.start answer) ∧
        (life.server.pc.onSocket = true →
          life.server.stopper ≠ .zero ∧ life.server.listener.sockfd ≠ 0) ∧
        (life.server.pc = .accept → answer.ret ≠ 0)
  | _ => True

instance (life : Life) (event : LifeEvent) : Decidable (Orderly life event) := by
  cases event <;> unfold Orderly Uncrossed <;> infer_instance

theorem Orderly.uncrossed {life : Life} {event : LifeEvent} (orderly : Orderly life event) :
    Uncrossed life event := by
  cases event with
  | start answer => exact orderly.1
  | _ => trivial

/-! ### What an event can do -/

/-- Nothing, or something that uses a socket of the listener's own. -/
def Life.OwnUses (life : Life) (uses : List TableUse) : Prop :=
  ∀ use ∈ uses, ∃ fd ∈ life.owned, use = .uses fd

/-- The effects of an event on the table and on the two things that the listener holds. -/
inductive Deed (life next : Life) : List TableUse → Prop where
  | silent (uses : List TableUse) (own : life.OwnUses uses) (owned : next.owned = life.owned)
      (inHand : next.inHand = life.inHand) : Deed life next uses
  | asks (fd : Int) (owned : next.owned = insert fd life.owned)
      (inHand : next.inHand = life.inHand) : Deed life next [.opens fd]
  | accepts (uses : List TableUse) (own : life.OwnUses uses) (fd : Int) (nonzero : fd ≠ 0)
      (owned : next.owned = life.owned) (empty : life.inHand = ∅)
      (inHand : next.inHand = {fd}) : Deed life next (uses ++ [.opens fd])
  | closes (fd : Int) (owned : next.owned = life.owned \ {fd}) (mine : fd ∈ life.owned)
      (inHand : next.inHand = life.inHand) : Deed life next [.closes fd]
  | drops (fd : Int) (owned : next.owned = life.owned) (before : life.inHand = {fd})
      (inHand : next.inHand = ∅) : Deed life next [.closes fd]
  | hands (fd : Int) (owned : next.owned = life.owned) (before : life.inHand = {fd})
      (inHand : next.inHand = ∅) : Deed life next [.gives fd]

theorem Life.ownUses_nil (life : Life) : life.OwnUses [] :=
  fun _ member => absurd member List.not_mem_nil

theorem Life.uses_eq {life : Life} {event : LifeEvent} {more : List Action}
    (grown : (life.step true event).server.actions = life.server.actions ++ more) :
    life.uses event = more.flatMap Action.uses := by
  rw [uses, grown, List.drop_left]

theorem Life.inHand_empty {life : Life} (notSpawn : life.server.pc ≠ .spawn)
    (notCall : life.server.pc ≠ .call) : life.inHand = ∅ := by
  apply Set.eq_empty_of_forall_notMem
  rintro fd ⟨-, pc, -⟩
  exact pc.elim notSpawn notCall

theorem Life.inHand_eq {life : Life} (alive : life.alive = true)
    (pc : life.server.pc = .spawn ∨ life.server.pc = .call)
    (nonneg : 0 ≤ life.server.locals.client) : life.inHand = {life.server.locals.client} := by
  ext fd
  constructor
  · exact fun member => member.2.2.1
  · rintro rfl
    exact ⟨alive, pc, rfl, nonneg⟩

theorem Life.inHand_negative {life : Life} (negative : ¬ 0 ≤ life.server.locals.client) :
    life.inHand = ∅ := by
  apply Set.eq_empty_of_forall_notMem
  rintro fd ⟨-, -, rfl, nonneg⟩
  exact negative nonneg

/-- As long as it has not been closed, the listener's socket is its own. -/
theorem Owns.mine {life : Life} (owns : Owns life) (alive : life.alive = true)
    (notZero : life.server.stopper ≠ .zero) (some : life.server.listener.sockfd ≠ 0)
    (nonneg : 0 ≤ life.server.listener.sockfd) : life.server.listener.sockfd ∈ life.owned := by
  rw [owns.owned, Life.held_of_alive alive notZero]
  exact ⟨rfl, by omega⟩

theorem Owns.ownUses {life : Life} (owns : Owns life) (alive : life.alive = true)
    (notZero : life.server.stopper ≠ .zero) (some : life.server.listener.sockfd ≠ 0) :
    life.OwnUses (onTable .uses life.server.listener.sockfd) := by
  intro use member
  by_cases nonneg : 0 ≤ life.server.listener.sockfd
  · rw [onTable_of_nonneg nonneg] at member
    exact ⟨_, owns.mine alive notZero some nonneg, List.mem_singleton.mp member⟩
  · rw [onTable_of_negative nonneg] at member
    cases member

/-- A `close` of the listener's own socket. -/
theorem Life.owned_close {life next : Life} {fd : Int}
    (grown : next.server.actions = life.server.actions ++ [.close fd]) (nonneg : 0 ≤ fd) :
    next.owned = life.owned \ {fd} := by
  rw [Life.owned, grown, Ledger.owned_append, Ledger.owned_cons, Ledger.owned_nil]
  have releases : ownSockets.effect (.close fd) = some (.releases fd) := if_pos nonneg
  rw [Ledger.after, releases]
  rfl

/-- An event whose actions have no effect on the listener's own sockets. -/
theorem Life.owned_quiet {life next : Life} {more : List Action}
    (grown : next.server.actions = life.server.actions ++ more)
    (silent : ∀ action ∈ more, ownSockets.effect action = none) : next.owned = life.owned := by
  rw [Life.owned, grown, owned_silent silent]
  rfl

/-- The program points of `startListening` that have nothing to do with descriptors. -/
theorem Server.silent_issued {server : Server} (answer : Answer)
    (elsewhere : server.pc.onSocket = false) (notSocket : server.pc ≠ .socket)
    (notSpawn : server.pc ≠ .spawn) (notCall : server.pc ≠ .call) :
    (server.issued true answer).flatMap Action.uses = [] ∧
      (server.startListening true answer).pc ≠ .spawn ∧
      (server.startListening true answer).pc ≠ .call := by
  unfold Server.startListening Server.issued Server.afterThread Server.afterBind
    NcThread.detach NcThread.join threadCall
  cases pc : server.pc <;> dsimp only <;> (try split_ifs) <;>
    simp_all [Action.uses, Pc.onSocket]

/-- The calls on `m_sockfd` other than `accept`. -/
theorem Server.uses_issued {server : Server} (answer : Answer)
    (onSocket : server.pc.onSocket = true) (notAccept : server.pc ≠ .accept) :
    (server.issued true answer).flatMap Action.uses =
        onTable .uses server.listener.sockfd ∧
      (server.startListening true answer).pc ≠ .spawn ∧
      (server.startListening true answer).pc ≠ .call := by
  unfold Server.startListening Server.issued Server.afterBind
  cases pc : server.pc <;> rw [pc] at onSocket <;> dsimp only
  case accept => exact absurd pc notAccept
  case setReuse | bind | listen | setNonBlocking | receive =>
    refine ⟨List.append_nil _, ?_⟩
    (try split_ifs) <;> exact ⟨Pc.noConfusion, Pc.noConfusion⟩
  all_goals cases onSocket

section Start

variable {life : Life} {answer : Answer}

/-- What becomes of the life in a step of `startListening`. -/
def Life.listens (life : Life) (answer : Answer) : Life :=
  { life with server := life.server.startListening true answer }

theorem Life.listens_actions (life : Life) (answer : Answer) :
    (life.listens answer).server.actions =
      life.server.actions ++ life.server.issued true answer :=
  Server.startListening_actions true life.server answer

/-- Only the `socket` call has to do with the listener's own sockets. -/
theorem Life.listens_owned (answer : Answer) (notSocket : life.server.pc ≠ .socket) :
    (life.listens answer).owned = life.owned :=
  Life.owned_quiet (life.listens_actions answer) (Server.effect_issued true answer notSocket)

theorem Life.deed_socket (atSocket : life.server.pc = .socket) :
    Deed life (life.listens answer) ((life.server.issued true answer).flatMap Action.uses) := by
  have issued : life.server.issued true answer = [.socket life.server.sockType answer.ret] := by
    simp only [Server.issued, atSocket]
  have empty : life.inHand = ∅ := Life.inHand_empty (by simp [atSocket]) (by simp [atSocket])
  have inHand : (life.listens answer).inHand = life.inHand := by
    refine (Life.inHand_empty ?_ ?_).trans empty.symm <;>
      · simp only [Life.listens, Server.startListening, atSocket]
        split_ifs <;> exact Pc.noConfusion
  have grown := life.listens_actions answer
  rw [issued] at grown
  rw [issued]
  by_cases nonneg : 0 ≤ answer.ret
  · simp only [List.flatMap_singleton, Action.uses, onTable_of_nonneg nonneg]
    refine .asks answer.ret ?_ inHand
    have acquires : ownSockets.effect (.socket life.server.sockType answer.ret) =
        some (.acquires answer.ret) := if_pos nonneg
    rw [Life.owned, grown, Ledger.owned_append, Ledger.owned_cons, Ledger.owned_nil,
      Ledger.after, acquires]
    rfl
  · simp only [List.flatMap_singleton, Action.uses, onTable_of_negative nonneg]
    refine .silent [] life.ownUses_nil (Life.owned_quiet grown fun action member => ?_) inHand
    rw [List.mem_singleton.mp member]
    exact if_neg nonneg

theorem Life.deed_accept (alive : life.alive = true) (atAccept : life.server.pc = .accept)
    (own : life.OwnUses (onTable .uses life.server.listener.sockfd))
    (nonzero : answer.ret ≠ 0) :
    Deed life (life.listens answer) ((life.server.issued true answer).flatMap Action.uses) := by
  have owned := life.listens_owned answer (by simp [atAccept])
  have empty : life.inHand = ∅ := Life.inHand_empty (by simp [atAccept]) (by simp [atAccept])
  have uses : (life.server.issued true answer).flatMap Action.uses =
      onTable .uses life.server.listener.sockfd ++ onTable .opens answer.ret := by
    simp only [Server.issued, atAccept]
    split_ifs <;> simp [Action.uses]
  rw [uses]
  by_cases nonneg : 0 ≤ answer.ret
  · have succeeds : answer.ret ≠ -1 := by omega
    have client : (life.listens answer).server.locals.client = answer.ret := by
      simp only [Life.listens, Server.startListening, atAccept, if_neg succeeds]
      split_ifs <;> rfl
    have goes : (life.listens answer).server.pc = .spawn ∨
        (life.listens answer).server.pc = .call := by
      simp only [Life.listens, Server.startListening, atAccept, if_neg succeeds]
      split_ifs
      · exact Or.inl rfl
      · exact Or.inr rfl
    have inHand : (life.listens answer).inHand = {(life.listens answer).server.locals.client} :=
      Life.inHand_eq alive goes (by rwa [client])
    rw [client] at inHand
    rw [onTable_of_nonneg nonneg]
    exact .accepts _ own answer.ret nonzero owned empty inHand
  · have client : (life.listens answer).server.locals.client = answer.ret := by
      simp only [Life.listens, Server.startListening, atAccept]
      split_ifs <;> rfl
    have inHand : (life.listens answer).inHand = ∅ := Life.inHand_negative (by rwa [client])
    rw [onTable_of_negative nonneg, List.append_nil]
    exact .silent _ own owned (inHand.trans empty.symm)

theorem Life.deed_spawn (alive : life.alive = true) (nonzero : 0 ∉ life.inHand)
    (atSpawn : life.server.pc = .spawn) :
    Deed life (life.listens answer) ((life.server.issued true answer).flatMap Action.uses) := by
  have owned := life.listens_owned answer (by simp [atSpawn])
  have after : (life.listens answer).inHand = ∅ := by
    refine Life.inHand_empty ?_ ?_ <;>
      · simp only [Life.listens, Server.startListening, atSpawn]
        split_ifs <;> exact Pc.noConfusion
  by_cases nonneg : 0 ≤ life.server.locals.client
  · have before := Life.inHand_eq alive (Or.inl atSpawn) nonneg
    have positive : 0 < life.server.locals.client := by
      rw [before, Set.mem_singleton_iff] at nonzero
      omega
    by_cases created : answer.ret = 0
    · have uses : (life.server.issued true answer).flatMap Action.uses =
          [.gives life.server.locals.client] := by
        simp [Server.issued, atSpawn, NcThread.start, threadCall, created, Action.uses,
          onTable_of_nonneg nonneg, Locals.newSock, NcSocket.ofSockfd]
      rw [uses]
      exact .hands _ owned before after
    · have uses : (life.server.issued true answer).flatMap Action.uses =
          [.closes life.server.locals.client] := by
        simp [Server.issued, atSpawn, NcThread.start, threadCall, created, Action.uses,
          onTable_of_nonneg nonneg, Locals.newSock, NcSocket.ofSockfd, NcSocket.destroy,
          positive]
      rw [uses]
      exact .drops _ owned before after
  · have before := Life.inHand_negative nonneg
    have uses : (life.server.issued true answer).flatMap Action.uses = [] := by
      by_cases created : answer.ret = 0
      · simp [Server.issued, atSpawn, NcThread.start, threadCall, created, Action.uses,
          onTable_of_negative nonneg, Locals.newSock, NcSocket.ofSockfd]
      · have notPositive : ¬ 0 < life.server.locals.client := by omega
        simp [Server.issued, atSpawn, NcThread.start, threadCall, created, Action.uses,
          Locals.newSock, NcSocket.ofSockfd, NcSocket.destroy, notPositive]
    rw [uses]
    exact .silent [] life.ownUses_nil owned (after.trans before.symm)

theorem Life.deed_call (alive : life.alive = true) (atCall : life.server.pc = .call) :
    Deed life (life.listens answer) ((life.server.issued true answer).flatMap Action.uses) := by
  have owned := life.listens_owned answer (by simp [atCall])
  have after : (life.listens answer).inHand = ∅ := by
    refine Life.inHand_empty ?_ ?_ <;>
      · simp only [Life.listens, Server.startListening, atCall]
        exact Pc.noConfusion
  have uses : (life.server.issued true answer).flatMap Action.uses =
      onTable .gives life.server.locals.client := by
    simp [Server.issued, atCall, Action.uses, Locals.newSock, NcSocket.ofSockfd]
  rw [uses]
  by_cases nonneg : 0 ≤ life.server.locals.client
  · have before := Life.inHand_eq alive (Or.inr atCall) nonneg
    rw [onTable_of_nonneg nonneg]
    exact .hands _ owned before after
  · have before := Life.inHand_negative nonneg
    rw [onTable_of_negative nonneg]
    exact .silent [] life.ownUses_nil owned (after.trans before.symm)

/-- A step of `startListening`. -/
theorem Owns.deed_start (owns : Owns life) (alive : life.alive = true)
    (nonzero : 0 ∉ life.inHand) (orderly : Orderly life (.start answer)) :
    Deed life (life.listens answer) ((life.server.issued true answer).flatMap Action.uses) := by
  obtain ⟨-, inTime, notZero⟩ := orderly
  have own : life.server.pc.onSocket = true →
      life.OwnUses (onTable .uses life.server.listener.sockfd) := fun onSocket =>
    owns.ownUses alive (inTime onSocket).1 (inTime onSocket).2
  by_cases atSocket : life.server.pc = .socket
  · exact life.deed_socket atSocket
  by_cases atAccept : life.server.pc = .accept
  · exact life.deed_accept alive atAccept (own (by rw [atAccept]; rfl)) (notZero atAccept)
  by_cases atSpawn : life.server.pc = .spawn
  · exact life.deed_spawn alive nonzero atSpawn
  by_cases atCall : life.server.pc = .call
  · exact life.deed_call alive atCall
  -- At the other program points nothing is in hand before or after.
  have owned := life.listens_owned answer atSocket
  have quiet : (life.server.startListening true answer).pc ≠ .spawn →
      (life.server.startListening true answer).pc ≠ .call →
      (life.listens answer).inHand = life.inHand := fun notSpawn notCall =>
    (Life.inHand_empty notSpawn notCall).trans (Life.inHand_empty atSpawn atCall).symm
  cases onSocket : life.server.pc.onSocket with
  | true =>
      obtain ⟨uses, notSpawn, notCall⟩ := life.server.uses_issued answer onSocket atAccept
      rw [uses]
      exact .silent _ (own onSocket) owned (quiet notSpawn notCall)
  | false =>
      obtain ⟨uses, notSpawn, notCall⟩ :=
        life.server.silent_issued answer onSocket atSocket atSpawn atCall
      rw [uses]
      exact .silent [] life.ownUses_nil owned (quiet notSpawn notCall)

end Start

section Others

variable {life next : Life}

/-- The listener closes its own socket, if it has a descriptor. -/
theorem Deed.close (grown : next.server.actions =
      life.server.actions ++ [.close life.server.listener.sockfd])
    (mine : 0 ≤ life.server.listener.sockfd → life.server.listener.sockfd ∈ life.owned)
    (inHand : next.inHand = life.inHand) :
    Deed life next ([Action.close life.server.listener.sockfd].flatMap Action.uses) := by
  rw [List.flatMap_singleton, Action.uses]
  by_cases nonneg : 0 ≤ life.server.listener.sockfd
  · rw [onTable_of_nonneg nonneg]
    exact .closes _ (Life.owned_close grown nonneg) (mine nonneg) inHand
  · rw [onTable_of_negative nonneg]
    refine .silent [] life.ownUses_nil (Life.owned_quiet grown fun action member => ?_) inHand
    rw [List.mem_singleton.mp member]
    exact if_neg nonneg

/-- A step of `stopListening`. -/
theorem Owns.deed_stop (owns : Owns life) (alive : life.alive = true) :
    Deed life { life with server := life.server.stopListening, entered := none }
      (life.uses .stop) := by
  have stops := life.server.stops
  have inHand : ({ life with server := life.server.stopListening, entered := none } :
      Life).inHand = life.inHand := by
    unfold Life.inHand
    simp only [stops.pc, stops.locals]
  have next : life.step true .stop =
      { life with server := life.server.stopListening, entered := none } := by
    rw [Life.step, if_pos alive]
  have quiet : ∀ more : List Action,
      life.server.stopListening.actions = life.server.actions ++ more →
      life.OwnUses (more.flatMap Action.uses) →
      (∀ action ∈ more, ownSockets.effect action = none) →
      Deed life { life with server := life.server.stopListening, entered := none }
        (life.uses .stop) := by
    intro more grown own silent
    rw [Life.uses_eq (by rw [next]; exact grown)]
    exact .silent _ own (Life.owned_quiet grown silent) inHand
  cases stopper : life.server.stopper with
  | begin => exact quiet [] (by simp [Server.stopListening, stopper]) life.ownUses_nil (by simp)
  | sleep =>
      exact quiet [.sleep 250] (by simp [Server.stopListening, stopper]) life.ownUses_nil
        (by simp [ownSockets])
  | test =>
      refine quiet [] ?_ life.ownUses_nil (by simp)
      simp only [Server.stopListening, stopper]
      split_ifs <;> simp
  | shutdown =>
      refine quiet [.shutdown life.server.listener.sockfd 0]
        (by simp [Server.stopListening, stopper]) ?_ (by simp [ownSockets])
      rw [List.flatMap_singleton]
      exact owns.ownUses alive (by simp [stopper]) (owns.nonzero (Or.inl stopper))
  | close =>
      have grown : life.server.stopListening.actions =
          life.server.actions ++ [.close life.server.listener.sockfd] := by
        simp [Server.stopListening, stopper]
      rw [Life.uses_eq (by rw [next]; exact grown)]
      exact .close grown
        (owns.mine alive (by simp [stopper]) (owns.nonzero (Or.inr stopper))) inHand
  | zero => exact quiet [] (by simp [Server.stopListening, stopper]) life.ownUses_nil (by simp)

theorem Life.pc_of_idle (idle : life.idle = true) :
    life.server.pc ≠ .spawn ∧ life.server.pc ≠ .call := by
  unfold Life.idle at idle
  cases pc : life.server.pc <;> simp_all

/-- The inversion lemma: what an orderly event does. -/
theorem Owns.deed (owns : Owns life) (nonzero : 0 ∉ life.inHand) {event : LifeEvent}
    (orderly : Orderly life event) :
    Deed life (life.step true event) (life.uses event) := by
  have nothing : life.step true event = life → Deed life (life.step true event)
      (life.uses event) := by
    intro same
    have grown : (life.step true event).server.actions = life.server.actions ++ [] := by
      rw [same, List.append_nil]
    rw [Life.uses_eq grown, same]
    exact .silent [] life.ownUses_nil rfl rfl
  by_cases alive : life.alive = true
  · cases event with
    | call args =>
        by_cases idle : life.idle = true
        · obtain ⟨notSpawn, notCall⟩ := Life.pc_of_idle idle
          have empty := Life.inHand_empty notSpawn notCall
          have grown : (life.step true (.call args)).server.actions =
              life.server.actions ++ [] := by
            rw [Life.step, if_pos alive]
            simp [idle]
          rw [Life.uses_eq grown]
          refine .silent [] life.ownUses_nil (Life.owned_quiet grown (by simp)) ?_
          rw [empty, Life.step, if_pos alive]
          simp only [idle, if_true]
          exact Life.inHand_empty Pc.noConfusion Pc.noConfusion
        · apply nothing
          rw [Life.step, if_pos alive]
          simp [idle]
    | start answer =>
        have next : life.step true (.start answer) = life.listens answer := by
          rw [Life.step, if_pos alive]
          rfl
        rw [Life.uses_eq (by rw [next]; exact life.listens_actions answer), next]
        exact owns.deed_start alive nonzero orderly
    | stop =>
        have deed := owns.deed_stop alive
        rw [Life.step, if_pos alive]
        exact deed
    | destroy =>
        by_cases ready : life.idle = true ∧ life.server.stopper = .begin
        · obtain ⟨notSpawn, notCall⟩ := Life.pc_of_idle ready.1
          have empty := Life.inHand_empty notSpawn notCall
          have dead : (life.step true .destroy).inHand = life.inHand := by
            rw [empty, Life.step, if_pos alive]
            simp only [if_pos ready]
            apply Set.eq_empty_of_forall_notMem
            rintro fd ⟨again, -⟩
            cases again
          have grown : (life.step true .destroy).server.actions =
              life.server.actions ++ life.server.listener.destroy := by
            rw [Life.step, if_pos alive]
            simp only [if_pos ready]
          rw [Life.uses_eq grown]
          unfold NcSocketListener.destroy at grown ⊢
          split_ifs at grown ⊢ with some
          · exact .close grown (owns.mine alive (by simp [ready.2]) some) dead
          · exact .silent [] life.ownUses_nil (Life.owned_quiet grown (by simp)) dead
        · apply nothing
          rw [Life.step, if_pos alive]
          exact if_neg ready
  · exact nothing (if_neg alive)

end Others

/-! ### The descriptors that the listener has -/

/-- Two sets that are apart make up a whole. The descriptor 0 is not in hand. -/
structure Parts (owned inHand whole : Set Int) : Prop where
  whole : ∀ fd, fd ∈ whole ↔ fd ∈ owned ∨ fd ∈ inHand
  apart : ∀ fd ∈ inHand, fd ∉ owned
  nonzero : 0 ∉ inHand

namespace Parts

variable {owned inHand whole : Set Int} {fd : Int}

theorem asks (parts : Parts owned inHand whole) (free : fd ∉ whole) :
    Parts (insert fd owned) inHand (insert fd whole) := by
  obtain ⟨all, apart, nonzero⟩ := parts
  constructor <;> grind

theorem accepts (parts : Parts owned ∅ whole) (free : fd ∉ whole) (notZero : fd ≠ 0) :
    Parts owned {fd} (insert fd whole) := by
  obtain ⟨all, apart, nonzero⟩ := parts
  constructor <;> grind

theorem closes (parts : Parts owned inHand whole) (mine : fd ∈ owned) :
    Parts (owned \ {fd}) inHand (whole \ {fd}) := by
  obtain ⟨all, apart, nonzero⟩ := parts
  constructor <;> grind

theorem empties (parts : Parts owned {fd} whole) : Parts owned ∅ (whole \ {fd}) := by
  obtain ⟨all, apart, nonzero⟩ := parts
  constructor <;> grind

end Parts

/-! ### The system -/

/-- What the parties have open at the beginning. -/
def Party.initial (initial : Set Int) : Party → Set Int
  | .program => initial
  | .listener => ∅

theorem Party.apart (initial : Set Int) : Ledger.Apart (Party.initial initial) := by
  intro fd left right mine too
  cases left with
  | program =>
      cases right with
      | program => rfl
      | listener => exact too.elim
  | listener => exact mine.elim

/-- The listener, and the table of descriptors with the objects. -/
structure ServerProcess (Name : Type) where
  life : Life
  process : Process Party Name

namespace ServerProcess

variable {Name : Type} [DecidableEq Name]

/-- The listener has done something to the table. -/
def listened (process : Process Party Name) (uses : List TableUse) : Process Party Name :=
  { process with log := process.log ++ uses.map (.inl .listener, ·) }

/-- The steps of the process. A new object gets what the listener hands over. The program and
the objects go on as they like within `Process`. -/
inductive Step (initial : Set Int) (condition : Object → Operation → Prop)
    (server : ServerProcess Name) : ServerProcess Name → Prop where
  | listens (event : LifeEvent) (orderly : Orderly server.life event)
      (free : ∀ fd, .opens fd ∈ server.life.uses event →
        ¬ server.process.IsOpen (Party.initial initial) fd)
      (keeps : ∀ fd, .gives fd ∉ server.life.uses event) :
      Step initial condition server
        ⟨server.life.step true event, listened server.process (server.life.uses event)⟩
  | hands (event : LifeEvent) (orderly : Orderly server.life event) (name : Name) (fd : Int)
      (gives : server.life.uses event = [.gives fd]) (new : server.process.records name = none) :
      Step initial condition server
        ⟨server.life.step true event,
          server.process.put name ⟨.make (.ofSockfd fd), []⟩
            (Process.handOver .listener name (.ofSockfd fd))⟩
  | acts (process : Process Party Name)
      (step : server.process.Step (Party.initial initial) condition process)
      (others : Ledger.share (.inl .listener) process.log =
        Ledger.share (.inl .listener) server.process.log) :
      Step initial condition server { server with process := process }

/-- A new listener, and no object. -/
def machine (initial : Set Int) (condition : Object → Operation → Prop) :
    Machine (ServerProcess Name) where
  initial := fun server => server.process = .start ∧
    ∃ port sockType args, server.life = .make port sockType args
  step := Step initial condition

/-- What the listener has open: its own sockets and the accepted descriptor that it has not
handed over yet. -/
structure Keeps (initial : Set Int) (server : ServerProcess Name) : Prop where
  owns : Owns server.life
  parts : Parts server.life.owned server.life.inHand
    (server.process.has (Party.initial initial) (.inl .listener))

variable {initial : Set Int} {condition : Object → Operation → Prop}
variable {server next : ServerProcess Name}

/-- The listener after one entry of its own. -/
theorem has_listened (process : Process Party Name) (use : TableUse) :
    (listened process [use]).has (Party.initial initial) (.inl .listener) =
      table.after (process.has (Party.initial initial) (.inl .listener)) use :=
  Ledger.has_append_own _ use

/-- What the listener uses is its own in the table. -/
theorem Keeps.ownUses (keeps : server.Keeps initial) {uses : List TableUse}
    (own : server.life.OwnUses uses) : ∀ use ∈ uses,
      ∃ fd ∈ server.process.has (Party.initial initial) (.inl .listener), use = .uses fd := by
  intro use member
  obtain ⟨fd, mine, same⟩ := own use member
  exact ⟨fd, (keeps.parts.whole fd).mpr (Or.inl mine), same⟩

theorem has_handOver (process : Process Party Name) (name : Name) (record : Process.Record)
    {fd : Int} (nonneg : 0 ≤ fd) :
    (process.put name record (Process.handOver .listener name (.ofSockfd fd))).has
        (Party.initial initial) (.inl .listener) =
      process.has (Party.initial initial) (.inl .listener) \ {fd} := by
  have entries : Process.handOver Party.listener name (.ofSockfd fd) =
      [(.inl .listener, .gives fd), (.inr name, .takes fd)] := if_pos nonneg
  show table.has _ (process.log ++ Process.handOver .listener name (.ofSockfd fd)) _ = _
  rw [entries, List.append_cons, Ledger.has_append_other (by simp), Ledger.has_append_own]
  rfl

/-- A step of the listener alone: it keeps the account of its descriptors, and it is a step
of `Process`, or two of them, or none. -/
theorem Keeps.listens (keeps : server.Keeps initial)
    (reached : (Process.machine (Party.initial initial) condition).Reachable server.process)
    {event : LifeEvent} (orderly : Orderly server.life event)
    (free : ∀ fd, .opens fd ∈ server.life.uses event →
      ¬ server.process.IsOpen (Party.initial initial) fd)
    (stays : ∀ fd, .gives fd ∉ server.life.uses event) :
    Keeps initial
        ⟨server.life.step true event, listened server.process (server.life.uses event)⟩ ∧
      (Process.machine (Party.initial initial) condition).Reachable
        (listened server.process (server.life.uses event)) := by
  have owns : Owns (server.life.step true event) := keeps.owns.step orderly.uncrossed
  have deed := keeps.owns.deed keeps.parts.nonzero orderly
  generalize server.life.step true event = next at deed owns ⊢
  generalize server.life.uses event = uses at deed free stays ⊢
  have parts := keeps.parts
  have notMine : ∀ fd, .opens fd ∈ uses →
      fd ∉ server.process.has (Party.initial initial) (.inl .listener) :=
    fun fd asked mine => free fd asked ⟨_, mine⟩
  have closes : ∀ fd, fd ∈ server.process.has (Party.initial initial) (.inl .listener) →
      (Process.machine (Party.initial initial) condition).Reachable
        (listened server.process [.closes fd]) :=
    fun fd mine => reached.tail (Process.Step.closes Party.listener fd mine)
  cases deed with
  | silent _ own owned inHand =>
      obtain ⟨reaches, same⟩ := Process.reachable_uses reached (keeps.ownUses own)
      refine ⟨⟨owns, ?_⟩, reaches⟩
      show Parts _ _ (table.has _ (server.process.log ++ _) _)
      rw [owned, inHand, same]
      exact parts
  | asks fd owned inHand =>
      have new := List.mem_singleton_self (TableUse.opens fd)
      refine ⟨⟨owns, ?_⟩, reached.tail (Process.Step.opens Party.listener fd (free fd new))⟩
      rw [owned, inHand, has_listened]
      exact parts.asks (notMine fd new)
  | accepts uses own fd nonzero owned empty inHand =>
      have new : .opens fd ∈ uses ++ [TableUse.opens fd] := by simp
      obtain ⟨reaches, same⟩ := Process.reachable_uses reached (keeps.ownUses own)
      have split : listened server.process (uses ++ [.opens fd]) =
          (listened server.process uses).note .listener (.opens fd) := by
        simp [listened, Process.note]
      refine ⟨⟨owns, ?_⟩, ?_⟩
      · show Parts _ _ (Process.has _ (listened server.process (uses ++ [.opens fd])) _)
        rw [split, owned, inHand]
        show Parts _ _ (table.has _ (_ ++ [(_, _)]) _)
        rw [Ledger.has_append_own, listened, same]
        rw [empty] at parts
        exact parts.accepts (notMine fd new) nonzero
      · have still : ¬ (listened server.process uses).IsOpen (Party.initial initial) fd := by
          rintro ⟨holder, has⟩
          rw [listened, same] at has
          exact free fd new ⟨holder, has⟩
        rw [split]
        exact reaches.tail (Process.Step.opens Party.listener fd still)
  | closes fd owned mine inHand =>
      refine ⟨⟨owns, ?_⟩, closes fd ((parts.whole fd).mpr (Or.inl mine))⟩
      rw [owned, inHand, has_listened]
      exact parts.closes mine
  | drops fd owned before inHand =>
      rw [before] at parts
      refine ⟨⟨owns, ?_⟩, closes fd ((parts.whole fd).mpr (Or.inr (Set.mem_singleton fd)))⟩
      rw [owned, inHand, has_listened]
      exact parts.empties
  | hands fd owned before inHand => exact absurd (List.mem_singleton_self _) (stays fd)

/-- A step of the listener that hands a socket over. -/
theorem Keeps.hands (keeps : server.Keeps initial) {event : LifeEvent}
    (orderly : Orderly server.life event) (name : Name) (record : Process.Record) {fd : Int}
    (gives : server.life.uses event = [.gives fd]) :
    Keeps initial ⟨server.life.step true event,
      server.process.put name record (Process.handOver .listener name (.ofSockfd fd))⟩ ∧
      fd ∈ server.life.inHand := by
  have owns : Owns (server.life.step true event) := keeps.owns.step orderly.uncrossed
  have deed := keeps.owns.deed keeps.parts.nonzero orderly
  rw [gives] at deed
  generalize server.life.step true event = next at deed owns ⊢
  have parts := keeps.parts
  generalize same : [TableUse.gives fd] = uses at deed
  cases deed with
  | silent _ own owned inHand =>
      obtain ⟨other, -, impossible⟩ := own (.gives fd) (by simp [← same])
      cases impossible
  | accepts uses own other nonzero owned empty inHand =>
      have last := congrArg List.getLast? same
      simp at last
  | hands _ owned before inHand =>
      cases same
      have mine : fd ∈ server.life.inHand := by
        rw [before]
        exact Set.mem_singleton fd
      rw [before] at parts
      refine ⟨⟨owns, ?_⟩, mine⟩
      rw [owned, inHand, has_handOver server.process name record mine.2.2.2]
      exact parts.empties
  | asks | closes | drops => cases same

/-- The invariant: the listener keeps its account, and it is a party as `Process` wants it. -/
theorem sound_of_reachable (reachable : (machine initial condition).Reachable server) :
    server.Keeps initial ∧
      (Process.machine (Party.initial initial) condition).Reachable server.process := by
  apply reachable.invariant (fun server => server.Keeps initial ∧
    (Process.machine (Party.initial initial) condition).Reachable server.process)
  · rintro ⟨life, process⟩ ⟨rfl, port, sockType, args, rfl⟩
    have empty : (Life.make port sockType args).inHand = ∅ :=
      Life.inHand_empty Pc.noConfusion Pc.noConfusion
    refine ⟨⟨.make port sockType args, ?_, ?_, ?_⟩, .start rfl⟩
    · intro fd
      rw [empty]
      exact ⟨False.elim, fun mine => mine.elim id id⟩
    · intro fd mine
      rw [empty] at mine
      exact mine.elim
    · rw [empty]
      exact id
  · rintro before after - ⟨keeps, reached⟩ step
    cases step with
    | listens event orderly free stays => exact keeps.listens reached orderly free stays
    | hands event orderly name fd gives new =>
        obtain ⟨after, mine⟩ := keeps.hands orderly name ⟨.make (.ofSockfd fd), []⟩ gives
        have adopts : (Origin.ofSockfd fd).adopted ⊆
            before.process.has (Party.initial initial) (.inl .listener) := by
          rintro other ⟨rfl, -⟩
          exact (keeps.parts.whole _).mpr (Or.inr mine)
        have made : before.process.Step (Party.initial initial) condition _ :=
          .makes .listener name (.ofSockfd fd) new adopts
        exact ⟨after, reached.tail made⟩
    | acts process step others =>
        refine ⟨⟨keeps.owns, ?_⟩, reached.tail step⟩
        have same : process.has (Party.initial initial) (.inl .listener) =
            before.process.has (Party.initial initial) (.inl .listener) := by
          rw [Process.has, Process.has, Ledger.has, Ledger.has, others]
        rw [same]
        exact keeps.parts

/-- Objects that meet a condition meet a weaker one. -/
theorem reachable_mono {weaker : Object → Operation → Prop}
    (weakens : ∀ object operation, condition object operation → weaker object operation)
    (reachable : (machine initial condition).Reachable server) :
    (machine initial weaker).Reachable server := by
  apply reachable.invariant (fun server => (machine initial weaker).Reachable server)
  · exact fun first initially => .start initially
  intro before after _ reached step
  apply reached.tail
  cases step with
  | listens event orderly free keeps => exact .listens event orderly free keeps
  | hands event orderly name fd gives new => exact .hands event orderly name fd gives new
  | acts process step others => exact .acts process (step.mono weakens) others

/-! ### Runs -/

/-- Nothing is opened and nothing handed over. -/
def Plain (uses : List TableUse) : Prop :=
  ∀ use ∈ uses, (∀ fd, use ≠ .opens fd) ∧ ∀ fd, use ≠ .gives fd

instance (uses : List TableUse) : Decidable (Plain uses) := by
  unfold Plain
  have each : ∀ use : TableUse,
      Decidable ((∀ fd, use ≠ .opens fd) ∧ ∀ fd, use ≠ .gives fd) := by
    intro use
    cases use with
    | opens fd => exact isFalse fun plain => plain.1 fd rfl
    | gives fd => exact isFalse fun plain => plain.2 fd rfl
    | _ => exact isTrue ⟨fun _ => TableUse.noConfusion, fun _ => TableUse.noConfusion⟩
  infer_instance

/-- The listener opens a descriptor. -/
theorem reachable_of_opens {life : Life} {process : Process Party Name} (event : LifeEvent)
    (reached : (machine initial condition).Reachable (⟨life, process⟩ : ServerProcess Name))
    (orderly : Orderly life event) (uses : List TableUse) (fd : Int)
    (same : life.uses event = uses ++ [.opens fd]) (plain : Plain uses)
    (free : ¬ process.IsOpen (Party.initial initial) fd) :
    (machine initial condition).Reachable
      (⟨life.step true event, listened process (uses ++ [.opens fd])⟩ : ServerProcess Name) := by
  rw [← same]
  refine reached.tail (.listens event orderly (fun other asked => ?_) fun other gives => ?_)
  · rw [same] at asked
    rcases List.mem_append.mp asked with before | last
    · exact absurd rfl ((plain _ before).1 other)
    · cases List.mem_singleton.mp last
      exact free
  · rw [same] at gives
    rcases List.mem_append.mp gives with before | last
    · exact (plain _ before).2 other rfl
    · cases List.mem_singleton.mp last

/-- What a list of events does to the table. -/
def allUses : Life → List LifeEvent → List TableUse
  | _, [] => []
  | life, event :: events => life.uses event ++ allUses (life.step true event) events

/-- The listener goes on by itself. -/
theorem reachable_of_plain (events : List LifeEvent) : ∀ life process,
    (machine initial condition).Reachable (⟨life, process⟩ : ServerProcess Name) →
    (lives true).Meets (fun life event => Orderly life event ∧ Plain (life.uses event)) life
      events →
    (machine initial condition).Reachable
      (⟨(lives true).run life events, listened process (allUses life events)⟩ :
        ServerProcess Name) := by
  induction events with
  | nil =>
      intro life process reached _
      have same : listened process (allUses life []) = process := by simp [listened, allUses]
      rw [same]
      exact reached
  | cons event events inductionHypothesis =>
      intro life process reached meets
      obtain ⟨⟨orderly, plain⟩, later⟩ := meets
      have listens := reached.tail (.listens event orderly
        (fun fd asked => absurd rfl ((plain _ asked).1 fd))
        (fun fd gives => (plain _ gives).2 fd rfl))
      have rest := inductionHypothesis _ _ listens later
      have same : listened (listened process (life.uses event))
          (allUses (life.step true event) events) =
            listened process (allUses life (event :: events)) := by
        simp [listened, allUses]
      rw [← same]
      exact rest

end ServerProcess

/-- In a process whose objects are careful and whose listener is orderly, whoever uses, closes
or hands over a descriptor, an object, the listener or the program, has it at that moment, and
nobody else does. The build has `HAVE_THREADS`, each call for a descriptor is answered with
one that is not open, and the program touches only what it has. -/
theorem server_process_keeps_apart {Name : Type} [DecidableEq Name] (initial : Set Int)
    (server : ServerProcess Name)
    (reachable : (ServerProcess.machine initial Careful).Reachable server)
    (before later : List ((Party ⊕ Name) × TableUse)) (holder : Party ⊕ Name) (use : TableUse)
    (split : server.process.log = before ++ (holder, use) :: later) (fd : Int)
    (touches : table.Touches use fd) :
    fd ∈ table.has (Process.atStart (Party.initial initial)) before holder ∧
      ∀ other, other ≠ holder →
        fd ∉ table.has (Process.atStart (Party.initial initial)) before other :=
  Process.exclusive (Party.apart initial) (ServerProcess.sound_of_reachable reachable).2 split
    touches

/-- When the listener and all the objects are gone and the objects have been careful and tidy,
only what the program has is open, and whatever the listener or an object has acquired it has
later closed or handed over itself. The conditions are those of `server_process_keeps_apart`. -/
theorem server_process_leaves_nothing {Name : Type} [DecidableEq Name] (initial : Set Int)
    (server : ServerProcess Name)
    (reachable : (ServerProcess.machine initial Proper).Reachable server)
    (gone : server.life.alive = false) (finished : server.process.Finished) :
    (∀ fd, server.process.IsOpen (Party.initial initial) fd ↔
        fd ∈ server.process.has (Party.initial initial) (.inl .program)) ∧
      ∀ before later holder use fd, holder ≠ .inl .program →
        server.process.log = before ++ (holder, use) :: later →
        table.effect use = some (.acquires fd) →
        ∃ entry ∈ later, entry.1 = holder ∧ table.effect entry.2 = some (.releases fd) := by
  obtain ⟨keeps, inProcess⟩ := ServerProcess.sound_of_reachable reachable
  have nothing : ∀ holder, holder ≠ .inl .program →
      server.process.has (Party.initial initial) holder = ∅ := by
    intro holder other
    match holder with
    | .inl .program => exact absurd rfl other
    | .inl .listener =>
        apply Set.eq_empty_of_forall_notMem
        intro fd member
        rcases (keeps.parts.whole fd).mp member with mine | ⟨alive, -⟩
        · rw [keeps.owns.owned, Life.held, gone] at mine
          exact mine
        · rw [gone] at alive
          cases alive
    | .inr name =>
        exact Process.has_of_tidy (Party.apart initial)
          (Process.reachable_mono (fun _ _ proper => proper.2) inProcess) finished name
  constructor
  · intro fd
    constructor
    · rintro ⟨holder, member⟩
      by_cases program : holder = .inl .program
      · rwa [program] at member
      · have empty := nothing holder program
        rw [Process.has] at empty
        rw [empty] at member
        exact member.elim
    · exact fun mine => ⟨_, mine⟩
  · exact fun before later holder use fd other split acquires =>
      Process.released (nothing holder other) split acquires

/-! ### Two callbacks -/

/-- Two clients come one after the other and are given the same descriptor. The callback
destroys each socket, and the listener is stopped and destroyed. -/
theorem twoCallbacks : ∃ server : ServerProcess Bool,
    (ServerProcess.machine {0} Proper).Reachable server ∧ server.life.alive = false ∧
      server.process.Finished ∧
      server.process.log = [(.inl .listener, .opens 3), (.inl .listener, .uses 3),
        (.inl .listener, .uses 3), (.inl .listener, .uses 3), (.inl .listener, .uses 3),
        (.inl .listener, .opens 4), (.inl .listener, .gives 4), (.inr true, .takes 4),
        (.inr true, .call (.close 4)), (.inl .listener, .uses 3), (.inl .listener, .opens 4),
        (.inl .listener, .gives 4), (.inr false, .takes 4), (.inr false, .call (.close 4)),
        (.inl .listener, .uses 3), (.inl .listener, .closes 3)] := by
  have started : (ServerProcess.machine {0} Proper).Reachable
      (⟨.make 80 socktypeTcpip ⟨true, ncNonthreaded, ncJoined⟩, .start⟩ : ServerProcess Bool) :=
    .start ⟨rfl, _, _, _, rfl⟩
  have called := ServerProcess.reachable_of_plain [.call ⟨true, ncNonthreaded, ncJoined⟩] _ _
    started (by decide)
  have created := ServerProcess.reachable_of_opens (.start (.value 3)) called (by decide) [] 3
    rfl (by decide) (by
      rintro ⟨(program | listener) | name, member⟩
      · exact absurd (show (3 : Int) = 0 from member) (by decide)
      · exact member
      · exact member)
  have listens := ServerProcess.reachable_of_plain (List.replicate 6 (.start (.value 0))) _ _
    created (by decide)
  have accepted := ServerProcess.reachable_of_opens (.start (.value 4)) listens (by decide)
    [.uses 3] 4 rfl (by decide) (by
      rintro ⟨(program | listener) | name, member⟩
      · exact absurd (show (4 : Int) = 0 from member) (by decide)
      · exact absurd (show (4 : Int) = 3 ∨ False from member) (by decide)
      · exact member)
  have handed := accepted.tail (.hands (.start (.value 0)) (by decide) true 4 rfl rfl)
  have begun := handed.tail (.acts _ (.begins true _ _ .destroy [.close 4] rfl
    (proper_destroy rfl (by decide)) rfl rfl) rfl)
  have closed := begun.tail
    (.acts _ (.issues true _ (.close 4) [] rfl (by simp [descriptors])) rfl)
  have again := ServerProcess.reachable_of_plain [.start (.value 0), .start (.value 0)] _ _
    closed (by decide)
  have reaccepted := ServerProcess.reachable_of_opens (.start (.value 4)) again (by decide)
    [.uses 3] 4 rfl (by decide) (by
      rintro ⟨(program | listener) | name, member⟩
      · exact absurd (show (4 : Int) = 0 from member) (by decide)
      · exact member.2 rfl
      · cases name with
        | true => exact member.2 rfl
        | false => exact member)
  have rehanded := reaccepted.tail (.hands (.start (.value 0)) (by decide) false 4 rfl rfl)
  have rebegun := rehanded.tail (.acts _ (.begins false _ _ .destroy [.close 4] rfl
    (proper_destroy rfl (by decide)) rfl rfl) rfl)
  have reclosed := rebegun.tail
    (.acts _ (.issues false _ (.close 4) [] rfl (by simp [descriptors])) rfl)
  have destroyed := ServerProcess.reachable_of_plain
    [.stop, .stop, .start (.value 0), .stop, .stop, .stop, .stop, .destroy] _ _ reclosed
    (by decide)
  refine ⟨_, destroyed, rfl, ?_, rfl⟩
  intro name record here
  cases name with
  | true =>
      obtain rfl := Option.some.inj here
      exact ⟨rfl, rfl⟩
  | false =>
      obtain rfl := Option.some.inj here
      exact ⟨rfl, rfl⟩

theorem server_process_keeps_apart_twoCallbacks : ∃ server : ServerProcess Bool,
    (.inr true, .call (.close 4)) ∈ server.process.log.take 13 ∧
      4 ∈ table.has (Process.atStart (Party.initial {0})) (server.process.log.take 13)
        (.inr false) ∧
      ∀ other, other ≠ .inr false →
        4 ∉ table.has (Process.atStart (Party.initial {0})) (server.process.log.take 13)
          other := by
  obtain ⟨server, reachable, -, -, log⟩ := twoCallbacks
  refine ⟨server, by simp [log], ?_⟩
  have careful : (ServerProcess.machine {0} Careful).Reachable server :=
    ServerProcess.reachable_mono (fun _ _ proper => proper.1) reachable
  exact server_process_keeps_apart {0} server careful _ (server.process.log.drop 14) (.inr false)
    (.call (.close 4)) (by rw [log]; rfl) 4 (Or.inr rfl)

theorem server_process_leaves_nothing_twoCallbacks : ∃ server : ServerProcess Bool,
    (∀ fd, server.process.IsOpen (Party.initial {0}) fd ↔
        fd ∈ server.process.has (Party.initial {0}) (.inl .program)) ∧
      (∃ entry ∈ server.process.log.drop 6, entry.1 = .inl .listener ∧
        table.effect entry.2 = some (.releases 4)) ∧
      ∃ entry ∈ server.process.log.drop 13, entry.1 = .inr false ∧
        table.effect entry.2 = some (.releases 4) := by
  obtain ⟨server, reachable, gone, finished, log⟩ := twoCallbacks
  obtain ⟨left, released⟩ := server_process_leaves_nothing {0} server reachable gone finished
  exact ⟨server, left,
    released (server.process.log.take 5) _ (.inl .listener) (.opens 4) 4 (by decide)
      (by rw [log]; rfl) rfl,
    released (server.process.log.take 12) _ (.inr false) (.takes 4) 4 (by decide)
      (by rw [log]; rfl) rfl⟩

end NetClass.Listener
