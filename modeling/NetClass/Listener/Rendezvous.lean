import NetClass.Library.Channel
import NetClass.Listener.Handover
import NetClass.Listener.OwnPort
import NetClass.Socket.ConnectOutcome

/-!
Contract: any number of `ncSocket`s that connect to one `ncSocketListener` over TCP.

Owns: the system of the clients in `connect`, the kernel with a queue of established
connections for each listening socket, and the listener, and the proof that a client that
was told `NC_OK` has a connection to the socket that this listener has bound to its port,
and that the connections are handed over in the order in which they were established, each
under the address of its client.

Does **not** own: what is sent over a connection; see `NetClass.Socket.Session`.

A client is one call of `connect`. It is known by the answers it has heard so far: the call
is at work while `NcSocket.connect` asks for more of them. The kernel establishes a
connection on its own, so a call may time out and the client be served nevertheless. All
clients dial this host, and nobody else listens on it.
-/

set_option autoImplicit false

namespace NetClass.Listener

open NetClass.Socket

universe u

/-- How far the kernel is with the connection of a client. An established one is to a
listening socket. -/
inductive Link where
  | unasked
  | asked
  | established (fd : Int)
  | refused
deriving DecidableEq, Repr

/-- Who connects, from where, and the call of `startListening`. -/
structure Rendezvous.Plan (Name : Type u) where
  sock : Name → NcSocket
  address : Name → List UInt8
  whole : ∀ name, (address name).length = sizeofSockaddrIn
  haveThreads : Bool
  listener : NcSocketListener
  tcp : listener.socktype = socktypeTcpip
  args : Arguments
  starts : haveThreads = true ∨ args.option = ncNonthreaded
  stopper : StopPc

/-- What each `connect` has heard, the connections, the queue of those that are
established to a socket, the listener and the sockets it has accepted. -/
structure Rendezvous (Name : Type u) where
  heard : Name → Option ConnectAnswers
  link : Name → Link
  queue : Int → Channel Name
  server : Server
  clients : List NcSocket

/-- The socket has been bound to the port and made to listen, and it has neither been shut
down nor closed since. -/
def ListensOn (port : UInt16) (actions : List Action) (fd : Int) : Prop :=
  ∃ earlier later, actions = earlier ++ later ∧
    (∃ ret errno backlog result,
      [.bind fd port ret errno, .listen fd backlog result].Sublist later ∧
        ret ≠ -1 ∧ result ≠ -1) ∧
    .shutdown fd 0 ∉ later ∧ .close fd ∉ later

namespace Rendezvous

variable {Name : Type u}

/-- What the call of `connect` has come to. -/
def outcome (plan : Plan Name) (meeting : Rendezvous Name) (name : Name) : Option Outcome :=
  (meeting.heard name).bind (plan.sock name).connect

/-- The socket stands for the connection of the client. -/
def Belongs (plan : Plan Name) (sock : NcSocket) (name : Name) : Prop :=
  sock = { NcSocket.ofSockfd sock.sockfd with ipaddr := inAddr (plan.address name) }

/-- `accept` answers with the oldest connection to its socket, or it fails. -/
def Offers (plan : Plan Name) (meeting : Rendezvous Name) : Event → Prop
  | .start answer =>
      meeting.server.pc = .accept → answer.ret ≠ -1 →
        answer.ret ≠ meeting.server.listener.sockfd ∧
          ∃ name rest, (meeting.queue meeting.server.listener.sockfd).inFlight = name :: rest ∧
            answer.address = plan.address name
  | .stop => True

/-- The queues after an `accept`. -/
def dequeue (meeting : Rendezvous Name) (event : Event) : Int → Channel Name :=
  let sockfd := meeting.server.listener.sockfd
  match accepts meeting.server event with
  | some _ => Function.update meeting.queue sockfd ((meeting.queue sockfd).receive 1)
  | none => meeting.queue

def serve (meeting : Rendezvous Name) (plan : Plan Name) (event : Event) : Rendezvous Name where
  heard := meeting.heard
  link := meeting.link
  queue := meeting.dequeue event
  server := (threads plan.haveThreads).step meeting.server event
  clients := meeting.clients ++ (accepts meeting.server event).toList

variable [DecidableEq Name]

def tell (meeting : Rendezvous Name) (name : Name) (answers : ConnectAnswers) :
    Rendezvous Name :=
  { meeting with heard := Function.update meeting.heard name (some answers) }

def relink (meeting : Rendezvous Name) (name : Name) (link : Link) : Rendezvous Name :=
  { meeting with link := Function.update meeting.link name link }

def establish (meeting : Rendezvous Name) (name : Name) (fd : Int) : Rendezvous Name :=
  { meeting.relink name (.established fd) with
    queue := Function.update meeting.queue fd ((meeting.queue fd).send [name]) }

/-- A connection is established to a socket that listens on the port that the client has
dialled, and only then a client hears of one. -/
inductive Step (plan : Plan Name) (meeting : Rendezvous Name) : Rendezvous Name → Prop where
  | dials (name : Name) (socket : Int) (address : Option Nat)
      (new : meeting.heard name = none) :
      Step plan meeting (meeting.tell name ⟨socket, address, []⟩)
  | asks (name : Name) (answers : ConnectAnswers) (here : meeting.heard name = some answers)
      (atWork : (plan.sock name).connect answers = none) (opened : 0 < answers.socket)
      (first : meeting.link name = .unasked) : Step plan meeting (meeting.relink name .asked)
  | establishes (name : Name) (fd : Int) (asked : meeting.link name = .asked)
      (stream : (plan.sock name).socktype = socktypeTcpip)
      (listens : ListensOn (plan.sock name).port meeting.server.actions fd) :
      Step plan meeting (meeting.establish name fd)
  | refuses (name : Name) (asked : meeting.link name = .asked) :
      Step plan meeting (meeting.relink name .refused)
  | hears (name : Name) (answers : ConnectAnswers) (here : meeting.heard name = some answers)
      (atWork : (plan.sock name).connect answers = none) (answer : ConnectAnswer)
      (honest : answer.Connected → ∃ fd, meeting.link name = .established fd) :
      Step plan meeting
        (meeting.tell name { answers with attempts := answers.attempts ++ [answer] })
  | serves (event : Event) (offers : meeting.Offers plan event) :
      Step plan meeting (meeting.serve plan event)

/-- Nobody has connected, and `startListening` is called. -/
def machine (plan : Plan Name) : Machine (Rendezvous Name) where
  initial := fun meeting => (∀ name, meeting.heard name = none) ∧
    (∀ name, meeting.link name = .unasked) ∧ (∀ fd, meeting.queue fd = .empty) ∧
    meeting.server = .begin plan.listener plan.args plan.stopper ∧ meeting.clients = []
  step := Step plan

/-! ### What `connect` has heard when it succeeds -/

/-- A `connect` that an answer ends with `NC_OK` was told of a connection. -/
theorem connected_of_ok {sock : NcSocket} {answers : ConnectAnswers} {answer : ConnectAnswer}
    {outcome : Outcome} (atWork : sock.connect answers = none)
    (returns : sock.connect { answers with attempts := answers.attempts ++ [answer] } =
      some outcome)
    (ok : outcome.ret = .ok) : answer.Connected := by
  obtain ⟨socket, address, attempts⟩ := answers
  unfold NcSocket.connect at atWork returns
  by_cases zero : socket = 0
  · simp [zero] at atWork
  cases address with
  | none => simp at atWork
  | some address =>
      simp only [if_neg zero, NcSocket.servaddr] at atWork returns
      split at atWork
      · next asks =>
          obtain ⟨head, goes, same⟩ := AnswerLoop.run_continues asks
          rw [same [answer]] at returns
          cases body : (Connect.loop { sock with sockfd := socket, ipaddr := address }
              ⟨afInet, sock.port, address⟩).body head answer with
          | again next =>
              rw [AnswerLoop.run_cons_again goes body] at returns
              simp [AnswerLoop.run, Connect.loop] at returns
          | leave last ret =>
              rw [AnswerLoop.run_cons_leave goes body] at returns
              simp only [Option.some.injEq] at returns
              obtain rfl : ret = .ok := by rw [← ok, ← returns]
              by_contra unconnected
              have failed : answer.ret < 0 :=
                Int.not_le.mp fun nonneg => unconnected (Or.inl nonneg)
              have notConnected : ¬ ncIsConnected answer.errno = true := Bool.false_ne_true
              simp only [Connect.loop, Connect.body, if_pos failed, if_neg notConnected] at body
              split_ifs at body <;> cases body
      · cases atWork

/-- A `connect` that has asked for no connection yet does not succeed. -/
theorem not_ok_of_unasked {sock : NcSocket} {socket : Int} {address : Option Nat}
    {outcome : Outcome} (returns : sock.connect ⟨socket, address, []⟩ = some outcome) :
    outcome.ret ≠ .ok := by
  unfold NcSocket.connect at returns
  by_cases zero : socket = 0
  · simp only [if_pos zero, Option.some.injEq] at returns
    simp [← returns]
  cases address with
  | none =>
      simp only [if_neg zero, Option.some.injEq] at returns
      simp [← returns]
  | some address => simp [zero, AnswerLoop.run, Connect.loop] at returns

/-! ### The socket that listens -/

end Rendezvous

/-- The descriptor of a `listen`. -/
def Action.listens : Action → Option Int
  | .listen fd _ _ => some fd
  | _ => none

/-- The program points up to `listen`. -/
def Pc.preparing : Pc → Bool
  | .socket | .checkArgs | .raise | .setReuse | .bind | .bindFailed _ | .listen => true
  | _ => false

/-- `listen` is called at one program point. -/
theorem Server.listens_issued (haveThreads : Bool) (server : Server) (answer : Answer) :
    (server.issued haveThreads answer).filterMap Action.listens =
      if server.pc = .listen then [server.listener.sockfd] else [] := by
  have silent : ∀ action : Action, action.onSocket = false → action.listens = none := by
    intro action elsewhere
    cases action <;> first | rfl | cases elsewhere
  cases pc : server.pc with
  | setReuse | bind | listen | setNonBlocking | receive => simp only [Server.issued, pc]; rfl
  | accept =>
      simp only [Server.issued, pc, reduceCtorEq, ↓reduceIte]
      split_ifs <;> rfl
  | _ => exact server.filterMap_elsewhere haveThreads answer silent (by rw [pc]; rfl)

/-- Whoever comes to `listen` has not called it. -/
theorem Server.preparing_before {haveThreads : Bool} {server : Server} {answer : Answer}
    (next : (server.startListening haveThreads answer).pc.preparing = true) :
    server.pc.preparing = true ∧ server.pc ≠ .listen := by
  revert next
  unfold Server.startListening Server.afterThread
  cases pc : server.pc <;> dsimp only <;> (try split_ifs) <;> simp_all [Pc.preparing]

/-- A call of `startListening` binds to its own port only, and makes one socket listen. -/
structure Server.ListensOnce (port : UInt16) (server : Server) : Prop where
  own : server.listener.port = port
  binds : ∀ fd other ret errno, .bind fd other ret errno ∈ server.actions → other = port
  once : (server.actions.filterMap Action.listens).length ≤ 1
  before : server.pc.preparing = true → server.actions.filterMap Action.listens = []

namespace Server.ListensOnce

variable {port : UInt16} {server : Server}

theorem start (listens : server.ListensOnce port) (haveThreads : Bool) (answer : Answer) :
    (server.startListening haveThreads answer).ListensOnce port := by
  have grown : (server.startListening haveThreads answer).actions.filterMap Action.listens =
      server.actions.filterMap Action.listens ++
        if server.pc = .listen then [server.listener.sockfd] else [] := by
    rw [Server.startListening_actions, List.filterMap_append, Server.listens_issued]
  constructor
  case own => exact (server.starts haveThreads answer).port.trans listens.own
  case binds =>
    intro fd other ret errno member
    rw [Server.startListening_actions] at member
    rcases List.mem_append.mp member with old | new
    · exact listens.binds fd other ret errno old
    · by_cases atBind : server.pc = .bind
      · rw [Server.issued, atBind] at new
        cases List.mem_singleton.mp new
        exact listens.own
      · have bound : fd ∈ (server.issued haveThreads answer).filterMap Action.binds :=
          List.mem_filterMap.mpr ⟨_, new, rfl⟩
        rw [server.no_bind_issued haveThreads answer atBind] at bound
        cases bound
  case once =>
    rw [grown]
    split_ifs with atListen
    · rw [listens.before (by rw [atListen]; rfl)]
      exact Nat.le_refl 1
    · rw [List.append_nil]
      exact listens.once
  case before =>
    intro next
    obtain ⟨preparing, notListen⟩ := Server.preparing_before next
    rw [grown, listens.before preparing, if_neg notListen, List.append_nil]

theorem stop (listens : server.ListensOnce port) : server.stopListening.ListensOnce port := by
  have stops := server.stops
  generalize server.stopListening = next at stops
  obtain ⟨more, grown, harmless⟩ := stops.actions
  have silent : more.filterMap Action.listens = [] := by
    apply List.filterMap_eq_nil_iff.mpr
    intro action member
    rcases harmless action member with rfl | rfl | rfl <;> rfl
  have same : next.actions.filterMap Action.listens =
      server.actions.filterMap Action.listens := by
    rw [grown, List.filterMap_append, silent, List.append_nil]
  constructor
  case own => exact stops.port.trans listens.own
  case binds =>
    intro fd other ret errno member
    rw [grown] at member
    rcases List.mem_append.mp member with old | new
    · exact listens.binds fd other ret errno old
    · rcases harmless _ new with impossible | impossible | impossible <;> cases impossible
  case once =>
    rw [same]
    exact listens.once
  case before =>
    intro preparing
    rw [stops.pc] at preparing
    rw [same]
    exact listens.before preparing

theorem step (listens : server.ListensOnce port) (haveThreads : Bool) (event : Event) :
    ((threads haveThreads).step server event).ListensOnce port := by
  cases event with
  | start answer => exact listens.start haveThreads answer
  | stop => exact listens.stop

theorem begin (listener : NcSocketListener) (args : Arguments) (stopper : StopPc) :
    (Server.begin listener args stopper).ListensOnce listener.port where
  own := rfl
  binds := fun _ _ _ _ member => absurd member List.not_mem_nil
  once := Nat.zero_le 1
  before := fun _ => rfl

/-- Two sockets that have been made to listen are one. -/
theorem same (listens : server.ListensOnce port) {fd other : Int}
    (member : fd ∈ server.actions.filterMap Action.listens)
    (another : other ∈ server.actions.filterMap Action.listens) : fd = other := by
  have once := listens.once
  cases log : server.actions.filterMap Action.listens with
  | nil =>
      rw [log] at member
      cases member
  | cons first rest =>
      rw [log] at member another once
      obtain rfl : rest = [] := List.eq_nil_of_length_eq_zero (by simpa using once)
      rw [List.mem_singleton.mp member, List.mem_singleton.mp another]

/-- A socket that listens does so on the port of the listener. -/
theorem own_port (listens : server.ListensOnce port) {other : UInt16} {fd : Int}
    (there : ListensOn other server.actions fd) :
    other = port ∧ fd ∈ server.actions.filterMap Action.listens := by
  obtain ⟨earlier, later, split, ⟨ret, errno, backlog, result, calls, -, -⟩, -, -⟩ := there
  have logged : ∀ action ∈ [Action.bind fd other ret errno, .listen fd backlog result],
      action ∈ server.actions := by
    intro action member
    rw [split]
    exact List.mem_append_right _ (calls.subset member)
  constructor
  · exact listens.binds fd other ret errno (logged _ (by simp))
  · exact List.mem_filterMap.mpr ⟨_, logged (.listen fd backlog result) (by simp), rfl⟩

end Server.ListensOnce

/-- The log only grows. -/
theorem Server.grows (haveThreads : Bool) (server : Server) (event : Event) :
    server.actions <+: ((threads haveThreads).step server event).actions := by
  cases event with
  | start answer => exact ⟨_, (server.startListening_actions haveThreads answer).symm⟩
  | stop =>
      obtain ⟨more, grown, -⟩ := server.stops.actions
      exact ⟨more, grown.symm⟩

namespace Rendezvous

variable {Name : Type u}

/-! ### The invariant -/

/-- The client has dialled the port of the listener, whose socket listened there. -/
def Reached (plan : Plan Name) (meeting : Rendezvous Name) (name : Name) (fd : Int) : Prop :=
  (plan.sock name).socktype = socktypeTcpip ∧ (plan.sock name).port = plan.listener.port ∧
    ∃ before, before <+: meeting.server.actions ∧ ListensOn plan.listener.port before fd

/-- The one socket that clients are connected to. The listener has accepted the oldest
connections. -/
structure Backlog (plan : Plan Name) (meeting : Rendezvous Name) (fd : Int) : Prop where
  others : ∀ other, other ≠ fd → meeting.queue other = .empty
  belongs : List.Forall₂ (Belongs plan) meeting.clients (meeting.queue fd).received

/-- Each client that was told of a connection has one, and the connections are in the queue
of the one socket that listens. -/
structure Sound (plan : Plan Name) (meeting : Rendezvous Name) : Prop where
  told : ∀ name outcome, meeting.outcome plan name = some outcome → outcome.ret = .ok →
    ∃ fd, meeting.link name = .established fd
  queued : ∀ fd name, name ∈ (meeting.queue fd).sent ↔ meeting.link name = .established fd
  reached : ∀ name fd, meeting.link name = .established fd → meeting.Reached plan name fd
  listens : meeting.server.ListensOnce plan.listener.port
  backlog : ∃ fd, meeting.Backlog plan fd
  hands : Hands plan.haveThreads plan.args meeting.server meeting.clients

variable {plan : Plan Name} {meeting : Rendezvous Name} {name : Name}

/-- A socket with a connection is the one that listens. -/
theorem Sound.listening (sound : meeting.Sound plan) {fd : Int}
    (sent : name ∈ (meeting.queue fd).sent) :
    fd ∈ meeting.server.actions.filterMap Action.listens := by
  obtain ⟨-, -, before, earlier, there⟩ :=
    sound.reached name fd ((sound.queued fd name).mp sent)
  obtain ⟨_, later, split, ⟨_, _, backlog, result, calls, -, -⟩, -, -⟩ := there
  apply (earlier.filterMap _).subset
  rw [split]
  exact List.mem_filterMap.mpr
    ⟨.listen fd backlog result, List.mem_append_right _ (calls.subset (by simp)), rfl⟩

/-! ### Steps of the listener -/

/-- Nobody's connection is lost when one is accepted. -/
theorem sent_dequeue (meeting : Rendezvous Name) (event : Event) (fd : Int) :
    (meeting.dequeue event fd).sent = (meeting.queue fd).sent := by
  unfold dequeue
  cases accepts meeting.server event with
  | none => rfl
  | some _ =>
      dsimp only
      by_cases here : fd = meeting.server.listener.sockfd
      · rw [here, Function.update_self]
        rfl
      · rw [Function.update_of_ne here]

/-- What was accepted stays accepted. -/
theorem received_dequeue (meeting : Rendezvous Name) (event : Event) (fd : Int) :
    (meeting.queue fd).received <+: (meeting.dequeue event fd).received := by
  unfold dequeue
  cases accepts meeting.server event with
  | none => exact List.prefix_refl _
  | some _ =>
      dsimp only
      by_cases here : fd = meeting.server.listener.sockfd
      · rw [here, Function.update_self]
        exact List.prefix_append ..
      · rw [Function.update_of_ne here]

/-- What the listener accepts is the oldest connection. -/
theorem Backlog.serve {fd : Int} (backlog : meeting.Backlog plan fd) {event : Event}
    (offers : meeting.Offers plan event) : (meeting.serve plan event).Backlog plan fd := by
  cases accepted : accepts meeting.server event with
  | none =>
      have same : (meeting.serve plan event).queue = meeting.queue := by
        simp only [Rendezvous.serve, dequeue, accepted]
      refine ⟨fun other apart => ?_, ?_⟩
      · rw [same]
        exact backlog.others other apart
      · rw [same]
        simpa [Rendezvous.serve, accepted] using backlog.belongs
  | some sock =>
      cases event with
      | stop => cases accepted
      | start answer =>
          have takes : meeting.server.pc = .accept ∧ answer.ret ≠ -1 := by
            by_contra not
            rw [accepts, if_neg not] at accepted
            cases accepted
          obtain ⟨-, first, rest, oldest, address⟩ := offers takes.1 takes.2
          rw [accepts, if_pos takes] at accepted
          obtain rfl := Option.some.inj accepted
          obtain rfl : meeting.server.listener.sockfd = fd := by
            by_contra apart
            rw [backlog.others _ apart] at oldest
            cases oldest
          have queues : (meeting.serve plan (.start answer)).queue = Function.update meeting.queue
              meeting.server.listener.sockfd
              ((meeting.queue meeting.server.listener.sockfd).receive 1) := by
            simp only [Rendezvous.serve, dequeue, accepts, if_pos takes]
          refine ⟨fun other apart => ?_, ?_⟩
          · rw [queues, Function.update_of_ne apart]
            exact backlog.others other apart
          · have here : Belongs plan (clientSocket answer) first := by
              rw [Belongs, clientSocket, address]
              rfl
            rw [queues, Function.update_self]
            simp only [Rendezvous.serve, accepts, if_pos takes, Option.toList_some,
              Channel.receive, oldest, List.take_succ_cons, List.take_zero]
            exact List.rel_append backlog.belongs (.cons here .nil)

theorem Sound.hands_serve (sound : meeting.Sound plan) {event : Event}
    (offers : meeting.Offers plan event) :
    Hands plan.haveThreads plan.args (meeting.serve plan event).server
      (meeting.serve plan event).clients := by
  cases event with
  | stop =>
      show Hands _ _ meeting.server.stopListening (meeting.clients ++ [])
      rw [List.append_nil]
      exact sound.hands.stop
  | start answer =>
      refine sound.hands.start plan.starts fun atAccept succeeds => ?_
      obtain ⟨other, first, rest, -, address⟩ := offers atAccept succeeds
      rw [address]
      exact ⟨plan.whole first, other⟩

theorem Sound.serve (sound : meeting.Sound plan) {event : Event}
    (offers : meeting.Offers plan event) : (meeting.serve plan event).Sound plan := by
  have grows := Server.grows plan.haveThreads meeting.server event
  constructor
  case told => exact sound.told
  case queued =>
    intro fd name
    rw [← show meeting.link = (meeting.serve plan event).link from rfl, ← sound.queued fd name]
    exact iff_of_eq (congrArg (name ∈ ·) (meeting.sent_dequeue event fd))
  case reached =>
    intro name fd established
    obtain ⟨stream, dialled, before, earlier, there⟩ := sound.reached name fd established
    exact ⟨stream, dialled, before, earlier.trans grows, there⟩
  case listens => exact sound.listens.step plan.haveThreads event
  case backlog =>
    obtain ⟨fd, backlog⟩ := sound.backlog
    exact ⟨fd, backlog.serve offers⟩
  case hands => exact sound.hands_serve offers

/-! ### Steps of the clients and of the kernel -/

variable [DecidableEq Name]

/-- What a client hears. -/
theorem Sound.tell (sound : meeting.Sound plan) {answers : ConnectAnswers}
    (connected : ∀ outcome, (plan.sock name).connect answers = some outcome →
      outcome.ret = .ok → ∃ fd, meeting.link name = .established fd) :
    (meeting.tell name answers).Sound plan where
  told := by
    intro other outcome returns ok
    by_cases same : other = name
    · subst same
      have here : (meeting.tell other answers).outcome plan other =
          (plan.sock other).connect answers := by
        simp [Rendezvous.outcome, Rendezvous.tell]
      rw [here] at returns
      exact connected outcome returns ok
    · have here : (meeting.tell name answers).outcome plan other =
          meeting.outcome plan other := by
        simp [Rendezvous.outcome, Rendezvous.tell, same]
      rw [here] at returns
      exact sound.told other outcome returns ok
  queued := sound.queued
  reached := sound.reached
  listens := sound.listens
  backlog := sound.backlog.imp fun _ backlog => ⟨backlog.others, backlog.belongs⟩
  hands := sound.hands

/-- What the kernel does with a connection that is not established yet. -/
theorem Sound.relink (sound : meeting.Sound plan) {link : Link}
    (before : ∀ fd, meeting.link name ≠ .established fd) (after : ∀ fd, link ≠ .established fd) :
    (meeting.relink name link).Sound plan := by
  have same : ∀ other fd, (meeting.relink name link).link other = .established fd ↔
      meeting.link other = .established fd := by
    intro other fd
    by_cases here : other = name
    · subst here
      simp [Rendezvous.relink, before, after]
    · simp [Rendezvous.relink, here]
  constructor
  case told => exact fun other outcome returns ok =>
    (sound.told other outcome returns ok).imp fun fd => (same other fd).mpr
  case queued => exact fun fd other => (sound.queued fd other).trans (same other fd).symm
  case reached =>
    intro other fd established
    exact sound.reached other fd ((same other fd).mp established)
  case listens => exact sound.listens
  case backlog => exact sound.backlog.imp fun _ backlog => ⟨backlog.others, backlog.belongs⟩
  case hands => exact sound.hands

/-- A connection that is established is not accepted yet. -/
theorem received_establish (meeting : Rendezvous Name) (name : Name) (fd other : Int) :
    ((meeting.establish name fd).queue other).received = (meeting.queue other).received := by
  by_cases same : other = fd
  · rw [same]
    simp only [Rendezvous.establish, Function.update_self]
    rfl
  · simp only [Rendezvous.establish, Function.update_of_ne same]

/-- The queue of the socket that listens is the only one. -/
theorem Sound.backlog_establish (sound : meeting.Sound plan) {fd : Int}
    (there : ListensOn (plan.sock name).port meeting.server.actions fd) :
    (meeting.establish name fd).Backlog plan fd := by
  obtain ⟨old, others, belongs⟩ := sound.backlog
  have unused : old ≠ fd → meeting.queue old = .empty := by
    intro apart
    apply Channel.eq_empty_of_sent
    apply List.eq_nil_iff_forall_not_mem.mpr
    intro client sent
    exact apart (sound.listens.same (sound.listening sent) (sound.listens.own_port there).2)
  constructor
  case others =>
    intro other apart
    have same : (meeting.establish name fd).queue other = meeting.queue other :=
      Function.update_of_ne apart _ _
    rw [same]
    by_cases before : other = old
    · rw [before]
      exact unused (before ▸ apart)
    · exact others other before
  case belongs =>
    rw [meeting.received_establish name fd fd]
    by_cases same : old = fd
    · rw [← same]
      exact belongs
    · rw [unused same] at belongs
      rw [others fd (Ne.symm same)]
      exact belongs

theorem Sound.establish (sound : meeting.Sound plan) {fd : Int}
    (asked : meeting.link name = .asked) (stream : (plan.sock name).socktype = socktypeTcpip)
    (there : ListensOn (plan.sock name).port meeting.server.actions fd) :
    (meeting.establish name fd).Sound plan := by
  have here : (meeting.establish name fd).link name = .established fd :=
    Function.update_self _ _ _
  have elsewhere : ∀ other, other ≠ name →
      (meeting.establish name fd).link other = meeting.link other :=
    fun other apart => Function.update_of_ne apart _ _
  have notYet : ∀ old, name ∉ (meeting.queue old).sent := by
    intro old
    rw [sound.queued, asked]
    exact Link.noConfusion
  have sent : ∀ other, ((meeting.establish name fd).queue other).sent =
      if other = fd then (meeting.queue fd).sent ++ [name] else (meeting.queue other).sent := by
    intro other
    split_ifs with same
    · rw [same]
      simp only [Rendezvous.establish, Function.update_self]
      rfl
    · simp only [Rendezvous.establish, Function.update_of_ne same]
  constructor
  case told =>
    intro other outcome returns ok
    by_cases same : other = name
    · rw [same]
      exact ⟨fd, here⟩
    · rw [elsewhere other same]
      exact sound.told other outcome returns ok
  case queued =>
    intro old other
    rw [sent]
    by_cases same : other = name
    · rw [same, here, Link.established.injEq]
      split_ifs with there
      · simp [there]
      · exact iff_of_false (notYet old) (Ne.symm there)
    · rw [elsewhere other same, ← sound.queued old other]
      split_ifs with there
      · simp [there, same]
      · rfl
  case reached =>
    intro other old established
    by_cases same : other = name
    · rw [same] at established ⊢
      obtain rfl : fd = old := Link.established.inj (here.symm.trans established)
      have port := (sound.listens.own_port there).1
      exact ⟨stream, port, _, List.prefix_refl _, port ▸ there⟩
    · rw [elsewhere other same] at established
      exact sound.reached other old established
  case listens => exact sound.listens
  case backlog => exact ⟨fd, sound.backlog_establish there⟩
  case hands => exact sound.hands

theorem sound_of_reachable (reachable : (machine plan).Reachable meeting) :
    meeting.Sound plan := by
  apply reachable.invariant (Sound plan)
  · rintro first ⟨unheard, unasked, empty, begins, nobody⟩
    constructor
    case told =>
      intro name outcome returns
      simp [Rendezvous.outcome, unheard name] at returns
    case queued =>
      intro fd name
      rw [empty, unasked name]
      exact iff_of_false List.not_mem_nil Link.noConfusion
    case reached =>
      intro name fd established
      rw [unasked name] at established
      cases established
    case listens =>
      rw [begins]
      exact .begin plan.listener plan.args plan.stopper
    case backlog =>
      refine ⟨0, fun other _ => empty other, ?_⟩
      rw [empty, nobody]
      exact .nil
    case hands =>
      rw [begins, nobody]
      exact Hands.begin plan.haveThreads plan.args plan.stopper plan.tcp
  · intro before after _ sound step
    cases step with
    | dials name socket address new =>
        exact sound.tell fun outcome returns ok => absurd ok (not_ok_of_unasked returns)
    | asks name answers here atWork opened first =>
        exact sound.relink (by simp [first]) fun _ => Link.noConfusion
    | establishes name fd asked stream listens => exact sound.establish asked stream listens
    | refuses name asked => exact sound.relink (by simp [asked]) fun _ => Link.noConfusion
    | hears name answers here atWork answer honest =>
        exact sound.tell fun outcome returns ok => honest (connected_of_ok atWork returns ok)
    | serves event offers => exact sound.serve offers

end Rendezvous

/-- In every reachable state there is one socket that all connections are queued on. A client
whose `connect` has returned `NC_OK` has a connection in this queue, it has dialled the port
of the listener, and there was a moment (when the connection was established) at which the
socket was bound to this port and listened on it. The sockets that the listener has accepted
stand for the oldest connections in the order in which these were established, each with the
address of its client, and they are handed over: all of them, or all but the last one, which
is about to be or has been closed. The build has threads or the option does not ask for them,
the kernel establishes connections to listening sockets only, and `accept` takes the oldest
one. -/
theorem connections_served {Name : Type u} [DecidableEq Name] (plan : Rendezvous.Plan Name)
    (meeting : Rendezvous Name) (reachable : (Rendezvous.machine plan).Reachable meeting) :
    ∃ fd, (∀ other, other ≠ fd → meeting.queue other = .empty) ∧
      (∀ name outcome, meeting.outcome plan name = some outcome → outcome.ret = .ok →
        name ∈ (meeting.queue fd).sent ∧ meeting.Reached plan name fd) ∧
      (meeting.queue fd).received <+: (meeting.queue fd).sent ∧
      List.Forall₂ (Rendezvous.Belongs plan) meeting.clients (meeting.queue fd).received ∧
      Handed meeting.server meeting.clients := by
  have sound := Rendezvous.sound_of_reachable reachable
  obtain ⟨fd, backlog⟩ := sound.backlog
  refine ⟨fd, backlog.others, fun name outcome returns ok => ?_,
    ⟨_, (meeting.queue fd).conserved⟩, backlog.belongs, sound.hands.phase.handed⟩
  obtain ⟨own, established⟩ := sound.told name outcome returns ok
  have sent := (sound.queued own name).mpr established
  obtain rfl : own = fd := by
    by_contra apart
    rw [backlog.others own apart] at sent
    cases sent
  exact ⟨sent, sound.reached name own established⟩

/-- Two clients of a listener on port 80 that calls `fnptr` itself. -/
def twoClientsOf80 : Rendezvous.Plan Bool where
  sock := fun first => .ofHost (if first then [97] else [98]) 80 socktypeTcpip
  address := fun first =>
    [2, 0, 0, if first then 70 else 71, 127, 0, 0, 1, 0, 0, 0, 0, 0, 0, 0, 0]
  whole := fun _ => rfl
  haveThreads := true
  listener := .make 80 socktypeTcpip
  tcp := rfl
  args := ⟨true, ncNonthreaded, ncJoined⟩
  starts := Or.inl rfl
  stopper := .begin

/-- One of them connects in its second attempt and is handed over. -/
theorem oneConnection : ∃ meeting, (Rendezvous.machine twoClientsOf80).Reachable meeting ∧
    (∃ outcome, meeting.outcome twoClientsOf80 true = some outcome ∧ outcome.ret = .ok ∧
      outcome.sock.sockfd = 4) ∧
    (meeting.queue 7).received = [true] ∧ meeting.server.actions.filterMap Action.hands =
      [{ NcSocket.ofSockfd 5 with ipaddr := 16777343 }] := by
  have quiet : (Rendezvous.machine twoClientsOf80).Reachable
      ⟨fun _ => none, fun _ => .unasked, fun _ => .empty,
        .begin twoClientsOf80.listener twoClientsOf80.args .begin, []⟩ :=
    .start ⟨fun _ => rfl, fun _ => rfl, fun _ => rfl, rfl, rfl⟩
  have dialled := quiet.tail (.dials true 4 (some 16777343) rfl)
  have asked := dialled.tail (.asks true _ rfl rfl (by decide) rfl)
  have waiting := asked.tail
    (.hears true _ rfl rfl ⟨-1, .einprogress⟩ fun connected => absurd connected (by decide))
  have created := waiting.tail (.serves (.start (.value 7)) fun next => Pc.noConfusion next)
  have checked := created.tail (.serves (.start (.value 0)) fun next => Pc.noConfusion next)
  have raised := checked.tail (.serves (.start (.value 0)) fun next => Pc.noConfusion next)
  have bound := raised.tail (.serves (.start (.value 0)) fun next => Pc.noConfusion next)
  have listens := bound.tail (.serves (.start (.value 0)) fun next => Pc.noConfusion next)
  have unblocked := listens.tail (.serves (.start (.value 0)) fun next => Pc.noConfusion next)
  have established := unblocked.tail (.establishes true 7 rfl rfl
    ⟨[.socket sockStream 7], [.bind 7 80 0 (.other 0), .listen 7 16 0, .setNonBlocking 7], rfl,
      ⟨0, .other 0, 16, 0, by decide, by decide, by decide⟩, by decide, by decide⟩)
  have connected := established.tail (.hears true _ rfl rfl ⟨0, .other 0⟩ fun _ => ⟨7, rfl⟩)
  have tested := connected.tail (.serves (.start (.value 0)) fun next => Pc.noConfusion next)
  have accepted := tested.tail (.serves
    (.start { Answer.value 5 with address := twoClientsOf80.address true })
    fun _ _ => ⟨by decide, true, [], rfl, rfl⟩)
  have handed := accepted.tail (.serves (.start (.value 0)) fun next => Pc.noConfusion next)
  exact ⟨_, handed, ⟨_, rfl, rfl, rfl⟩, rfl, by decide⟩

theorem connections_served_oneConnection : ∃ (meeting : Rendezvous Bool) (fd : Int),
    (∀ other, other ≠ fd → meeting.queue other = .empty) ∧
      (true ∈ (meeting.queue fd).sent ∧ meeting.Reached twoClientsOf80 true fd) ∧
      (meeting.queue fd).received <+: (meeting.queue fd).sent ∧
      List.Forall₂ (Rendezvous.Belongs twoClientsOf80) meeting.clients
        (meeting.queue fd).received ∧
      Handed meeting.server meeting.clients := by
  obtain ⟨meeting, reachable, ⟨outcome, returns, ok, -⟩, -⟩ := oneConnection
  obtain ⟨fd, others, told, rest⟩ := connections_served twoClientsOf80 meeting reachable
  exact ⟨meeting, fd, others, told true outcome returns ok, rest⟩

end NetClass.Listener
