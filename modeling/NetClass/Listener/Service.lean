import NetClass.Listener.Rendezvous
import NetClass.Socket.Session

/-!
Contract: clients that connect to a listener and exchange messages with its callbacks.

Owns: the system put together from the connects, the listener and one session for each
connection, and the proof that a callback reads what was written by the client whose address
its `ncSocket` carries, and the client what this callback has written, each on the descriptor
that it got for this connection.

Does **not** own: the parts of the system; see `NetClass.Listener.Rendezvous` and
`NetClass.Socket.Session`. The left side of a session is the client.
-/

set_option autoImplicit false

namespace NetClass.Listener

open NetClass.Socket

universe u

/-- The connects and the listener, and what is said over each connection. -/
structure Service.Plan (Name : Type u) where
  meeting : Rendezvous.Plan Name
  session : Name → Session.Plan

structure Service (Name : Type u) where
  meeting : Rendezvous Name
  sessions : Name → Session

/-- The sockets that the listener has handed over. -/
def Rendezvous.handed {Name : Type u} (meeting : Rendezvous Name) : List NcSocket :=
  meeting.server.actions.filterMap Action.hands

theorem getElem?_of_isPrefix {Item : Type u} {items more : List Item} (grows : items <+: more)
    {place : Nat} {item : Item} (here : items[place]? = some item) :
    more[place]? = some item := by
  obtain ⟨within, rfl⟩ := List.getElem?_eq_some_iff.mp here
  exact List.prefix_iff_getElem?.mp grows place within

namespace Service

variable {Name : Type u}

/-- The `connect` of the client has returned `NC_OK`, with the descriptor that the client
transfers on. -/
def Connected (plan : Plan Name) (meeting : Rendezvous Name) (name : Name) : Prop :=
  ∃ outcome, meeting.outcome plan.meeting name = some outcome ∧ outcome.ret = .ok ∧
    outcome.sock.sockfd = (plan.session name).sockfd .left

/-- The connection of the client has been accepted, and its socket is handed over. The
callback transfers on the descriptor of this socket. -/
def Served (plan : Plan Name) (meeting : Rendezvous Name) (name : Name) : Prop :=
  ∃ (fd : Int) (place : Nat) (sock : NcSocket),
    (meeting.queue fd).received[place]? = some name ∧ meeting.handed[place]? = some sock ∧
      sock.sockfd = (plan.session name).sockfd .right

variable [DecidableEq Name]

/-- A client transfers when it is connected, and a callback when it has its socket. -/
inductive Step (plan : Plan Name) (service : Service Name) : Service Name → Prop where
  | meets (meeting : Rendezvous Name) (step : service.meeting.Step plan.meeting meeting) :
      Step plan service { service with meeting := meeting }
  | talks (name : Name) (session : Session)
      (step : (service.sessions name).Step (plan.session name) session)
      (client : session.peers .left ≠ (service.sessions name).peers .left →
        Connected plan service.meeting name)
      (callback : session.peers .right ≠ (service.sessions name).peers .right →
        Served plan service.meeting name) :
      Step plan service
        { service with sessions := Function.update service.sessions name session }

def machine (plan : Plan Name) : Machine (Service Name) where
  initial := fun service => (Rendezvous.machine plan.meeting).initial service.meeting ∧
    ∀ name, (Session.machine (plan.session name)).initial (service.sessions name)
  step := Step plan

/-! ### The parts of the system -/

variable {plan : Plan Name} {service : Service Name}

section Kept

variable {meeting next : Rendezvous Name} {name : Name}

/-- A `connect` that has returned hears no more answers. -/
theorem Connected.kept (connected : Connected plan meeting name)
    (step : meeting.Step plan.meeting next) : Connected plan next name := by
  obtain ⟨outcome, returns, ok, own⟩ := connected
  refine ⟨outcome, ?_, ok, own⟩
  have told : ∀ other answers, (∀ answers, meeting.heard other = some answers →
      (plan.meeting.sock other).connect answers = none) →
      (meeting.tell other answers).outcome plan.meeting name = some outcome := by
    intro other answers atWork
    by_cases same : name = other
    · subst same
      obtain ⟨heard, here, returned⟩ := Option.bind_eq_some_iff.mp returns
      rw [atWork heard here] at returned
      cases returned
    · have here : (meeting.tell other answers).outcome plan.meeting name =
          meeting.outcome plan.meeting name := by
        simp [Rendezvous.outcome, Rendezvous.tell, same]
      rw [here]
      exact returns
  cases step with
  | dials other socket address new =>
      exact told other _ fun answers here => by simp [new] at here
  | asks other answers here atWork opened first => exact returns
  | establishes other fd asked stream listens => exact returns
  | refuses other asked => exact returns
  | hears other answers here atWork answer honest =>
      refine told other _ fun answers' here' => ?_
      obtain rfl : answers = answers' := Option.some.inj (here.symm.trans here')
      exact atWork
  | serves event offers => exact returns

/-- What was accepted and what was handed over stays so. -/
theorem Served.kept (served : Served plan meeting name)
    (step : meeting.Step plan.meeting next) : Served plan next name := by
  obtain ⟨fd, place, sock, accepted, handed, own⟩ := served
  cases step with
  | dials other socket address new => exact ⟨fd, place, sock, accepted, handed, own⟩
  | asks other answers here atWork opened first => exact ⟨fd, place, sock, accepted, handed, own⟩
  | establishes other listening asked stream listens =>
      have received : ((meeting.establish other listening).queue fd).received =
          (meeting.queue fd).received := meeting.received_establish other listening fd
      exact ⟨fd, place, sock, received ▸ accepted, handed, own⟩
  | refuses other asked => exact ⟨fd, place, sock, accepted, handed, own⟩
  | hears other answers here atWork answer honest =>
      exact ⟨fd, place, sock, accepted, handed, own⟩
  | serves event offers =>
      have grows := Server.grows plan.meeting.haveThreads meeting.server event
      exact ⟨fd, place, sock,
        getElem?_of_isPrefix (meeting.received_dequeue event fd) accepted,
        getElem?_of_isPrefix (grows.filterMap Action.hands) handed, own⟩

end Kept

/-- Whoever has begun to talk was allowed to. -/
structure Talking (plan : Plan Name) (service : Service Name) (name : Name) : Prop where
  client : (service.sessions name).peers .left ≠ .idle → Connected plan service.meeting name
  callback : (service.sessions name).peers .right ≠ .idle →
    Served plan service.meeting name

theorem Talking.meets {meeting : Rendezvous Name} {name : Name}
    (talking : service.Talking plan name) (step : service.meeting.Step plan.meeting meeting) :
    ({ service with meeting := meeting } : Service Name).Talking plan name where
  client := fun talks => (talking.client talks).kept step
  callback := fun talks => (talking.callback talks).kept step

theorem Talking.talks {name here : Name} (talking : service.Talking plan name)
    {session : Session}
    (client : session.peers .left ≠ (service.sessions here).peers .left →
      Connected plan service.meeting here)
    (callback : session.peers .right ≠ (service.sessions here).peers .right →
      Served plan service.meeting here) :
    ({ service with sessions := Function.update service.sessions here session } :
      Service Name).Talking plan name := by
  by_cases same : name = here
  · subst same
    have now : ({ service with sessions := Function.update service.sessions name session } :
        Service Name).sessions name = session := Function.update_self ..
    constructor
    · intro talks
      by_cases quiet : session.peers .left = (service.sessions name).peers .left
      · exact talking.client (by rwa [now, quiet] at talks)
      · exact client quiet
    · intro talks
      by_cases quiet : session.peers .right = (service.sessions name).peers .right
      · exact talking.callback (by rwa [now, quiet] at talks)
      · exact callback quiet
  · have before : ({ service with sessions := Function.update service.sessions here session } :
        Service Name).sessions name = service.sessions name := Function.update_of_ne same ..
    constructor
    · intro talks
      exact talking.client (by rwa [before] at talks)
    · intro talks
      exact talking.callback (by rwa [before] at talks)

/-- The sockets are handed over in the order in which they were accepted. -/
theorem handed_isPrefix {server : Server} {clients : List NcSocket}
    (handed : Handed server clients) : server.actions.filterMap Action.hands <+: clients := by
  cases handed with
  | all _ dealt => exact dealt.hands ▸ List.prefix_rfl
  | next earlier last coming dealt => exact dealt.hands ▸ List.prefix_append ..
  | refused earlier last failed dealt closed => exact dealt.hands ▸ List.prefix_append ..

omit [DecidableEq Name] in
/-- The socket that a client is served with carries its address. -/
theorem Served.belongs {meeting : Rendezvous Name} {name : Name}
    (served : Served plan meeting name) (sound : meeting.Sound plan.meeting) :
    ∃ sock ∈ meeting.handed, Rendezvous.Belongs plan.meeting sock name ∧
      sock.sockfd = (plan.session name).sockfd .right := by
  obtain ⟨fd, place, sock, accepted, handed, own⟩ := served
  obtain ⟨busy, backlog⟩ := sound.backlog
  obtain rfl : fd = busy := by
    by_contra apart
    rw [backlog.others fd apart] at accepted
    cases accepted
  have client : meeting.clients[place]? = some sock :=
    getElem?_of_isPrefix (handed_isPrefix sound.hands.phase.handed) handed
  refine ⟨sock, List.mem_of_getElem? handed, ?_, own⟩
  obtain ⟨within, here⟩ := List.getElem?_eq_some_iff.mp client
  obtain ⟨within', here'⟩ := List.getElem?_eq_some_iff.mp accepted
  have belongs := backlog.belongs.get within within'
  rwa [List.get_eq_getElem, List.get_eq_getElem, here, here'] at belongs

end Service

/-- The client that `oneConnection` is about writes two bytes and its callback one. -/
def answered : Service.Plan Bool where
  meeting := twoClientsOf80
  session := fun _ => exchange

end NetClass.Listener
