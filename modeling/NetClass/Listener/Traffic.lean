import NetClass.Library.Machine
import NetClass.Listener.Delivery
import NetClass.Socket.UdpWrite

/-!
Contract: any number of `ncSocket`s that send datagrams to one `ncSocketListener`.

Owns: the system of the senders, the network and the listener, and the proof that whatever
the network loses, repeats or reorders, the callback is told of messages that were sent as
they are, each under the address of its sender.

Does **not** own: receives in the order of arrival; see `NetClass.Listener.Delivery`.

A receive may fail. The callback is then invoked too, for a datagram of length -1.
-/

set_option autoImplicit false

namespace NetClass.Listener

open NetClass.Socket

universe u

/-- Who sends, from where, and the call of `startListening`. -/
structure Plan (Name : Type u) where
  build : Name → Build
  address : Name → List UInt8
  whole : ∀ name, (address name).length = sizeofSockaddrIn
  haveThreads : Bool
  listener : NcSocketListener
  udp : listener.socktype = socktypeUdp
  args : Arguments
  stopper : StopPc

/-- The senders, every datagram that has been sent so far, and the listener. -/
structure Traffic (Name : Type u) where
  senders : Name → Sender
  network : List (Name × List UInt8)
  server : Server

section System

variable {Name : Type u}

/-- A message on its way to the descriptor of the listener. -/
def Plan.datagram (plan : Plan Name) (sockfd : Int) (entry : Name × List UInt8) : Datagram where
  sockfd := sockfd
  sender := plan.address entry.1
  payload := entry.2
  whole := plan.whole entry.1

/-- What the callback is told of a message. -/
def Plan.tells (plan : Plan Name) (entry : Name × List UInt8) : UdpData :=
  (plan.datagram 0 entry).expected

namespace Traffic

/-- The kernel lets a receive fail or answers it with any datagram that has been sent. -/
def Offers (plan : Plan Name) (traffic : Traffic Name) : Event → Prop
  | .start answer =>
      traffic.server.pc = .receive → answer.ret = -1 ∨ ∃ entry ∈ traffic.network,
        arrives (traffic.server, .start answer) =
          some (plan.datagram traffic.server.listener.sockfd entry).arrival
  | .stop => True

variable [DecidableEq Name]

/-- A sender does something on its own. -/
def act (traffic : Traffic Name) (name : Name) (sender : Sender) : Traffic Name :=
  { traffic with senders := Function.update traffic.senders name sender }

/-- A `sendto` takes the bytes at its pointer. -/
def send (traffic : Traffic Name) (plan : Plan Name) (name : Name) (message : List UInt8)
    (activity : Activity) (answer : TransferAnswer) : Traffic Name where
  senders := Function.update traffic.senders name
    ((traffic.senders name).transfer (plan.build name) message activity answer)
  network := traffic.network ++ if answer.ret = -1 then [] else
    [(name, Memory.window (Network.source message) activity.locals.pPtr answer.ret.toNat)]
  server := traffic.server

def serve (traffic : Traffic Name) (plan : Plan Name) (event : Event) : Traffic Name :=
  { traffic with server := (threads plan.haveThreads).step traffic.server event }

inductive Step (plan : Plan Name) (traffic : Traffic Name) : Traffic Name → Prop where
  | acts (name : Name) (sender : Sender)
      (step : (traffic.senders name).Step (plan.build name) sender) :
      Step plan traffic (traffic.act name sender)
  | sends (name : Name) (message : List UInt8) (activity : Activity)
      (here : (traffic.senders name).activity = some (message, activity))
      (ready : activity.ready = true) (answer : TransferAnswer)
      (whole : WholeSend activity.locals answer)
      (works : ¬ (plan.build name).Blocks .write answer) :
      Step plan traffic (traffic.send plan name message activity answer)
  | serves (event : Event) (offers : traffic.Offers plan event) :
      Step plan traffic (traffic.serve plan event)

/-- Nothing has been sent, and `startListening` is called. -/
def machine (plan : Plan Name) : Machine (Traffic Name) where
  initial := fun traffic => (∀ name, traffic.senders name = .idle) ∧ traffic.network = [] ∧
    traffic.server = .begin plan.listener plan.args plan.stopper
  step := Step plan

/-- The messages of one sender on the network. -/
def sentBy (traffic : Traffic Name) (name : Name) : List (List UInt8) :=
  (traffic.network.filter fun entry => entry.1 = name).map Prod.snd

end Traffic

end System

/-! ### The invariant of the listener -/

/-- The datagram stands for a receive that has failed, or it is known. -/
def Genuine (known : UdpData → Prop) (datagram : UdpData) : Prop :=
  datagram.length = -1 ∨ known datagram

/-- The callback is told of nothing but genuine datagrams. -/
structure Listens (known : UdpData → Prop) (server : Server) : Prop where
  udp : server.listener.socktype = socktypeUdp
  offTcp : server.pc.ofTcp = false
  client : server.locals.client = 0
  cliLen : server.locals.cliLen = sizeofSockaddrIn
  clientaddr : server.locals.clientaddr.length = sizeofSockaddrIn
  delivered : ∀ datagram ∈ server.actions.filterMap Action.delivers, Genuine known datagram
  pending : server.pc = .deliver → Genuine known (.make server.locals.client
    server.locals.clientaddr server.locals.buf server.locals.datasize)

namespace Listens

variable {known : UdpData → Prop} {haveThreads : Bool} {server : Server} {answer : Answer}

theorem begin {listener : NcSocketListener} (udp : listener.socktype = socktypeUdp)
    (args : Arguments) (stopper : StopPc) : Listens known (.begin listener args stopper) where
  udp := udp
  offTcp := rfl
  client := rfl
  cliLen := rfl
  clientaddr := rfl
  delivered := by simp [Server.begin]
  pending := fun again => Pc.noConfusion again

theorem mono (listens : Listens known server) {more : UdpData → Prop}
    (still : ∀ datagram, known datagram → more datagram) : Listens more server where
  udp := listens.udp
  offTcp := listens.offTcp
  client := listens.client
  cliLen := listens.cliLen
  clientaddr := listens.clientaddr
  delivered := fun datagram member =>
    (listens.delivered datagram member).imp_right (still datagram)
  pending := fun atDeliver => (listens.pending atDeliver).imp_right (still _)

theorem delivers_receive (actions : List Action) (fd size : Int) :
    (actions ++ [Action.recvfrom fd size]).filterMap Action.delivers =
      actions.filterMap Action.delivers := by
  rw [List.filterMap_append]
  exact List.append_nil _

/-- A receive that fails leaves the address alone. -/
theorem receive_failed (listens : Listens known server) (atReceive : server.pc = .receive)
    (failed : answer.ret = -1) : Listens known (server.startListening haveThreads answer) := by
  have next : server.startListening haveThreads answer =
      { server with
        pc := .deliver
        actions := server.actions ++ [.recvfrom server.listener.sockfd answer.ret]
        locals := { server.locals with datasize := answer.ret, buf := dgramBuffer [] } } := by
    simp only [Server.startListening, atReceive, if_pos failed]
    rfl
  rw [next]
  constructor
  case udp => exact listens.udp
  case offTcp => rfl
  case client => exact listens.client
  case cliLen => exact listens.cliLen
  case clientaddr => exact listens.clientaddr
  case delivered =>
    rw [delivers_receive]
    exact listens.delivered
  case pending =>
    intro _
    left
    rw [failed]
    rfl

theorem receive (listens : Listens known server) (atReceive : server.pc = .receive)
    {datagram : Datagram} (here : arrives (server, .start answer) = some datagram.arrival)
    (knows : known { datagram.expected with sockfd := 0 }) :
    Listens known (server.startListening haveThreads answer) := by
  have arrival : (⟨server.listener.sockfd, answer.ret, answer.address, answer.bytes⟩ : Arrival) =
      datagram.arrival := by
    rw [arrives, if_pos atReceive] at here
    exact Option.some.inj here
  obtain ⟨-, size, address, bytes⟩ := Arrival.mk.inj arrival
  have succeeds : answer.ret ≠ -1 := by omega
  have whole : answer.address.length = sizeofSockaddrIn := by
    rw [address]
    exact datagram.whole
  have stored : storeAddress server.locals.clientaddr server.locals.cliLen answer.address =
      answer.address := by
    rw [listens.cliLen]
    exact storeAddress_whole listens.clientaddr whole
  have next : server.startListening haveThreads answer =
      { server with
        pc := .deliver
        actions := server.actions ++ [.recvfrom server.listener.sockfd answer.ret]
        locals := { server.locals with
          datasize := answer.ret
          buf := dgramBuffer answer.bytes
          clientaddr := answer.address
          cliLen := answer.address.length } } := by
    simp only [Server.startListening, atReceive, if_neg succeeds, Server.issue_locals, stored]
    rfl
  rw [next]
  constructor
  case udp => exact listens.udp
  case offTcp => rfl
  case client => exact listens.client
  case cliLen => exact whole
  case clientaddr => exact whole
  case delivered =>
    rw [delivers_receive]
    exact listens.delivered
  case pending =>
    intro _
    right
    have same := reported_arrival datagram
    rw [← arrival] at same
    rw [← same] at knows
    show known (UdpData.make server.locals.client _ _ _)
    rw [listens.client]
    exact knows

theorem deliver (listens : Listens known server) (atDeliver : server.pc = .deliver) :
    Listens known (server.startListening haveThreads answer) := by
  have notReceive : server.pc ≠ .receive := by simp [atDeliver]
  obtain ⟨offTcp, client, cliLen, clientaddr⟩ :=
    Server.start_udp haveThreads answer listens.udp listens.offTcp notReceive
  have starts := server.starts haveThreads answer
  have next : (server.startListening haveThreads answer).pc = .receiveAgain := by
    simp [Server.startListening, atDeliver]
  have issued : server.issued haveThreads answer =
      [.deliver (.make server.locals.client server.locals.clientaddr server.locals.buf
        server.locals.datasize)] := by
    rw [Server.issued, atDeliver]
  constructor
  case udp => rw [starts.socktype, listens.udp]
  case offTcp => exact offTcp
  case client => rw [client, listens.client]
  case cliLen => rw [cliLen, listens.cliLen]
  case clientaddr => rw [clientaddr, listens.clientaddr]
  case delivered =>
    intro datagram member
    rw [Server.startListening_actions, issued, List.filterMap_append] at member
    rcases List.mem_append.mp member with old | new
    · exact listens.delivered datagram old
    · obtain rfl := List.mem_singleton.mp new
      exact listens.pending atDeliver
  case pending =>
    rw [next]
    exact fun again => Pc.noConfusion again

/-- Any other step leaves the datagrams alone. -/
theorem other (listens : Listens known server) (notReceive : server.pc ≠ .receive)
    (notDeliver : server.pc ≠ .deliver) :
    Listens known (server.startListening haveThreads answer) := by
  obtain ⟨offTcp, client, cliLen, clientaddr⟩ :=
    Server.start_udp haveThreads answer listens.udp listens.offTcp notReceive
  have starts := server.starts haveThreads answer
  have silent := readsOnly_delivers.append_silent server.actions
    (server.datagrams_issued haveThreads answer notReceive notDeliver)
  constructor
  case udp => rw [starts.socktype, listens.udp]
  case offTcp => exact offTcp
  case client => rw [client, listens.client]
  case cliLen => rw [cliLen, listens.cliLen]
  case clientaddr => rw [clientaddr, listens.clientaddr]
  case delivered =>
    rw [Server.startListening_actions, silent]
    exact listens.delivered
  case pending => exact fun next => absurd (Server.receive_before next) notReceive

theorem stop (listens : Listens known server) : Listens known server.stopListening := by
  have stops := server.stops
  generalize server.stopListening = next at stops
  obtain ⟨more, grown, silent⟩ : ∃ more, next.actions = server.actions ++ more ∧
      more.filter Action.ofDatagram = [] :=
    stops.silent (fun _ => rfl) (fun _ _ => rfl) (fun _ => rfl)
  constructor
  case udp => rw [stops.socktype, listens.udp]
  case offTcp => rw [stops.pc, listens.offTcp]
  case client => rw [stops.locals, listens.client]
  case cliLen => rw [stops.locals, listens.cliLen]
  case clientaddr => rw [stops.locals, listens.clientaddr]
  case delivered =>
    rw [grown, readsOnly_delivers.append_silent _ silent]
    exact listens.delivered
  case pending =>
    rw [stops.pc, stops.locals]
    exact listens.pending

end Listens

/-! ### The invariant of the system -/

namespace Traffic

variable {Name : Type u} [DecidableEq Name] {plan : Plan Name} {traffic next : Traffic Name}

/-- The message is on the network. -/
def Known (plan : Plan Name) (network : List (Name × List UInt8)) (datagram : UdpData) : Prop :=
  ∃ entry ∈ network, datagram = plan.tells entry

/-- The network holds what the senders know to be sent, and the listener tells of nothing
else. -/
structure Sound (plan : Plan Name) (traffic : Traffic Name) : Prop where
  senders : ∀ name, (traffic.senders name).Sound
  posted : ∀ name, traffic.sentBy name = (traffic.senders name).posted
  listens : Listens (Known plan traffic.network) traffic.server

theorem Sound.acts (sound : traffic.Sound plan) {name : Name} {sender : Sender}
    (step : (traffic.senders name).Step (plan.build name) sender) :
    (traffic.act name sender).Sound plan := by
  obtain ⟨kept, posted⟩ := step.sound (sound.senders name)
  refine ⟨fun other => ?_, fun other => ?_, sound.listens⟩
  · by_cases same : other = name
    · subst same
      simpa [act] using kept
    · simpa [act, same] using sound.senders other
  · by_cases same : other = name
    · subst same
      simpa [act, sentBy, posted] using sound.posted other
    · simpa [act, sentBy, same] using sound.posted other

theorem Sound.sends (sound : traffic.Sound plan) {name : Name} {message : List UInt8}
    {activity : Activity} (here : (traffic.senders name).activity = some (message, activity))
    (ready : activity.ready = true) {answer : TransferAnswer}
    (whole : WholeSend activity.locals answer)
    (works : ¬ (plan.build name).Blocks .write answer) :
    (traffic.send plan name message activity answer).Sound plan := by
  obtain ⟨kept, posted, place⟩ := (sound.senders name).transfer here ready whole works
  have sent : (if answer.ret = -1 then [] else
      [(name, Memory.window (Network.source message) activity.locals.pPtr answer.ret.toNat)]) =
        if answer.ret = -1 then [] else [(name, message)] := by
    split_ifs with failed
    · rfl
    · obtain ⟨start, size⟩ := place failed
      rw [start, size, Int.toNat_natCast, Network.source, Memory.window_store_same]
  have grown : (traffic.send plan name message activity answer).network =
      traffic.network ++ if answer.ret = -1 then [] else [(name, message)] :=
    congrArg (traffic.network ++ ·) sent
  refine ⟨fun other => ?_, fun other => ?_, sound.listens.mono ?_⟩
  · by_cases same : other = name
    · subst same
      simpa [send] using kept
    · simpa [send, same] using sound.senders other
  · rw [sentBy, grown, List.filter_append, List.map_append]
    have before := sound.posted other
    rw [sentBy] at before
    rw [before]
    by_cases same : other = name
    · subst same
      show _ = (Function.update traffic.senders other _ other).posted
      rw [Function.update_self, posted]
      split_ifs <;> simp
    · show _ = (Function.update traffic.senders name _ other).posted
      rw [Function.update_of_ne same]
      split_ifs <;> simp [Ne.symm same]
  · rintro datagram ⟨entry, member, same⟩
    refine ⟨entry, ?_, same⟩
    rw [grown]
    exact List.mem_append_left _ member

theorem Sound.serves (sound : traffic.Sound plan) {event : Event}
    (offers : traffic.Offers plan event) : (traffic.serve plan event).Sound plan := by
  refine ⟨sound.senders, sound.posted, ?_⟩
  cases event with
  | stop => exact sound.listens.stop
  | start answer =>
      show Listens _ (traffic.server.startListening plan.haveThreads answer)
      by_cases atReceive : traffic.server.pc = .receive
      · rcases offers atReceive with failed | ⟨entry, member, arrives⟩
        · exact sound.listens.receive_failed atReceive failed
        · exact sound.listens.receive atReceive arrives ⟨entry, member, rfl⟩
      · by_cases atDeliver : traffic.server.pc = .deliver
        · exact sound.listens.deliver atDeliver
        · exact sound.listens.other atReceive atDeliver

theorem sound_of_reachable (reachable : (machine plan).Reachable traffic) :
    traffic.Sound plan := by
  apply reachable.invariant (Sound plan)
  · rintro first ⟨idle, quiet, begins⟩
    refine ⟨fun name => ?_, fun name => ?_, ?_⟩
    · rw [idle name]
      exact Sender.sound_idle
    · rw [idle name, sentBy, quiet]
      rfl
    · rw [begins]
      exact Listens.begin plan.udp plan.args plan.stopper
  · intro before after _ sound step
    cases step with
    | acts name sender step => exact sound.acts step
    | sends name message activity here ready answer whole works =>
        exact sound.sends here ready whole works
    | serves event offers => exact sound.serves offers

end Traffic

/-- In every reachable state each sender knows exactly what of its messages is on the
network, one datagram for each call that has sent it, and the callback has been told of
failed receives and of such messages only, cut to the length of the buffer and under the
address of their sender. The kernel takes a datagram whole or not at all, and no `sendto` of
a select build would block after `select` has reported the descriptor ready. -/
theorem traffic_delivery {Name : Type u} [DecidableEq Name] (plan : Plan Name)
    (traffic : Traffic Name) (reachable : (Traffic.machine plan).Reachable traffic) :
    (∀ name, traffic.sentBy name = (traffic.senders name).posted) ∧
      ∀ datagram ∈ traffic.server.actions.filterMap Action.delivers,
        datagram.length = -1 ∨ ∃ name, ∃ message ∈ (traffic.senders name).posted,
          datagram.clientaddr = plan.address name ∧
            datagram.length = (min message.length maxDgramBufLen : Nat) ∧
            datagram.data = message.take maxDgramBufLen := by
  have sound := Traffic.sound_of_reachable reachable
  refine ⟨sound.posted, fun datagram member => ?_⟩
  refine (sound.listens.delivered datagram member).imp_right ?_
  rintro ⟨⟨name, message⟩, there, rfl⟩
  refine ⟨name, message, ?_, rfl, rfl, rfl⟩
  rw [← sound.posted name]
  exact List.mem_map.mpr ⟨(name, message), List.mem_filter.mpr ⟨there, by simp⟩, rfl⟩

/-- Two senders, one of each build, at two ports of 127.0.0.1. -/
def twoSenders : Plan Bool where
  build := fun polls => if polls then .poll else .select
  address := fun polls =>
    [2, 0, 0, if polls then 80 else 81, 127, 0, 0, 1, 0, 0, 0, 0, 0, 0, 0, 0]
  whole := fun _ => rfl
  haveThreads := true
  listener := .make 80 socktypeUdp
  udp := rfl
  args := ⟨true, ncNonthreaded, ncJoined⟩
  stopper := .begin

/-- One of them sends two bytes, and the callback is told of them. -/
theorem oneMessage : ∃ traffic, (Traffic.machine twoSenders).Reachable traffic ∧
    (traffic.senders true).posted = [[104, 105]] ∧
    traffic.server.actions.filterMap Action.delivers =
      [⟨0, 2, twoSenders.address true, [104, 105]⟩] := by
  have quiet : (Traffic.machine twoSenders).Reachable
      ⟨fun _ => .idle, [], .begin twoSenders.listener twoSenders.args .begin⟩ :=
    .start ⟨fun _ => rfl, rfl, rfl⟩
  have writing := quiet.tail
    (.acts true _ (.begins { NcSocket.ofSockfd 5 with socktype := socktypeUdp } [104, 105] rfl
      (by decide)))
  have writable := writing.tail
    (.acts true _ (.goesOn _ _ _ rfl (.wakes rfl rfl ⟨1, pollOut, false⟩ _ rfl)))
  have sent := writable.tail
    (.sends true _ _ rfl rfl ⟨2, .other 0, []⟩ (by decide) (by decide))
  have created := sent.tail (.serves (.start (.value 7)) fun next => Pc.noConfusion next)
  have checked := created.tail (.serves (.start (.value 0)) fun next => Pc.noConfusion next)
  have raised := checked.tail (.serves (.start (.value 0)) fun next => Pc.noConfusion next)
  have bound := raised.tail (.serves (.start (.value 0)) fun next => Pc.noConfusion next)
  have tested := bound.tail (.serves (.start (.value 0)) fun next => Pc.noConfusion next)
  have received := tested.tail (.serves (.start
    { Answer.value 2 with address := twoSenders.address true, bytes := [104, 105] })
    fun _ => Or.inr ⟨(true, [104, 105]), by decide, by decide⟩)
  have told := received.tail (.serves (.start (.value 0)) fun next => Pc.noConfusion next)
  exact ⟨_, told, by decide, by decide⟩

theorem traffic_delivery_oneMessage : ∃ traffic : Traffic Bool,
    traffic.sentBy true = [[104, 105]] ∧
      ∃ datagram ∈ traffic.server.actions.filterMap Action.delivers,
        ∃ name, ∃ message ∈ (traffic.senders name).posted,
          datagram.clientaddr = twoSenders.address name ∧
            datagram.data = message.take maxDgramBufLen := by
  obtain ⟨traffic, reachable, posted, delivered⟩ := oneMessage
  obtain ⟨sent, tells⟩ := traffic_delivery twoSenders traffic reachable
  refine ⟨traffic, (sent true).trans posted, _, by rw [delivered]; exact List.mem_singleton_self _,
    ?_⟩
  rcases tells ⟨0, 2, twoSenders.address true, [104, 105]⟩ (by rw [delivered]; simp) with
    failed | ⟨name, message, member, address, -, data⟩
  · cases failed
  · exact ⟨name, message, member, address, data⟩

end NetClass.Listener
