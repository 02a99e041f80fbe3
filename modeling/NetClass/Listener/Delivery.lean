import NetClass.Listener.Datagrams

/-!
Contract: what the UDP loop tells the callback, against what has arrived.

Owns: the datagrams that arrive at a listener, what the callback is to be told of each, and
the exact runs in which it is told this.

Does **not** own: receives that fail; see `NetClass.Listener.Datagrams`.

`udpData` is constructed with `client`, which only the TCP loop assigns. In the UDP loop it
is still 0.
-/

set_option autoImplicit false

namespace NetClass.Listener

open NetClass.Socket

/-! ### Datagrams -/

/-- A datagram with the descriptor on which it arrives. -/
structure Datagram where
  sockfd : Int
  sender : List UInt8
  payload : List UInt8
  whole : sender.length = sizeofSockaddrIn
deriving DecidableEq, Repr

/-- What a `recvfrom` that succeeds is called on and answers. -/
structure Arrival where
  sockfd : Int
  size : Int
  address : List UInt8
  bytes : List UInt8
deriving DecidableEq, Repr

/-- The kernel cuts a payload off that does not fit the buffer. -/
def Datagram.arrival (datagram : Datagram) : Arrival :=
  { sockfd := datagram.sockfd
    size := (min datagram.payload.length maxDgramBufLen : Nat)
    address := datagram.sender
    bytes := datagram.payload.take maxDgramBufLen }

/-- What the callback is to be told of a datagram. -/
def Datagram.expected (datagram : Datagram) : UdpData :=
  { sockfd := datagram.sockfd
    length := (min datagram.payload.length maxDgramBufLen : Nat)
    clientaddr := datagram.sender
    data := datagram.payload.take maxDgramBufLen }

/-- The receive of an entry of the history, if it is one. -/
def arrives : Server × Event → Option Arrival
  | (server, .start answer) =>
      if server.pc = .receive then
        some ⟨server.listener.sockfd, answer.ret, answer.address, answer.bytes⟩
      else none
  | (_, .stop) => none

/-- Of all that has arrived, what the callback has been told of. At `deliver` the callback for
the last arrival is still to come. -/
def told {Item : Type} (server : Server) (all : List Item) : List Item :=
  if server.pc = .deliver then all.dropLast else all

/-- What the callback is told of an arrival. -/
def reported (arrival : Arrival) : UdpData :=
  .make 0 arrival.address (dgramBuffer arrival.bytes) arrival.size

theorem reported_arrival (datagram : Datagram) :
    reported datagram.arrival = { datagram.expected with sockfd := 0 } := by
  have small : min datagram.payload.length maxDgramBufLen ≤ maxDgramBufLen :=
    Nat.min_le_right _ _
  have length : UdpData.dgramLength (min datagram.payload.length maxDgramBufLen : Nat) =
      (min datagram.payload.length maxDgramBufLen : Nat) := by
    unfold UdpData.dgramLength
    split_ifs with less
    · rfl
    · exact le_antisymm (Int.not_lt.mp less) (by exact_mod_cast small)
  have copied : UdpData.copyLength (min datagram.payload.length maxDgramBufLen : Nat) =
      min datagram.payload.length maxDgramBufLen := by
    rw [copyLength_of_size (Int.natCast_nonneg _) (by exact_mod_cast small), Int.toNat_natCast]
  have data : (dgramBuffer (datagram.payload.take maxDgramBufLen)).take
      (min datagram.payload.length maxDgramBufLen) = datagram.payload.take maxDgramBufLen := by
    have size : (datagram.payload.take maxDgramBufLen).length =
        min datagram.payload.length maxDgramBufLen := by
      rw [List.length_take, Nat.min_comm]
    rw [dgramBuffer, List.take_take, Nat.min_eq_left small, ← size, List.take_left]
  simp only [reported, Datagram.arrival, Datagram.expected, UdpData.make, length, copied, data]

/-! ### The invariant -/

/-- The program points that only a TCP listener comes to. -/
def Pc.ofTcp : Pc → Bool
  | .listen | .setNonBlocking | .acceptTest | .accept | .spawn | .release | .call
  | .acceptAgain => true
  | _ => false

/-- Nothing of an earlier datagram or of the other branch reaches the callback. -/
structure Tells (server : Server) (history : List (Server × Event)) : Prop where
  udp : server.listener.socktype = socktypeUdp
  offTcp : server.pc.ofTcp = false
  client : server.locals.client = 0
  cliLen : server.locals.cliLen = sizeofSockaddrIn
  clientaddr : server.locals.clientaddr.length = sizeofSockaddrIn
  delivered : server.actions.filterMap Action.delivers =
    (told server (history.filterMap arrives)).map reported
  pending : server.pc = .deliver → ∃ earlier last, history.filterMap arrives = earlier ++ [last] ∧
    UdpData.make server.locals.client server.locals.clientaddr server.locals.buf
      server.locals.datasize = reported last

/-- The receive succeeds, and the kernel stores a whole address. -/
def WholeReceive (server : Server) : Event → Prop
  | .start answer =>
      server.pc = .receive → answer.ret ≠ -1 ∧ answer.address.length = sizeofSockaddrIn
  | .stop => True

theorem Tells.begin {listener : NcSocketListener} (udp : listener.socktype = socktypeUdp)
    (args : Arguments) (stopper : StopPc) : Tells (.begin listener args stopper) [] where
  udp := udp
  offTcp := rfl
  client := rfl
  cliLen := rfl
  clientaddr := rfl
  delivered := rfl
  pending := fun again => Pc.noConfusion again

section Step

variable {haveThreads : Bool} {server : Server} {history : List (Server × Event)}
variable {answer : Answer}

/-- An entry that is no receive. -/
theorem arrives_other (history : List (Server × Event)) {entry : Server × Event}
    (other : arrives entry = none) :
    (history ++ [entry]).filterMap arrives = history.filterMap arrives := by
  rw [List.filterMap_append, List.filterMap_cons_none other, List.filterMap_nil, List.append_nil]

theorem arrives_start (notReceive : server.pc ≠ .receive) :
    arrives (server, .start answer) = none := if_neg notReceive

/-- What the other steps leave alone. -/
theorem Server.start_udp (haveThreads : Bool) (answer : Answer)
    (udp : server.listener.socktype = socktypeUdp) (offTcp : server.pc.ofTcp = false)
    (notReceive : server.pc ≠ .receive) :
    (server.startListening haveThreads answer).pc.ofTcp = false ∧
      (server.startListening haveThreads answer).locals.client = server.locals.client ∧
      (server.startListening haveThreads answer).locals.cliLen = server.locals.cliLen ∧
      (server.startListening haveThreads answer).locals.clientaddr = server.locals.clientaddr := by
  have bound : server.afterBind.ofTcp = false := by
    rw [Server.afterBind, udp]
    decide
  unfold Server.startListening
  cases pc : server.pc <;> rw [pc] at offTcp <;> dsimp only
  case receive => exact absurd pc notReceive
  case bind =>
    split_ifs
    · exact ⟨rfl, rfl, rfl, rfl⟩
    · exact ⟨bound, rfl, rfl, rfl⟩
  case bindFailed errno =>
    split_ifs
    · exact ⟨rfl, rfl, rfl, rfl⟩
    · exact ⟨bound, rfl, rfl, rfl⟩
    · exact ⟨rfl, rfl, rfl, rfl⟩
    · exact ⟨bound, rfl, rfl, rfl⟩
  case returned ret =>
    rw [pc]
    exact ⟨rfl, rfl, rfl, rfl⟩
  case listen | setNonBlocking | acceptTest | accept | spawn | release | call | acceptAgain =>
    cases offTcp
  all_goals (try split_ifs) <;> exact ⟨rfl, rfl, rfl, rfl⟩

theorem Tells.receive (tells : Tells server history) (atReceive : server.pc = .receive)
    (whole : WholeReceive server (.start answer)) :
    Tells (server.startListening haveThreads answer) (history ++ [(server, .start answer)]) := by
  obtain ⟨succeeds, address⟩ := whole atReceive
  have here : arrives (server, .start answer) =
      some ⟨server.listener.sockfd, answer.ret, answer.address, answer.bytes⟩ := if_pos atReceive
  have arrivals : (history ++ [(server, Event.start answer)]).filterMap arrives =
      history.filterMap arrives ++
        [⟨server.listener.sockfd, answer.ret, answer.address, answer.bytes⟩] := by
    rw [List.filterMap_append, List.filterMap_cons_some here, List.filterMap_nil]
  have stored : storeAddress server.locals.clientaddr server.locals.cliLen answer.address =
      answer.address := by
    rw [tells.cliLen]
    exact storeAddress_whole tells.clientaddr address
  have next : server.startListening haveThreads answer =
      { server with
        pc := .deliver
        actions := server.actions ++ [.recvfrom server.listener.sockfd answer.ret]
        locals := { server.locals with
          datasize := answer.ret
          buf := dgramBuffer answer.bytes
          clientaddr := answer.address
          cliLen := answer.address.length } } := by
    simp only [Server.startListening, atReceive, if_neg succeeds, Server.issue_locals, stored]
    rfl
  rw [next]
  constructor
  case udp => exact tells.udp
  case offTcp => rfl
  case client => exact tells.client
  case cliLen => exact address
  case clientaddr => exact address
  case delivered =>
    have before := tells.delivered
    rw [told, if_neg (by simp [atReceive])] at before
    rw [told, if_pos rfl, arrivals, List.dropLast_concat, ← before, List.filterMap_append]
    exact List.append_nil _
  case pending =>
    intro _
    refine ⟨_, _, arrivals, ?_⟩
    show UdpData.make server.locals.client _ _ _ = _
    rw [tells.client]
    rfl

theorem Tells.deliver (tells : Tells server history) (atDeliver : server.pc = .deliver) :
    Tells (server.startListening haveThreads answer) (history ++ [(server, .start answer)]) := by
  have notReceive : server.pc ≠ .receive := by simp [atDeliver]
  obtain ⟨offTcp, client, cliLen, clientaddr⟩ :=
    Server.start_udp haveThreads answer tells.udp tells.offTcp notReceive
  obtain ⟨earlier, last, arrivals, same⟩ := tells.pending atDeliver
  have starts := server.starts haveThreads answer
  have next : (server.startListening haveThreads answer).pc = .receiveAgain := by
    simp [Server.startListening, atDeliver]
  have away : (server.startListening haveThreads answer).pc ≠ .deliver := by simp [next]
  have issued : server.issued haveThreads answer = [.deliver (reported last)] := by
    rw [Server.issued, atDeliver]
    exact congrArg (fun datagram => [Action.deliver datagram]) same
  constructor
  case udp => rw [starts.socktype, tells.udp]
  case offTcp => exact offTcp
  case client => rw [client, tells.client]
  case cliLen => rw [cliLen, tells.cliLen]
  case clientaddr => rw [clientaddr, tells.clientaddr]
  case delivered =>
    have before := tells.delivered
    rw [told, if_pos atDeliver, arrivals, List.dropLast_concat] at before
    rw [told, if_neg away, arrives_other history (arrives_start notReceive), arrivals,
      Server.startListening_actions, issued, List.filterMap_append, before, List.map_append]
    rfl
  case pending => exact fun again => absurd again away

/-- Any other step leaves what has arrived and what has been delivered alone. -/
theorem Tells.other (tells : Tells server history) (notReceive : server.pc ≠ .receive)
    (notDeliver : server.pc ≠ .deliver) :
    Tells (server.startListening haveThreads answer) (history ++ [(server, .start answer)]) := by
  obtain ⟨offTcp, client, cliLen, clientaddr⟩ :=
    Server.start_udp haveThreads answer tells.udp tells.offTcp notReceive
  have starts := server.starts haveThreads answer
  have away : (server.startListening haveThreads answer).pc ≠ .deliver :=
    fun next => notReceive (Server.receive_before next)
  have silent := readsOnly_delivers.append_silent server.actions
    (server.datagrams_issued haveThreads answer notReceive notDeliver)
  constructor
  case udp => rw [starts.socktype, tells.udp]
  case offTcp => exact offTcp
  case client => rw [client, tells.client]
  case cliLen => rw [cliLen, tells.cliLen]
  case clientaddr => rw [clientaddr, tells.clientaddr]
  case delivered =>
    have before := tells.delivered
    rw [told, if_neg notDeliver] at before
    rw [told, if_neg away, arrives_other history (arrives_start notReceive),
      Server.startListening_actions, silent, before]
  case pending => exact fun again => absurd again away

theorem Tells.start (tells : Tells server history)
    (whole : WholeReceive server (.start answer)) :
    Tells (server.startListening haveThreads answer) (history ++ [(server, .start answer)]) := by
  by_cases atReceive : server.pc = .receive
  · exact tells.receive atReceive whole
  · by_cases atDeliver : server.pc = .deliver
    · exact tells.deliver atDeliver
    · exact tells.other atReceive atDeliver

theorem Tells.stop (tells : Tells server history) :
    Tells server.stopListening (history ++ [(server, .stop)]) := by
  have stops := server.stops
  generalize server.stopListening = next at stops
  obtain ⟨more, grown, silent⟩ : ∃ more, next.actions = server.actions ++ more ∧
      more.filter Action.ofDatagram = [] :=
    stops.silent (fun _ => rfl) (fun _ _ => rfl) (fun _ => rfl)
  have arrivals : (history ++ [(server, Event.stop)]).filterMap arrives =
      history.filterMap arrives := arrives_other history rfl
  constructor
  case udp => rw [stops.socktype, tells.udp]
  case offTcp => rw [stops.pc, tells.offTcp]
  case client => rw [stops.locals, tells.client]
  case cliLen => rw [stops.locals, tells.cliLen]
  case clientaddr => rw [stops.locals, tells.clientaddr]
  case delivered =>
    rw [grown, readsOnly_delivers.append_silent _ silent, tells.delivered, arrivals, told,
      told, stops.pc]
  case pending =>
    rw [stops.pc, stops.locals, arrivals]
    exact tells.pending

end Step

/-! ### Whole runs -/

/-- The run lemma. -/
theorem Tells.run (haveThreads : Bool) {listener : NcSocketListener}
    (udp : listener.socktype = socktypeUdp) (args : Arguments) (stopper : StopPc)
    {events : List Event}
    (whole : (threads haveThreads).Meets WholeReceive (.begin listener args stopper) events) :
    Tells ((threads haveThreads).run (.begin listener args stopper) events)
      ((threads haveThreads).trace (.begin listener args stopper) events) := by
  apply EventMachine.run_history Tells _ (.begin udp args stopper) whole
  intro server history event tells whole
  cases event with
  | start answer => exact tells.start whole
  | stop => exact tells.stop

/-- What datagrams answer is whole. -/
theorem wholeReceive_of_datagrams {haveThreads : Bool} {start : Server} {events : List Event}
    {datagrams : List Datagram}
    (arriving : ((threads haveThreads).trace start events).filterMap arrives =
      datagrams.map Datagram.arrival) :
    (threads haveThreads).Meets WholeReceive start events := by
  apply EventMachine.meets_of_trace
  rintro ⟨server, event⟩ member
  cases event with
  | stop => trivial
  | start answer =>
      intro atReceive
      have here : arrives (server, .start answer) =
          some ⟨server.listener.sockfd, answer.ret, answer.address, answer.bytes⟩ :=
        if_pos atReceive
      have arrival : (⟨server.listener.sockfd, answer.ret, answer.address, answer.bytes⟩ : Arrival)
          ∈ datagrams.map Datagram.arrival := by
        rw [← arriving]
        exact List.mem_filterMap.mpr ⟨_, member, here⟩
      obtain ⟨datagram, -, same⟩ := List.mem_map.mp arrival
      obtain ⟨-, size, address, -⟩ := Arrival.mk.inj same
      rw [← size, ← address]
      exact ⟨by omega, datagram.whole⟩

/-- The callback is told of every datagram, in the order of their arrival, what it is to be
told exactly if each of them has arrived on descriptor 0. -/
theorem tells_datagrams_iff (haveThreads : Bool) (listener : NcSocketListener)
    (udp : listener.socktype = socktypeUdp) (args : Arguments) (stopper : StopPc)
    (events : List Event) (datagrams : List Datagram)
    (arriving : ((threads haveThreads).trace (.begin listener args stopper) events).filterMap
      arrives = datagrams.map Datagram.arrival) :
    let server := (threads haveThreads).run (.begin listener args stopper) events
    server.actions.filterMap Action.delivers = (told server datagrams).map Datagram.expected ↔
      ∀ datagram ∈ told server datagrams, datagram.sockfd = 0 := by
  intro server
  have tells := Tells.run haveThreads udp args stopper (wholeReceive_of_datagrams arriving)
  have delivered : server.actions.filterMap Action.delivers =
      (told server datagrams).map fun datagram => reported datagram.arrival := by
    rw [tells.delivered, arriving, told, told]
    split_ifs
    · rw [← List.map_dropLast, List.map_map]
      rfl
    · rw [List.map_map]
      rfl
  rw [delivered, List.map_inj_left]
  refine forall₂_congr fun datagram _ => ?_
  rw [reported_arrival]
  constructor
  · intro same
    exact (congrArg UdpData.sockfd same).symm
  · intro zero
    rw [← zero]
    rfl

/-- Two bytes from port 80 of 127.0.0.1. -/
def greeting (sockfd : Int) : Datagram where
  sockfd := sockfd
  sender := [2, 0, 0, 80, 127, 0, 0, 1, 0, 0, 0, 0, 0, 0, 0, 0]
  payload := [104, 105]
  whole := rfl

/-- What `recvfrom` answers to it. -/
def greeted : Answer :=
  { Answer.value 2 with address := (greeting 7).sender, bytes := (greeting 7).payload }

/-- The greeting arrives, and the callback is still to come. -/
theorem tells_datagrams_iff_waiting :
    let server := (threads true).run
      (.begin (.make 80 socktypeUdp) ⟨true, ncNonthreaded, ncJoined⟩ .begin)
      [.start (.value 7), .start (.value 0), .start (.value 0), .start (.value 0),
        .start (.value 0), .start greeted]
    server.actions.filterMap Action.delivers = (told server [greeting 7]).map Datagram.expected ↔
      ∀ datagram ∈ told server [greeting 7], datagram.sockfd = 0 :=
  tells_datagrams_iff true (.make 80 socktypeUdp) rfl ⟨true, ncNonthreaded, ncJoined⟩ .begin
    _ [greeting 7] rfl

/-- The callback is told that the greeting has arrived on descriptor 0. It has arrived on
descriptor 7. -/
theorem tells_wrong_descriptor : ∃ events,
    ((threads true).trace (.begin (.make 80 socktypeUdp) ⟨true, ncNonthreaded, ncJoined⟩ .begin)
      events).filterMap arrives = [greeting 7].map Datagram.arrival ∧
    ((threads true).run (.begin (.make 80 socktypeUdp) ⟨true, ncNonthreaded, ncJoined⟩ .begin)
      events).actions.filterMap Action.delivers = [{ (greeting 7).expected with sockfd := 0 }] ∧
    (greeting 7).expected.sockfd = 7 :=
  ⟨[.start (.value 7), .start (.value 0), .start (.value 0), .start (.value 0),
    .start (.value 0), .start greeted, .start (.value 0)], rfl, rfl, rfl⟩

end NetClass.Listener
