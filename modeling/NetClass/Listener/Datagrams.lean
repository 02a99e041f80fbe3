import NetClass.Library.Precedence
import NetClass.Library.Reading
import NetClass.Listener.Setup

/-!
Contract: the UDP loop hands a datagram to the callback after each receive.

Owns: the lengths of these datagrams, the exact condition under which they are lengths,
and the proof for every interleaving with `stopListening`.

The loop does not look at the result of `recvfrom`. An error is a datagram of length -1,
and `memcpy` gets this length as a `size_t`.
-/

set_option autoImplicit false

namespace NetClass.Listener

open NetClass.Socket

/-- The result of a `recvfrom`. -/
def Action.receives : Action → Option Int
  | .recvfrom _ size => some size
  | _ => none

/-- The datagram that a callback is invoked with. -/
def Action.delivers : Action → Option UdpData
  | .deliver datagram => some datagram
  | _ => none

/-- The results of `recvfrom` that the loop has gone on from. At `deliver` the callback
for the last one is still to come. -/
def settledReceives (server : Server) : List Int :=
  if server.pc = .deliver then (server.actions.filterMap Action.receives).dropLast
  else server.actions.filterMap Action.receives

/-- The kernel returns -1 or a size that fits the buffer. -/
def HonestReceive (server : Server) : Event → Prop
  | .start answer =>
      server.pc = .receive →
        answer.ret = -1 ∨ (0 ≤ answer.ret ∧ answer.ret ≤ maxDgramBufLen)
  | .stop => True

/-- A length that fits the buffer, also as the `size_t` that `memcpy` gets. -/
def FitsBuffer (length : Int) : Prop :=
  0 ≤ length ∧ length ≤ maxDgramBufLen ∧ UdpData.copyLength length ≤ maxDgramBufLen

/-- The callback is invoked for receives that succeed only, and what it gets fits the
buffer. -/
structure Survives (log : List Action) : Prop where
  fits : ∀ datagram ∈ log.filterMap Action.delivers, FitsBuffer datagram.length
  successful : ∀ before datagram later, log = before ++ .deliver datagram :: later →
    ∃ size, (before.filterMap Action.receives).getLast? = some size ∧ size ≠ -1

/-! ### Lengths -/

theorem copyLength_of_size {size : Int} (nonneg : 0 ≤ size) (small : size ≤ maxDgramBufLen) :
    UdpData.copyLength size = size.toNat := by
  have bound : size ≤ 512 := small
  have same : size % 2 ^ 64 = size := Int.emod_eq_of_lt nonneg (by omega)
  rw [UdpData.copyLength, UInt64.ofInt, same, UInt64.toNat_ofNat']
  exact Nat.mod_eq_of_lt (by omega)

/-- What the kernel returns is a length that fits the buffer unless it is an error. -/
theorem fitsBuffer_iff {size : Int}
    (honest : size = -1 ∨ (0 ≤ size ∧ size ≤ maxDgramBufLen)) :
    FitsBuffer (UdpData.dgramLength size) ↔ size ≠ -1 := by
  rcases honest with rfl | ⟨nonneg, small⟩
  · apply iff_of_false
    · exact fun fits => absurd fits.1 (by decide)
    · exact fun other => other rfl
  · have same : UdpData.dgramLength size = size := by
      unfold UdpData.dgramLength
      split_ifs
      · rfl
      · omega
    rw [same]
    apply iff_of_true
    · refine ⟨nonneg, small, ?_⟩
      rw [copyLength_of_size nonneg small]
      omega
    · omega

/-! ### What a step adds -/

def Action.ofDatagram : Action → Bool
  | .recvfrom _ _ | .deliver _ => true
  | _ => false

theorem readsOnly_receives : ReadsOnly Action.ofDatagram Action.receives := by
  intro action other
  cases action <;> first | rfl | cases other

theorem readsOnly_delivers : ReadsOnly Action.ofDatagram Action.delivers := by
  intro action other
  cases action <;> first | rfl | cases other

/-- Only two program points are about datagrams. -/
theorem Server.datagrams_issued (haveThreads : Bool) {server : Server} (answer : Answer)
    (notReceive : server.pc ≠ .receive) (notDeliver : server.pc ≠ .deliver) :
    (server.issued haveThreads answer).filter Action.ofDatagram = [] := by
  have deletes : (server.locals.newSock.destroy.2.map Action.client).filter
      Action.ofDatagram = [] := filter_clients (fun _ => rfl) _
  unfold Server.issued NcThread.start NcThread.detach NcThread.join threadCall
  cases pc : server.pc <;> dsimp only
  case receive => exact absurd pc notReceive
  case deliver => exact absurd pc notDeliver
  case spawn => split_ifs <;> simp [Action.ofDatagram, deletes]
  all_goals (try split_ifs) <;> rfl

/-- Only a receive leads to a callback. -/
theorem Server.receive_before {haveThreads : Bool} {server : Server} {answer : Answer}
    (next : (server.startListening haveThreads answer).pc = .deliver) :
    server.pc = .receive := by
  revert next
  unfold Server.startListening Server.afterThread Server.afterBind
  cases pc : server.pc <;> dsimp only <;> (try split_ifs) <;> simp [pc]

/-! ### The invariant -/

/-- What a callback is justified by: the receive before it. -/
def Follows (before : List Action) (action : Action) : Prop :=
  ∀ datagram, action = .deliver datagram →
    ∃ size, (before.filterMap Action.receives).getLast? = some size ∧
      datagram.length = UdpData.dgramLength size

/-- The lengths are those of the receives. -/
structure Relays (server : Server) : Prop where
  lengths : (server.actions.filterMap Action.delivers).map UdpData.length =
    (settledReceives server).map UdpData.dgramLength
  pending : server.pc = .deliver →
    (server.actions.filterMap Action.receives).getLast? = some server.locals.datasize
  honest : ∀ size ∈ server.actions.filterMap Action.receives,
    size = -1 ∨ (0 ≤ size ∧ size ≤ maxDgramBufLen)
  follows : Justified Follows server.actions

/-- A step that is not about datagrams. -/
theorem Relays.silent {server next : Server} {more : List Action} (relays : Relays server)
    (grown : next.actions = server.actions ++ more)
    (silent : more.filter Action.ofDatagram = [])
    (coming : next.pc = .deliver ↔ server.pc = .deliver)
    (datasize : server.pc = .deliver → next.locals.datasize = server.locals.datasize) :
    Relays next := by
  have delivers := readsOnly_delivers.append_silent server.actions silent
  have receives := readsOnly_receives.append_silent server.actions silent
  rw [← grown] at delivers receives
  have settled : settledReceives next = settledReceives server := by
    simp only [settledReceives, coming, receives]
  constructor
  · rw [delivers, settled]
    exact relays.lengths
  · intro again
    have atDeliver := coming.mp again
    rw [receives, datasize atDeliver]
    exact relays.pending atDeliver
  · rw [receives]
    exact relays.honest
  · rw [grown]
    apply relays.follows.append
    rintro before action later rfl datagram rfl
    have member : .deliver datagram ∈
        (before ++ .deliver datagram :: later).filter Action.ofDatagram := by
      simp [Action.ofDatagram]
    rw [silent] at member
    cases member

section Start

variable {haveThreads : Bool} {server : Server} {answer : Answer}

theorem Relays.receive (relays : Relays server) (atReceive : server.pc = .receive)
    (honest : HonestReceive server (.start answer)) :
    Relays (server.startListening haveThreads answer) := by
  have next : (server.startListening haveThreads answer).pc = .deliver ∧
      (server.startListening haveThreads answer).locals.datasize = answer.ret := by
    simp only [Server.startListening, atReceive]
    split_ifs <;> exact ⟨rfl, rfl⟩
  have grown := Server.startListening_actions haveThreads server answer
  have issued : server.issued haveThreads answer =
      [.recvfrom server.listener.sockfd answer.ret] := by
    rw [Server.issued, atReceive]
  rw [issued] at grown
  have delivers : (server.startListening haveThreads answer).actions.filterMap Action.delivers =
      server.actions.filterMap Action.delivers := by
    rw [grown, List.filterMap_append]
    exact List.append_nil _
  have receives : (server.startListening haveThreads answer).actions.filterMap Action.receives =
      server.actions.filterMap Action.receives ++ [answer.ret] := by
    rw [grown, List.filterMap_append]
    rfl
  constructor
  · have lengths := relays.lengths
    rw [settledReceives, atReceive, if_neg (by simp)] at lengths
    rw [delivers, settledReceives, next.1, if_pos rfl, receives, List.dropLast_concat, lengths]
  · intro _
    rw [receives, next.2, List.getLast?_concat]
  · intro size member
    rw [receives] at member
    rcases List.mem_append.mp member with old | new
    · exact relays.honest size old
    · rw [List.mem_singleton.mp new]
      exact honest atReceive
  · rw [grown]
    apply relays.follows.append
    rintro before action later split datagram rfl
    have member : .deliver datagram ∈ [Action.recvfrom server.listener.sockfd answer.ret] := by
      simp [split]
    cases List.mem_singleton.mp member

theorem Relays.deliver (relays : Relays server) (atDeliver : server.pc = .deliver) :
    Relays (server.startListening haveThreads answer) := by
  have next : (server.startListening haveThreads answer).pc = .receiveAgain := by
    simp [Server.startListening, atDeliver]
  have grown := Server.startListening_actions haveThreads server answer
  have issued : server.issued haveThreads answer =
      [.deliver (.make server.locals.client server.locals.clientaddr server.locals.buf
        server.locals.datasize)] := by
    rw [Server.issued, atDeliver]
  rw [issued] at grown
  have delivers : (server.startListening haveThreads answer).actions.filterMap Action.delivers =
      server.actions.filterMap Action.delivers ++
        [.make server.locals.client server.locals.clientaddr server.locals.buf
          server.locals.datasize] := by
    rw [grown, List.filterMap_append]
    rfl
  have receives : (server.startListening haveThreads answer).actions.filterMap Action.receives =
      server.actions.filterMap Action.receives := by
    rw [grown, List.filterMap_append]
    exact List.append_nil _
  have pending := relays.pending atDeliver
  constructor
  · have lengths := relays.lengths
    rw [settledReceives, atDeliver, if_pos rfl] at lengths
    obtain ⟨earlier, whole⟩ := List.getLast?_eq_some_iff.mp pending
    rw [whole, List.dropLast_concat] at lengths
    rw [delivers, List.map_append, lengths, settledReceives, next, if_neg (by simp), receives,
      whole, List.map_append]
    rfl
  · intro again
    rw [next] at again
    cases again
  · rw [receives]
    exact relays.honest
  · rw [grown]
    apply relays.follows.append
    rintro before action later split datagram rfl
    cases before with
    | nil =>
        obtain rfl := Action.deliver.inj (List.cons.inj split).1
        rw [List.append_nil]
        exact ⟨_, pending, rfl⟩
    | cons first others => simp at split

theorem Relays.start (relays : Relays server)
    (honest : HonestReceive server (.start answer)) :
    Relays (server.startListening haveThreads answer) := by
  by_cases atReceive : server.pc = .receive
  · exact relays.receive atReceive honest
  · by_cases atDeliver : server.pc = .deliver
    · exact relays.deliver atDeliver
    · apply relays.silent (Server.startListening_actions haveThreads server answer)
        (server.datagrams_issued haveThreads answer atReceive atDeliver)
      · apply iff_of_false _ atDeliver
        exact fun next => atReceive (Server.receive_before next)
      · exact fun again => absurd again atDeliver

end Start

theorem Relays.stop {server : Server} (relays : Relays server) : Relays server.stopListening := by
  have stops := server.stops
  generalize server.stopListening = next at stops
  obtain ⟨more, grown, silent⟩ : ∃ more, next.actions = server.actions ++ more ∧
      more.filter Action.ofDatagram = [] :=
    stops.silent (fun _ => rfl) (fun _ _ => rfl) (fun _ => rfl)
  apply relays.silent grown silent
  · rw [stops.pc]
  · rw [stops.locals]
    exact fun _ => rfl

theorem Relays.begin (listener : NcSocketListener) (args : Arguments) (stopper : StopPc) :
    Relays (.begin listener args stopper) where
  lengths := rfl
  pending := fun again => Pc.noConfusion again
  honest := fun _ member => absurd member List.not_mem_nil
  follows := .nil

/-! ### Errors -/

/-- The callback is invoked for receives that succeed only, and what it gets fits the
buffer, exactly if no receive that the loop has gone on from has failed. -/
theorem survives_iff (haveThreads : Bool) (listener : NcSocketListener) (args : Arguments)
    (stopper : StopPc) (events : List Event)
    (honest : (threads haveThreads).Meets HonestReceive (.begin listener args stopper) events) :
    let server := (threads haveThreads).run (.begin listener args stopper) events
    Survives server.actions ↔ ∀ size ∈ settledReceives server, size ≠ -1 := by
  intro server
  have relays : Relays server := by
    apply EventMachine.run_invariant Relays _ (.begin listener args stopper) honest
    intro server event relays honest
    cases event with
    | start answer => exact relays.start honest
    | stop => exact relays.stop
  have settled : ∀ size ∈ settledReceives server,
      size = -1 ∨ (0 ≤ size ∧ size ≤ maxDgramBufLen) := by
    intro size member
    apply relays.honest
    unfold settledReceives at member
    split_ifs at member
    · exact List.mem_of_mem_dropLast member
    · exact member
  constructor
  · intro survives size member
    rw [← fitsBuffer_iff (settled size member)]
    have length : UdpData.dgramLength size ∈
        (server.actions.filterMap Action.delivers).map UdpData.length := by
      rw [relays.lengths]
      exact List.mem_map_of_mem member
    obtain ⟨datagram, delivered, same⟩ := List.mem_map.mp length
    rw [← same]
    exact survives.fits datagram delivered
  · intro succeed
    have fits : ∀ datagram ∈ server.actions.filterMap Action.delivers,
        FitsBuffer datagram.length := by
      intro datagram delivered
      have length : datagram.length ∈ (settledReceives server).map UdpData.dgramLength := by
        rw [← relays.lengths]
        exact List.mem_map_of_mem delivered
      obtain ⟨size, member, same⟩ := List.mem_map.mp length
      rw [← same]
      exact (fitsBuffer_iff (settled size member)).mpr (succeed size member)
    refine ⟨fits, fun before datagram later split => ?_⟩
    obtain ⟨size, last, length⟩ := relays.follows before _ later split datagram rfl
    refine ⟨size, last, ?_⟩
    rintro rfl
    have fit : FitsBuffer datagram.length := by
      apply fits
      rw [split, List.filterMap_append]
      exact List.mem_append_right _ List.mem_cons_self
    rw [length] at fit
    exact absurd fit.1 (by decide)

/-- A datagram of twelve bytes, and a stop request at the next receive. -/
theorem survives_iff_stopped :
    Survives ((threads true).run
      (.begin (.make 80 socktypeUdp) ⟨true, ncNonthreaded, ncJoined⟩ .begin)
      [.start (.value 7), .start (.value 0), .start (.value 0), .start (.value 0),
        .start (.value 0), .start (.value 12), .start (.value 0), .start (.value 0),
        .start (.value 0), .stop, .start (.value (-1))]).actions := by
  apply (survives_iff true _ _ _ _ ?_).mpr
  · decide
  · refine ⟨nofun, nofun, nofun, nofun, nofun, ?_, nofun, nofun, nofun, trivial, ?_, trivial⟩
    · exact fun _ => Or.inr (by decide)
    · exact fun _ => Or.inl rfl

/-- The stop request shuts the socket down while the loop receives. The callback gets a
datagram of length -1, whose `memcpy` is of 2^64 - 1 bytes. -/
theorem delivers_error : ∃ events,
    (threads true).Meets HonestReceive
      (.begin (.make 80 socktypeUdp) ⟨true, ncNonthreaded, ncJoined⟩ .begin) events ∧
    (((threads true).run
      (.begin (.make 80 socktypeUdp) ⟨true, ncNonthreaded, ncJoined⟩ .begin)
        events).actions.filterMap Action.delivers).map UdpData.length = [-1] ∧
    UdpData.copyLength (-1) = 2 ^ 64 - 1 := by
  refine ⟨[.start (.value 7), .start (.value 0), .start (.value 0), .start (.value 0),
    .start (.value 0), .stop, .stop, .stop, .stop, .start (.error (.other 88)),
    .start (.value 0)], ?_, rfl, rfl⟩
  refine ⟨nofun, nofun, nofun, nofun, nofun, trivial, trivial, trivial, trivial, ?_, nofun,
    trivial⟩
  exact fun _ => Or.inl rfl

end NetClass.Listener
