import NetClass.Library.Channel
import NetClass.Socket.Integrity

/-!
Contract: a message sent by any number of `writeData` calls over a TCP connection
and read by any number of `readData` calls, both of the poll build.

Owns: the system of the two parties and the network between them, in which every
wait, `send` and `recv` is a step of its own, and the proof that the system refines
a reliable channel: whatever the kernel answers and however the steps interleave,
the bytes stored by the reader and those in flight are the ones that the writer's
counts say were written.

Does **not** own: the contents of a call; see `NetClass.Socket.Poll`.
-/

set_option autoImplicit false

namespace NetClass.Socket

/-- A transfer call in progress. `ready` tells that its wait has found the descriptor
ready, so that the transfer call comes next; else it is at the head of its loop. -/
structure Activity where
  sock : NcSocket
  bufLen : Int
  locals : Locals
  ready : Bool
deriving DecidableEq, Repr

/-- One end of the connection: the sum of the `*numActualBytes` of its earlier calls,
which is the offset of its next call, and the call it is in. -/
structure Party where
  total : Int
  activity : Option Activity
deriving DecidableEq, Repr

/-- `*numActualBytes` of a call in progress. -/
def Activity.count (activity : Activity) : Int := activity.locals.numActualBytes.getD 0

namespace Party

def idle : Party := ⟨0, none⟩

/-- The sum of the counts, the one of the call in progress included. -/
def count (party : Party) : Int := party.total + (party.activity.map Activity.count).getD 0

/-- The call has returned, with whatever code, and the caller adds up its count. -/
def resume (party : Party) (locals : Locals) : Party :=
  ⟨party.total + locals.numActualBytes.getD 0, none⟩

/-- The steps of a party that leave the network alone. `room` is the length of the
caller's buffer. -/
inductive Step (direction : Direction) (room : Int) (party : Party) : Party → Prop where
  | begins (sock : NcSocket) (bufLen : Int) (idle : party.activity = none)
      (tcp : sock.socktype = socktypeTcpip) (nonneg : 0 ≤ bufLen)
      (inside : party.total + bufLen ≤ room) :
      Step direction room party
        { party with activity := some ⟨sock, bufLen, .start bufLen true, false⟩ }
  | wakes (activity : Activity) (here : party.activity = some activity)
      (atHead : activity.ready = false) (goes : activity.locals.running = true)
      (answer : WaitAnswer) (next : Locals)
      (waits : Poll.wait direction activity.sock activity.bufLen activity.locals answer =
        .transfer next) :
      Step direction room party
        { party with activity := some { activity with locals := next, ready := true } }
  | waitsAgain (activity : Activity) (here : party.activity = some activity)
      (atHead : activity.ready = false) (goes : activity.locals.running = true)
      (answer : WaitAnswer) (next : Locals)
      (waits : Poll.wait direction activity.sock activity.bufLen activity.locals answer =
        .done (.again next)) :
      Step direction room party
        { party with activity := some { activity with locals := next } }
  | failsWaiting (activity : Activity) (here : party.activity = some activity)
      (atHead : activity.ready = false) (goes : activity.locals.running = true)
      (answer : WaitAnswer) (last : Locals) (ret : RetCode)
      (waits : Poll.wait direction activity.sock activity.bufLen activity.locals answer =
        .done (.leave last ret)) :
      Step direction room party (party.resume last)
  | returns (activity : Activity) (here : party.activity = some activity)
      (atHead : activity.ready = false) (stopped : activity.locals.running = false) :
      Step direction room party (party.resume activity.locals)

/-- The transfer call of the call in progress and what follows it. -/
def transfer (party : Party) (direction : Direction) (activity : Activity)
    (answer : TransferAnswer) : Party :=
  { party with activity := some { activity with
      locals := Poll.transfer direction activity.sock activity.bufLen activity.locals answer
      ready := false } }

end Party

/-- The two parties, the bytes in flight, and the memory around the reader's buffer. -/
structure Network where
  writer : Party
  reader : Party
  inFlight : List UInt8
  buffer : Int → UInt8

namespace Network

/-- The memory that holds the message from address 0 on. -/
def source (message : List UInt8) : Int → UInt8 := Memory.store (fun _ => 0) 0 message

/-- The steps of the network. A `send` takes the bytes at its pointer, a `recv` hands
over the first bytes in flight, as many as the kernel likes. -/
inductive Step (message : List UInt8) (capacity : Int) (network : Network) :
    Network → Prop where
  | writer (next : Party) (step : network.writer.Step .write message.length next) :
      Step message capacity network { network with writer := next }
  | reader (next : Party) (step : network.reader.Step .read capacity next) :
      Step message capacity network { network with reader := next }
  | sends (activity : Activity) (here : network.writer.activity = some activity)
      (ready : activity.ready = true) (answer : TransferAnswer)
      (atLeast : -1 ≤ answer.ret) (atMost : answer.ret ≤ activity.locals.nRemaining) :
      Step message capacity network { network with
        writer := network.writer.transfer .write activity answer
        inFlight := network.inFlight ++ Memory.window (source message)
          (network.writer.total + activity.locals.pPtr) answer.ret.toNat }
  | receives (activity : Activity) (here : network.reader.activity = some activity)
      (ready : activity.ready = true) (answer : TransferAnswer)
      (atLeast : -1 ≤ answer.ret) (atMost : answer.ret ≤ activity.locals.nRemaining)
      (there : answer.ret.toNat ≤ network.inFlight.length)
      (bytes : answer.bytes = network.inFlight.take answer.ret.toNat) :
      Step message capacity network { network with
        reader := network.reader.transfer .read activity answer
        inFlight := network.inFlight.drop answer.ret.toNat
        buffer := Memory.store network.buffer
          (network.reader.total + activity.locals.pPtr) answer.bytes }

/-- Two idle parties with nothing in flight. -/
def machine (message : List UInt8) (capacity : Int) : Machine Network where
  initial := fun network => network.writer = .idle ∧ network.reader = .idle ∧
    network.inFlight = []
  step := Step message capacity

end Network

/-! ### The halves of a pass -/

/-- The effects of the first half of a pass. -/
inductive WaitTurn (sock : NcSocket) (bufLen : Int) (locals : Locals) : Waited → Prop where
  | ready (wait : Call) (isWait : wait.isWait = true) :
      WaitTurn sock bufLen locals (.transfer (locals.issue wait))
  | idled (wait : Call) (isWait : wait.isWait = true) :
      WaitTurn sock bufLen locals (.done (.again ((locals.issue wait).account sock bufLen)))
  | spun (wait : Call) (isWait : wait.isWait = true) :
      WaitTurn sock bufLen locals (.done (.again (locals.issue wait)))
  | failed (wait : Call) (isWait : wait.isWait = true) (ret : RetCode) :
      WaitTurn sock bufLen locals (.done (.leave (locals.issue wait) ret))

theorem Poll.wait_turn (direction : Direction) (sock : NcSocket) (bufLen : Int)
    (locals : Locals) (answer : WaitAnswer) :
    WaitTurn sock bufLen locals (Poll.wait direction sock bufLen locals answer) := by
  unfold Poll.wait
  split_ifs
  · exact .failed _ rfl .failed
  · exact .idled _ rfl
  · exact .failed _ rfl .failed
  · exact .failed _ rfl .failed
  · exact .ready _ rfl
  · exact .spun _ rfl

/-- The second half of a pass keeps the invariant of a call and moves the count along
with the log. -/
theorem Poll.transfer_tracks {direction : Direction} {sock : NcSocket} {bufLen : Int}
    {locals : Locals} (holds : Tracks direction bufLen locals)
    (aligned : Aligned bufLen locals) {answer : TransferAnswer}
    (fits : answer.ret ≤ locals.nRemaining) :
    Tracks direction bufLen (Poll.transfer direction sock bufLen locals answer) ∧
      (Poll.transfer direction sock bufLen locals answer).numActualBytes.isSome =
        locals.numActualBytes.isSome ∧
      moved (Poll.transfer direction sock bufLen locals answer).calls =
        moved locals.calls + answer.ret.toNat := by
  have total := Locals.moved_attempt locals sock direction answer
  unfold Poll.transfer
  by_cases failed : answer.ret < 0
  · have kept : Tracks direction bufLen (locals.attempt sock direction answer) :=
      holds.attempt_lost aligned sock fits (by omega)
    simp only [failed, ↓reduceIte]
    split_ifs
    · exact ⟨kept.disconnect _, rfl, by simp [Call.moved]⟩
    · exact ⟨kept.account, rfl, total⟩
    · exact ⟨kept.account.giveUp, rfl, total⟩
    · exact ⟨kept.disconnect _, rfl, by simp [Call.moved]⟩
  · have kept :
        Tracks direction bufLen ((locals.attempt sock direction answer).advance answer.ret) :=
      holds.attempt_advance aligned sock fits (by omega)
    simp only [failed, ↓reduceIte]
    refine ⟨kept.account, ?_, total⟩
    simp [Locals.advance, Locals.attempt, Locals.issue]

/-! ### The invariant of a party -/

/-- A call in progress agrees with its log, and `buf` and `nRemaining` are right when a
transfer call is next. -/
structure Activity.Sound (direction : Direction) (activity : Activity) : Prop where
  tracks : Tracks direction activity.bufLen activity.locals
  counted : activity.locals.numActualBytes.isSome = true
  aligned : activity.ready = true → Aligned activity.bufLen activity.locals

/-- The offset of a party is a place in its buffer, and its call stays inside. -/
structure Party.Sound (direction : Direction) (room : Int) (party : Party) : Prop where
  total : 0 ≤ party.total
  active : ∀ activity, party.activity = some activity →
    activity.Sound direction ∧ party.total + activity.bufLen ≤ room

namespace Activity.Sound

variable {direction : Direction} {activity : Activity}

theorem count_eq (sound : activity.Sound direction) :
    activity.locals.numActualBytes.getD 0 = moved activity.locals.calls := by
  obtain ⟨count, known⟩ := Option.isSome_iff_exists.mp sound.counted
  rw [known, Option.getD_some]
  exact sound.tracks.count count known

end Activity.Sound

namespace Party

variable {direction : Direction} {room : Int} {party next : Party} {activity : Activity}

theorem count_active (party : Party) {activity : Activity}
    (here : party.activity = some activity) :
    party.count = party.total + activity.locals.numActualBytes.getD 0 := by
  simp [count, here, Activity.count]

theorem Sound.idle (direction : Direction) (room : Int) : Party.idle.Sound direction room where
  total := le_rfl
  active := by simp [Party.idle]

/-- A party that goes on in its call. -/
theorem Sound.proceed (sound : party.Sound direction room)
    (here : party.activity = some activity) (locals : Locals) (ready : Bool)
    (kept : Activity.Sound direction { activity with locals := locals, ready := ready }) :
    Party.Sound direction room
      { party with activity := some { activity with locals := locals, ready := ready } } where
  total := sound.total
  active := by
    intro current same
    obtain rfl := Option.some.inj same
    exact ⟨kept, (sound.active activity here).2⟩

/-- A party whose call has returned. -/
theorem Sound.resume (sound : party.Sound direction room) {locals : Locals}
    (nonneg : 0 ≤ locals.numActualBytes.getD 0) :
    (party.resume locals).Sound direction room where
  total := Int.add_nonneg sound.total nonneg
  active := by simp [Party.resume]

/-- The step lemma of a party: its steps keep the invariant, and none of them changes
what the counts add up to. -/
theorem Step.sound (step : party.Step direction room next)
    (sound : party.Sound direction room) :
    next.Sound direction room ∧ next.count = party.count := by
  cases step with
  | begins sock bufLen idle tcp nonneg inside =>
      refine ⟨⟨sound.total, ?_⟩, ?_⟩
      · intro current same
        obtain rfl := Option.some.inj same
        exact ⟨⟨Tracks.start direction nonneg true, rfl, by simp⟩, inside⟩
      · simp [count, Activity.count, idle, Locals.start]
  | wakes activity here atHead goes answer locals waits =>
      have active := (sound.active activity here).1
      have turn := Poll.wait_turn direction activity.sock activity.bufLen activity.locals answer
      rw [waits] at turn
      cases turn with
      | ready wait isWait =>
          obtain ⟨kept, aligned⟩ := active.tracks.waited goes isWait
          refine ⟨sound.proceed here _ _ ⟨kept, active.counted, fun _ => aligned⟩, ?_⟩
          rw [count_active party here]
          rfl
  | waitsAgain activity here atHead goes answer locals waits =>
      have active := (sound.active activity here).1
      have turn := Poll.wait_turn direction activity.sock activity.bufLen activity.locals answer
      rw [waits] at turn
      cases turn with
      | idled wait isWait =>
          have kept := (active.tracks.waited goes isWait).1
          refine ⟨sound.proceed here _ _ ⟨kept.account, active.counted, ?_⟩, ?_⟩
          · simp [atHead]
          · rw [count_active party here]
            rfl
      | spun wait isWait =>
          have kept := (active.tracks.waited goes isWait).1
          refine ⟨sound.proceed here _ _ ⟨kept, active.counted, ?_⟩, ?_⟩
          · simp [atHead]
          · rw [count_active party here]
            rfl
  | failsWaiting activity here atHead goes answer last ret waits =>
      have active := (sound.active activity here).1
      have turn := Poll.wait_turn direction activity.sock activity.bufLen activity.locals answer
      rw [waits] at turn
      cases turn with
      | failed wait isWait ret =>
          have nonneg : 0 ≤ (activity.locals.issue wait).numActualBytes.getD 0 := by
            have same := active.count_eq
            simp only [Locals.issue]
            omega
          refine ⟨sound.resume nonneg, ?_⟩
          rw [count_active party here]
          simp [count, Party.resume, Locals.issue]
  | returns activity here atHead stopped =>
      have active := (sound.active activity here).1
      have nonneg : 0 ≤ activity.locals.numActualBytes.getD 0 := by
        have same := active.count_eq
        omega
      refine ⟨sound.resume nonneg, ?_⟩
      rw [count_active party here]
      simp [count, Party.resume]

/-- The transfer step keeps the invariant and adds the bytes it moved to the count. It
begins where the count ends. -/
theorem Sound.transfer (sound : party.Sound direction room)
    (here : party.activity = some activity) (ready : activity.ready = true)
    {answer : TransferAnswer} (fits : answer.ret ≤ activity.locals.nRemaining) :
    (party.transfer direction activity answer).Sound direction room ∧
      (party.transfer direction activity answer).count = party.count + answer.ret.toNat ∧
      party.total + activity.locals.pPtr = party.count ∧
      party.count + answer.ret.toNat ≤ room := by
  obtain ⟨active, inside⟩ := sound.active activity here
  have aligned := active.aligned ready
  obtain ⟨kept, isSome, total⟩ : _ ∧ _ ∧ _ := Poll.transfer_tracks active.tracks aligned fits
  have after : Activity.Sound direction { activity with
      locals := Poll.transfer direction activity.sock activity.bufLen activity.locals answer
      ready := false } := ⟨kept, isSome.trans active.counted, by simp⟩
  have before := active.count_eq
  have counts := after.count_eq
  simp only at counts
  refine ⟨sound.proceed here _ _ after, ?_, ?_, ?_⟩
  · rw [count_active party here, before,
      count_active (party.transfer direction activity answer) rfl, counts, total]
    simp only [Party.transfer]
    push_cast
    omega
  · rw [count_active party here, before, aligned.1]
  · have within := kept.within
    rw [total] at within
    push_cast at within
    rw [count_active party here, before]
    omega

end Party

/-! ### Refinement of the channel -/

namespace Network

variable {message : List UInt8} {capacity : Int} {network next : Network}
variable {channel : Channel UInt8}

/-- The network is an implementation of the channel: the counts are the numbers of
bytes sent and received, and the reader's buffer holds the bytes received. -/
structure Implements (message : List UInt8) (capacity : Int) (network : Network)
    (channel : Channel UInt8) : Prop where
  writer : network.writer.Sound .write message.length
  reader : network.reader.Sound .read capacity
  written : network.writer.count = channel.sent.length
  read : network.reader.count = channel.received.length
  stored : Memory.window network.buffer 0 channel.received.length = channel.received
  inFlight : network.inFlight = channel.inFlight

/-- What a `send` takes from memory continues what was sent before. -/
theorem sent_append (sent : channel.sent <+: message) (size : Nat)
    (within : channel.sent.length + size ≤ message.length) :
    channel.sent ++ Memory.window (source message) channel.sent.length size <+: message := by
  have whole : Memory.window (source message) 0 message.length = message :=
    Memory.window_store_same _ 0 message
  have before : channel.sent = Memory.window (source message) 0 channel.sent.length := by
    calc channel.sent = message.take channel.sent.length := List.prefix_iff_eq_take.mp sent
      _ = (Memory.window (source message) 0 message.length).take channel.sent.length := by
          rw [whole]
      _ = Memory.window (source message) 0 channel.sent.length :=
          Memory.window_take _ 0 sent.length_le
  have joined : channel.sent ++ Memory.window (source message) channel.sent.length size =
      message.take (channel.sent.length + size) := by
    calc channel.sent ++ Memory.window (source message) channel.sent.length size
        = Memory.window (source message) 0 (channel.sent.length + size) := by
          rw [Memory.window_add, ← before, Int.zero_add]
      _ = message.take (channel.sent.length + size) := by
          rw [← Memory.window_take _ 0 within, whole]
  rw [joined]
  exact List.take_prefix _ _

/-- The step lemma: every step of the network is a step of the channel or none. -/
theorem Implements.step (implements : Implements message capacity network channel)
    (sent : channel.sent <+: message) (step : Step message capacity network next) :
    ∃ follower, Relation.ReflTransGen (Channel.Carries message) channel follower ∧
      Implements message capacity next follower := by
  cases step with
  | writer party step =>
      obtain ⟨sound, same⟩ := step.sound implements.writer
      exact ⟨channel, .refl,
        { implements with writer := sound, written := same.trans implements.written }⟩
  | reader party step =>
      obtain ⟨sound, same⟩ := step.sound implements.reader
      exact ⟨channel, .refl,
        { implements with reader := sound, read := same.trans implements.read }⟩
  | sends activity here ready answer atLeast atMost =>
      obtain ⟨sound, count, place, within⟩ := implements.writer.transfer here ready atMost
      have written := implements.written
      have room : channel.sent.length + answer.ret.toNat ≤ message.length := by omega
      have fits := sent_append sent answer.ret.toNat room
      refine ⟨channel.send _, .single (.send channel _ fits), ?_⟩
      exact {
        implements with
        writer := sound
        written := by
          rw [count, written]
          simp [Channel.send]
        inFlight := by
          simp only [Channel.send]
          rw [implements.inFlight, place, written] }
  | receives activity here ready answer atLeast atMost there bytes =>
      obtain ⟨sound, count, place, -⟩ := implements.reader.transfer here ready atMost
      have read := implements.read
      rw [implements.inFlight] at there bytes
      have size : answer.bytes.length = answer.ret.toNat := by
        rw [bytes, List.length_take, Nat.min_eq_left there]
      refine ⟨channel.receive answer.ret.toNat, .single (.receive channel _ there), ?_⟩
      exact {
        implements with
        reader := sound
        read := by
          rw [count, read]
          simp [Channel.receive, Nat.min_eq_left there]
        stored := by
          have appended := Memory.window_store_append network.buffer 0
            channel.received.length answer.bytes
          rw [implements.stored, size, Int.zero_add] at appended
          simp only [Channel.receive, List.length_append, List.length_take,
            Nat.min_eq_left there, place, read]
          rw [appended, bytes]
        inFlight := by rw [implements.inFlight]; rfl }

theorem simulation (message : List UInt8) (capacity : Int) :
    Machine.Simulation (machine message capacity) (Channel.carrier message)
      (Implements message capacity) where
  start := by
    rintro network ⟨writer, reader, quiet⟩
    refine ⟨.empty, rfl, ?_⟩
    exact {
      writer := by rw [writer]; exact .idle _ _
      reader := by rw [reader]; exact .idle _ _
      written := by rw [writer]; rfl
      read := by rw [reader]; rfl
      stored := rfl
      inFlight := quiet }
  step := fun _ _ _ reached implements step =>
    implements.step (Channel.sent_isPrefix reached) step

end Network

/-- End-to-end delivery: in every reachable state the bytes that the reader has stored,
followed by the bytes in flight, are the part of the message that the writer's counts
say was written, and a reader that has counted the length of the message has stored
the message. -/
theorem stream_delivery (message : List UInt8) (capacity : Int) (network : Network)
    (reachable : (Network.machine message capacity).Reachable network) :
    ∃ written read : Nat, network.writer.count = written ∧ network.reader.count = read ∧
      read ≤ written ∧ written ≤ message.length ∧
      Memory.window network.buffer 0 read ++ network.inFlight = message.take written ∧
      (read = message.length → Memory.window network.buffer 0 message.length = message) := by
  obtain ⟨channel, reached, implements⟩ :=
    (Network.simulation message capacity).reachable reachable
  refine ⟨channel.sent.length, channel.received.length, implements.written, implements.read,
    channel.received_length_le, (Channel.sent_isPrefix reached).length_le, ?_, fun all => ?_⟩
  · rw [implements.stored, implements.inFlight]
    exact Channel.delivered reached
  · rw [← all, implements.stored]
    exact Channel.received_all reached all

/-- Two of three bytes are written in one `send`, and one of them has been read. -/
theorem partlyRead : ∃ network, (Network.machine [7, 8, 9] 3).Reachable network ∧
    network.reader.count = 1 ∧ network.inFlight = [8] := by
  have idle : (Network.machine [7, 8, 9] 3).Reachable ⟨.idle, .idle, [], fun _ => 0⟩ :=
    .start ⟨rfl, rfl, rfl⟩
  have writing := idle.tail
    (.writer _ (.begins (.ofSockfd 5) 3 rfl rfl (by decide) (by decide)))
  have writable := writing.tail
    (.writer _ (.wakes _ rfl rfl rfl ⟨1, pollOut, false⟩ _ rfl))
  have sent := writable.tail
    (.sends _ rfl rfl ⟨2, .other 0, []⟩ (by decide) (by decide))
  have reading := sent.tail
    (.reader _ (.begins (.ofSockfd 6) 3 rfl rfl (by decide) (by decide)))
  have readable := reading.tail
    (.reader _ (.wakes _ rfl rfl rfl ⟨1, pollIn, false⟩ _ rfl))
  have received := readable.tail
    (.receives _ rfl rfl ⟨1, .other 0, [7]⟩ (by decide) (by decide) (by decide) (by decide))
  exact ⟨_, received, rfl, by decide⟩

theorem stream_delivery_partlyRead :
    ∃ network : Network, network.inFlight = [8] ∧
      ∃ written read : Nat, network.writer.count = written ∧ network.reader.count = read ∧
        Memory.window network.buffer 0 read ++ network.inFlight = [7, 8, 9].take written := by
  obtain ⟨network, reachable, -, inFlight⟩ := partlyRead
  obtain ⟨written, read, writes, reads, -, -, delivered, -⟩ :=
    stream_delivery [7, 8, 9] 3 network reachable
  exact ⟨network, inFlight, written, read, writes, reads, delivered⟩

end NetClass.Socket
