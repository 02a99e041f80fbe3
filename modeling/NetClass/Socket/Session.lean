import NetClass.Socket.InProgress

/-!
Contract: a TCP connection between two `ncSocket`s, each of which writes and reads.

Owns: the system of the two peers and the network between them, in which each peer is of
either build and makes any sequence of `writeData` and `readData` calls, and the proof that
the system refines two reliable channels that run next to each other.

Does **not** own: one party that only writes and one that only reads; see
`NetClass.Socket.Stream`.

The `writeData` of the select build goes wrong when a `send` would block although `select`
has reported the descriptor ready. The kernel is taken not to answer so. All calls of a side
are on one descriptor, which one thread at a time uses.
-/

set_option autoImplicit false

namespace NetClass.Socket

/-! ### Peers -/

/-- One end of the connection: for each direction the sum of the `*numActualBytes` of its
earlier calls, and the call it is in. -/
structure Peer where
  totals : Direction → Int
  activity : Option (Direction × Activity)

namespace Peer

def idle : Peer := ⟨fun _ => 0, none⟩

/-- `*numActualBytes` of the call in progress, if it is one in this direction. -/
def current (peer : Peer) (direction : Direction) : Int :=
  match peer.activity with
  | some (busy, activity) => if busy = direction then activity.count else 0
  | none => 0

/-- The sum of the counts, the one of the call in progress included. -/
def count (peer : Peer) (direction : Direction) : Int :=
  peer.totals direction + peer.current direction

/-- The call goes on. -/
def proceed (peer : Peer) (direction : Direction) (activity : Activity) : Peer :=
  { peer with activity := some (direction, activity) }

/-- The call has returned, with whatever code, and the caller adds up its count. -/
def resume (peer : Peer) (direction : Direction) (locals : Locals) : Peer where
  totals := Function.update peer.totals direction
    (peer.totals direction + locals.numActualBytes.getD 0)
  activity := none

/-- The steps of a peer that leave the network alone. `room` is the length of the caller's
buffer for each direction. -/
inductive Step (build : Build) (sockfd : Int) (room : Direction → Int) (peer : Peer) :
    Peer → Prop where
  | begins (direction : Direction) (sock : NcSocket) (bufLen : Int)
      (idle : peer.activity = none) (own : sock.sockfd = sockfd)
      (tcp : sock.socktype = socktypeTcpip) (nonneg : 0 ≤ bufLen)
      (inside : peer.totals direction + bufLen ≤ room direction) :
      Step build sockfd room peer (peer.proceed direction (.start sock bufLen true))
  | goesOn (direction : Direction) (activity after : Activity)
      (here : peer.activity = some (direction, activity))
      (step : activity.Step build direction (.inl after)) :
      Step build sockfd room peer (peer.proceed direction after)
  | returns (direction : Direction) (activity : Activity) (last : Locals) (ret : RetCode)
      (here : peer.activity = some (direction, activity))
      (step : activity.Step build direction (.inr (last, ret))) :
      Step build sockfd room peer (peer.resume direction last)

/-- The transfer call of the call in progress and what follows it. -/
def transfer (peer : Peer) (build : Build) (direction : Direction) (activity : Activity)
    (answer : TransferAnswer) : Peer :=
  peer.proceed direction (activity.transfer build direction answer)

end Peer

inductive Side where
  | left
  | right
deriving DecidableEq, Repr

def Side.other : Side → Side
  | .left => .right
  | .right => .left

@[simp] theorem Side.other_other (side : Side) : side.other.other = side := by
  cases side <;> rfl

theorem Side.other_ne (side : Side) : side.other ≠ side := by
  cases side <;> decide

theorem Side.eq_other {side here : Side} (differs : side ≠ here) : side = here.other := by
  cases side <;> cases here <;> first | rfl | exact absurd rfl differs

/-- The two peers, the bytes in flight from each of them, and the memory around the buffer
that each of them reads into. -/
structure Session where
  peers : Side → Peer
  inFlight : Side → List UInt8
  buffers : Side → Int → UInt8

/-- What the callers do: the build, the descriptor, the message and the length of the buffer
of each side. -/
structure Session.Plan where
  build : Side → Build
  sockfd : Side → Int
  message : Side → List UInt8
  capacity : Side → Int

namespace Session

/-- The lengths of the buffers of one side. -/
def Plan.room (plan : Plan) (side : Side) : Direction → Int
  | .write => (plan.message side).length
  | .read => plan.capacity side

/-- A peer does something on its own. -/
def act (session : Session) (side : Side) (peer : Peer) : Session :=
  { session with peers := Function.update session.peers side peer }

/-- A `send` takes the bytes at its pointer. -/
def send (session : Session) (plan : Plan) (side : Side) (activity : Activity)
    (answer : TransferAnswer) : Session where
  peers := Function.update session.peers side
    ((session.peers side).transfer (plan.build side) .write activity answer)
  inFlight := Function.update session.inFlight side (session.inFlight side ++
    Memory.window (Network.source (plan.message side))
      ((session.peers side).totals .write + activity.locals.pPtr) answer.ret.toNat)
  buffers := session.buffers

/-- A `recv` hands over the first bytes in flight from `side`. -/
def receive (session : Session) (plan : Plan) (side : Side) (activity : Activity)
    (answer : TransferAnswer) : Session where
  peers := Function.update session.peers side.other
    ((session.peers side.other).transfer (plan.build side.other) .read activity answer)
  inFlight := Function.update session.inFlight side
    ((session.inFlight side).drop answer.ret.toNat)
  buffers := Function.update session.buffers side.other
    (Memory.store (session.buffers side.other)
      ((session.peers side.other).totals .read + activity.locals.pPtr) answer.bytes)

/-- The steps of the session. A transfer moves as many bytes as the kernel likes. -/
inductive Step (plan : Plan) (session : Session) : Session → Prop where
  | acts (side : Side) (peer : Peer)
      (step : (session.peers side).Step (plan.build side) (plan.sockfd side) (plan.room side)
        peer) :
      Step plan session (session.act side peer)
  | sends (side : Side) (activity : Activity)
      (here : (session.peers side).activity = some (.write, activity))
      (ready : activity.ready = true) (answer : TransferAnswer) (atLeast : -1 ≤ answer.ret)
      (atMost : answer.ret ≤ activity.locals.nRemaining)
      (works : ¬ (plan.build side).Blocks .write answer) :
      Step plan session (session.send plan side activity answer)
  | receives (side : Side) (activity : Activity)
      (here : (session.peers side.other).activity = some (.read, activity))
      (ready : activity.ready = true) (answer : TransferAnswer) (atLeast : -1 ≤ answer.ret)
      (atMost : answer.ret ≤ activity.locals.nRemaining)
      (there : answer.ret.toNat ≤ (session.inFlight side).length)
      (bytes : answer.bytes = (session.inFlight side).take answer.ret.toNat) :
      Step plan session (session.receive plan side activity answer)

/-- Two idle peers with nothing in flight. -/
def machine (plan : Plan) : Machine Session where
  initial := fun session => (∀ side, session.peers side = .idle) ∧
    ∀ side, session.inFlight side = []
  step := Step plan

end Session

/-! ### The invariant of a peer -/

/-- The offsets of a peer are places in its buffers, and its call stays inside. -/
structure Peer.Sound (room : Direction → Int) (peer : Peer) : Prop where
  totals : ∀ direction, 0 ≤ peer.totals direction
  active : ∀ direction activity, peer.activity = some (direction, activity) →
    activity.Sound direction ∧ peer.totals direction + activity.bufLen ≤ room direction

namespace Peer

variable {build : Build} {sockfd : Int} {room : Direction → Int} {peer next : Peer}
variable {direction : Direction} {activity : Activity}

theorem count_active (peer : Peer) {activity : Activity}
    (here : peer.activity = some (direction, activity)) :
    peer.count direction = peer.totals direction + activity.locals.numActualBytes.getD 0 := by
  simp [count, current, here, Activity.count]

/-- A call that goes on changes the count of its own direction only. -/
theorem count_proceed (activity after : Activity)
    (here : peer.activity = some (direction, activity)) (other : Direction) :
    (peer.proceed direction after).count other = peer.count other +
      if other = direction then after.count - activity.count else 0 := by
  split_ifs with same
  · subst same
    simp [count, current, here, proceed]
  · simp [count, current, here, proceed, Ne.symm same]

theorem count_resume (activity : Activity) (here : peer.activity = some (direction, activity))
    {locals : Locals} (same : locals.numActualBytes = activity.locals.numActualBytes)
    (other : Direction) : (peer.resume direction locals).count other = peer.count other := by
  by_cases mine : other = direction
  · subst mine
    simp [count, current, here, resume, same, Activity.count]
  · simp [count, current, here, resume, Function.update_of_ne mine, Ne.symm mine]

theorem Sound.idle (room : Direction → Int) : Peer.idle.Sound room where
  totals := fun _ => le_rfl
  active := by simp [Peer.idle]

/-- A peer that goes on in its call. -/
theorem Sound.proceed (sound : peer.Sound room) {after : Activity}
    (kept : after.Sound direction)
    (inside : peer.totals direction + after.bufLen ≤ room direction) :
    (peer.proceed direction after).Sound room where
  totals := sound.totals
  active := by
    intro other current same
    obtain ⟨rfl, rfl⟩ : direction = other ∧ after = current := by
      simpa [Peer.proceed] using same
    exact ⟨kept, inside⟩

/-- A peer whose call has returned. -/
theorem Sound.resume (sound : peer.Sound room) (direction : Direction) {locals : Locals}
    (nonneg : 0 ≤ locals.numActualBytes.getD 0) : (peer.resume direction locals).Sound room where
  totals := by
    intro other
    by_cases same : other = direction
    · subst same
      simpa [Peer.resume] using Int.add_nonneg (sound.totals other) nonneg
    · simpa [Peer.resume, Function.update_of_ne same] using sound.totals other
  active := by simp [Peer.resume]

/-- A peer that goes on with the count it has. -/
theorem Sound.goesOn (sound : peer.Sound room)
    (here : peer.activity = some (direction, activity)) {after : Activity}
    (kept : after.Sound direction) (bufLen : after.bufLen = activity.bufLen)
    (same : after.locals.numActualBytes = activity.locals.numActualBytes) :
    (peer.proceed direction after).Sound room ∧
      ∀ other, (peer.proceed direction after).count other = peer.count other := by
  have inside := (sound.active direction activity here).2
  rw [← bufLen] at inside
  refine ⟨sound.proceed kept inside, fun other => ?_⟩
  rw [count_proceed activity _ here]
  simp [Activity.count, same]

/-- A peer whose call returns with the count it has. -/
theorem Sound.returns (sound : peer.Sound room)
    (here : peer.activity = some (direction, activity)) {last : Locals}
    (same : last.numActualBytes = activity.locals.numActualBytes) :
    (peer.resume direction last).Sound room ∧
      ∀ other, (peer.resume direction last).count other = peer.count other := by
  have nonneg : 0 ≤ last.numActualBytes.getD 0 := by
    have moved := (sound.active direction activity here).1.count_eq
    rw [same]
    omega
  exact ⟨sound.resume direction nonneg, count_resume activity here same⟩

/-- The step lemma of a peer: its steps keep the invariant, and none of them changes what
the counts add up to. -/
theorem Step.sound (step : peer.Step build sockfd room next) (sound : peer.Sound room) :
    next.Sound room ∧ ∀ direction, next.count direction = peer.count direction := by
  cases step with
  | begins direction sock bufLen idle own tcp nonneg inside =>
      refine ⟨sound.proceed ⟨Tracks.start direction nonneg true, rfl, ?_⟩ inside, ?_⟩
      · exact fun ready => Bool.noConfusion ready
      · intro other
        simp [count, current, idle, Peer.proceed, Activity.count, Activity.start, Locals.start]
  | goesOn direction activity after here step =>
      obtain ⟨atHead, goes, wait, isWait, next⟩ := step.goesOn
      have active := (sound.active direction activity here).1
      obtain ⟨kept, aligned⟩ := active.tracks.waited goes isWait
      rcases next with rfl | rfl | rfl
      · exact sound.goesOn here ⟨kept, active.counted, fun _ => aligned⟩ rfl rfl
      · exact sound.goesOn here ⟨kept.account, active.counted, by simp [atHead]⟩ rfl rfl
      · exact sound.goesOn here ⟨kept, active.counted, by simp [atHead]⟩ rfl rfl
  | returns direction activity last ret here step =>
      obtain ⟨-, ⟨-, -, wait, -, rfl⟩ | ⟨-, rfl, -⟩⟩ := step.ends
      · exact sound.returns here rfl
      · exact sound.returns here rfl

/-- The transfer step keeps the invariant and adds the bytes it moved to the count of its
direction. It begins where that count ends. -/
theorem Sound.transfer (sound : peer.Sound room)
    (here : peer.activity = some (direction, activity)) (ready : activity.ready = true)
    {answer : TransferAnswer} (fits : answer.ret ≤ activity.locals.nRemaining)
    (works : ¬ build.Blocks direction answer) :
    (peer.transfer build direction activity answer).Sound room ∧
      (∀ other, (peer.transfer build direction activity answer).count other =
        peer.count other + if other = direction then (answer.ret.toNat : Int) else 0) ∧
      peer.totals direction + activity.locals.pPtr = peer.count direction ∧
      peer.count direction + answer.ret.toNat ≤ room direction := by
  obtain ⟨active, inside⟩ := sound.active direction activity here
  have aligned := active.aligned ready
  obtain ⟨kept, isSome, total⟩ :=
    build.transfer_tracks activity.sock active.tracks aligned fits works
  have after : (activity.transfer build direction answer).Sound direction :=
    ⟨kept, isSome.trans active.counted, fun ready => Bool.noConfusion ready⟩
  have before := active.count_eq
  have counts : (build.transfer direction activity.sock activity.bufLen activity.locals
      answer).numActualBytes.getD 0 = moved (build.transfer direction activity.sock
        activity.bufLen activity.locals answer).calls := after.count_eq
  refine ⟨sound.proceed after inside, fun other => ?_, ?_, ?_⟩
  · rw [Peer.transfer, count_proceed activity _ here]
    simp only [Activity.count, Activity.transfer, before, counts, total]
    push_cast
    split_ifs <;> omega
  · rw [count_active peer here, before, aligned.1]
  · have within := kept.within
    rw [total] at within
    push_cast at within
    rw [count_active peer here, before]
    omega

end Peer

/-! ### Refinement of the channels -/

namespace Session

variable {plan : Plan} {session next : Session} {side : Side}

/-- What one side writes goes through the channel: the counts are the numbers of bytes sent
and received, and the other side's buffer holds the bytes received. -/
structure Carried (session : Session) (side : Side) (channel : Channel UInt8) : Prop where
  written : (session.peers side).count .write = channel.sent.length
  read : (session.peers side.other).count .read = channel.received.length
  stored : Memory.window (session.buffers side.other) 0 channel.received.length =
    channel.received
  inFlight : session.inFlight side = channel.inFlight

/-- The session is an implementation of two channels, one for each side. -/
structure Implements (plan : Plan) (session : Session) (channels : Side → Channel UInt8) :
    Prop where
  sound : ∀ side, (session.peers side).Sound (plan.room side)
  carried : ∀ side, Carried session side (channels side)

def channels (plan : Plan) : Machine (Side → Channel UInt8) :=
  Machine.sideBySide fun side => Channel.carrier (plan.message side)

theorem sound_update {peers : Side → Peer} (sound : ∀ side, (peers side).Sound (plan.room side))
    {here : Side} {peer : Peer} (kept : peer.Sound (plan.room here)) (side : Side) :
    (Function.update peers here peer side).Sound (plan.room side) := by
  by_cases same : side = here
  · subst same
    rwa [Function.update_self]
  · rw [Function.update_of_ne same]
    exact sound side

/-- A peer whose counts stay the same. -/
theorem count_update {peers : Side → Peer} {here : Side} {peer : Peer}
    (same : ∀ direction, peer.count direction = (peers here).count direction) (side : Side)
    (direction : Direction) :
    (Function.update peers here peer side).count direction = (peers side).count direction := by
  by_cases mine : side = here
  · subst mine
    rw [Function.update_self, same]
  · rw [Function.update_of_ne mine]

/-- A peer whose count of one direction grows. -/
theorem count_transfer {peers : Side → Peer} {here : Side} {peer : Peer} {busy : Direction}
    {size : Nat}
    (grows : ∀ direction, peer.count direction =
      (peers here).count direction + if direction = busy then (size : Int) else 0)
    (side : Side) (direction : Direction) :
    (Function.update peers here peer side).count direction = (peers side).count direction +
      if side = here ∧ direction = busy then (size : Int) else 0 := by
  by_cases mine : side = here
  · subst mine
    simp [grows]
  · simp [mine]

variable {channels : Side → Channel UInt8}

/-- A step of one peer alone is no step of the channels. -/
theorem Implements.acts (implements : Implements plan session channels) (side : Side)
    {peer : Peer}
    (step : (session.peers side).Step (plan.build side) (plan.sockfd side) (plan.room side)
      peer) :
    Implements plan (session.act side peer) channels := by
  obtain ⟨kept, same⟩ := step.sound (implements.sound side)
  refine ⟨sound_update implements.sound kept, fun other => ?_⟩
  have carried := implements.carried other
  exact {
    written := (count_update same other .write).trans carried.written
    read := (count_update same other.other .read).trans carried.read
    stored := carried.stored
    inFlight := carried.inFlight }

/-- A `send` is a step of the sender's channel. -/
theorem Implements.sends (implements : Implements plan session channels)
    (sent : (channels side).sent <+: plan.message side) {activity : Activity}
    (here : (session.peers side).activity = some (.write, activity))
    (ready : activity.ready = true) {answer : TransferAnswer}
    (atMost : answer.ret ≤ activity.locals.nRemaining)
    (works : ¬ (plan.build side).Blocks .write answer) :
    ∃ channel, Channel.Carries (plan.message side) (channels side) channel ∧
      Implements plan (session.send plan side activity answer)
        (Function.update channels side channel) := by
  obtain ⟨kept, grows, place, within⟩ :=
    (implements.sound side).transfer here ready atMost works
  have carried := implements.carried side
  have room : (channels side).sent.length + answer.ret.toNat ≤ (plan.message side).length := by
    have written := carried.written
    simp only [Plan.room] at within
    omega
  have fits := Network.sent_append sent answer.ret.toNat room
  refine ⟨_, .send (channels side) _ fits, sound_update implements.sound kept, fun other => ?_⟩
  have counts : ∀ other direction,
      ((session.send plan side activity answer).peers other).count direction =
        (session.peers other).count direction +
          if other = side ∧ direction = .write then (answer.ret.toNat : Int) else 0 :=
    count_transfer grows
  by_cases same : other = side
  · subst same
    rw [Function.update_self]
    exact {
      written := by
        rw [counts, carried.written]
        simp [Channel.send]
      read := by
        rw [counts, carried.read]
        simp [Channel.send]
      stored := carried.stored
      inFlight := by
        simp only [send, Function.update_self, carried.inFlight, place, carried.written]
        rfl }
  · rw [Function.update_of_ne same]
    have unchanged := implements.carried other
    exact {
      written := by
        rw [counts, unchanged.written]
        simp [same]
      read := by
        rw [counts, unchanged.read]
        simp
      stored := unchanged.stored
      inFlight := (Function.update_of_ne same ..).trans unchanged.inFlight }

/-- A `recv` is a step of the channel from the other side. -/
theorem Implements.receives (implements : Implements plan session channels)
    {activity : Activity}
    (here : (session.peers side.other).activity = some (.read, activity))
    (ready : activity.ready = true) {answer : TransferAnswer}
    (atMost : answer.ret ≤ activity.locals.nRemaining)
    (there : answer.ret.toNat ≤ (session.inFlight side).length)
    (bytes : answer.bytes = (session.inFlight side).take answer.ret.toNat) :
    ∃ channel, Channel.Carries (plan.message side) (channels side) channel ∧
      Implements plan (session.receive plan side activity answer)
        (Function.update channels side channel) := by
  have works : ¬ (plan.build side.other).Blocks .read answer :=
    fun blocks => Direction.noConfusion blocks.2.1
  obtain ⟨kept, grows, place, -⟩ :=
    (implements.sound side.other).transfer here ready atMost works
  have carried := implements.carried side
  rw [carried.inFlight] at there bytes
  have size : answer.bytes.length = answer.ret.toNat := by
    rw [bytes, List.length_take, Nat.min_eq_left there]
  refine ⟨_, .receive (channels side) _ there, sound_update implements.sound kept,
    fun other => ?_⟩
  have counts : ∀ other direction,
      ((session.receive plan side activity answer).peers other).count direction =
        (session.peers other).count direction +
          if other = side.other ∧ direction = .read then (answer.ret.toNat : Int) else 0 :=
    count_transfer grows
  by_cases same : other = side
  · subst same
    rw [Function.update_self]
    exact {
      written := by
        rw [counts, carried.written]
        simp [Channel.receive]
      read := by
        rw [counts, carried.read]
        simp [Channel.receive, Nat.min_eq_left there]
      stored := by
        have appended := Memory.window_store_append (session.buffers other.other) 0
          (channels other).received.length answer.bytes
        rw [carried.stored, size, Int.zero_add] at appended
        simp only [Channel.receive, List.length_append, List.length_take,
          Nat.min_eq_left there, receive, place, carried.read, Function.update_self]
        rw [appended, bytes]
      inFlight := by
        simp only [receive, Function.update_self, carried.inFlight]
        rfl }
  · rw [Function.update_of_ne same]
    obtain rfl := Side.eq_other same
    have unchanged := implements.carried side.other
    exact {
      written := by
        rw [counts, unchanged.written]
        simp
      read := by
        rw [counts, unchanged.read]
        simp [Ne.symm side.other_ne]
      stored := by
        have apart : side.other.other ≠ side.other := Side.other_ne _
        simpa only [receive, Function.update_of_ne apart] using unchanged.stored
      inFlight := (Function.update_of_ne same ..).trans unchanged.inFlight }

theorem simulation (plan : Plan) :
    Machine.Simulation (machine plan) (Session.channels plan) (Implements plan) where
  start := by
    rintro session ⟨idle, quiet⟩
    refine ⟨fun _ => .empty, fun _ => rfl, fun side => ?_, fun side => ?_⟩
    · rw [idle]
      exact .idle _
    · exact {
        written := by rw [idle]; rfl
        read := by rw [idle]; rfl
        stored := rfl
        inFlight := quiet side }
  step := by
    intro session next channels reached implements step
    cases step with
    | acts side peer step => exact ⟨channels, .refl, implements.acts side step⟩
    | sends side activity here ready answer atLeast atMost works =>
        have sent := Channel.sent_isPrefix (reached.component side)
        obtain ⟨channel, carries, after⟩ := implements.sends sent here ready atMost works
        exact ⟨_, .single (Machine.step_sideBySide carries), after⟩
    | receives side activity here ready answer atLeast atMost there bytes =>
        obtain ⟨channel, carries, after⟩ := implements.receives here ready atMost there bytes
        exact ⟨_, .single (Machine.step_sideBySide carries), after⟩

end Session

/-! ### Descriptors -/

section Descriptors

variable {plan : Session.Plan} {session : Session}

/-- The call that the peer is in, if any, is on the descriptor. -/
def Peer.IsOn (sockfd : Int) (peer : Peer) : Prop :=
  ∀ direction activity, peer.activity = some (direction, activity) →
    activity.sock.sockfd = sockfd

theorem Peer.IsOn.proceed {sockfd : Int} {peer : Peer} (direction : Direction)
    {activity : Activity} (own : activity.sock.sockfd = sockfd) :
    (peer.proceed direction activity).IsOn sockfd := by
  intro other current same
  obtain ⟨-, rfl⟩ := Prod.mk.inj (Option.some.inj same)
  exact own

theorem Peer.Step.isOn {build : Build} {sockfd : Int} {room : Direction → Int}
    {peer next : Peer} (step : peer.Step build sockfd room next) (on : peer.IsOn sockfd) :
    next.IsOn sockfd := by
  cases step with
  | begins direction sock bufLen idle own tcp nonneg inside => exact .proceed direction own
  | goesOn direction activity after here step =>
      have own := on direction activity here
      obtain ⟨-, -, wait, -, next⟩ := step.goesOn
      rcases next with rfl | rfl | rfl <;> exact .proceed direction own
  | returns direction activity last ret here step =>
      intro other current same
      cases same

end Descriptors

/-- The left side is of the select build and writes, the right one polls and writes back. -/
def exchange : Session.Plan where
  build
    | .left => .select
    | .right => .poll
  sockfd
    | .left => 4
    | .right => 5
  message
    | .left => [7, 8]
    | .right => [9]
  capacity := fun _ => 2

end NetClass.Socket
