import NetClass.Socket.Object

/-!
Contract: where the datagrams of an `ncSocket` go.

Owns: `m_to` over the life of an object, the system of the object and the kernel, which
remembers the peer that it has connected the descriptor to, and the proof that a datagram goes
to this peer, and to whoever was heard last.

Does **not** own: what becomes of a datagram; see `NetClass.Socket.UdpWrite` and
`NetClass.Socket.UdpRead`.

`m_to` is set by every `connect` over UDP, also by one that fails after it has got a
descriptor, and by every `recvfrom` that succeeds. `sendto` sends to it. Over TCP it keeps
what it held.
-/

set_option autoImplicit false

namespace NetClass.Socket

namespace NcSocket

/-- `*servaddr`, as far as `connect` gets. `unresolved` is what a lookup that finds nothing
leaves in `sin_addr`. -/
def dialled (sock : NcSocket) (answers : ConnectAnswers) (unresolved : Nat) : SockAddrIn :=
  sock.servaddr (answers.address.getD unresolved)

/-- `m_to` after `ncSocket::connect()`. Over TCP `servaddr` is a variable of its own. -/
def dial (sock : NcSocket) (toAddr : SockAddrIn) (answers : ConnectAnswers)
    (unresolved : Nat) : SockAddrIn :=
  if answers.socket = 0 ∨ sock.socktype = socktypeTcpip then toAddr
  else sock.dialled answers unresolved

/-- The fields that `ncSocket::connect(host,port,sockType)` sets. -/
def named (sock : NcSocket) (host : List UInt8) (port : UInt16) (sockType : Int) : NcSocket :=
  { sock with port := port, socktype := sockType, hostname := copyHostname host }

end NcSocket

/-- A datagram is sent to `m_to`. -/
def Call.isSendto : Call → Bool
  | .transfer .sendto .. => true
  | _ => false

/-- The kernel may store an address in `m_to`. -/
def Call.storesSender : Call → Bool
  | .transfer .recvfrom _ _ _ answer => decide (0 ≤ answer.ret)
  | _ => false

/-- A `sendto`: the peer of the descriptor, the last sender that was heard on it, and the
address that the call is given. -/
structure Dispatch where
  peer : Option SockAddrIn
  heard : Option SockAddrIn
  toAddr : SockAddrIn
deriving DecidableEq, Repr

/-- A datagram goes to the peer, if there is one, and to the last sender, if there is one. -/
structure Dispatch.Directed (datagram : Dispatch) : Prop where
  peer : ∀ peer, datagram.peer = some peer → datagram.toAddr = peer
  heard : ∀ sender, datagram.heard = some sender → datagram.toAddr = sender

/-- The object with its `m_to`, the peer that the kernel has connected its descriptor to, the
last sender of a datagram that was read since the last `connect`, and the datagrams sent. -/
structure Correspondent where
  sock : NcSocket
  toAddr : SockAddrIn
  peer : Option SockAddrIn
  heard : Option SockAddrIn
  sent : List Dispatch
deriving DecidableEq, Repr

namespace Correspondent

def make (origin : Origin) : Correspondent :=
  { sock := origin.sock, toAddr := .zero, peer := none, heard := none, sent := [] }

/-- What `sendto` sends now. -/
def dispatch (correspondent : Correspondent) : Dispatch :=
  ⟨correspondent.peer, correspondent.heard, correspondent.toAddr⟩

/-- `connect()` has been called on `sock`, the object with the fields of the call. -/
def connected (correspondent : Correspondent) (sock : NcSocket) (answers : ConnectAnswers)
    (unresolved : Nat) (outcome : Outcome) : Correspondent where
  sock := outcome.sock
  toAddr := sock.dial correspondent.toAddr answers unresolved
  peer := if outcome.ret = .ok then some (sock.dialled answers unresolved) else none
  heard := none
  sent := correspondent.sent

/-- The operations. A connected descriptor gets datagrams from its peer only. -/
inductive Step (correspondent : Correspondent) : Correspondent → Prop where
  | connects (answers : ConnectAnswers) (unresolved : Nat) (outcome : Outcome)
      (returns : correspondent.sock.connect answers = some outcome) :
      Step correspondent
        (correspondent.connected correspondent.sock answers unresolved outcome)
  | connectsTo (host : List UInt8) (port : UInt16) (sockType : Int) (answers : ConnectAnswers)
      (unresolved : Nat) (outcome : Outcome) (nonzero : port ≠ 0)
      (returns : correspondent.sock.connectTo (some host) port sockType answers = some outcome) :
      Step correspondent
        (correspondent.connected (correspondent.sock.named host port sockType) answers
          unresolved outcome)
  | closes : Step correspondent
      { correspondent with sock := correspondent.sock.close.1, peer := none }
  | flushes (opened : Bool) (flushed : Int) : Step correspondent
      { correspondent with sock := (correspondent.sock.flush opened flushed).sock }
  | sets (timeout polltime : UInt32) : Step correspondent
      { correspondent with
        sock := (correspondent.sock.setTimeout timeout).setPollTime polltime }
  | reads (build : Build) (bufLen : Int) (counted : Bool) (answers : List Answer)
      (final : Locals) (ret : RetCode)
      (returns : build.call .read correspondent.sock bufLen counted answers = some (final, ret))
      (senders : List SockAddrIn)
      (stored : senders.length ≤ final.calls.countP Call.storesSender)
      (filtered : ∀ peer, correspondent.peer = some peer → ∀ sender ∈ senders, sender = peer) :
      Step correspondent
        { correspondent with
          toAddr := senders.getLast?.getD correspondent.toAddr
          heard := senders.getLast?.or correspondent.heard }
  | writes (build : Build) (bufLen : Int) (counted : Bool) (answers : List Answer)
      (final : Locals) (ret : RetCode)
      (returns : build.call .write correspondent.sock bufLen counted answers =
        some (final, ret)) :
      Step correspondent
        { correspondent with
          sent := correspondent.sent ++
            List.replicate (final.calls.countP Call.isSendto) correspondent.dispatch }

/-- A new object. -/
def machine : Machine Correspondent where
  initial := fun correspondent => ∃ origin : Origin, correspondent = make origin
  step := Step

end Correspondent

/-! ### What the operations do to the type of the socket -/

@[simp] theorem NcSocket.close_socktype (sock : NcSocket) :
    sock.close.1.socktype = sock.socktype := by
  unfold NcSocket.close
  split_ifs <;> rfl

@[simp] theorem NcSocket.flush_socktype (sock : NcSocket) (opened : Bool) (flushed : Int) :
    (sock.flush opened flushed).sock.socktype = sock.socktype := by
  unfold NcSocket.flush
  cases sock.stdiofd with
  | some fd => rfl
  | none => cases opened <;> rfl

theorem NcSocket.connect_socktype {sock : NcSocket} {answers : ConnectAnswers}
    {outcome : Outcome} (returns : sock.connect answers = some outcome) :
    outcome.sock.socktype = sock.socktype := by
  rcases NcSocket.connect_cases returns with ⟨-, rfl⟩ | ⟨-, address, attempts, same, -⟩
  · rfl
  · rw [same]

/-- A `connect` that returns `NC_OK` over UDP has set `m_to`. -/
theorem NcSocket.dial_of_ok {sock : NcSocket} {answers : ConnectAnswers} {outcome : Outcome}
    (returns : sock.connect answers = some outcome) (ok : outcome.ret = .ok)
    (datagrams : sock.socktype ≠ socktypeTcpip) (toAddr : SockAddrIn) (unresolved : Nat) :
    sock.dial toAddr answers unresolved = sock.dialled answers unresolved := by
  have resolved := NcSocket.resolved_of_ok returns ok
  simp only [ConnectAnswers.resolved, Bool.and_eq_true, decide_eq_true_eq] at resolved
  exact if_neg (not_or.mpr ⟨resolved.1, datagrams⟩)

/-- Over TCP no call sends a datagram. -/
theorem Build.countP_isSendto_of_tcp {build : Build} {direction : Direction} {sock : NcSocket}
    {bufLen : Int} {counted : Bool} {answers : List Answer} {final : Locals} {ret : RetCode}
    (returns : build.call direction sock bufLen counted answers = some (final, ret))
    (tcp : sock.socktype = socktypeTcpip) : final.calls.countP Call.isSendto = 0 := by
  have stream : OfCalls direction sock fun call => call.isSendto = false :=
    { waits := by
        intro call isWait
        cases call <;> first | rfl | cases isWait
      transfers := by
        intro pPtr nRemaining answer _
        cases direction <;> simp [NcSocket.transferCall, tcp, Call.isSendto]
      shuts := rfl }
  have all := (build.isTransferLoop direction sock bufLen).forall_calls returns stream
  exact List.countP_eq_zero.mpr fun call member => by simp [all call member]

/-! ### The invariant -/

namespace Correspondent

/-- What the object would send now is directed, unless it is a TCP socket, and so is what it
has sent. -/
structure Sound (correspondent : Correspondent) : Prop where
  aligned : correspondent.sock.socktype ≠ socktypeTcpip → correspondent.dispatch.Directed
  sent : ∀ datagram ∈ correspondent.sent, datagram.Directed

variable {correspondent next : Correspondent}

theorem Sound.make (origin : Origin) : (make origin).Sound where
  aligned := fun _ => ⟨by simp [dispatch, Correspondent.make],
    by simp [dispatch, Correspondent.make]⟩
  sent := by simp [Correspondent.make]

/-- A step that keeps the type of the socket and `m_to`, and loses the peer at most. -/
theorem Sound.keep (sound : correspondent.Sound) {sock : NcSocket} {peer : Option SockAddrIn}
    (socktype : sock.socktype = correspondent.sock.socktype)
    (lost : peer = correspondent.peer ∨ peer = none) :
    Sound { correspondent with sock := sock, peer := peer } where
  aligned := by
    intro datagrams
    have before := sound.aligned (socktype ▸ datagrams)
    refine ⟨?_, before.heard⟩
    intro other same
    rcases lost with rfl | rfl
    · exact before.peer other same
    · cases same
  sent := sound.sent

/-- Whatever `connect` returns, `m_to` is the peer, or there is none. -/
theorem Sound.connected (sound : correspondent.Sound) {sock : NcSocket}
    {answers : ConnectAnswers} {outcome : Outcome}
    (returns : sock.connect answers = some outcome) (unresolved : Nat) :
    (correspondent.connected sock answers unresolved outcome).Sound where
  aligned := by
    intro datagrams
    have udp : sock.socktype ≠ socktypeTcpip := NcSocket.connect_socktype returns ▸ datagrams
    constructor
    · intro peer same
      simp only [dispatch, Correspondent.connected, Option.ite_none_right_eq_some,
        Option.some.injEq] at same
      obtain ⟨ok, rfl⟩ := same
      exact NcSocket.dial_of_ok returns ok udp correspondent.toAddr unresolved
    · intro sender same
      cases same
  sent := sound.sent

/-- A read sets `m_to` to the last sender, and a connected descriptor knows one only. -/
theorem Sound.reads (sound : correspondent.Sound) {senders : List SockAddrIn}
    (filtered : ∀ peer, correspondent.peer = some peer → ∀ sender ∈ senders, sender = peer) :
    Sound
      { correspondent with
        toAddr := senders.getLast?.getD correspondent.toAddr
        heard := senders.getLast?.or correspondent.heard } where
  aligned := by
    intro datagrams
    cases last : senders.getLast? with
    | none => exact sound.aligned datagrams
    | some sender =>
        refine ⟨?_, fun _ same => Option.some.inj same⟩
        intro peer connected
        exact filtered peer connected sender (List.mem_of_getLast? last)
  sent := sound.sent

theorem Sound.writes (sound : correspondent.Sound) {build : Build} {bufLen : Int}
    {counted : Bool} {answers : List Answer} {final : Locals} {ret : RetCode}
    (returns : build.call .write correspondent.sock bufLen counted answers =
      some (final, ret)) :
    Sound
      { correspondent with
        sent := correspondent.sent ++
          List.replicate (final.calls.countP Call.isSendto) correspondent.dispatch } where
  aligned := sound.aligned
  sent := by
    intro datagram member
    rcases List.mem_append.mp member with before | now
    · exact sound.sent datagram before
    · obtain ⟨some, rfl⟩ := List.mem_replicate.mp now
      refine sound.aligned fun tcp => some ?_
      exact Build.countP_isSendto_of_tcp returns tcp

theorem Sound.step (sound : correspondent.Sound) (step : Step correspondent next) :
    next.Sound := by
  cases step with
  | connects answers unresolved outcome returns => exact sound.connected returns unresolved
  | connectsTo host port sockType answers unresolved outcome nonzero returns =>
      simp only [NcSocket.connectTo, nonzero, ↓reduceIte] at returns
      exact sound.connected returns unresolved
  | closes => exact sound.keep (NcSocket.close_socktype _) (Or.inr rfl)
  | flushes opened flushed => exact sound.keep (NcSocket.flush_socktype ..) (Or.inl rfl)
  | sets timeout polltime => exact sound.keep rfl (Or.inl rfl)
  | reads build bufLen counted answers final ret returns senders stored filtered =>
      exact sound.reads filtered
  | writes build bufLen counted answers final ret returns => exact sound.writes returns

theorem sound_of_reachable (reachable : machine.Reachable correspondent) :
    correspondent.Sound := by
  refine reachable.invariant Sound ?_ fun _ _ _ sound step => sound.step step
  rintro _ ⟨origin, rfl⟩
  exact Sound.make origin

/-! ### Main result -/

/-- One datagram of `size` bytes is transferred at once. -/
def once (size : Nat) : List Answer :=
  [⟨⟨1, pollIn, true⟩, ⟨size, .other 0, List.replicate size 1⟩⟩]

def server : SockAddrIn := ⟨afInet, 7, 9⟩

/-- A client that sends a request to its server, reads the answer, and sends another one. -/
def client : Correspondent where
  sock := { NcSocket.ofHost [49] 7 socktypeUdp with sockfd := 4, ipaddr := 9 }
  toAddr := server
  peer := some server
  heard := some server
  sent := [⟨some server, none, server⟩, ⟨some server, some server, server⟩]

end Correspondent

end NetClass.Socket
