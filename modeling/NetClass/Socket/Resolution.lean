import NetClass.Library.DottedQuad
import NetClass.Socket.Connect

/-!
Contract: the address that `ncSocket::connect` finds for `m_hostname`.

Owns: the two ways to an address, what `connect` dials and `getIpAddr` reports after it, and
the exact platforms and addresses for which both are the address itself.

Does **not** own: the platforms on which `ncGetInetAddr` is `inet_addr`.

The resolver's bytes are read as an `unsigned long` and cut to the 32 bits of `s_addr`.
`m_ipaddr` is `s_addr` as it stands in memory, without `ntohl`.
-/

set_option autoImplicit false

namespace NetClass.Socket

/-- What the resolution depends on: the byte order, and whether an `unsigned long` has 64
bits or 32. -/
structure Platform where
  order : ByteOrder
  long64 : Bool
deriving DecidableEq, Repr

/-- `sizeof(unsigned long)`. -/
def Platform.sizeofLong (platform : Platform) : Nat := if platform.long64 then 8 else 4

/-- `gethostbyname`: the memory from `h_addr_list[0]` on, or `none` for the null pointer. -/
abbrev Resolver := List UInt8 → Option (List UInt8)

/-- `*((unsigned long *)pHostent->h_addr_list[0])`, assigned to `s_addr`. -/
def Platform.readAddress (platform : Platform) (memory : List UInt8) : Nat :=
  platform.order.decode (memory.take platform.sizeofLong) % 2 ^ 32

/-- `servaddr->sin_addr.s_addr`, or `none` if the host name cannot be resolved. -/
def Platform.resolve (platform : Platform) (resolver : Resolver) (hostname : List UInt8) :
    Option Nat :=
  match DottedQuad.inetPton hostname with
  | some bytes => some (platform.order.decode bytes)
  | none => (resolver hostname).map platform.readAddress

namespace NcSocket

/-- `ncSocket::getIpAddr`. -/
def getIpAddr (sock : NcSocket) : Nat := sock.ipaddr

/-- `ncSocket::connect()` with the resolution of `m_hostname`. -/
def connectHost (sock : NcSocket) (platform : Platform) (resolver : Resolver) (socket : Int)
    (attempts : List ConnectAnswer) : Option Outcome :=
  sock.connect ⟨socket, platform.resolve resolver sock.hostname, attempts⟩

end NcSocket

/-- The two ways in which a host name stands for an address. `next` is what the resolver's
memory has in the four bytes behind the address. -/
inductive StandsFor (resolver : Resolver) (hostname : List UInt8) (address next : Ipv4) :
    Prop where
  | literal (same : hostname = DottedQuad.dotted address)
  | name (rest : List UInt8) (noLiteral : DottedQuad.inetPton hostname = none)
      (found : resolver hostname = some (address.bytes ++ next.bytes ++ rest))

/-- What `::connect` is given. -/
def Call.dials : Call → Option SockAddrIn
  | .connect _ servaddr _ _ => some servaddr
  | _ => none

/-- `connect` has called `::connect`, with the address in network byte order each time, and
`getIpAddr` reports it in host byte order. -/
structure DialsAndReports (platform : Platform) (address : Ipv4) (outcome : Outcome) :
    Prop where
  attempts : outcome.calls.filterMap Call.dials ≠ []
  dials : ∀ servaddr ∈ outcome.calls.filterMap Call.dials,
    platform.order.encode 4 servaddr.address = address.bytes
  reports : outcome.sock.getIpAddr = address.value

/-! ### What is found -/

section Resolution

variable {platform : Platform} {resolver : Resolver} {hostname : List UInt8}
variable {address next : Ipv4}

theorem resolve_literal (literal : hostname = DottedQuad.dotted address) :
    platform.resolve resolver hostname = some (platform.order.decode address.bytes) := by
  rw [Platform.resolve, literal, DottedQuad.inetPton_dotted]

theorem resolve_name {memory : List UInt8} (noLiteral : DottedQuad.inetPton hostname = none)
    (found : resolver hostname = some memory) :
    platform.resolve resolver hostname = some (platform.readAddress memory) := by
  rw [Platform.resolve, noLiteral, found]
  rfl

/-- An `unsigned long` of 32 bits is the address. -/
theorem readAddress_long32 (order : ByteOrder) (rest : List UInt8) :
    Platform.readAddress ⟨order, false⟩ (address.bytes ++ next.bytes ++ rest) =
      order.decode address.bytes := by
  have small : order.decode address.bytes < 2 ^ 32 := by
    rw [← address.span_bytes]
    exact order.decode_lt address.bytes
  have first : (address.bytes ++ next.bytes ++ rest).take 4 = address.bytes := rfl
  rw [Platform.readAddress, Platform.sizeofLong, if_neg Bool.false_ne_true, first,
    Nat.mod_eq_of_lt small]

/-- One of 64 bits has the address in its low half if the least significant byte is
first. -/
theorem readAddress_little (rest : List UInt8) :
    Platform.readAddress ⟨.little, true⟩ (address.bytes ++ next.bytes ++ rest) =
      ByteOrder.little.decode address.bytes := by
  have both : (address.bytes ++ next.bytes ++ rest).take 8 = address.bytes ++ next.bytes := rfl
  rw [Platform.readAddress, Platform.sizeofLong, if_pos rfl, both, ← address.span_bytes]
  exact ByteOrder.decode_little_append_mod address.bytes next.bytes

/-- Otherwise its low half is what stands behind the address. -/
theorem readAddress_big (rest : List UInt8) :
    Platform.readAddress ⟨.big, true⟩ (address.bytes ++ next.bytes ++ rest) =
      ByteOrder.big.decode next.bytes := by
  have both : (address.bytes ++ next.bytes ++ rest).take 8 = address.bytes ++ next.bytes := rfl
  rw [Platform.readAddress, Platform.sizeofLong, if_pos rfl, both, ← next.span_bytes]
  exact ByteOrder.decode_big_append_mod address.bytes next.bytes

/-- What is found is the address as it stands in memory, or what stands behind it. -/
theorem resolve_eq (named : StandsFor resolver hostname address next) :
    platform.resolve resolver hostname = some (platform.order.decode
      (if DottedQuad.inetPton hostname = none ∧ platform.order = .big ∧ platform.long64 = true
        then next.bytes else address.bytes)) := by
  cases named with
  | literal same =>
      have valid : ¬ DottedQuad.inetPton hostname = none := by
        rw [same, DottedQuad.inetPton_dotted]
        exact Option.some_ne_none _
      rw [resolve_literal same, if_neg fun all => valid all.1]
  | name rest noLiteral found =>
      rw [resolve_name noLiteral found]
      obtain ⟨order, long64⟩ := platform
      cases long64 with
      | false =>
          rw [readAddress_long32, if_neg fun all => Bool.noConfusion all.2.2]
      | true =>
          cases order with
          | little => rw [readAddress_little, if_neg fun all => ByteOrder.noConfusion all.2.1]
          | big => rw [readAddress_big, if_pos ⟨noLiteral, rfl, rfl⟩]

/-- The address as it stands in memory is its value exactly if the most significant byte is
first, or it reads the same backwards. -/
theorem decode_eq_value_iff (order : ByteOrder) (address : Ipv4) :
    order.decode address.bytes = address.value ↔
      (order = .little → address.bytes.reverse = address.bytes) := by
  rw [← address.decode_bytes]
  cases order with
  | little =>
      rw [ByteOrder.decode_little_eq_big_iff]
      exact ⟨fun backwards _ => backwards, fun backwards => backwards rfl⟩
  | big => exact iff_of_true rfl fun little => ByteOrder.noConfusion little

end Resolution

/-! ### What is dialled -/

/-- The retry loop dials one address, at least once. -/
theorem Connect.run_dials {sock : NcSocket} {servaddr : SockAddrIn}
    {start final : Connect.Locals} {answers : List ConnectAnswer} {ret : RetCode}
    (returns : (Connect.loop sock servaddr).run start answers = some (final, ret))
    (before : start.calls.filterMap Call.dials = []) :
    final.calls.filterMap Call.dials ≠ [] ∧
      ∀ dialled ∈ final.calls.filterMap Call.dials, dialled = servaddr := by
  refine AnswerLoop.run_invariant
    (fun locals : Connect.Locals =>
      ∀ dialled ∈ locals.calls.filterMap Call.dials, dialled = servaddr)
    (fun locals _ => locals.calls.filterMap Call.dials ≠ [] ∧
      ∀ dialled ∈ locals.calls.filterMap Call.dials, dialled = servaddr)
    ?again ?leave (fun _ stopped _ => Bool.noConfusion stopped) returns (by simp [before])
  case again =>
    intro locals answer next _ same again
    simp only [Connect.loop, Connect.body] at again
    split_ifs at again
    rw [← Pass.again.inj again]
    simpa [Call.dials, or_imp, forall_and] using same
  case leave =>
    intro locals answer last left _ same leave
    have log : last.calls =
        locals.calls ++ [.connect sock.sockfd servaddr answer.ret answer.errno] := by
      simp only [Connect.loop, Connect.body] at leave
      split_ifs at leave <;>
        · simp only [Pass.leave.injEq] at leave
          rw [← leave.1]
    rw [log]
    simpa [Call.dials, or_imp, forall_and] using same

section Dialling

variable {sock : NcSocket} {socket : Int} {sAddr : Nat} {attempts : List ConnectAnswer}
variable {outcome : Outcome}

/-- A connect that has got past the resolution has stored what it dials. -/
theorem NcSocket.connect_ipaddr (opened : socket ≠ 0)
    (returns : sock.connect ⟨socket, some sAddr, attempts⟩ = some outcome) :
    outcome.sock.getIpAddr = sAddr := by
  simp only [NcSocket.connect, if_neg opened] at returns
  split at returns
  · cases returns
  · rw [← Option.some.inj returns]
    rfl

theorem NcSocket.connect_dials (opened : socket ≠ 0)
    (returns : sock.connect ⟨socket, some sAddr, attempts⟩ = some outcome) :
    outcome.calls.filterMap Call.dials ≠ [] ∧
      ∀ servaddr ∈ outcome.calls.filterMap Call.dials, servaddr = sock.servaddr sAddr := by
  simp only [NcSocket.connect, if_neg opened] at returns
  split at returns
  · cases returns
  · next run =>
      rw [← Option.some.inj returns]
      exact Connect.run_dials run rfl

/-- Such a connect does what it should exactly if the one number that it dials and stores is
the address both in memory and as a value. -/
theorem dialsAndReports_iff {platform : Platform} {address : Ipv4} (opened : socket ≠ 0)
    (returns : sock.connect ⟨socket, some sAddr, attempts⟩ = some outcome) :
    DialsAndReports platform address outcome ↔
      platform.order.encode 4 sAddr = address.bytes ∧ sAddr = address.value := by
  obtain ⟨some, same⟩ := NcSocket.connect_dials opened returns
  have stored := NcSocket.connect_ipaddr opened returns
  constructor
  · intro right
    obtain ⟨servaddr, dialled⟩ := List.exists_mem_of_ne_nil _ some
    have network := right.dials servaddr dialled
    rw [same servaddr dialled] at network
    exact ⟨network, stored.symm.trans right.reports⟩
  · rintro ⟨network, value⟩
    refine ⟨some, fun servaddr dialled => ?_, stored.trans value⟩
    rw [same servaddr dialled]
    exact network

end Dialling

/-- `connect` dials and reports an address as it should exactly if the address reads the same
backwards where the least significant byte is first, and what stands behind it in the
resolver's memory is the same address where an `unsigned long` has 64 bits and the most
significant byte is first. -/
theorem dials_and_reports_iff (platform : Platform) (resolver : Resolver) (sock : NcSocket)
    (address next : Ipv4) (named : StandsFor resolver sock.hostname address next) (socket : Int)
    (opened : socket ≠ 0) (attempts : List ConnectAnswer) (outcome : Outcome)
    (returns : sock.connectHost platform resolver socket attempts = some outcome) :
    DialsAndReports platform address outcome ↔
      (platform.order = .little → address.bytes.reverse = address.bytes) ∧
        (DottedQuad.inetPton sock.hostname = none → platform.order = .big →
          platform.long64 = true → next = address) := by
  have resolved : platform.resolve resolver sock.hostname = _ := resolve_eq named
  rw [NcSocket.connectHost, resolved] at returns
  rw [dialsAndReports_iff opened returns]
  by_cases behind : DottedQuad.inetPton sock.hostname = none ∧ platform.order = .big ∧
      platform.long64 = true
  · rw [if_pos behind]
    have dialled : platform.order.encode 4 (platform.order.decode next.bytes) = next.bytes := by
      rw [← next.length_bytes, ByteOrder.encode_decode]
    have notLittle : platform.order ≠ .little := by
      rw [behind.2.1]
      exact ByteOrder.noConfusion
    rw [dialled]
    constructor
    · rintro ⟨same, -⟩
      exact ⟨fun little => absurd little notLittle, fun _ _ _ => Ipv4.bytes_inj.mp same⟩
    · rintro ⟨-, standsBehind⟩
      obtain rfl := standsBehind behind.1 behind.2.1 behind.2.2
      refine ⟨rfl, ?_⟩
      exact (decode_eq_value_iff platform.order next).mpr fun little => absurd little notLittle
  · rw [if_neg behind]
    have dialled : platform.order.encode 4 (platform.order.decode address.bytes) =
        address.bytes := by
      rw [← address.length_bytes, ByteOrder.encode_decode]
    rw [dialled, ← decode_eq_value_iff platform.order address]
    constructor
    · rintro ⟨-, value⟩
      refine ⟨value, fun noLiteral big long64 => ?_⟩
      exact absurd ⟨noLiteral, big, long64⟩ behind
    · rintro ⟨value, -⟩
      exact ⟨rfl, value⟩

/-- 10.7.7.10. -/
def palindrome : Ipv4 := ⟨10, 7, 7, 10⟩

/-- 127.0.0.1. -/
def loopback : Ipv4 := ⟨127, 0, 0, 1⟩

/-- A machine with the least significant byte first and an `unsigned long` of 64 bits. -/
def littleEndian64 : Platform := ⟨.little, true⟩

/-- A socket for 10.7.7.10. -/
theorem dials_and_reports_iff_palindrome : ∃ outcome,
    (NcSocket.ofHost (DottedQuad.dotted palindrome) 80 socktypeTcpip).connectHost littleEndian64
      (fun _ => none) 3 [⟨0, .other 0⟩] = some outcome ∧
    DialsAndReports littleEndian64 palindrome outcome := by
  refine ⟨_, rfl, ?_⟩
  refine (dials_and_reports_iff littleEndian64 (fun _ => none)
    (.ofHost (DottedQuad.dotted palindrome) 80 socktypeTcpip) palindrome palindrome
    (.literal rfl) 3 (by decide) [⟨0, .other 0⟩] _ rfl).mpr ?_
  exact ⟨fun _ => rfl, fun _ _ _ => rfl⟩

/-- After a connect to 127.0.0.1 that succeeds, `getIpAddr` reports 1.0.0.127. -/
theorem reports_backwards : ∃ outcome,
    (NcSocket.ofHost (DottedQuad.dotted loopback) 80 socktypeTcpip).connectHost littleEndian64
      (fun _ => none) 3 [⟨0, .other 0⟩] = some outcome ∧
    outcome.ret = .ok ∧ outcome.sock.getIpAddr = 16777343 ∧ loopback.value = 2130706433 :=
  ⟨_, rfl, rfl, rfl, rfl⟩

end NetClass.Socket
