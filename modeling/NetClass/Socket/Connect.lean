import NetClass.Socket.Basic

/-!
Contract: `ncSocket::connect`.

Owns: the retry loop around `::connect`, the two `connect` functions, and the list of
what they can do to the object.

Does **not** own: how an address is found. The address that resolution yields for
the host name is part of the answers.

`unsigned long timeout` is a natural number: the loop is left as soon as it exceeds
the 32-bit `m_timeout`, so an `unsigned long` of 64 bits does not wrap.
-/

set_option autoImplicit false

namespace NetClass.Socket

/-- What `::connect` answers: its value and the `errno` that is read after it. -/
structure ConnectAnswer where
  ret : Int
  errno : Errno
deriving DecidableEq, Repr

/-- The answers of one `connect`: the value of `socket`, the address of the host if
there is one, and one answer for each `::connect`. -/
structure ConnectAnswers where
  socket : Int
  address : Option Nat
  attempts : List ConnectAnswer
deriving DecidableEq, Repr

namespace Connect

/-- `timeout` and the calls issued so far. -/
structure Locals where
  timeout : Nat
  calls : List Call
deriving DecidableEq, Repr

/-- One evaluation of the condition of the `while` and, if it holds, of the body. -/
def body (sock : NcSocket) (servaddr : SockAddrIn) (locals : Locals) (answer : ConnectAnswer) :
    Pass Locals RetCode :=
  let locals : Locals :=
    { locals with
      calls := locals.calls ++ [.connect sock.sockfd servaddr answer.ret answer.errno] }
  if answer.ret < 0 then
    if ncIsBlockingError answer.errno then
      let locals : Locals := { locals with timeout := locals.timeout + 100 }
      if sock.timeout.toNat < locals.timeout then .leave locals .timedOut
      else .again { locals with calls := locals.calls ++ [.sleep 100] }
    else if ncIsConnected answer.errno then .leave locals .ok
    else .leave locals .failed
  else .leave locals .ok

/-- The loop is only left from within. -/
def loop (sock : NcSocket) (servaddr : SockAddrIn) :
    AnswerLoop Locals ConnectAnswer RetCode where
  guard := fun _ => true
  body := body sock servaddr
  finish := fun _ => .ok

end Connect

/-- The object after a call, the return code and the system calls issued. -/
structure Outcome where
  sock : NcSocket
  ret : RetCode
  calls : List Call
deriving DecidableEq, Repr

namespace NcSocket

/-- `*servaddr` with the address that was found. -/
def servaddr (sock : NcSocket) (address : Nat) : SockAddrIn := ⟨afInet, sock.port, address⟩

/-- `ncSocket::connect()`, or `none` if the answers do not bring it to an end. -/
def connect (sock : NcSocket) (answers : ConnectAnswers) : Option Outcome :=
  let sock := { sock with sockfd := answers.socket }
  if answers.socket = 0 then
    some ⟨sock, .failed, [.socket answers.socket]⟩
  else
    match answers.address with
    | none => some ⟨sock, .failed, [.socket answers.socket]⟩
    | some address =>
        let servaddr := sock.servaddr address
        let sock := { sock with ipaddr := address }
        let start : Connect.Locals :=
          ⟨0, [.socket answers.socket, .setNonBlocking sock.sockfd]⟩
        match (Connect.loop sock servaddr).run start answers.attempts with
        | none => none
        | some (locals, ret) => some ⟨sock, ret, locals.calls⟩

/-- `ncSocket::connect(host,port,sockType)`. -/
def connectTo (sock : NcSocket) (host : Option (List UInt8)) (port : UInt16) (sockType : Int)
    (answers : ConnectAnswers) : Option Outcome :=
  match host with
  | none => some ⟨sock, .failed, []⟩
  | some host =>
      if port = 0 then some ⟨sock, .failed, []⟩
      else
        connect { sock with port := port, socktype := sockType, hostname := copyHostname host }
          answers

end NcSocket

/-! ### What a connect does -/

/-- The log of a connect: `socket` first, and after it calls that move no bytes and
neither open nor close anything. -/
def Call.IsSetup : Call → Prop
  | .setNonBlocking _ | .connect .. | .sleep _ => True
  | _ => False

/-- A connect replaces the descriptor by what `socket` returned, whatever becomes of
it, and leaves the stream alone. -/
structure Connects (sock : NcSocket) (answers : ConnectAnswers) (outcome : Outcome) : Prop where
  sockfd : outcome.sock.sockfd = answers.socket
  stdiofd : outcome.sock.stdiofd = sock.stdiofd
  calls : ∃ rest, outcome.calls = .socket answers.socket :: rest ∧ ∀ call ∈ rest, call.IsSetup

/-- What the retry loop issues. -/
def Call.IsAttempt : Call → Prop
  | .connect .. | .sleep _ => True
  | _ => False

theorem Call.IsAttempt.isSetup {call : Call} (attempt : call.IsAttempt) : call.IsSetup := by
  cases call <;> trivial

/-- The connect goes on past the resolution of the host name. -/
def ConnectAnswers.resolved (answers : ConnectAnswers) : Bool :=
  decide (answers.socket ≠ 0) && answers.address.isSome

theorem Connect.run_calls {sock : NcSocket} {servaddr : SockAddrIn}
    {start final : Connect.Locals} {answers : List ConnectAnswer} {ret : RetCode}
    (returns : (Connect.loop sock servaddr).run start answers = some (final, ret)) :
    ∃ more, final.calls = start.calls ++ more ∧ ∀ call ∈ more, call.IsAttempt := by
  refine AnswerLoop.run_invariant
    (fun locals : Connect.Locals => ∃ more, locals.calls = start.calls ++ more ∧
      ∀ call ∈ more, call.IsAttempt)
    (fun locals _ => ∃ more, locals.calls = start.calls ++ more ∧
      ∀ call ∈ more, call.IsAttempt)
    ?again ?leave (fun _ _ holds => holds) returns ⟨[], by simp, by simp⟩
  case again =>
    rintro locals answer next - ⟨more, grown, attempts⟩ again
    simp only [Connect.loop, Connect.body] at again
    split_ifs at again
    simp only [Pass.again.injEq] at again
    subst again
    refine ⟨more ++ [.connect sock.sockfd servaddr answer.ret answer.errno, .sleep 100], ?_, ?_⟩
    · simp [grown]
    · intro call member
      rcases List.mem_append.mp member with before | last
      · exact attempts call before
      · simp only [List.mem_cons, List.not_mem_nil, or_false] at last
        rcases last with rfl | rfl <;> trivial
  case leave =>
    rintro locals answer last left - ⟨more, grown, attempts⟩ leave
    have log : last.calls =
        locals.calls ++ [.connect sock.sockfd servaddr answer.ret answer.errno] := by
      simp only [Connect.loop, Connect.body] at leave
      split_ifs at leave <;>
        · simp only [Pass.leave.injEq] at leave
          rw [← leave.1]
    refine ⟨more ++ [.connect sock.sockfd servaddr answer.ret answer.errno], ?_, ?_⟩
    · rw [log, grown, List.append_assoc]
    · intro call member
      rcases List.mem_append.mp member with before | last
      · exact attempts call before
      · rw [List.mem_singleton.mp last]
        trivial

/-- A connect fails before it has touched the new descriptor, or it has set it to
non-blocking mode before anything else. -/
theorem NcSocket.connect_cases {sock : NcSocket} {answers : ConnectAnswers} {outcome : Outcome}
    (returns : sock.connect answers = some outcome) :
    (answers.resolved = false ∧
      outcome = ⟨{ sock with sockfd := answers.socket }, .failed, [.socket answers.socket]⟩) ∨
    (answers.resolved = true ∧ ∃ address attempts,
      outcome.sock = { sock with sockfd := answers.socket, ipaddr := address } ∧
      outcome.calls = .socket answers.socket :: .setNonBlocking answers.socket :: attempts ∧
      ∀ call ∈ attempts, call.IsAttempt) := by
  unfold NcSocket.connect at returns
  unfold ConnectAnswers.resolved
  by_cases zero : answers.socket = 0
  · simp only [zero, ↓reduceIte, Option.some.injEq] at returns
    left
    exact ⟨by simp [zero], by rw [zero, returns]⟩
  · simp only [zero, ↓reduceIte] at returns
    cases address : answers.address with
    | none =>
        simp only [address, Option.some.injEq] at returns
        left
        exact ⟨by simp, returns.symm⟩
    | some found =>
        simp only [address] at returns
        split at returns
        · simp at returns
        · next locals ret run =>
            rw [Option.some.injEq] at returns
            subst returns
            obtain ⟨attempts, grown, only⟩ := Connect.run_calls run
            right
            exact ⟨by simp [zero], found, attempts, rfl, by simpa using grown, only⟩

/-- A connect that succeeds has got past the resolution of the host name. -/
theorem NcSocket.resolved_of_ok {sock : NcSocket} {answers : ConnectAnswers} {outcome : Outcome}
    (returns : sock.connect answers = some outcome) (ok : outcome.ret = .ok) :
    answers.resolved = true := by
  rcases NcSocket.connect_cases returns with ⟨-, rfl⟩ | ⟨resolved, -⟩
  · cases ok
  · exact resolved

theorem NcSocket.connects {sock : NcSocket} {answers : ConnectAnswers} {outcome : Outcome}
    (returns : sock.connect answers = some outcome) : Connects sock answers outcome := by
  rcases NcSocket.connect_cases returns with
    ⟨-, rfl⟩ | ⟨-, address, attempts, same, log, only⟩
  · exact ⟨rfl, rfl, [], rfl, by simp⟩
  · refine ⟨by rw [same], by rw [same], .setNonBlocking answers.socket :: attempts, log, ?_⟩
    intro call member
    rcases List.mem_cons.mp member with rfl | later
    · trivial
    · exact (only call later).isSetup

end NetClass.Socket
