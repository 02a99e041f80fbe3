import NetClass.Library.Machine
import NetClass.Socket.Connect
import NetClass.Socket.Transfer

/-!
Contract: the life of an `ncSocket`, from a constructor to the destructor.

Owns: the operations of the class with the kernel's answers to each, the system of
all objects whose operations satisfy a given condition, and `Act`, the list of what
one operation can do to the two fields that hold descriptors.

Does **not** own: who closes what; see `NetClass.Socket.Ownership`.
-/

set_option autoImplicit false

namespace NetClass.Socket

namespace NcSocket

/-- `ncSocket::close`. -/
def close (sock : NcSocket) : NcSocket × List Call :=
  if sock.sockfd = -1 then (sock, [])
  else ({ sock with sockfd := -1 }, [.close sock.sockfd])

/-- `ncSocket::flush`. `opened` tells whether `fdopen` succeeds, `flushed` is the value
of `fflush`. -/
def flush (sock : NcSocket) (opened : Bool) (flushed : Int) : Outcome :=
  let ret : RetCode := if flushed = 0 then .ok else .failed
  match sock.stdiofd with
  | some fd => ⟨sock, ret, [.fflush fd flushed]⟩
  | none =>
      if opened then
        ⟨{ sock with stdiofd := some sock.sockfd }, ret,
          [.fdopen sock.sockfd true, .fflush sock.sockfd flushed]⟩
      else ⟨sock, .failed, [.fdopen sock.sockfd false]⟩

/-- `ncSocket::~ncSocket`. -/
def destroy (sock : NcSocket) : NcSocket × List Call :=
  match sock.stdiofd with
  | some fd => ({ sock with sockfd := -1, stdiofd := none }, [.fclose fd])
  | none =>
      if 0 < sock.sockfd then ({ sock with sockfd := -1 }, [.close sock.sockfd])
      else (sock, [])

end NcSocket

/-- The three constructors. -/
inductive Origin where
  | default
  | ofSockfd (sockfd : Int)
  | ofHost (host : List UInt8) (port : UInt16) (sockType : Int)
deriving DecidableEq, Repr

def Origin.sock : Origin → NcSocket
  | .default => .default
  | .ofSockfd sockfd => .ofSockfd sockfd
  | .ofHost host port sockType => .ofHost host port sockType

/-- The operations, each with the answers of the kernel. -/
inductive Operation where
  | connect (answers : ConnectAnswers)
  | connectTo (host : Option (List UInt8)) (port : UInt16) (sockType : Int)
      (answers : ConnectAnswers)
  | close
  | flush (opened : Bool) (flushed : Int)
  | transfer (build : Build) (direction : Direction) (bufLen : Int) (counted : Bool)
      (answers : List Answer)
  | setTimeout (millisecs : UInt32)
  | setPollTime (millisecs : UInt32)
  | destroy
deriving DecidableEq, Repr

namespace Operation

/-- The object after the operation and the calls it has issued, or `none` if the
answers do not bring it to an end. -/
def run (sock : NcSocket) : Operation → Option (NcSocket × List Call)
  | .connect answers => (sock.connect answers).map fun outcome => (outcome.sock, outcome.calls)
  | .connectTo host port sockType answers =>
      (sock.connectTo host port sockType answers).map
        fun outcome => (outcome.sock, outcome.calls)
  | .close => some sock.close
  | .flush opened flushed =>
      let outcome := sock.flush opened flushed
      some (outcome.sock, outcome.calls)
  | .transfer build direction bufLen counted answers =>
      (build.call direction sock bufLen counted answers).map fun outcome =>
        (sock, outcome.1.calls)
  | .setTimeout millisecs => some (sock.setTimeout millisecs, [])
  | .setPollTime millisecs => some (sock.setPollTime millisecs, [])
  | .destroy => some sock.destroy

/-- The operation asks for a new descriptor. -/
def Asks : Operation → Prop
  | .connect _ => True
  | .connectTo host port _ _ => host.isSome = true ∧ port ≠ 0
  | _ => False

instance (operation : Operation) : Decidable operation.Asks := by
  cases operation <;> unfold Asks <;> infer_instance

end Operation

/-- An object with its history. -/
structure Object where
  origin : Origin
  sock : NcSocket
  calls : List Call
  alive : Bool
deriving DecidableEq, Repr

namespace Object

def make (origin : Origin) : Object := ⟨origin, origin.sock, [], true⟩

/-- Nothing is done to an object after its destructor. -/
def perform (object : Object) (operation : Operation) : Option Object :=
  if object.alive then
    (operation.run object.sock).map fun outcome =>
      { object with
        sock := outcome.1
        calls := object.calls ++ outcome.2
        alive := decide (operation ≠ .destroy) }
  else none

/-- All objects whose operations satisfy `condition` when they are performed. -/
def machine (condition : Object → Operation → Prop) : Machine Object where
  initial := fun object => ∃ origin, object = make origin
  step := fun object next =>
    ∃ operation, condition object operation ∧ object.perform operation = some next

end Object

/-! ### What an operation does to the descriptors -/

/-- A call of a transfer on the descriptor `fd`. -/
def Call.IsOn (fd : Int) (call : Call) : Prop :=
  call.isWait = true ∨
    (∃ name offset length answer, call = .transfer name fd offset length answer) ∨
    ∃ how, call = .shutdown fd how

/-- The wait finds the descriptor ready, and the transfer call follows. -/
def Build.Ready : Build → Direction → Answer → Prop
  | .poll, direction, answer => Poll.Ready direction answer.wait
  | .select, _, answer => Select.Ready answer.wait

/-- The effects of an operation on an object. -/
inductive Act (operation : Operation) (sock : NcSocket) : NcSocket → List Call → Prop where
  | connected (next : NcSocket) (rest : List Call) (asks : operation.Asks)
      (stdiofd : next.stdiofd = sock.stdiofd) (setup : ∀ call ∈ rest, call.IsSetup) :
      Act operation sock next (.socket next.sockfd :: rest)
  | idle (next : NcSocket) (lives : operation ≠ .destroy) (sockfd : next.sockfd = sock.sockfd)
      (stdiofd : next.stdiofd = sock.stdiofd) : Act operation sock next []
  | closed (isClose : operation = .close) :
      Act operation sock { sock with sockfd := -1 } [.close sock.sockfd]
  | flushed (opened : Bool) (value : Int) (isFlush : operation = .flush opened value) (fd : Int)
      (stream : sock.stdiofd = some fd) : Act operation sock sock [.fflush fd value]
  | streamed (value : Int) (isFlush : operation = .flush true value)
      (noStream : sock.stdiofd = none) :
      Act operation sock { sock with stdiofd := some sock.sockfd }
        [.fdopen sock.sockfd true, .fflush sock.sockfd value]
  | notStreamed (value : Int) (isFlush : operation = .flush false value)
      (noStream : sock.stdiofd = none) :
      Act operation sock sock [.fdopen sock.sockfd false]
  | transferred (build : Build) (direction : Direction) (bufLen : Int) (counted : Bool)
      (answers : List Answer)
      (isTransfer : operation = .transfer build direction bufLen counted answers)
      (calls : List Call) (on : ∀ call ∈ calls, call.IsOn sock.sockfd)
      (waits : ¬ (0 < bufLen ∧ ∃ answer ∈ answers, build.Ready direction answer) →
        ∀ call ∈ calls, call.isWait = true) : Act operation sock sock calls
  | streamClosed (isDestroy : operation = .destroy) (fd : Int)
      (stream : sock.stdiofd = some fd) (next : NcSocket) :
      Act operation sock next [.fclose fd]
  | destroyed (isDestroy : operation = .destroy) (noStream : sock.stdiofd = none)
      (positive : 0 < sock.sockfd) (next : NcSocket) :
      Act operation sock next [.close sock.sockfd]
  | dropped (isDestroy : operation = .destroy) (noStream : sock.stdiofd = none)
      (notPositive : ¬ 0 < sock.sockfd) : Act operation sock sock []

/-- What a pass adds to the log is on the descriptor of the object. -/
theorem Turn.isOn {policy : Policy} {direction : Direction} {sock : NcSocket} {bufLen : Int}
    {locals next : Locals} {answer : Answer}
    (turn : Turn policy direction sock bufLen locals answer next) :
    ∀ call ∈ next.calls, call ∈ locals.calls ∨ call.IsOn sock.sockfd := by
  have waited : ∀ wait : Call, wait.isWait = true → ∀ call ∈ (locals.issue wait).calls,
      call ∈ locals.calls ∨ call.IsOn sock.sockfd := by
    intro wait isWait call member
    rcases List.mem_append.mp member with before | last
    · exact Or.inl before
    · rw [List.mem_singleton.mp last]
      exact Or.inr (Or.inl isWait)
  have attempted : ∀ wait : Call, wait.isWait = true →
      ∀ call ∈ ((locals.issue wait).attempt sock direction answer.transfer).calls,
        call ∈ locals.calls ∨ call.IsOn sock.sockfd := by
    intro wait isWait call member
    rcases List.mem_append.mp member with before | last
    · exact waited wait isWait call before
    · rw [List.mem_singleton.mp last]
      exact Or.inr (Or.inr (Or.inl ⟨_, _, _, _, rfl⟩))
  cases turn with
  | spun wait isWait odd => exact waited wait isWait
  | idled wait isWait idle continues => exact waited wait isWait
  | stepped wait isWait woken continues step => exact attempted wait isWait
  | blocked wait isWait woken continues failed stays retry => exact attempted wait isWait
  | gaveUp wait isWait woken continues failed stays ended => exact attempted wait isWait
  | disconnected wait isWait lost broken code failure =>
      intro call member
      rw [Locals.disconnect_calls] at member
      rcases List.mem_append.mp member with before | last
      · exact attempted wait isWait call before
      · rw [List.mem_singleton.mp last]
        exact Or.inr (Or.inr (Or.inr ⟨_, rfl⟩))

/-- A transfer call stays on the descriptor of its object. -/
theorem Build.call_isOn {build : Build} {direction : Direction} {sock : NcSocket}
    {bufLen : Int} {counted : Bool} {answers : List Answer} {final : Locals} {ret : RetCode}
    (returns : build.call direction sock bufLen counted answers = some (final, ret)) :
    ∀ call ∈ final.calls, call.IsOn sock.sockfd := by
  have transfer := build.isTransferLoop direction sock bufLen
  refine AnswerLoop.run_invariant
    (fun locals => ∀ call ∈ locals.calls, call.IsOn sock.sockfd)
    (fun locals _ => ∀ call ∈ locals.calls, call.IsOn sock.sockfd)
    ?again ?leave (fun _ _ holds => holds) returns (by simp [Locals.start])
  case again =>
    intro locals answer next _ holds again call member
    rcases (transfer.again locals next answer again).isOn call member with before | on
    · exact holds call before
    · exact on
  case leave =>
    intro locals answer last left _ holds leave call member
    obtain ⟨-, -, wait, isWait, rfl⟩ := transfer.leave locals last answer left leave
    rcases List.mem_append.mp member with before | last
    · exact holds call before
    · rw [List.mem_singleton.mp last]
      exact Or.inl isWait

/-- A pass whose wait does not let the transfer call through issues the wait only. -/
theorem Build.again_of_not_ready {build : Build} {direction : Direction} {sock : NcSocket}
    {bufLen : Int} {locals next : Locals} {answer : Answer}
    (again : (build.loop direction sock bufLen).body locals answer = .again next)
    (unready : ¬ build.Ready direction answer) :
    ∃ wait : Call, wait.isWait = true ∧ next.calls = locals.calls ++ [wait] := by
  cases build with
  | poll =>
      simp only [Build.loop, Poll.loop, Poll.body, Poll.wait] at again
      split_ifs at again with broken idle one error event <;>
        simp only [Pass.again.injEq] at again <;> subst again
      · exact ⟨_, rfl, rfl⟩
      · exact absurd ⟨one, not_not.mp error, event⟩ unready
      · exact ⟨_, rfl, rfl⟩
  | select =>
      simp only [Build.loop, Select.loop, Select.body, Select.wait] at again
      split_ifs at again with broken idle set <;>
        simp only [Pass.again.injEq] at again <;> subst again
      · exact ⟨_, rfl, rfl⟩
      · exact absurd ⟨broken, idle, set⟩ unready

/-- A call that has nothing to transfer, or never finds its descriptor ready, only
waits. -/
theorem Build.call_waits {build : Build} {direction : Direction} {sock : NcSocket}
    {bufLen : Int} {counted : Bool} {answers : List Answer} {final : Locals} {ret : RetCode}
    (returns : build.call direction sock bufLen counted answers = some (final, ret))
    (idle : ¬ (0 < bufLen ∧ ∃ answer ∈ answers, build.Ready direction answer)) :
    ∀ call ∈ final.calls, call.isWait = true := by
  have transfer := build.isTransferLoop direction sock bufLen
  by_cases positive : 0 < bufLen
  · have unready : ∀ answer ∈ answers, ¬ build.Ready direction answer :=
      fun answer member ready => idle ⟨positive, answer, member, ready⟩
    have grown : ∀ (wait : Call) (locals next : Locals), wait.isWait = true →
        next.calls = locals.calls ++ [wait] → (∀ call ∈ locals.calls, call.isWait = true) →
        ∀ call ∈ next.calls, call.isWait = true := by
      intro wait locals next isWait log holds call member
      rw [log] at member
      rcases List.mem_append.mp member with before | last
      · exact holds call before
      · rw [List.mem_singleton.mp last]
        exact isWait
    refine AnswerLoop.run_history
      (fun locals _ => ∀ call ∈ locals.calls, call.isWait = true)
      (fun locals _ _ => ∀ call ∈ locals.calls, call.isWait = true)
      ?again ?leave (fun _ _ _ holds => holds) returns (by simp [Locals.start])
    case again =>
      intro locals answer next _ member _ holds again
      obtain ⟨wait, isWait, log⟩ := Build.again_of_not_ready again (unready answer member)
      exact grown wait locals next isWait log holds
    case leave =>
      intro locals answer last left _ _ _ holds leave
      obtain ⟨-, -, wait, isWait, rfl⟩ := transfer.leave locals last answer left leave
      exact grown wait locals _ isWait rfl holds
  · have stopped : (build.loop direction sock bufLen).guard (.start bufLen counted) = false := by
      rw [transfer.guard]
      simp [Locals.running, Locals.start, positive]
    rw [Build.call, AnswerLoop.run_of_not_guard stopped, Option.some.injEq,
      Prod.mk.injEq] at returns
    rw [← returns.1]
    simp [Locals.start]

/-- Every operation is one of the acts. -/
theorem Operation.act {operation : Operation} {sock next : NcSocket} {calls : List Call}
    (runs : operation.run sock = some (next, calls)) : Act operation sock next calls := by
  have connects : ∀ (before : NcSocket) (answers : ConnectAnswers) (outcome : Outcome),
      operation.Asks → before.stdiofd = sock.stdiofd → before.connect answers = some outcome →
      Act operation sock outcome.sock outcome.calls := by
    intro before answers outcome asks same returns
    obtain ⟨sockfd, stdiofd, rest, log, setup⟩ := NcSocket.connects returns
    rw [log, ← sockfd]
    exact .connected outcome.sock rest asks (stdiofd.trans same) setup
  cases operation with
  | connect answers =>
      obtain ⟨outcome, returns, same⟩ := Option.map_eq_some_iff.mp runs
      obtain ⟨rfl, rfl⟩ := Prod.mk.inj same
      exact connects sock answers outcome trivial rfl returns
  | connectTo host port sockType answers =>
      obtain ⟨outcome, returns, same⟩ := Option.map_eq_some_iff.mp runs
      obtain ⟨rfl, rfl⟩ := Prod.mk.inj same
      unfold NcSocket.connectTo at returns
      cases host with
      | none =>
          obtain rfl := Option.some.inj returns
          exact .idle sock Operation.noConfusion rfl rfl
      | some name =>
          by_cases zero : port = 0
          · simp only [zero, ↓reduceIte, Option.some.injEq] at returns
            subst returns
            exact .idle sock Operation.noConfusion rfl rfl
          · simp only [zero, ↓reduceIte] at returns
            exact connects _ answers outcome ⟨rfl, zero⟩ (by rfl) returns
  | close =>
      simp only [Operation.run, NcSocket.close, Option.some.injEq] at runs
      split_ifs at runs with none
      · obtain ⟨rfl, rfl⟩ := Prod.mk.inj runs
        exact .idle sock Operation.noConfusion rfl rfl
      · obtain ⟨rfl, rfl⟩ := Prod.mk.inj runs
        exact .closed rfl
  | flush opened flushed =>
      simp only [Operation.run, NcSocket.flush, Option.some.injEq] at runs
      cases stream : sock.stdiofd with
      | some fd =>
          simp only [stream, Prod.mk.injEq] at runs
          obtain ⟨rfl, rfl⟩ := runs
          exact .flushed opened flushed rfl fd stream
      | none =>
          cases opened with
          | true =>
              simp only [stream, ↓reduceIte, Prod.mk.injEq] at runs
              obtain ⟨rfl, rfl⟩ := runs
              exact .streamed flushed rfl stream
          | false =>
              simp only [stream, Bool.false_eq_true, ↓reduceIte, Prod.mk.injEq] at runs
              obtain ⟨rfl, rfl⟩ := runs
              exact .notStreamed flushed rfl stream
  | transfer build direction bufLen counted answers =>
      obtain ⟨⟨final, ret⟩, returns, same⟩ := Option.map_eq_some_iff.mp runs
      obtain ⟨rfl, rfl⟩ := Prod.mk.inj same
      exact .transferred build direction bufLen counted answers rfl final.calls
        (Build.call_isOn returns) (Build.call_waits returns)
  | setTimeout millisecs =>
      obtain ⟨rfl, rfl⟩ := Prod.mk.inj (Option.some.inj runs)
      exact .idle _ Operation.noConfusion rfl rfl
  | setPollTime millisecs =>
      obtain ⟨rfl, rfl⟩ := Prod.mk.inj (Option.some.inj runs)
      exact .idle _ Operation.noConfusion rfl rfl
  | destroy =>
      simp only [Operation.run, NcSocket.destroy, Option.some.injEq] at runs
      cases stream : sock.stdiofd with
      | some fd =>
          simp only [stream, Prod.mk.injEq] at runs
          obtain ⟨rfl, rfl⟩ := runs
          exact .streamClosed rfl fd stream _
      | none =>
          simp only [stream] at runs
          split_ifs at runs with positive
          · obtain ⟨rfl, rfl⟩ := Prod.mk.inj runs
            exact .destroyed rfl stream positive _
          · obtain ⟨rfl, rfl⟩ := Prod.mk.inj runs
            exact .dropped rfl stream positive

end NetClass.Socket
