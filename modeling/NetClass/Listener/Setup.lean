import NetClass.Listener.Steps

/-!
Contract: the way to the accept loop.

Owns: the run of a setup in which every call succeeds, the state of a TCP listener
after it, the answer to an `accept` that succeeds, and what the steps of `stopListening`
cannot add to a log.

Does **not** own: the accept loop itself.
-/

set_option autoImplicit false

namespace NetClass.Listener

open NetClass.Socket

/-- The arguments that pass the check have one of the two options. -/
theorem Arguments.option_of_good {args : Arguments} (good : args.bad = false) :
    args.option = ncThreaded ∨ args.option = ncNonthreaded := by
  simp only [Arguments.bad, Bool.or_eq_false_iff, Bool.and_eq_false_iff, bne_eq_false_iff_eq]
    at good
  exact good.1.2

/-- The events of a setup in which every call succeeds and nobody calls `stopListening`. -/
def setup (args : Arguments) : List Event :=
  [.start (.value 7), .start (.value 0), .start (.value 0)] ++
    (if args.flags &&& ncReuseaddr ≠ 0 then [.start (.value 0)] else []) ++
    [.start (.value 0), .start (.value 0), .start (.value 0)]

/-- A TCP listener after such a setup. -/
def Server.accepting (listener : NcSocketListener) (args : Arguments) (stopper : StopPc) :
    Server :=
  { listener := { listener with sockfd := 7, listening := true }
    args := args
    pc := .acceptTest
    locals := .start
    stopper := stopper
    actions := .socket sockStream 7 ::
      (if args.flags &&& ncReuseaddr ≠ 0 then [.setReuse 7 0] else []) ++
      [.bind 7 listener.port 0 (.other 0), .listen 7 listener.backlog 0, .setNonBlocking 7] }

/-- The answer of an `accept` that succeeds. -/
def arrival (client : Int) : Answer :=
  { Answer.value client with address := List.replicate sizeofSockaddrIn 0 }

/-- The socket for such a client. -/
def arrived (client : Int) : NcSocket := { NcSocket.ofSockfd client with ipaddr := 0 }

section Setup

variable (haveThreads : Bool) {listener : NcSocketListener} {args : Arguments}
variable (stopper : StopPc)

theorem run_setup (tcp : listener.socktype = socktypeTcpip) (good : args.bad = false) :
    (threads haveThreads).run (.begin listener args stopper) (setup args) =
      .accepting listener args stopper := by
  have fresh : (7 : Int) ≠ 0 := by decide
  have success : (0 : Int) ≠ -1 := by decide
  unfold setup Server.accepting
  by_cases reuse : args.flags &&& ncReuseaddr ≠ 0
  · rw [if_pos reuse, if_pos reuse]
    simp only [EventMachine.run, threads, List.cons_append, List.nil_append, List.foldl_cons,
      List.foldl_nil, Server.begin, Server.startListening, Server.goto, Server.issue,
      Answer.value, Server.sockType, Server.afterBind, if_neg fresh, if_neg success,
      if_pos reuse, tcp, good, Bool.false_eq_true, ↓reduceIte]
  · rw [if_neg reuse, if_neg reuse]
    simp only [EventMachine.run, threads, List.cons_append, List.nil_append, List.foldl_cons,
      List.foldl_nil, Server.begin, Server.startListening, Server.goto, Server.issue,
      Answer.value, Server.sockType, Server.afterBind, if_neg fresh, if_neg success,
      if_neg reuse, tcp, good, Bool.false_eq_true, ↓reduceIte]

/-- A condition on the answers of `accept` says nothing about a setup. -/
theorem meets_setup {condition : Server → Event → Prop}
    (free : ∀ server event, server.pc ≠ .accept → condition server event)
    (tcp : listener.socktype = socktypeTcpip) (good : args.bad = false) :
    (threads haveThreads).Meets condition (.begin listener args stopper) (setup args) := by
  have fresh : (7 : Int) ≠ 0 := by decide
  have success : (0 : Int) ≠ -1 := by decide
  unfold setup
  by_cases reuse : args.flags &&& ncReuseaddr ≠ 0
  · rw [if_pos reuse]
    simp only [EventMachine.Meets, threads, List.cons_append, List.nil_append, Server.begin,
      Server.startListening, Server.goto, Server.issue, Answer.value, Server.sockType,
      Server.afterBind, if_neg fresh, if_neg success, if_pos reuse, tcp, good,
      Bool.false_eq_true, ↓reduceIte]
    refine ⟨?_, ?_, ?_, ?_, ?_, ?_, ?_, trivial⟩ <;> exact free _ _ (by simp)
  · rw [if_neg reuse]
    simp only [EventMachine.Meets, threads, List.cons_append, List.nil_append, Server.begin,
      Server.startListening, Server.goto, Server.issue, Answer.value, Server.sockType,
      Server.afterBind, if_neg fresh, if_neg success, if_neg reuse, tcp, good,
      Bool.false_eq_true, ↓reduceIte]
    refine ⟨?_, ?_, ?_, ?_, ?_, ?_, trivial⟩ <;> exact free _ _ (by simp)

end Setup

/-! ### What `stopListening` cannot add -/

/-- `stopListening` adds nothing of a kind that its three calls do not belong to. -/
theorem Stops.silent {server next : Server} (stops : Stops server next) {kind : Action → Bool}
    (sleep : ∀ millisecs, kind (.sleep millisecs) = false)
    (shutdown : ∀ fd how, kind (.shutdown fd how) = false)
    (close : ∀ fd, kind (.close fd) = false) :
    ∃ more, next.actions = server.actions ++ more ∧ more.filter kind = [] := by
  obtain ⟨more, grown, harmless⟩ := stops.actions
  refine ⟨more, grown, List.filter_eq_nil_iff.mpr fun action member => ?_⟩
  rw [Bool.not_eq_true]
  rcases harmless action member with rfl | rfl | rfl
  · exact sleep 250
  · exact shutdown _ 0
  · exact close _

/-! ### Calls through a socket -/

/-- A kind of action that no call through a socket belongs to. -/
theorem filter_clients {kind : Action → Bool} (silent : ∀ call, kind (.client call) = false)
    (calls : List Call) : (calls.map Action.client).filter kind = [] := by
  rw [List.filter_map, List.map_eq_nil_iff, List.filter_eq_nil_iff]
  intro call _
  exact Bool.not_eq_true _ ▸ silent call

end NetClass.Listener
