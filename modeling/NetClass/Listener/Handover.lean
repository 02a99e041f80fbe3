import NetClass.Library.Precedence
import NetClass.Library.Reading
import NetClass.Listener.Setup

/-!
Contract: each accepted connection is handed over exactly once.

Owns: the clients that a run accepts, what the log says about their sockets, the
condition under which each of them is handed over, and the proof for every interleaving
with `stopListening`.

Does **not** own: what `fnptr` does with its socket. Once it has been called the socket
is its own.

A build without `HAVE_THREADS` has an `ncThread::start` that does nothing and returns
`NC_OK`.
-/

set_option autoImplicit false

namespace NetClass.Listener

open NetClass.Socket

/-- The socket that an accepted client is to be handed over with. -/
def clientSocket (answer : Answer) : NcSocket :=
  { NcSocket.ofSockfd answer.ret with ipaddr := inAddr answer.address }

/-- The client that a step accepts. -/
def accepts (server : Server) : Event → Option NcSocket
  | .start answer =>
      if server.pc = .accept ∧ answer.ret ≠ -1 then some (clientSocket answer) else none
  | .stop => none

/-- The clients that a run has accepted. -/
def accepted (history : List (Server × Event)) : List NcSocket :=
  history.filterMap fun entry => accepts entry.1 entry.2

/-- The kernel stores a whole address and a descriptor that is not in use. -/
def HonestAccept (server : Server) : Event → Prop
  | .start answer =>
      server.pc = .accept → answer.ret ≠ -1 →
        answer.address.length = sizeofSockaddrIn ∧ answer.ret ≠ server.listener.sockfd
  | .stop => True

/-! ### Calls about sockets -/

def Action.constructs : Action → Option NcSocket
  | .construct sock => some sock
  | _ => none

/-- The socket that `fnptr` is run with, inline or on a thread that was created for it. -/
def Action.hands : Action → Option NcSocket
  | .callback sock => some sock
  | .create _ sock ret => if ret = 0 then some sock else none
  | _ => none

def Action.deletes : Action → Option NcSocket
  | .delete sock => some sock
  | _ => none

/-- The system call that the listener makes through an `ncSocket`. -/
def Action.throughSocket : Action → Option Call
  | .client call => some call
  | _ => none

def Action.ofSocket : Action → Bool
  | .construct _ | .create _ _ _ | .delete _ | .client _ | .callback _ => true
  | _ => false

/-- What a log says about the sockets: those that were constructed, those that were handed
over and those that were deleted. Only what is deleted is touched. -/
structure Dealt (log : List Action) (constructed handed deleted : List NcSocket) : Prop where
  constructs : log.filterMap Action.constructs = constructed
  hands : log.filterMap Action.hands = handed
  deletes : log.filterMap Action.deletes = deleted
  touches : log.filterMap Action.throughSocket = deleted.flatMap fun sock => sock.destroy.2

/-- How far a call is with the clients that it has accepted. Either all are handed over,
or all but the last, which is about to be, or all but the last, which was deleted before
`NC_FAILED` was returned. -/
inductive Handed (server : Server) : List NcSocket → Prop where
  | all (clients : List NcSocket) (dealt : Dealt server.actions clients clients []) :
      Handed server clients
  | next (earlier : List NcSocket) (last : NcSocket)
      (coming : server.pc = .spawn ∨ server.pc = .call)
      (dealt : Dealt server.actions earlier earlier []) : Handed server (earlier ++ [last])
  | refused (earlier : List NcSocket) (last : NcSocket)
      (failed : server.pc = .returned .failed)
      (dealt : Dealt server.actions (earlier ++ [last]) earlier [last])
      (closed : 0 < last.sockfd → .client (.close last.sockfd) ∈ server.actions) :
      Handed server (earlier ++ [last])

/-- Whoever closes a descriptor in `stopListening` does not close one that was handed
over. -/
def ClosesOwn (before : List Action) (action : Action) : Prop :=
  ∀ fd, action = .close fd →
    ∀ sock ∈ before.filterMap Action.hands, 0 < sock.sockfd → sock.sockfd ≠ fd

/-- Each client is handed over exactly once, and none is closed after that. -/
structure HandedOver (server : Server) (clients : List NcSocket) : Prop where
  handed : Handed server clients
  kept : Justified ClosesOwn server.actions

/-! ### What a step adds -/

theorem readsOnly_constructs : ReadsOnly Action.ofSocket Action.constructs := by
  intro action other
  cases action <;> first | rfl | cases other

theorem readsOnly_hands : ReadsOnly Action.ofSocket Action.hands := by
  intro action other
  cases action <;> first | rfl | cases other

theorem readsOnly_deletes : ReadsOnly Action.ofSocket Action.deletes := by
  intro action other
  cases action <;> first | rfl | cases other

theorem readsOnly_throughSocket : ReadsOnly Action.ofSocket Action.throughSocket := by
  intro action other
  cases action <;> first | rfl | cases other

section Append

variable {log more entries : List Action} {constructed handed deleted : List NcSocket}

theorem Dealt.append {moreConstructed moreHanded moreDeleted : List NcSocket}
    (dealt : Dealt log constructed handed deleted)
    (kinds : more.filter Action.ofSocket = entries)
    (constructs : entries.filterMap Action.constructs = moreConstructed)
    (hands : entries.filterMap Action.hands = moreHanded)
    (deletes : entries.filterMap Action.deletes = moreDeleted)
    (touches : entries.filterMap Action.throughSocket =
      moreDeleted.flatMap fun sock => sock.destroy.2) :
    Dealt (log ++ more) (constructed ++ moreConstructed) (handed ++ moreHanded)
      (deleted ++ moreDeleted) := by
  constructor
  · rw [readsOnly_constructs.append log kinds, dealt.constructs, constructs]
  · rw [readsOnly_hands.append log kinds, dealt.hands, hands]
  · rw [readsOnly_deletes.append log kinds, dealt.deletes, deletes]
  · rw [readsOnly_throughSocket.append log kinds, dealt.touches, touches, List.flatMap_append]

/-- Calls that are not about sockets change nothing. -/
theorem Dealt.silent (dealt : Dealt log constructed handed deleted)
    (silent : more.filter Action.ofSocket = []) :
    Dealt (log ++ more) constructed handed deleted := by
  rw [← List.append_nil constructed, ← List.append_nil handed, ← List.append_nil deleted]
  exact dealt.append silent rfl rfl rfl rfl

/-- A socket is constructed and handed over. -/
theorem Dealt.hand {sock : NcSocket} {call : Action} (dealt : Dealt log constructed handed deleted)
    (calls : more.filter Action.ofSocket = [.construct sock, call])
    (hands : call = .callback sock ∨ ∃ thread, call = .create thread sock 0) :
    Dealt (log ++ more) (constructed ++ [sock]) (handed ++ [sock]) deleted := by
  rw [← List.append_nil deleted]
  rcases hands with rfl | ⟨thread, rfl⟩
  · exact dealt.append calls rfl rfl rfl rfl
  · exact dealt.append calls rfl rfl rfl rfl

/-- A socket is constructed and deleted again. -/
theorem Dealt.refuse {sock : NcSocket} {thread : Nat} {ret : Int} (failed : ret ≠ 0)
    (dealt : Dealt log constructed handed deleted)
    (calls : more.filter Action.ofSocket = .construct sock :: .create thread sock ret ::
      .delete sock :: sock.destroy.2.map Action.client) :
    Dealt (log ++ more) (constructed ++ [sock]) handed (deleted ++ [sock]) := by
  have clients : ∀ read : Action → Option NcSocket, (∀ call, read (.client call) = none) →
      (sock.destroy.2.map Action.client).filterMap read = [] := by
    intro read silent
    rw [List.filterMap_map, List.filterMap_eq_nil_iff]
    exact fun call _ => silent call
  have notCreated : Action.hands (.create thread sock ret) = none := if_neg failed
  rw [← List.append_nil handed]
  apply dealt.append calls
  · show sock :: (sock.destroy.2.map Action.client).filterMap Action.constructs = [sock]
    rw [clients _ fun _ => rfl]
  · rw [List.filterMap_cons_none rfl, List.filterMap_cons_none notCreated,
      List.filterMap_cons_none rfl, clients _ fun _ => rfl]
  · show sock :: (sock.destroy.2.map Action.client).filterMap Action.deletes = [sock]
    rw [clients _ fun _ => rfl]
  · show (sock.destroy.2.map Action.client).filterMap Action.throughSocket =
      sock.destroy.2 ++ []
    rw [List.filterMap_map, List.append_nil]
    exact List.filterMap_some

end Append

/-- Only two program points are about sockets. -/
theorem Server.sockets_issued (haveThreads : Bool) {server : Server} (answer : Answer)
    (notSpawn : server.pc ≠ .spawn) (notCall : server.pc ≠ .call) :
    (server.issued haveThreads answer).filter Action.ofSocket = [] := by
  unfold Server.issued NcThread.detach NcThread.join threadCall
  cases pc : server.pc <;> dsimp only
  case spawn => exact absurd pc notSpawn
  case call => exact absurd pc notCall
  all_goals (try split_ifs) <;> rfl

/-- What the attempt to start a thread adds. -/
theorem Server.sockets_spawn {server : Server} (answer : Answer) (atSpawn : server.pc = .spawn) :
    (server.issued true answer).filter Action.ofSocket =
      .construct server.locals.newSock ::
        .create answer.thread server.locals.newSock answer.ret ::
          if answer.ret ≠ 0 then
            .delete server.locals.newSock :: server.locals.newSock.destroy.2.map Action.client
          else [] := by
  have clients : (server.locals.newSock.destroy.2.map Action.client).filter Action.ofSocket =
      server.locals.newSock.destroy.2.map Action.client := by
    apply List.filter_eq_self.mpr
    intro action member
    obtain ⟨call, -, rfl⟩ := List.mem_map.mp member
    rfl
  simp only [Server.issued, atSpawn, NcThread.start, threadCall, ↓reduceIte]
  by_cases failed : answer.ret ≠ 0
  · simp only [if_pos failed, ↓reduceIte, List.cons_append, List.nil_append, List.filter_cons,
      clients]
    rfl
  · simp only [if_neg failed]
    rfl

/-- Only an accepted client leads to the two program points. -/
theorem Server.accept_before {haveThreads : Bool} {server : Server} {answer : Answer}
    (next : (server.startListening haveThreads answer).pc = .spawn ∨
      (server.startListening haveThreads answer).pc = .call) : server.pc = .accept := by
  revert next
  unfold Server.startListening Server.afterThread Server.afterBind
  cases pc : server.pc <;> dsimp only <;> (try split_ifs) <;> simp [pc]

/-- Threads are for the option `NC_THREADED`. -/
theorem Server.threaded_before {haveThreads : Bool} {server : Server} {answer : Answer}
    (next : (server.startListening haveThreads answer).pc = .spawn) :
    server.args.option = ncThreaded := by
  revert next
  unfold Server.startListening Server.afterThread Server.afterBind
  cases pc : server.pc <;> dsimp only <;> (try split_ifs) <;> simp_all

/-- `startListening` asks for a socket only once. -/
theorem Server.not_socket (haveThreads : Bool) (server : Server) (answer : Answer) :
    (server.startListening haveThreads answer).pc ≠ .socket := by
  unfold Server.startListening Server.afterThread Server.afterBind
  cases pc : server.pc <;> dsimp only <;> (try split_ifs) <;> simp [pc]

/-- The destructor of a new socket closes its descriptor. -/
theorem Locals.destroy_newSock (locals : Locals) (positive : 0 < locals.newSock.sockfd) :
    locals.newSock.destroy.2 = [.close locals.newSock.sockfd] := by
  have noStream : locals.newSock.stdiofd = none := rfl
  rw [NcSocket.destroy, noStream]
  simp only [if_pos positive]

/-! ### The invariant -/

/-- The program points of the UDP branch. -/
def Pc.udp : Pc → Bool
  | .receiveTest | .receive | .deliver | .receiveAgain => true
  | _ => false

/-- What is known at each program point. -/
def HandPhase (server : Server) (clients : List NcSocket) : Prop :=
  match server.pc with
  | .spawn | .call =>
      ∃ earlier, clients = earlier ++ [server.locals.newSock] ∧
        Dealt server.actions earlier earlier []
  | .returned .failed => Handed server clients
  | _ => Dealt server.actions clients clients []

/-- The invariant of a call on a TCP listener. -/
structure Hands (haveThreads : Bool) (args : Arguments) (server : Server)
    (clients : List NcSocket) : Prop where
  own : server.args = args
  tcp : server.listener.socktype = socktypeTcpip ∧ server.pc.udp = false
  threaded : server.pc = .spawn → haveThreads = true
  buffer : server.locals.addrlen = sizeofSockaddrIn ∧
    server.locals.clientaddr.length = sizeofSockaddrIn
  first : server.pc = .socket → clients = []
  apart : ∀ sock ∈ clients, 0 < sock.sockfd → sock.sockfd ≠ server.listener.sockfd
  phase : HandPhase server clients
  kept : Justified ClosesOwn server.actions

theorem handPhase_of_dealt {server : Server} {clients : List NcSocket}
    (dealt : Dealt server.actions clients clients [])
    (notComing : ¬ (server.pc = .spawn ∨ server.pc = .call)) : HandPhase server clients := by
  unfold HandPhase
  cases pc : server.pc
  case spawn => exact absurd (Or.inl pc) notComing
  case call => exact absurd (Or.inr pc) notComing
  case returned ret =>
    cases ret
    case failed => exact .all clients dealt
    all_goals exact dealt
  all_goals exact dealt

theorem Handed.hands_subset {server : Server} {clients : List NcSocket}
    (handed : Handed server clients) {sock : NcSocket}
    (member : sock ∈ server.actions.filterMap Action.hands) : sock ∈ clients := by
  cases handed with
  | all _ dealt =>
      rw [dealt.hands] at member
      exact member
  | next earlier last coming dealt =>
      rw [dealt.hands] at member
      exact List.mem_append_left _ member
  | refused earlier last failed dealt closed =>
      rw [dealt.hands] at member
      exact List.mem_append_left _ member

theorem HandPhase.handed {server : Server} {clients : List NcSocket}
    (phase : HandPhase server clients) : Handed server clients := by
  unfold HandPhase at phase
  cases pc : server.pc <;> rw [pc] at phase
  case spawn =>
    obtain ⟨earlier, rfl, dealt⟩ := phase
    exact .next earlier _ (Or.inl pc) dealt
  case call =>
    obtain ⟨earlier, rfl, dealt⟩ := phase
    exact .next earlier _ (Or.inr pc) dealt
  case returned ret =>
    cases ret
    case failed => exact phase
    all_goals exact .all clients phase
  all_goals exact .all clients phase

/-! ### Steps of `startListening` -/

section Start

variable {haveThreads : Bool} {args : Arguments} {server : Server} {clients : List NcSocket}

/-- A client that has been accepted is about to be handed over. -/
theorem Hands.phase_accept (hands : Hands haveThreads args server clients) {answer : Answer}
    (atAccept : server.pc = .accept) (honest : HonestAccept server (.start answer)) :
    HandPhase (server.startListening haveThreads answer)
      (clients ++ (accepts server (.start answer)).toList) := by
  have dealt := hands.phase
  rw [HandPhase, atAccept] at dealt
  have silent := server.sockets_issued haveThreads answer (by simp [atAccept])
    (by simp [atAccept])
  have kept := dealt.silent silent
  rw [← Server.startListening_actions] at kept
  by_cases failed : answer.ret = -1
  · have next : (server.startListening haveThreads answer).pc = .acceptAgain := by
      simp [Server.startListening, atAccept, failed]
    have none : accepts server (.start answer) = none := by simp [accepts, failed]
    rw [none, Option.toList_none, List.append_nil]
    exact handPhase_of_dealt kept (by simp [next])
  · have some : accepts server (.start answer) = some (clientSocket answer) := by
      simp [accepts, atAccept, failed]
    have next : (server.startListening haveThreads answer).pc = .spawn ∨
        (server.startListening haveThreads answer).pc = .call := by
      simp only [Server.startListening, atAccept, if_neg failed]
      split_ifs
      · exact Or.inl rfl
      · exact Or.inr rfl
    have whole := storeAddress_whole hands.buffer.2 (honest atAccept failed).1
    have sock : (server.startListening haveThreads answer).locals.newSock =
        clientSocket answer := by
      simp only [Server.startListening, atAccept, if_neg failed, Server.issue_locals,
        hands.buffer.1, whole]
      split_ifs <;> rfl
    rw [some, Option.toList_some, ← sock]
    rcases next with next | next <;> rw [HandPhase, next] <;> exact ⟨clients, rfl, kept⟩

/-- A thread is started with the socket, or the socket is deleted. -/
theorem Hands.phase_spawn (hands : Hands haveThreads args server clients) (answer : Answer)
    (atSpawn : server.pc = .spawn) :
    HandPhase (server.startListening haveThreads answer) clients := by
  have phase := hands.phase
  rw [HandPhase, atSpawn] at phase
  obtain ⟨earlier, rfl, dealt⟩ := phase
  obtain rfl := hands.threaded atSpawn
  have issued := Server.sockets_spawn answer atSpawn
  have grown := Server.startListening_actions true server answer
  by_cases failed : answer.ret ≠ 0
  · rw [if_pos failed] at issued
    have next : (server.startListening true answer).pc = .returned .failed := by
      simp [Server.startListening, atSpawn, NcThread.start, threadCall, failed]
    rw [HandPhase, next]
    apply Handed.refused _ _ next
    · rw [grown]
      exact dealt.refuse failed issued
    · intro positive
      have closes := server.locals.destroy_newSock positive
      rw [closes] at issued
      have member : .client (.close server.locals.newSock.sockfd) ∈
          (server.issued true answer).filter Action.ofSocket := by simp [issued]
      rw [grown]
      exact List.mem_append_right _ (List.mem_of_mem_filter member)
  · rw [if_neg failed] at issued
    rw [not_not] at failed
    rw [failed] at issued
    have next : (server.startListening true answer).pc = .release := by
      simp [Server.startListening, atSpawn, NcThread.start, threadCall, failed]
    apply handPhase_of_dealt
    · rw [grown]
      exact dealt.hand issued (Or.inr ⟨_, rfl⟩)
    · simp [next]

/-- The callback is run with the socket. -/
theorem Hands.phase_call (hands : Hands haveThreads args server clients) (answer : Answer)
    (atCall : server.pc = .call) :
    HandPhase (server.startListening haveThreads answer) clients := by
  have phase := hands.phase
  rw [HandPhase, atCall] at phase
  obtain ⟨earlier, rfl, dealt⟩ := phase
  have next : (server.startListening haveThreads answer).pc = .acceptAgain := by
    simp [Server.startListening, atCall]
  have issued : (server.issued haveThreads answer).filter Action.ofSocket =
      [.construct server.locals.newSock, .callback server.locals.newSock] := by
    rw [Server.issued, atCall]
    rfl
  apply handPhase_of_dealt
  · rw [Server.startListening_actions]
    exact dealt.hand issued (Or.inl rfl)
  · simp [next]

theorem Hands.phase_step (hands : Hands haveThreads args server clients) {answer : Answer}
    (honest : HonestAccept server (.start answer)) :
    HandPhase (server.startListening haveThreads answer)
      (clients ++ (accepts server (.start answer)).toList) := by
  by_cases atAccept : server.pc = .accept
  · exact hands.phase_accept atAccept honest
  · have none : accepts server (.start answer) = none := by simp [accepts, atAccept]
    rw [none, Option.toList_none, List.append_nil]
    have phase := hands.phase
    unfold HandPhase at phase
    cases pc : server.pc <;> rw [pc] at phase
    case accept => exact absurd pc atAccept
    case spawn => exact hands.phase_spawn answer pc
    case call => exact hands.phase_call answer pc
    case returned ret =>
      have same : server.startListening haveThreads answer = server := by
        simp only [Server.startListening, pc]
      rw [same]
      exact hands.phase
    all_goals
      apply handPhase_of_dealt
      · rw [Server.startListening_actions]
        apply phase.silent
        exact server.sockets_issued haveThreads answer (by simp [pc]) (by simp [pc])
      · exact fun coming => atAccept (Server.accept_before coming)

theorem Hands.udp_step (hands : Hands haveThreads args server clients) (answer : Answer) :
    (server.startListening haveThreads answer).pc.udp = false := by
  obtain ⟨tcp, outside⟩ := hands.tcp
  revert outside
  unfold Server.startListening Server.afterThread Server.afterBind
  cases pc : server.pc <;> dsimp only <;> (try split_ifs) <;> simp_all [Pc.udp]

/-- The buffer for the address keeps its size. -/
theorem Hands.buffer_step (hands : Hands haveThreads args server clients) {answer : Answer}
    (honest : HonestAccept server (.start answer)) :
    (server.startListening haveThreads answer).locals.addrlen = sizeofSockaddrIn ∧
      (server.startListening haveThreads answer).locals.clientaddr.length =
        sizeofSockaddrIn := by
  obtain ⟨size, length⟩ := hands.buffer
  have outside := hands.tcp.2
  by_cases atAccept : server.pc = .accept
  · simp only [Server.startListening, atAccept]
    by_cases failed : answer.ret = -1
    · simp only [if_pos failed]
      exact ⟨size, length⟩
    · have whole := (honest atAccept failed).1
      simp only [if_neg failed, Server.issue_locals, size, storeAddress_whole length whole]
      split_ifs <;> exact ⟨whole, whole⟩
  · have same : (server.startListening haveThreads answer).locals.addrlen =
          server.locals.addrlen ∧
        (server.startListening haveThreads answer).locals.clientaddr =
          server.locals.clientaddr := by
      unfold Server.startListening Server.afterThread
      cases pc : server.pc <;> dsimp only <;> (try split_ifs) <;> simp_all [Pc.udp]
    rw [same.1, same.2]
    exact ⟨size, length⟩

/-- The descriptors of the clients are not the one of the listener. -/
theorem Hands.apart_step (hands : Hands haveThreads args server clients) {answer : Answer}
    (honest : HonestAccept server (.start answer)) :
    ∀ sock ∈ clients ++ (accepts server (.start answer)).toList, 0 < sock.sockfd →
      sock.sockfd ≠ (server.startListening haveThreads answer).listener.sockfd := by
  have starts := server.starts haveThreads answer
  intro sock member positive
  by_cases first : server.pc = .socket
  · have none : accepts server (.start answer) = none := by simp [accepts, first]
    rw [none, hands.first first] at member
    cases member
  · rw [starts.sockfd first]
    rcases List.mem_append.mp member with old | new
    · exact hands.apart sock old positive
    · simp only [accepts] at new
      split_ifs at new with arrives
      · obtain rfl := List.mem_singleton.mp new
        exact (honest arrives.1 arrives.2).2
      · cases new

/-- The listener itself closes nothing. -/
theorem Server.close_not_issued (haveThreads : Bool) (server : Server) (answer : Answer)
    (fd : Int) : .close fd ∉ server.issued haveThreads answer := by
  unfold Server.issued NcThread.start NcThread.detach NcThread.join threadCall
  cases server.pc <;> dsimp only <;> (try split_ifs) <;> simp

theorem Hands.start (hands : Hands haveThreads args server clients) {answer : Answer}
    (served : haveThreads = true ∨ args.option = ncNonthreaded)
    (honest : HonestAccept server (.start answer)) :
    Hands haveThreads args (server.startListening haveThreads answer)
      (clients ++ (accepts server (.start answer)).toList) where
  own := by
    rw [(server.starts haveThreads answer).args]
    exact hands.own
  tcp := by
    rw [(server.starts haveThreads answer).socktype]
    exact ⟨hands.tcp.1, hands.udp_step answer⟩
  threaded := by
    intro next
    have threaded := Server.threaded_before next
    rw [hands.own] at threaded
    apply served.resolve_right
    rw [threaded]
    decide
  buffer := hands.buffer_step honest
  first := fun again => absurd again (server.not_socket haveThreads answer)
  apart := hands.apart_step honest
  phase := hands.phase_step honest
  kept := by
    rw [Server.startListening_actions]
    apply hands.kept.append
    rintro before action later split fd rfl
    have member : .close fd ∈ server.issued haveThreads answer := by simp [split]
    exact absurd member (server.close_not_issued haveThreads answer fd)

end Start

/-! ### Steps of `stopListening` -/

theorem Dealt.stop {server next : Server} {constructed handed deleted : List NcSocket}
    (stops : Stops server next) (dealt : Dealt server.actions constructed handed deleted) :
    Dealt next.actions constructed handed deleted := by
  obtain ⟨more, grown, silent⟩ : ∃ more, next.actions = server.actions ++ more ∧
      more.filter Action.ofSocket = [] :=
    stops.silent (fun _ => rfl) (fun _ _ => rfl) (fun _ => rfl)
  rw [grown]
  exact dealt.silent silent

theorem Handed.stop {server next : Server} {clients : List NcSocket} (stops : Stops server next)
    (handed : Handed server clients) : Handed next clients := by
  cases handed with
  | all _ dealt => exact .all clients (dealt.stop stops)
  | next earlier last coming dealt =>
      rw [← stops.pc] at coming
      exact .next earlier last coming (dealt.stop stops)
  | refused earlier last failed dealt closed =>
      rw [← stops.pc] at failed
      apply Handed.refused earlier last failed (dealt.stop stops)
      intro positive
      obtain ⟨more, grown, -⟩ := stops.actions
      rw [grown]
      exact List.mem_append_left _ (closed positive)

theorem HandPhase.stop {server next : Server} {clients : List NcSocket}
    (stops : Stops server next) (phase : HandPhase server clients) : HandPhase next clients := by
  unfold HandPhase at phase ⊢
  rw [stops.pc, stops.locals]
  cases pc : server.pc <;> rw [pc] at phase
  case spawn | call =>
    obtain ⟨earlier, split, dealt⟩ := phase
    exact ⟨earlier, split, dealt.stop stops⟩
  case returned ret =>
    cases ret
    case failed => exact phase.stop stops
    all_goals exact phase.stop stops
  all_goals exact phase.stop stops

/-- The descriptor that `stopListening` closes is the listener's, and no client's. -/
theorem Hands.stop {haveThreads : Bool} {args : Arguments} {server : Server}
    {clients : List NcSocket} (hands : Hands haveThreads args server clients) :
    Hands haveThreads args server.stopListening clients := by
  have stops := server.stops
  generalize server.stopListening = next at stops
  exact {
    own := by rw [stops.args]; exact hands.own
    tcp := by rw [stops.socktype, stops.pc]; exact hands.tcp
    threaded := by rw [stops.pc]; exact hands.threaded
    buffer := by rw [stops.locals]; exact hands.buffer
    first := by rw [stops.pc]; exact hands.first
    apart := by
      intro sock member positive
      rcases stops.sockfd with same | zero
      · rw [same]
        exact hands.apart sock member positive
      · rw [zero]
        exact Int.ne_of_gt positive
    phase := hands.phase.stop stops
    kept := by
      obtain ⟨more, grown, harmless⟩ := stops.actions
      rw [grown]
      apply hands.kept.append
      rintro before action later rfl fd rfl sock member positive
      have silent : before.filterMap Action.hands = [] := by
        apply List.filterMap_eq_nil_iff.mpr
        intro action earlier
        rcases harmless action (by simp [earlier]) with rfl | rfl | rfl <;> rfl
      rw [List.filterMap_append, silent, List.append_nil] at member
      have client := hands.phase.handed.hands_subset member
      have own : fd = server.listener.sockfd := by
        rcases harmless (.close fd) (by simp) with same | same | same
        · cases same
        · cases same
        · exact Action.close.inj same
      rw [own]
      exact hands.apart sock client positive }

theorem Hands.begin (haveThreads : Bool) {listener : NcSocketListener} (args : Arguments)
    (stopper : StopPc) (tcp : listener.socktype = socktypeTcpip) :
    Hands haveThreads args (.begin listener args stopper) [] where
  own := rfl
  tcp := ⟨tcp, rfl⟩
  threaded := fun spawn => Pc.noConfusion spawn
  buffer := ⟨rfl, rfl⟩
  first := fun _ => rfl
  apart := fun _ member => absurd member List.not_mem_nil
  phase := ⟨rfl, rfl, rfl, rfl⟩
  kept := .nil

/-- Whole runs, with the clients that they have accepted. -/
theorem Hands.run {haveThreads : Bool} {listener : NcSocketListener} {args : Arguments}
    (stopper : StopPc) (tcp : listener.socktype = socktypeTcpip)
    (served : haveThreads = true ∨ args.option = ncNonthreaded) {events : List Event}
    (honest : (threads haveThreads).Meets HonestAccept (.begin listener args stopper) events) :
    Hands haveThreads args ((threads haveThreads).run (.begin listener args stopper) events)
      (accepted ((threads haveThreads).trace (.begin listener args stopper) events)) := by
  apply EventMachine.run_history
    (fun server history => Hands haveThreads args server (accepted history)) _ _ honest
  · intro server history event hands honest
    have grown : accepted (history ++ [(server, event)]) =
        accepted history ++ (accepts server event).toList := by
      rw [accepted, List.filterMap_append]
      congr 1
    rw [grown]
    cases event with
    | start answer => exact hands.start served honest
    | stop =>
        rw [accepts, Option.toList_none, List.append_nil]
        exact hands.stop
  · exact .begin haveThreads args stopper tcp

/-! ### A build without threads -/

/-- A client arrives and is about to get its thread. -/
def oneClient : List Event :=
  [.start (.value 0), .start (arrival 5), .start (.value 0)]

section OneClient

variable (listener : NcSocketListener) {args : Arguments} (stopper : StopPc)

/-- The listener has accepted the client. -/
def Server.spawning (listener : NcSocketListener) (args : Arguments) (stopper : StopPc) :
    Server :=
  { Server.accepting listener args stopper with
    pc := .spawn
    locals := { Locals.start with client := 5 }
    actions := (Server.accepting listener args stopper).actions ++ [.accept 7 5] }

theorem step_arrival (threaded : args.option = ncThreaded) :
    (Server.startListening false { Server.accepting listener args stopper with pc := .accept }
      (arrival 5)) = .spawning listener args stopper := by
  have success : (arrival 5).ret ≠ -1 := by decide
  have own : (Server.accepting listener args stopper).args = args := rfl
  simp only [Server.startListening, if_neg success, Server.issue_args, own, threaded, ↓reduceIte]
  rfl

/-- Without `HAVE_THREADS` the client's socket is constructed and forgotten. -/
theorem run_oneClient (threaded : args.option = ncThreaded) :
    (threads false).run (.accepting listener args stopper) oneClient =
      { Server.spawning listener args stopper with
        pc := .release
        actions := (Server.spawning listener args stopper).actions ++
          [.construct (arrived 5)] } := by
  show Server.startListening false (Server.startListening false
    { Server.accepting listener args stopper with pc := .accept } (arrival 5)) (.value 0) = _
  rw [step_arrival listener stopper threaded]
  have okNotFailed : ¬ RetCode.ok = .failed := by decide
  simp only [Server.startListening, Server.spawning, NcThread.start, threadCall,
    Bool.false_eq_true, if_neg okNotFailed, ↓reduceIte, List.append_nil]
  rfl

theorem trace_oneClient (threaded : args.option = ncThreaded) :
    accepted ((threads false).trace (.accepting listener args stopper) oneClient) =
      [arrived 5] := by
  show accepted [(Server.accepting listener args stopper, .start (.value 0)),
    ({ Server.accepting listener args stopper with pc := .accept }, .start (arrival 5)),
    (Server.startListening false
      { Server.accepting listener args stopper with pc := .accept } (arrival 5),
        .start (.value 0))] = _
  rw [step_arrival listener stopper threaded]
  rfl

theorem meets_oneClient (threaded : args.option = ncThreaded) :
    (threads false).Meets HonestAccept (.accepting listener args stopper) oneClient := by
  have last : HonestAccept (Server.startListening false
      { Server.accepting listener args stopper with pc := .accept } (arrival 5))
        (.start (.value 0)) := by
    rw [step_arrival listener stopper threaded]
    exact fun atAccept => Pc.noConfusion atAccept
  refine ⟨fun atAccept => Pc.noConfusion atAccept, fun _ _ => ⟨rfl, ?_⟩, last, trivial⟩
  exact (by decide : (5 : Int) ≠ 7)

/-- The log of a setup is not about sockets. -/
theorem sockets_accepting :
    (Server.accepting listener args stopper).actions.filter Action.ofSocket = [] := by
  unfold Server.accepting
  dsimp only
  split_ifs <;> rfl

/-- The client's descriptor is neither handed over nor closed. -/
theorem not_handed {clients : List NcSocket} (some : clients ≠ []) :
    ¬ Handed { Server.spawning listener args stopper with
      pc := .release
      actions := (Server.spawning listener args stopper).actions ++
        [.construct (arrived 5)] } clients := by
  have hands : ((Server.spawning listener args stopper).actions ++
      [Action.construct (arrived 5)]).filterMap Action.hands = [] := by
    rw [Server.spawning, List.filterMap_append, List.filterMap_append,
      readsOnly_hands.of_silent (sockets_accepting listener stopper)]
    rfl
  intro handed
  cases handed with
  | all _ dealt =>
      have none := dealt.hands
      rw [hands] at none
      exact some none.symm
  | next earlier last coming dealt => rcases coming with coming | coming <;> cases coming
  | refused earlier last failed dealt closed => cases failed

end OneClient

/-- In every run of the accept loop each client is handed over exactly once and none is
closed after that, exactly if the build has threads or the option does not ask for them. -/
theorem hands_over_iff {haveThreads : Bool} {listener : NcSocketListener} {args : Arguments}
    (stopper : StopPc) (tcp : listener.socktype = socktypeTcpip) (good : args.bad = false) :
    (∀ events, (threads haveThreads).Meets HonestAccept (.begin listener args stopper) events →
      HandedOver ((threads haveThreads).run (.begin listener args stopper) events)
        (accepted ((threads haveThreads).trace (.begin listener args stopper) events))) ↔
      haveThreads = true ∨ args.option = ncNonthreaded := by
  constructor
  · intro each
    cases build : haveThreads with
    | true => exact Or.inl rfl
    | false =>
        rw [build] at each
        apply Or.inr
        apply (Arguments.option_of_good good).resolve_left
        intro threaded
        have free : ∀ server event, server.pc ≠ .accept → HonestAccept server event := by
          intro server event other
          cases event with
          | start answer => exact fun atAccept => absurd atAccept other
          | stop => trivial
        have honest : (threads false).Meets HonestAccept (.begin listener args stopper)
            (setup args ++ oneClient) := by
          rw [EventMachine.meets_append, run_setup false stopper tcp good]
          exact ⟨meets_setup false stopper free tcp good,
            meets_oneClient listener stopper threaded⟩
        have handed := (each _ honest).handed
        rw [EventMachine.run_append, EventMachine.trace_append, run_setup false stopper tcp good,
          run_oneClient listener stopper threaded, accepted, List.filterMap_append] at handed
        have arrives := trace_oneClient listener stopper threaded
        apply not_handed listener stopper _ handed
        rw [accepted] at arrives
        rw [arrives]
        exact List.append_ne_nil_of_right_ne_nil _ (List.cons_ne_nil _ _)
  · intro served events honest
    have hands := Hands.run stopper tcp served honest
    exact ⟨hands.phase.handed, hands.kept⟩

/-- A client of a listener with threads, whose thread cannot be created. -/
theorem hands_over_iff_refused : HandedOver
    ((threads true).run (.begin (.make 80 socktypeTcpip) ⟨true, ncThreaded, ncJoined⟩ .begin)
      (setup ⟨true, ncThreaded, ncJoined⟩ ++
        [.start (.value 0), .start (arrival 5), .start (.value 11)]))
    (accepted ((threads true).trace
      (.begin (.make 80 socktypeTcpip) ⟨true, ncThreaded, ncJoined⟩ .begin)
      (setup ⟨true, ncThreaded, ncJoined⟩ ++
        [.start (.value 0), .start (arrival 5), .start (.value 11)]))) := by
  apply (hands_over_iff .begin rfl (by decide)).mpr (Or.inl rfl)
  refine ⟨nofun, nofun, nofun, nofun, nofun, nofun, nofun, ?_, nofun, trivial⟩
  exact fun _ _ => ⟨rfl, (by decide : (5 : Int) ≠ 7)⟩

/-- In a build without threads a client of the default option is dropped. -/
theorem drops_client : ∃ events,
    (threads false).Meets HonestAccept
      (.begin (.make 80 socktypeTcpip) ⟨true, ncThreaded, ncDetached⟩ .begin) events ∧
    (accepted ((threads false).trace
      (.begin (.make 80 socktypeTcpip) ⟨true, ncThreaded, ncDetached⟩ .begin) events) =
        [arrived 5]) ∧
    ((threads false).run
      (.begin (.make 80 socktypeTcpip) ⟨true, ncThreaded, ncDetached⟩ .begin) events).actions =
      [.socket 1 7, .bind 7 80 0 (.other 0), .listen 7 16 0, .setNonBlocking 7, .accept 7 5,
        .construct (arrived 5), .accept 7 (-1), .sleep 100] ∧
    ((threads false).run
      (.begin (.make 80 socktypeTcpip) ⟨true, ncThreaded, ncDetached⟩ .begin) events).pc =
      .returned .ok := by
  refine ⟨setup ⟨true, ncThreaded, ncDetached⟩ ++
    [.start (.value 0), .start (arrival 5), .start (.value 0), .start (.value 0),
      .start (.value 0), .start (.value 0), .start (.value (-1)), .stop, .start (.value 0)],
    ?_, rfl, rfl, rfl⟩
  refine ⟨nofun, nofun, nofun, nofun, nofun, nofun, nofun, ?_, nofun, nofun, nofun, nofun, ?_,
    trivial, nofun, trivial⟩
  · exact fun _ _ => ⟨rfl, (by decide : (5 : Int) ≠ 7)⟩
  · exact fun _ failed => absurd rfl failed

end NetClass.Listener
