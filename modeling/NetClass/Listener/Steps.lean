import NetClass.Library.EventMachine
import NetClass.Listener.Basic

/-!
Contract: `startListening` in one thread and `stopListening` in another, step by step.

Owns: the program points of the two functions, one step for each access to a shared
field or call of the kernel, and the system in which the steps of the two threads
interleave in any order.
-/

set_option autoImplicit false

namespace NetClass.Listener

open NetClass.Socket

/-- The program points of `startListening`. The two tests of `m_listening` of each
serving loop are `acceptTest` and `acceptAgain`, `receiveTest` and `receiveAgain`. -/
inductive Pc where
  | socket
  | checkArgs
  | raise
  | setReuse
  | bind
  | bindFailed (errno : Errno)
  | listen
  | setNonBlocking
  | acceptTest
  | accept
  | spawn
  | release
  | call
  | acceptAgain
  | receiveTest
  | receive
  | deliver
  | receiveAgain
  | returned (ret : RetCode)
deriving DecidableEq, Repr

/-- The program points of `stopListening`. -/
inductive StopPc where
  | begin
  | sleep
  | test
  | shutdown
  | close
  | zero
deriving DecidableEq, Repr

/-- The object, the two threads and what has been done so far. -/
structure Server where
  listener : NcSocketListener
  args : Arguments
  pc : Pc
  locals : Locals
  stopper : StopPc
  actions : List Action
deriving DecidableEq, Repr

namespace Server

def goto (server : Server) (pc : Pc) : Server := { server with pc := pc }

def issue (server : Server) (action : Action) : Server :=
  { server with actions := server.actions ++ [action] }

@[simp] theorem goto_pc (server : Server) (pc : Pc) : (server.goto pc).pc = pc := rfl

@[simp] theorem goto_listener (server : Server) (pc : Pc) :
    (server.goto pc).listener = server.listener := rfl

@[simp] theorem goto_args (server : Server) (pc : Pc) : (server.goto pc).args = server.args :=
  rfl

@[simp] theorem goto_locals (server : Server) (pc : Pc) :
    (server.goto pc).locals = server.locals := rfl

@[simp] theorem goto_actions (server : Server) (pc : Pc) :
    (server.goto pc).actions = server.actions := rfl

@[simp] theorem issue_listener (server : Server) (action : Action) :
    (server.issue action).listener = server.listener := rfl

@[simp] theorem issue_args (server : Server) (action : Action) :
    (server.issue action).args = server.args := rfl

@[simp] theorem issue_locals (server : Server) (action : Action) :
    (server.issue action).locals = server.locals := rfl

@[simp] theorem issue_actions (server : Server) (action : Action) :
    (server.issue action).actions = server.actions ++ [action] := rfl

/-- The result of `ncThread::detach` or `join`, and where the two outcomes lead. -/
def afterThread (server : Server) (outcome : RetCode × List Action) : Server :=
  let server := { server with actions := server.actions ++ outcome.2 }
  if outcome.1 = .failed then server.goto (.returned .failed) else server.goto .acceptAgain

/-- Where the bind loop leads, whichever way it is left. -/
def afterBind (server : Server) : Pc :=
  if server.listener.socktype = socktypeTcpip then .listen
  else if server.listener.socktype = socktypeUdp then .receiveTest
  else .returned .ok

/-- `sockType`. -/
def sockType (server : Server) : Int :=
  if server.listener.socktype = socktypeTcpip then sockStream else sockDgram

/-- One step of `startListening`. -/
def startListening (haveThreads : Bool) (server : Server) (answer : Answer) : Server :=
  match server.pc with
  | .socket =>
      let server := server.issue (.socket server.sockType answer.ret)
      let server := { server with listener := { server.listener with sockfd := answer.ret } }
      if answer.ret = 0 then server.goto (.returned .failed) else server.goto .checkArgs
  | .checkArgs =>
      if server.args.bad then server.goto (.returned .badArgs) else server.goto .raise
  | .raise =>
      let server := { server with listener := { server.listener with listening := true } }
      if server.args.flags &&& ncReuseaddr ≠ 0 then server.goto .setReuse
      else server.goto .bind
  | .setReuse =>
      let server := server.issue (.setReuse server.listener.sockfd answer.ret)
      if answer.ret = -1 then server.goto (.returned .failed) else server.goto .bind
  | .bind =>
      let server := server.issue
        (.bind server.listener.sockfd server.listener.port answer.ret answer.errno)
      if answer.ret = -1 then server.goto (.bindFailed answer.errno)
      else server.goto server.afterBind
  | .bindFailed errno =>
      if server.listener.listening then
        let bindAttempts := server.locals.bindAttempts
        let server :=
          { server with locals := { server.locals with bindAttempts := bindAttempts + 1 } }
        if bindAttempts = 10 then server.goto (.returned .failed)
        else if ncAddrInUse errno then server.goto server.afterBind
        else (server.issue (.sleep (server.locals.bindAttempts * 1000))).goto .bind
      else server.goto server.afterBind
  | .listen =>
      let server := server.issue
        (.listen server.listener.sockfd server.listener.backlog answer.ret)
      if answer.ret = -1 then server.goto (.returned .failed) else server.goto .setNonBlocking
  | .setNonBlocking =>
      (server.issue (.setNonBlocking server.listener.sockfd)).goto .acceptTest
  | .acceptTest =>
      if server.listener.listening then server.goto .accept else server.goto (.returned .ok)
  | .accept =>
      let server := server.issue (.accept server.listener.sockfd answer.ret)
      let server := { server with locals := { server.locals with client := answer.ret } }
      if answer.ret = -1 then (server.issue (.sleep 100)).goto .acceptAgain
      else
        let server := { server with locals := { server.locals with
          clientaddr :=
            storeAddress server.locals.clientaddr server.locals.addrlen answer.address
          addrlen := answer.address.length } }
        if server.args.option = ncThreaded then server.goto .spawn else server.goto .call
  | .spawn =>
      let newSock := server.locals.newSock
      let outcome := NcThread.start haveThreads answer.thread newSock answer.ret
      let server := server.issue (.construct newSock)
      let server :=
        { server with
          actions := server.actions ++ outcome.2
          locals := { server.locals with thread := answer.thread } }
      if outcome.1 = .failed then
        let server := server.issue (.delete newSock)
        let server :=
          { server with actions := server.actions ++ newSock.destroy.2.map Action.client }
        server.goto (.returned .failed)
      else server.goto .release
  | .release =>
      if server.args.flags = ncDetached then
        server.afterThread (NcThread.detach haveThreads server.locals.thread answer.ret)
      else if server.args.flags = ncJoined then
        server.afterThread (NcThread.join haveThreads server.locals.thread answer.ret)
      else server.goto .acceptAgain
  | .call =>
      let newSock := server.locals.newSock
      ((server.issue (.construct newSock)).issue (.callback newSock)).goto .acceptAgain
  | .acceptAgain =>
      if server.listener.listening then server.goto .acceptTest
      else server.goto (.returned .ok)
  | .receiveTest =>
      if server.listener.listening then server.goto .receive else server.goto (.returned .ok)
  | .receive =>
      let server := server.issue (.recvfrom server.listener.sockfd answer.ret)
      let server := { server with locals := { server.locals with
        datasize := answer.ret
        buf := dgramBuffer [] } }
      if answer.ret = -1 then server.goto .deliver
      else
        let server := { server with locals := { server.locals with
          buf := dgramBuffer answer.bytes
          clientaddr :=
            storeAddress server.locals.clientaddr server.locals.cliLen answer.address
          cliLen := answer.address.length } }
        server.goto .deliver
  | .deliver =>
      (server.issue (.deliver (.make server.locals.client server.locals.clientaddr
        server.locals.buf server.locals.datasize))).goto .receiveAgain
  | .receiveAgain =>
      if server.listener.listening then server.goto .receiveTest
      else server.goto (.returned .ok)
  | .returned _ => server

/-- One step of `stopListening`. Its return makes it possible to call it again. -/
def stopListening (server : Server) : Server :=
  match server.stopper with
  | .begin =>
      { server with
        listener := { server.listener with listening := false }
        stopper := .sleep }
  | .sleep => { server.issue (.sleep 250) with stopper := .test }
  | .test =>
      if server.listener.sockfd ≠ 0 then { server with stopper := .shutdown }
      else { server with stopper := .begin }
  | .shutdown =>
      { server.issue (.shutdown server.listener.sockfd 0) with stopper := .close }
  | .close => { server.issue (.close server.listener.sockfd) with stopper := .zero }
  | .zero =>
      { server with
        listener := { server.listener with sockfd := 0 }
        stopper := .begin }

end Server

/-- A step of one of the threads. The kernel's answer to `startListening` comes with
it; a step that asks for none ignores it. -/
inductive Event where
  | start (answer : Answer)
  | stop
deriving DecidableEq, Repr

def Event.isStart : Event → Bool
  | .start _ => true
  | .stop => false

/-- The two threads of a build with or without `HAVE_THREADS`. -/
def threads (haveThreads : Bool) : EventMachine Server Event where
  step := fun server event =>
    match event with
    | .start answer => server.startListening haveThreads answer
    | .stop => server.stopListening

/-- `startListening` is called. The object may be in any state, and another thread may
be anywhere in `stopListening`. -/
def Server.begin (listener : NcSocketListener) (args : Arguments) (stopper : StopPc) : Server :=
  { listener := listener, args := args, pc := .socket, locals := .start, stopper := stopper,
    actions := [] }

/-! ### What a step can do -/

/-- A step of `stopListening` leaves the other thread where it is. It can only clear
the two fields that it assigns. -/
structure Stops (server next : Server) : Prop where
  pc : next.pc = server.pc
  args : next.args = server.args
  locals : next.locals = server.locals
  sockfd : next.listener.sockfd = server.listener.sockfd ∨ next.listener.sockfd = 0
  listening : next.listener.listening = server.listener.listening ∨
    next.listener.listening = false
  socktype : next.listener.socktype = server.listener.socktype
  port : next.listener.port = server.listener.port
  actions : ∃ more, next.actions = server.actions ++ more ∧ ∀ action ∈ more,
    action = .sleep 250 ∨ action = .shutdown server.listener.sockfd 0 ∨
      action = .close server.listener.sockfd

theorem Server.stops (server : Server) : Stops server server.stopListening := by
  unfold Server.stopListening
  cases server.stopper with
  | begin =>
      exact ⟨rfl, rfl, rfl, Or.inl rfl, Or.inr rfl, rfl, rfl, [], by simp, by simp⟩
  | sleep =>
      exact ⟨rfl, rfl, rfl, Or.inl rfl, Or.inl rfl, rfl, rfl, [_], rfl, by simp⟩
  | test =>
      dsimp only
      split_ifs <;>
        exact ⟨rfl, rfl, rfl, Or.inl rfl, Or.inl rfl, rfl, rfl, [], by simp, by simp⟩
  | shutdown =>
      exact ⟨rfl, rfl, rfl, Or.inl rfl, Or.inl rfl, rfl, rfl, [_], rfl, by simp⟩
  | close =>
      exact ⟨rfl, rfl, rfl, Or.inl rfl, Or.inl rfl, rfl, rfl, [_], rfl, by simp⟩
  | zero =>
      exact ⟨rfl, rfl, rfl, Or.inr rfl, Or.inl rfl, rfl, rfl, [], by simp, by simp⟩

/-- What every step of `startListening` leaves alone. -/
structure Starts (server next : Server) : Prop where
  args : next.args = server.args
  stopper : next.stopper = server.stopper
  sockfd : server.pc ≠ .socket → next.listener.sockfd = server.listener.sockfd
  listening : server.pc ≠ .raise → next.listener.listening = server.listener.listening
  socktype : next.listener.socktype = server.listener.socktype
  port : next.listener.port = server.listener.port

theorem Server.starts (haveThreads : Bool) (server : Server) (answer : Answer) :
    Starts server (server.startListening haveThreads answer) := by
  unfold Server.startListening Server.afterThread
  cases pc : server.pc <;> dsimp only <;> (try split_ifs) <;>
    exact ⟨rfl, rfl, by simp [pc], by simp [pc], rfl, rfl⟩

/-- What a step of `startListening` adds to the log. -/
def Server.issued (haveThreads : Bool) (server : Server) (answer : Answer) : List Action :=
  let sockfd := server.listener.sockfd
  let newSock := server.locals.newSock
  match server.pc with
  | .socket => [.socket server.sockType answer.ret]
  | .setReuse => [.setReuse sockfd answer.ret]
  | .bind => [.bind sockfd server.listener.port answer.ret answer.errno]
  | .bindFailed errno =>
      if server.listener.listening ∧ server.locals.bindAttempts ≠ 10 ∧ ¬ ncAddrInUse errno then
        [.sleep ((server.locals.bindAttempts + 1) * 1000)]
      else []
  | .listen => [.listen sockfd server.listener.backlog answer.ret]
  | .setNonBlocking => [.setNonBlocking sockfd]
  | .accept => .accept sockfd answer.ret :: if answer.ret = -1 then [.sleep 100] else []
  | .spawn =>
      let outcome := NcThread.start haveThreads answer.thread newSock answer.ret
      .construct newSock :: outcome.2 ++
        if outcome.1 = .failed then .delete newSock :: newSock.destroy.2.map .client else []
  | .release =>
      if server.args.flags = ncDetached then
        (NcThread.detach haveThreads server.locals.thread answer.ret).2
      else if server.args.flags = ncJoined then
        (NcThread.join haveThreads server.locals.thread answer.ret).2
      else []
  | .call => [.construct newSock, .callback newSock]
  | .receive => [.recvfrom sockfd answer.ret]
  | .deliver =>
      [.deliver (.make server.locals.client server.locals.clientaddr server.locals.buf
        server.locals.datasize)]
  | _ => []

theorem Server.startListening_actions (haveThreads : Bool) (server : Server)
    (answer : Answer) :
    (server.startListening haveThreads answer).actions =
      server.actions ++ server.issued haveThreads answer := by
  unfold Server.startListening Server.issued Server.afterThread
  cases pc : server.pc <;> dsimp only <;> (try split_ifs) <;> simp_all

/-! ### Calls on `m_sockfd` -/

/-- A call of `startListening` on the socket of the listener. -/
def Action.onSocket : Action → Bool
  | .setReuse _ _ | .bind _ _ _ _ | .listen _ _ _ | .setNonBlocking _ | .accept _ _
  | .recvfrom _ _ => true
  | _ => false

/-- The program points of these calls. -/
def Pc.onSocket : Pc → Bool
  | .setReuse | .bind | .listen | .setNonBlocking | .accept | .receive => true
  | _ => false

/-- Elsewhere no such call is made. -/
theorem Server.issued_elsewhere (haveThreads : Bool) {server : Server} (answer : Answer)
    (elsewhere : server.pc.onSocket = false) :
    ∀ action ∈ server.issued haveThreads answer, action.onSocket = false := by
  have threads : ∀ {call : Action} {ret : Int}, call.onSocket = false →
      ∀ action ∈ (threadCall haveThreads call ret).2, action.onSocket = false := by
    intro call ret other action member
    rw [mem_threadCall member]
    exact other
  unfold Server.issued NcThread.start NcThread.detach NcThread.join
  cases pc : server.pc with
  | setReuse | bind | listen | setNonBlocking | accept | receive =>
      rw [pc] at elsewhere
      cases elsewhere
  | spawn =>
      rw [List.forall_mem_append, List.forall_mem_cons]
      refine ⟨⟨rfl, threads rfl⟩, ?_⟩
      split_ifs
      · rw [List.forall_mem_cons]
        refine ⟨rfl, fun action member => ?_⟩
        obtain ⟨call, -, rfl⟩ := List.mem_map.mp member
        rfl
      · exact fun action member => absurd member List.not_mem_nil
  | release =>
      dsimp only
      split_ifs
      · exact threads rfl
      · exact threads rfl
      · exact fun action member => absurd member List.not_mem_nil
  | _ => (try dsimp only; split_ifs) <;> simp [Action.onSocket]

/-- What is only read off these calls is not there elsewhere. -/
theorem Server.filterMap_elsewhere {Data : Type} (haveThreads : Bool) {server : Server}
    (answer : Answer) {read : Action → Option Data}
    (silent : ∀ action, action.onSocket = false → read action = none)
    (elsewhere : server.pc.onSocket = false) :
    (server.issued haveThreads answer).filterMap read = [] :=
  List.filterMap_eq_nil_iff.mpr fun action member =>
    silent action (server.issued_elsewhere haveThreads answer elsewhere action member)

end NetClass.Listener
