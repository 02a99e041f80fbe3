import NetClass.Socket.Connect

/-!
Contract: how the retry loop of `ncSocket::connect` ends.

Owns: the run of the loop on an endless sequence of answers of `::connect`, the outcome
that it is meant to have, and the exact answers on which it has another one.

Does **not** own: the calls before the loop.

`ncIsConnected` is 0 on every POSIX platform, so the branch for a socket that is already
connected is dead there and `EISCONN` is a failure.
-/

set_option autoImplicit false

namespace NetClass.Socket

namespace ConnectAnswer

/-- `::connect` asks for another attempt. -/
def Blocks (answer : ConnectAnswer) : Prop :=
  answer.ret < 0 ∧ ncIsBlockingError answer.errno = true

/-- `::connect` says that an earlier attempt has connected the socket. -/
def AlreadyConnected (answer : ConnectAnswer) : Prop :=
  answer.ret < 0 ∧ answer.errno = .eisconn

/-- The socket is connected. -/
def Connected (answer : ConnectAnswer) : Prop := 0 ≤ answer.ret ∨ answer.AlreadyConnected

instance (answer : ConnectAnswer) : Decidable answer.Blocks :=
  inferInstanceAs (Decidable (_ ∧ _))

instance (answer : ConnectAnswer) : Decidable answer.AlreadyConnected :=
  inferInstanceAs (Decidable (_ ∧ _))

instance (answer : ConnectAnswer) : Decidable answer.Connected :=
  inferInstanceAs (Decidable (_ ∨ _))

end ConnectAnswer

def Call.isConnect : Call → Bool
  | .connect .. => true
  | _ => false

/-- The milliseconds that a call sleeps. -/
def Call.slept : Call → Nat
  | .sleep millisecs => millisecs
  | _ => 0

def slept (calls : List Call) : Nat := (calls.map Call.slept).sum

/-- `floor(T/100)+1`. -/
def maxAttempts (sock : NcSocket) : Nat := sock.timeout.toNat / 100 + 1

/-- What the outcome says about the answers. -/
structure Concludes (sock : NcSocket) (supply : Nat → ConnectAnswer) (outcome : Outcome) :
    Prop where
  timedOut : outcome.ret = .timedOut ↔ ∀ index < maxAttempts sock, (supply index).Blocks
  decided : ∀ index < maxAttempts sock, ¬ (supply index).Blocks →
    (∀ earlier < index, (supply earlier).Blocks) →
    outcome.ret = (if (supply index).Connected then .ok else .failed) ∧
      outcome.calls.countP Call.isConnect = index + 1 ∧ slept outcome.calls = 100 * index
  attempts : outcome.calls.countP Call.isConnect ≤ maxAttempts sock

/-! ### The run of the loop -/

/-- The calls of attempts that were to be repeated. -/
def tried (sockfd : Int) (servaddr : SockAddrIn) (answers : List ConnectAnswer) : List Call :=
  answers.flatMap fun answer => [.connect sockfd servaddr answer.ret answer.errno, .sleep 100]

section Loop

variable (sock : NcSocket) (servaddr : SockAddrIn)

namespace Connect

/-- The step lemma: the time-out has room for another attempt. -/
theorem body_again {locals : Locals} {answer : ConnectAnswer} (blocks : answer.Blocks)
    (room : locals.timeout + 100 ≤ sock.timeout.toNat) :
    body sock servaddr locals answer = .again
      ⟨locals.timeout + 100, locals.calls ++ tried sock.sockfd servaddr [answer]⟩ := by
  simp only [body, if_pos blocks.1, if_pos blocks.2, if_neg (Nat.not_lt.mpr room),
    List.append_assoc]
  rfl

/-- The time-out has no room for another attempt. -/
theorem body_late {locals : Locals} {answer : ConnectAnswer} (blocks : answer.Blocks)
    (late : sock.timeout.toNat < locals.timeout + 100) :
    ∃ timeout, body sock servaddr locals answer = .leave
      ⟨timeout, locals.calls ++ [.connect sock.sockfd servaddr answer.ret answer.errno]⟩
      .timedOut := by
  simp only [body, if_pos blocks.1, if_pos blocks.2, if_pos late]
  exact ⟨_, rfl⟩

/-- Any other answer decides. -/
theorem body_decided (locals : Locals) {answer : ConnectAnswer} (decides : ¬ answer.Blocks) :
    ∃ timeout, body sock servaddr locals answer = .leave
      ⟨timeout, locals.calls ++ [.connect sock.sockfd servaddr answer.ret answer.errno]⟩
      (if 0 ≤ answer.ret then .ok else .failed) := by
  by_cases failed : answer.ret < 0
  · have notBlocking : ¬ ncIsBlockingError answer.errno = true :=
      fun blocking => decides ⟨failed, blocking⟩
    have notConnected : ¬ ncIsConnected answer.errno = true := Bool.false_ne_true
    simp only [body, if_pos failed, if_neg notBlocking, if_neg notConnected,
      if_neg (Int.not_le.mpr failed)]
    exact ⟨_, rfl⟩
  · simp only [body, if_neg failed, if_pos (Int.not_lt.mp failed)]
    exact ⟨_, rfl⟩

/-- The run lemma: the attempts that are repeated. -/
theorem run_tried (rest before : List ConnectAnswer) :
    ∀ locals : Locals, (∀ answer ∈ before, answer.Blocks) →
      locals.timeout + 100 * before.length ≤ sock.timeout.toNat →
      (loop sock servaddr).run locals (before ++ rest) =
        (loop sock servaddr).run ⟨locals.timeout + 100 * before.length,
          locals.calls ++ tried sock.sockfd servaddr before⟩ rest := by
  induction before with
  | nil =>
      intro locals _ _
      simp [tried]
  | cons answer before inductionHypothesis =>
      intro locals blocks room
      rw [List.length_cons] at room
      have again : (loop sock servaddr).body locals answer = .again
          ⟨locals.timeout + 100, locals.calls ++ tried sock.sockfd servaddr [answer]⟩ :=
        body_again sock servaddr (blocks answer List.mem_cons_self) (by omega)
      rw [List.cons_append, AnswerLoop.run_cons_again rfl again,
        inductionHypothesis _ (fun other member => blocks other (List.mem_cons_of_mem _ member))]
      · have sum : locals.timeout + 100 + 100 * before.length =
            locals.timeout + 100 * (answer :: before).length := by
          rw [List.length_cons]
          omega
        have log : locals.calls ++ tried sock.sockfd servaddr [answer] ++
              tried sock.sockfd servaddr before =
            locals.calls ++ tried sock.sockfd servaddr (answer :: before) := by
          rw [List.append_assoc]
          rfl
        rw [sum, log]
      · show locals.timeout + 100 + 100 * before.length ≤ sock.timeout.toNat
        omega

end Connect

end Loop

/-! ### The whole call -/

theorem ConnectAnswer.AlreadyConnected.not_blocks {answer : ConnectAnswer}
    (already : answer.AlreadyConnected) : ¬ answer.Blocks := by
  rintro ⟨-, blocking⟩
  rw [already.2] at blocking
  exact absurd blocking (by decide)

theorem ConnectAnswer.AlreadyConnected.failed {answer : ConnectAnswer}
    (already : answer.AlreadyConnected) : ¬ 0 ≤ answer.ret :=
  Int.not_le.mpr already.1

/-- Only one answer is the first that is not to be repeated. -/
theorem first_unique {supply : Nat → ConnectAnswer} {index other : Nat}
    (blocks : ∀ earlier < index, (supply earlier).Blocks) (decides : ¬ (supply index).Blocks)
    (blocksOther : ∀ earlier < other, (supply earlier).Blocks)
    (decidesOther : ¬ (supply other).Blocks) : other = index := by
  rcases Nat.lt_trichotomy other index with before | same | after
  · exact absurd (blocks other before) decidesOther
  · exact same
  · exact absurd (blocksOther index after) decides

/-- `100 * index` has not exceeded the time-out exactly for the attempts that are made. -/
theorem lt_maxAttempts_iff (sock : NcSocket) (index : Nat) :
    index < maxAttempts sock ↔ 100 * index ≤ sock.timeout.toNat := by
  unfold maxAttempts
  omega

section Call

variable {sock : NcSocket} {socket : Int} {address : Nat} {supply : Nat → ConnectAnswer}
variable {index : Nat}

/-- The outcome of a call that ends with `ret` on the attempt number `index`. -/
def concluded (sock : NcSocket) (socket : Int) (address : Nat) (supply : Nat → ConnectAnswer)
    (index : Nat) (ret : RetCode) : Outcome :=
  ⟨{ sock with sockfd := socket, ipaddr := address }, ret,
    [.socket socket, .setNonBlocking socket] ++
      tried socket (sock.servaddr address) ((List.range index).map supply) ++
      [.connect socket (sock.servaddr address) (supply index).ret (supply index).errno]⟩

theorem countP_tried (sockfd : Int) (servaddr : SockAddrIn) (answers : List ConnectAnswer) :
    (tried sockfd servaddr answers).countP Call.isConnect = answers.length := by
  induction answers with
  | nil => rfl
  | cons answer answers inductionHypothesis =>
      have split : tried sockfd servaddr (answer :: answers) =
          [.connect sockfd servaddr answer.ret answer.errno, .sleep 100] ++
            tried sockfd servaddr answers := rfl
      rw [split, List.countP_append, inductionHypothesis, List.length_cons, Nat.add_comm]
      rfl

theorem slept_tried (sockfd : Int) (servaddr : SockAddrIn) (answers : List ConnectAnswer) :
    slept (tried sockfd servaddr answers) = 100 * answers.length := by
  induction answers with
  | nil => rfl
  | cons answer answers inductionHypothesis =>
      have split : slept (tried sockfd servaddr (answer :: answers)) =
          0 + (100 + slept (tried sockfd servaddr answers)) := rfl
      rw [split, inductionHypothesis, List.length_cons]
      omega

theorem concluded_attempts (ret : RetCode) :
    (concluded sock socket address supply index ret).calls.countP Call.isConnect = index + 1 := by
  simp only [concluded, List.countP_append, countP_tried, List.length_map, List.length_range]
  rw [show [Call.socket socket, Call.setNonBlocking socket].countP Call.isConnect = 0 from rfl,
    Nat.zero_add]
  rfl

theorem concluded_slept (ret : RetCode) :
    slept (concluded sock socket address supply index ret).calls = 100 * index := by
  have split : slept (concluded sock socket address supply index ret).calls =
      slept (tried socket (sock.servaddr address) ((List.range index).map supply)) := by
    simp [slept, concluded, Call.slept]
  rw [split, slept_tried, List.length_map, List.length_range]

/-- A call whose attempts before `index` are repeated, and whose attempt `index` leaves the
loop with `ret`. -/
theorem connect_concludes {ret : RetCode} (opened : socket ≠ 0)
    (blocks : ∀ earlier < index, (supply earlier).Blocks) (room : index < maxAttempts sock)
    (ends : ∀ calls, ∃ timeout,
      Connect.body { sock with sockfd := socket, ipaddr := address } (sock.servaddr address)
        ⟨100 * index, calls⟩ (supply index) =
        .leave ⟨timeout, calls ++ [.connect socket (sock.servaddr address) (supply index).ret
          (supply index).errno]⟩ ret)
    {length : Nat} (enough : index < length) :
    sock.connect ⟨socket, some address, (List.range length).map supply⟩ =
      some (concluded sock socket address supply index ret) := by
  obtain ⟨more, rfl⟩ := Nat.exists_eq_add_of_lt enough
  have answers : (List.range (index + more + 1)).map supply = (List.range index).map supply ++
      supply index :: (List.range more).map fun later => supply (index + (later + 1)) := by
    rw [Nat.add_assoc, List.range_add, List.map_append, List.range_succ_eq_map]
    simp [Function.comp_def]
  obtain ⟨timeout, leave⟩ := ends ([.socket socket, .setNonBlocking socket] ++
    tried socket (sock.servaddr address) ((List.range index).map supply))
  have repeated : ∀ answer ∈ (List.range index).map supply, answer.Blocks := by
    intro answer member
    obtain ⟨earlier, before, rfl⟩ := List.mem_map.mp member
    exact blocks earlier (List.mem_range.mp before)
  have count : ((List.range index).map supply).length = index := by
    rw [List.length_map, List.length_range]
  have run := Connect.run_tried { sock with sockfd := socket, ipaddr := address }
    (sock.servaddr address)
    (supply index :: (List.range more).map fun later => supply (index + (later + 1)))
    ((List.range index).map supply) ⟨0, [.socket socket, .setNonBlocking socket]⟩ repeated
    (by rw [count, Nat.zero_add]; exact (lt_maxAttempts_iff sock index).mp room)
  rw [count, Nat.zero_add] at run
  simp only [NcSocket.servaddr] at run leave
  simp only [NcSocket.connect, if_neg opened, NcSocket.servaddr]
  rw [answers, run, AnswerLoop.run_cons_leave rfl leave]
  rfl

/-- Every attempt of the call is to be repeated. -/
theorem connect_exhausted (opened : socket ≠ 0)
    (blocks : ∀ earlier < maxAttempts sock, (supply earlier).Blocks) {length : Nat}
    (enough : maxAttempts sock ≤ length) :
    sock.connect ⟨socket, some address, (List.range length).map supply⟩ =
      some (concluded sock socket address supply (sock.timeout.toNat / 100) .timedOut) := by
  have last : sock.timeout.toNat / 100 < maxAttempts sock := Nat.lt_succ_self _
  refine connect_concludes opened (fun earlier before => blocks earlier (before.trans last)) last
    (fun calls => Connect.body_late _ _ (blocks _ last) ?_) (last.trans_le enough)
  show sock.timeout.toNat < 100 * (sock.timeout.toNat / 100) + 100
  omega

/-- An attempt decides. -/
theorem connect_decided (opened : socket ≠ 0)
    (blocks : ∀ earlier < index, (supply earlier).Blocks) (room : index < maxAttempts sock)
    (decides : ¬ (supply index).Blocks) {length : Nat} (enough : maxAttempts sock ≤ length) :
    sock.connect ⟨socket, some address, (List.range length).map supply⟩ =
      some (concluded sock socket address supply index
        (if 0 ≤ (supply index).ret then .ok else .failed)) :=
  connect_concludes opened blocks room
    (fun calls => Connect.body_decided _ _ ⟨100 * index, calls⟩ decides) (room.trans_le enough)

/-- The call that has repeated every attempt says so. -/
theorem concluded_exhausted (blocks : ∀ earlier < maxAttempts sock, (supply earlier).Blocks) :
    Concludes sock supply
      (concluded sock socket address supply (sock.timeout.toNat / 100) .timedOut) where
  timedOut := iff_of_true rfl blocks
  decided := fun other within decides _ => absurd (blocks other within) decides
  attempts := (concluded_attempts _).le

/-- The call that an attempt has decided says what the attempt says, except that a socket
that is already connected is a failure for it. -/
theorem concluded_decided (blocks : ∀ earlier < index, (supply earlier).Blocks)
    (room : index < maxAttempts sock) (decides : ¬ (supply index).Blocks) :
    Concludes sock supply (concluded sock socket address supply index
      (if 0 ≤ (supply index).ret then .ok else .failed)) ↔ ¬ (supply index).AlreadyConnected := by
  constructor
  · intro concludes already
    have code := (concludes.decided index room decides blocks).1
    have connected : (supply index).Connected := Or.inr already
    rw [if_pos connected] at code
    have failed : RetCode.failed = .ok := by
      rw [← code]
      exact (if_neg already.failed).symm
    cases failed
  · intro notAlready
    refine ⟨?_, ?_, (concluded_attempts _).le.trans room⟩
    · refine iff_of_false ?_ (fun all => decides (all index room))
      show ¬ (if 0 ≤ (supply index).ret then RetCode.ok else .failed) = .timedOut
      split_ifs <;> simp
    · intro other _ decidesOther blocksBefore
      obtain rfl := first_unique blocks decides blocksBefore decidesOther
      refine ⟨?_, concluded_attempts _, concluded_slept _⟩
      show (if 0 ≤ (supply other).ret then RetCode.ok else .failed) = _
      refine if_congr ?_ rfl rfl
      exact ⟨Or.inl, fun connected => connected.resolve_right notAlready⟩

end Call

/-- `connect` ends as its contract says exactly if the first attempt that is not to be
repeated does not find the socket already connected. -/
theorem connect_concludes_iff (sock : NcSocket) (socket : Int) (address : Nat)
    (supply : Nat → ConnectAnswer) (opened : 0 < socket) : ∃ outcome,
    (∀ length, maxAttempts sock ≤ length →
      sock.connect ⟨socket, some address, (List.range length).map supply⟩ = some outcome) ∧
    (Concludes sock supply outcome ↔ ¬ ∃ index < maxAttempts sock,
      (∀ earlier < index, (supply earlier).Blocks) ∧ (supply index).AlreadyConnected) := by
  have descriptor : socket ≠ 0 := opened.ne'
  by_cases all : ∀ index < maxAttempts sock, (supply index).Blocks
  · refine ⟨_, fun length enough => connect_exhausted descriptor all enough, ?_⟩
    refine iff_of_true (concluded_exhausted all) ?_
    rintro ⟨index, room, -, already⟩
    exact already.not_blocks (all index room)
  · push Not at all
    obtain ⟨witness, within, decides⟩ := all
    have exists_decides : ∃ index, ¬ (supply index).Blocks := ⟨witness, decides⟩
    let first := Nat.find exists_decides
    have firstDecides : ¬ (supply first).Blocks := Nat.find_spec exists_decides
    have blocks : ∀ earlier < first, (supply earlier).Blocks :=
      fun earlier before => not_not.mp (Nat.find_min exists_decides before)
    have room : first < maxAttempts sock := (Nat.find_min' exists_decides decides).trans_lt within
    refine ⟨_, fun length enough => connect_decided descriptor blocks room firstDecides enough, ?_⟩
    rw [concluded_decided blocks room firstDecides, not_iff_not]
    constructor
    · intro already
      exact ⟨first, room, blocks, already⟩
    · rintro ⟨index, _, blocksBefore, already⟩
      have same : index = first :=
        first_unique blocks firstDecides blocksBefore already.not_blocks
      exact same ▸ already

/-- A connect that is in progress at the first attempt and done at the second. -/
def completesInBackground : Nat → ConnectAnswer
  | 0 => ⟨-1, .einprogress⟩
  | _ => ⟨-1, .eisconn⟩

theorem connect_concludes_iff_background : ∃ outcome,
    (∀ length, maxAttempts .default ≤ length →
      NcSocket.default.connect ⟨3, some 16777343, (List.range length).map completesInBackground⟩ =
        some outcome) ∧
    ¬ Concludes .default completesInBackground outcome := by
  obtain ⟨outcome, returns, exact⟩ :=
    connect_concludes_iff .default 3 16777343 completesInBackground (by decide)
  refine ⟨outcome, returns, fun concludes => exact.mp concludes ⟨1, by decide, ?_, by decide⟩⟩
  intro earlier before
  obtain rfl : earlier = 0 := Nat.lt_one_iff.mp before
  decide

/-- `connect` fails on a socket that it has connected itself. -/
theorem connect_in_background_fails :
    NcSocket.default.connect
      ⟨3, some 16777343, [completesInBackground 0, completesInBackground 1]⟩ =
        some ⟨{ NcSocket.default with sockfd := 3, ipaddr := 16777343 }, .failed,
          [.socket 3, .setNonBlocking 3, .connect 3 ⟨afInet, 0, 16777343⟩ (-1) .einprogress,
            .sleep 100, .connect 3 ⟨afInet, 0, 16777343⟩ (-1) .eisconn]⟩ ∧
    (completesInBackground 0).Blocks ∧ ¬ (completesInBackground 1).Blocks ∧
    (completesInBackground 1).Connected := by
  decide

end NetClass.Socket
