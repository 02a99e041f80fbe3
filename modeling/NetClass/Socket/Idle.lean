import Mathlib.Order.Bounds.Defs
import NetClass.Library.Residues
import NetClass.Socket.Account
import NetClass.Socket.Transfer

/-!
Contract: a transfer call that finds nothing at any wait.

Owns: what such a call has done after any number of waits, for both builds, and the exact
limits for which the poll build comes to an end, with its last wait.

The counter of `checkTimeout` wraps, so a call ends at the first multiple of `m_polltime`
whose residue modulo 2^32 reaches `m_timeout`. No multiple does so if `m_timeout` is
beyond the largest residue.
-/

set_option autoImplicit false

namespace NetClass.Socket

/-- The number of waits after which the counter first reaches the limit. -/
def LastWait (sock : NcSocket) (count : Nat) : Prop :=
  IsLeast {count | 0 < count ∧
    sock.timeout.toNat ≤ count * sock.polltime.toNat % 2 ^ 32} count

theorem accounted_toNat (sock : NcSocket) (count : Nat) :
    (accounted sock count).toNat = count * sock.polltime.toNat % 2 ^ 32 := by
  rw [accounted, UInt32.toNat_mul, UInt32.toNat_ofNat', Nat.mod_mul_mod]

/-- The charge with this number reaches the limit. -/
theorem reaches_iff (sock : NcSocket) (charge : Nat) :
    sock.timeout.toNat ≤ charge * sock.polltime.toNat % 2 ^ 32 ↔
      ¬ accounted sock charge < sock.timeout := by
  rw [UInt32.lt_iff_toNat_lt, accounted_toNat, Nat.not_lt]

theorem lastWait_iff (sock : NcSocket) (count : Nat) :
    LastWait sock (count + 1) ↔ InTime sock count ∧ ¬ InTime sock (count + 1) := by
  constructor
  · rintro ⟨⟨-, here⟩, least⟩
    constructor
    · intro charge positive within
      by_contra late
      have first := least ⟨positive, (reaches_iff sock charge).mpr late⟩
      omega
    · intro inTime
      exact (reaches_iff sock _).mp here (inTime _ (Nat.succ_pos count) le_rfl)
  · rintro ⟨before, late⟩
    refine ⟨⟨Nat.succ_pos count, ?_⟩, ?_⟩
    · rw [reaches_iff]
      exact fun early => late ((inTime_succ_iff sock count).mpr ⟨before, early⟩)
    · rintro charge ⟨positive, here⟩
      by_contra earlier
      exact (reaches_iff sock charge).mp here (before charge positive (by omega))

/-- A call that is late has a last wait. -/
theorem exists_lastWait {sock : NcSocket} {count : Nat} (late : ¬ InTime sock count) :
    ∃ last < count, LastWait sock (last + 1) := by
  induction count with
  | zero => exact absurd (.zero sock) late
  | succ count inductionHypothesis =>
      by_cases inTime : InTime sock count
      · exact ⟨count, Nat.lt_succ_self count, (lastWait_iff sock count).mpr ⟨inTime, late⟩⟩
      · obtain ⟨last, below, isLast⟩ := inductionHypothesis inTime
        exact ⟨last, Nat.lt_succ_of_lt below, isLast⟩

namespace Build

/-- The wait that a pass issues. -/
def waitCall (build : Build) (direction : Direction) (sock : NcSocket) (answer : WaitAnswer) :
    Call :=
  match build with
  | .poll => .poll sock.sockfd (Poll.events direction) sock.polltime answer
  | .select =>
      .select sock.sockfd direction (Select.timeoutSeconds sock) (Select.timeoutUSeconds sock)
        answer

/-- The locals of a call that has found nothing so far and is not late. -/
def idled (build : Build) (direction : Direction) (sock : NcSocket) (bufLen : Int)
    (counted : Bool) (answers : List Answer) : Locals :=
  { Locals.start bufLen counted with
    timeout := accounted sock answers.length
    calls := answers.map fun answer => build.waitCall direction sock answer.wait }

/-- The locals of a call that has found nothing and has become late with its last wait. -/
def expired (build : Build) (direction : Direction) (sock : NcSocket) (bufLen : Int)
    (counted : Bool) (answers : List Answer) : Locals :=
  { build.idled direction sock bufLen counted answers with
    timedout := true
    ret := .timedOut }

section Idle

variable (build : Build) (direction : Direction) (sock : NcSocket) (bufLen : Int)
variable (counted : Bool)

theorem idled_nil :
    build.idled direction sock bufLen counted [] = .start bufLen counted := by
  simp [idled, accounted, Locals.start]

/-- A wait that finds nothing leads to `checkTimeout`. -/
theorem body_idle (locals : Locals) {answer : Answer} (idle : answer.wait.ret = 0) :
    (build.loop direction sock bufLen).body locals answer =
      .again ((locals.issue (build.waitCall direction sock answer.wait)).account sock
        bufLen) := by
  have working : ¬ (0 : Int) = -1 := by decide
  cases build with
  | poll =>
      simp only [loop, Poll.loop, Poll.body, Poll.wait, idle, if_neg working, ↓reduceIte]
      rfl
  | select =>
      simp only [loop, Select.loop, Select.body, Select.wait, idle, if_neg working, ↓reduceIte]
      rfl

theorem idled_haveAllData (answers : List Answer) :
    (build.idled direction sock bufLen counted answers).haveAllData bufLen = -1 := by
  cases counted <;> rfl

/-- It goes on with its next wait. -/
theorem guard_idled {bufLen : Int} (positive : 0 < bufLen) (done : List Answer) :
    (build.loop direction sock bufLen).guard
      (build.idled direction sock bufLen counted done) = true := by
  have running : (build.idled direction sock bufLen counted done).running = true := by
    rw [Locals.running_iff]
    exact ⟨positive, rfl⟩
  rw [(build.isTransferLoop direction sock bufLen).guard]
  exact running

/-- The step lemma. -/
theorem idled_account (done : List Answer) (answer : Answer) :
    ((build.idled direction sock bufLen counted done).issue
        (build.waitCall direction sock answer.wait)).account sock bufLen =
      if accounted sock (done.length + 1) < sock.timeout then
        build.idled direction sock bufLen counted (done ++ [answer])
      else build.expired direction sock bufLen counted (done ++ [answer]) := by
  have unknown : ((build.idled direction sock bufLen counted done).issue
      (build.waitCall direction sock answer.wait)).haveAllData bufLen = -1 :=
    idled_haveAllData build direction sock bufLen counted done
  have sum : ((build.idled direction sock bufLen counted done).issue
      (build.waitCall direction sock answer.wait)).timeout + sock.polltime =
        accounted sock (done.length + 1) := (accounted_succ sock done.length).symm
  have length : (done ++ [answer]).length = done.length + 1 := List.length_append
  unfold Locals.account NcSocket.checkTimeout
  rw [unknown, sum]
  by_cases early : accounted sock (done.length + 1) < sock.timeout
  · simp only [if_neg (UInt32.not_le.mpr early), if_pos early, idled, Locals.issue,
      Locals.start, length, List.map_append, List.map_cons, List.map_nil]
  · simp only [if_pos (UInt32.not_lt.mp early), if_neg early, expired, idled, Locals.issue,
      Locals.start, length, List.map_append, List.map_cons, List.map_nil, ↓reduceIte]

/-- The run lemma: before the limit the call only waits. -/
theorem run_idled {bufLen : Int} (positive : 0 < bufLen) (more : List Answer) (rest : List Answer) :
    ∀ done : List Answer, (∀ answer ∈ rest, answer.wait.ret = 0) →
      InTime sock (done.length + rest.length) →
      (build.loop direction sock bufLen).run (build.idled direction sock bufLen counted done)
          (rest ++ more) =
        (build.loop direction sock bufLen).run
          (build.idled direction sock bufLen counted (done ++ rest)) more := by
  induction rest with
  | nil =>
      intro done _ _
      rw [List.nil_append, List.append_nil]
  | cons answer rest inductionHypothesis =>
      intro done idle inTime
      have goes := build.guard_idled direction sock counted positive done
      have early : accounted sock (done.length + 1) < sock.timeout :=
        inTime _ (Nat.succ_pos _) (by rw [List.length_cons]; omega)
      have body := build.body_idle direction sock bufLen
        (build.idled direction sock bufLen counted done) (idle answer List.mem_cons_self)
      rw [idled_account, if_pos early] at body
      rw [List.cons_append, AnswerLoop.run_cons_again goes body,
        inductionHypothesis (done ++ [answer])
          (fun other member => idle other (List.mem_cons_of_mem _ member))]
      · rw [List.append_assoc, List.singleton_append]
      · rw [List.length_append, List.length_singleton, Nat.add_assoc, Nat.add_comm 1]
        exact inTime

/-- As long as the counter is below the limit, the call has not returned. -/
theorem idle_asks {sock : NcSocket} {bufLen : Int} (positive : 0 < bufLen) {answers : List Answer}
    (idle : ∀ answer ∈ answers, answer.wait.ret = 0) (inTime : InTime sock answers.length) :
    build.call direction sock bufLen counted answers = none := by
  have run := build.run_idled direction sock counted positive [] answers [] idle
    (by rwa [List.length_nil, Nat.zero_add])
  rw [idled_nil, List.append_nil, List.nil_append] at run
  rw [call, run]
  simp [AnswerLoop.run, build.guard_idled direction sock counted positive answers]

/-- With the wait that brings it to the limit the call ends. -/
theorem idle_ends {sock : NcSocket} {bufLen : Int} (positive : 0 < bufLen) {count : Nat}
    (last : LastWait sock count) {answers : List Answer}
    (idle : ∀ answer ∈ answers, answer.wait.ret = 0)
    (enough : count ≤ answers.length) :
    build.call direction sock bufLen counted answers =
      some (build.expired direction sock bufLen counted (answers.take count), .timedOut) := by
  obtain ⟨before, rfl⟩ : ∃ before, count = before + 1 :=
    Nat.exists_eq_succ_of_ne_zero (Nat.ne_of_gt last.1.1)
  obtain ⟨inTime, late⟩ := (lastWait_iff sock before).mp last
  have room : before < answers.length := enough
  have split : answers = answers.take before ++ answers[before] :: answers.drop (before + 1) := by
    rw [List.getElem_cons_drop, List.take_append_drop]
  have size : (answers.take before).length = before :=
    List.length_take_of_le (Nat.le_of_lt room)
  have run := build.run_idled direction sock counted positive
    (answers[before] :: answers.drop (before + 1)) (answers.take before) []
    (fun answer member => idle answer (List.mem_of_mem_take member))
    (by rwa [List.length_nil, Nat.zero_add, size])
  rw [idled_nil, ← split, List.nil_append] at run
  have expires : ¬ accounted sock ((answers.take before).length + 1) < sock.timeout := by
    rw [size]
    exact fun early => late ((inTime_succ_iff sock before).mpr ⟨inTime, early⟩)
  have body := build.body_idle direction sock bufLen
    (build.idled direction sock bufLen counted (answers.take before))
    (idle answers[before] (List.getElem_mem room))
  rw [idled_account, if_neg expires, List.take_append_getElem] at body
  have stopped : (build.loop direction sock bufLen).guard
      (build.expired direction sock bufLen counted (answers.take (before + 1))) = false := by
    rw [(build.isTransferLoop direction sock bufLen).guard]
    simp [Locals.running, expired]
  rw [call, run,
    AnswerLoop.run_cons_again (build.guard_idled direction sock counted positive _) body,
    AnswerLoop.run_of_not_guard stopped, (build.isTransferLoop direction sock bufLen).finish]
  rfl

/-- On an endless supply of such answers, the call has returned exactly if it has made its
last wait. -/
theorem idle_returns_iff {bufLen : Int} (positive : 0 < bufLen) {supply : Nat → Answer}
    (idle : ∀ index, (supply index).wait.ret = 0) (length : Nat) (outcome : Locals × RetCode) :
    build.call direction sock bufLen counted ((List.range length).map supply) = some outcome ↔
      ∃ count ≤ length, LastWait sock count ∧
        outcome = (build.expired direction sock bufLen counted ((List.range count).map supply),
          .timedOut) := by
  have supplied : ∀ answer ∈ (List.range length).map supply, answer.wait.ret = 0 :=
    List.forall_mem_map.mpr fun index _ => idle index
  have size : ((List.range length).map supply).length = length := by simp
  have ends : ∀ count ≤ length, LastWait sock count →
      build.call direction sock bufLen counted ((List.range length).map supply) =
        some (build.expired direction sock bufLen counted ((List.range count).map supply),
          .timedOut) := by
    intro count within last
    have first : ((List.range length).map supply).take count = (List.range count).map supply := by
      rw [← List.map_take, List.take_range, Nat.min_eq_left within]
    rw [build.idle_ends direction counted positive last supplied (by rwa [size]), first]
  constructor
  · intro returns
    have late : ¬ InTime sock length := by
      intro inTime
      rw [build.idle_asks direction counted positive supplied (by rwa [size])] at returns
      cases returns
    obtain ⟨before, below, last⟩ := exists_lastWait late
    rw [ends (before + 1) below last, Option.some.injEq] at returns
    exact ⟨before + 1, below, last, returns.symm⟩
  · rintro ⟨count, within, last, rfl⟩
    exact ends count within last

end Idle

end Build

/-- A poll transfer whose waits all find nothing comes to an end exactly if `m_timeout` is
not beyond the largest residue of the multiples of `m_polltime`. It then reports
`NC_TIMEDOUT`, and has done nothing but wait until the first residue that reaches
`m_timeout`. -/
theorem idle_transfer_ends (direction : Direction) (sock : NcSocket) (bufLen : Int)
    (positive : 0 < bufLen) (counted : Bool) (supply : Nat → Answer)
    (idle : ∀ index, (supply index).wait.ret = 0) :
    ((∃ length outcome, Poll.call direction sock bufLen counted
        ((List.range length).map supply) = some outcome) ↔
      sock.timeout.toNat ≤ 2 ^ 32 - Nat.gcd sock.polltime.toNat (2 ^ 32)) ∧
    ∀ length final ret,
      Poll.call direction sock bufLen counted ((List.range length).map supply) =
        some (final, ret) →
      ret = .timedOut ∧ ∃ count,
        IsLeast {count | 0 < count ∧
          sock.timeout.toNat ≤ count * sock.polltime.toNat % 2 ^ 32} count ∧
        final.calls = (List.range count).map fun index =>
          .poll sock.sockfd (Poll.events direction) sock.polltime (supply index).wait := by
  have returns := Build.poll.idle_returns_iff direction sock counted positive idle
  constructor
  · rw [← exists_le_mul_mod_iff _ _ (Nat.two_pow_pos 32)]
    constructor
    · rintro ⟨length, outcome, returned⟩
      obtain ⟨count, -, last, -⟩ := (returns length outcome).mp returned
      exact ⟨count, last.1⟩
    · rintro ⟨count, some, reaches⟩
      have late : ¬ InTime sock count :=
        fun inTime => (reaches_iff sock count).mp reaches (inTime count some le_rfl)
      obtain ⟨before, below, last⟩ := exists_lastWait late
      exact ⟨count, _, (returns count _).mpr ⟨before + 1, below, last, rfl⟩⟩
  · intro length final ret returned
    obtain ⟨count, -, last, same⟩ := (returns length _).mp returned
    obtain ⟨rfl, rfl⟩ := Prod.mk.inj same
    refine ⟨rfl, count, last, ?_⟩
    show ((List.range count).map supply).map _ = _
    rw [List.map_map]
    rfl

/-- With the time-out that `setTimeout(-1)` stores, an idle write never ends. -/
theorem idle_transfer_ends_minusOne : ¬ ∃ length outcome,
    Poll.call .write ((NcSocket.ofSockfd 5).setTimeout (-1)) 3 false
      ((List.range length).map fun _ => ⟨⟨0, 0, false⟩, ⟨0, .other 0, []⟩⟩) = some outcome := by
  have ends := idle_transfer_ends .write ((NcSocket.ofSockfd 5).setTimeout (-1)) 3 (by decide)
    false (fun _ => ⟨⟨0, 0, false⟩, ⟨0, .other 0, []⟩⟩) (fun _ => rfl)
  rw [ends.1]
  decide

end NetClass.Socket
