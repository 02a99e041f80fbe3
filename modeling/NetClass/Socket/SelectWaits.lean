import NetClass.Socket.Elapsed
import NetClass.Socket.Idle

/-!
Contract: how long the waits of the select build ask to last.

Owns: what each wait asks for, the total of a call, and the poll intervals for which both
agree with the accounted time.

Does **not** own: how long a wait really lasts; see `NetClass.Socket.Elapsed`.

The `timeval` is computed with 100000 microseconds to the second, so it stands for
another interval as soon as `m_polltime` reaches 100 milliseconds.
-/

set_option autoImplicit false

namespace NetClass.Socket

/-- The microseconds that a wait asks for. -/
def Call.requested : Call → Int
  | .poll _ _ millisecs _ => 1000 * millisecs.toNat
  | .select _ _ sec usec _ => sec * 1000000 + usec
  | _ => 0

def requested (calls : List Call) : Int := (calls.map Call.requested).sum

/-- The `timeval` of a `select` is normalised and stands for `m_polltime`. -/
def Call.WellTimed (sock : NcSocket) : Call → Prop
  | .select _ _ sec usec _ =>
      0 ≤ usec ∧ usec < 1000000 ∧ sec * 1000000 + usec = 1000 * sock.polltime.toNat
  | _ => True

/-- What is expected of a call of the select build on a supply of answers. -/
structure WaitsAsAccounted (direction : Direction) (sock : NcSocket) (bufLen : Int)
    (counted : Bool) (supply : Nat → Answer) (final : Locals) (ret : RetCode) : Prop where
  timeval : ∀ call ∈ final.calls, call.WellTimed sock
  expires : 0 < bufLen → (∀ index < maxWaits sock, (supply index).wait.ret = 0) →
    ret = .timedOut ∧ requested final.calls = 1000 * (maxWaits sock * sock.polltime.toNat) ∧
      ∃ polled, Poll.call direction sock bufLen counted
          ((List.range (maxWaits sock)).map supply) = some (polled, ret) ∧
        requested polled.calls = requested final.calls

/-! ### The `timeval` -/

/-- Fewer than 1000 wraps fit into the product. -/
theorem wraps_lt {millisecs wraps product : Nat} (fits : millisecs < 2 ^ 32)
    (split : 2 ^ 32 * wraps + product = millisecs * 1000) : wraps < 1000 := by
  omega

/-- 28125 does not divide a power of two. -/
theorem wraps_eq_zero {wraps seconds : Nat} (few : wraps < 1000)
    (same : 2 ^ 32 * wraps = 900000 * seconds) : wraps = 0 := by
  have reduced : 28125 * seconds = 2 ^ 27 * wraps := by linarith
  have divides : 28125 ∣ 2 ^ 27 * wraps := ⟨seconds, reduced.symm⟩
  have coprime : Nat.Coprime 28125 (2 ^ 27) := by decide
  exact Nat.eq_zero_of_dvd_of_lt (coprime.dvd_of_dvd_mul_left divides) (few.trans (by decide))

theorem wraps_of_short {millisecs wraps product : Nat} (short : millisecs < 100)
    (split : 2 ^ 32 * wraps + product = millisecs * 1000) : wraps = 0 := by
  omega

/-- No wrap of the product makes up for the wrong divisor. -/
theorem right_iff {millisecs wraps seconds rest : Nat} (fits : millisecs < 2 ^ 32)
    (split : 2 ^ 32 * wraps + (100000 * seconds + rest) = millisecs * 1000)
    (remainder : rest < 100000) :
    seconds * 1000000 + rest = 1000 * millisecs ↔ millisecs < 100 := by
  constructor
  · intro right
    have excess : 2 ^ 32 * wraps + (100000 * seconds + rest) =
        900000 * seconds + (100000 * seconds + rest) := by linarith
    have unwrapped := wraps_eq_zero (wraps_lt fits split) (Nat.add_right_cancel excess)
    subst unwrapped
    omega
  · intro short
    have unwrapped := wraps_of_short short split
    subst unwrapped
    omega

namespace Select

/-- `m_polltime*1000`. -/
def product (sock : NcSocket) : Nat := sock.polltime.toNat * 1000 % 2 ^ 32

theorem timeoutSeconds_eq (sock : NcSocket) :
    timeoutSeconds sock = (product sock / 100000 : Nat) := by
  rw [timeoutSeconds, UInt32.toNat_div, UInt32.toNat_mul]
  rfl

theorem timeoutUSeconds_eq (sock : NcSocket) :
    timeoutUSeconds sock = (product sock % 100000 : Nat) := by
  rw [timeoutUSeconds, UInt32.toNat_mod, UInt32.toNat_mul]
  rfl

/-- The `timeval` stands for `m_polltime` exactly below 100 milliseconds. -/
theorem timeval_iff (sock : NcSocket) :
    timeoutSeconds sock * 1000000 + timeoutUSeconds sock = 1000 * sock.polltime.toNat ↔
      sock.polltime.toNat < 100 := by
  have split : 2 ^ 32 * (sock.polltime.toNat * 1000 / 2 ^ 32) +
      (100000 * (product sock / 100000) + product sock % 100000) =
        sock.polltime.toNat * 1000 := by
    rw [Nat.div_add_mod, product, Nat.div_add_mod]
  rw [timeoutSeconds_eq, timeoutUSeconds_eq,
    ← right_iff sock.polltime.toNat_lt split (Nat.mod_lt _ (by decide))]
  exact_mod_cast Iff.rfl

theorem timeoutUSeconds_bounds (sock : NcSocket) :
    0 ≤ timeoutUSeconds sock ∧ timeoutUSeconds sock < 1000000 := by
  rw [timeoutUSeconds_eq]
  have remainder : product sock % 100000 < 100000 := Nat.mod_lt _ (by decide)
  exact ⟨Int.natCast_nonneg _, by exact_mod_cast remainder.trans (by decide)⟩

variable {direction : Direction} {sock : NcSocket} {bufLen : Int}

theorem wellTimed_iff (answer : WaitAnswer) :
    (Build.select.waitCall direction sock answer).WellTimed sock ↔
      sock.polltime.toNat < 100 := by
  rw [← timeval_iff]
  constructor
  · rintro ⟨-, -, right⟩
    exact right
  · intro right
    exact ⟨(timeoutUSeconds_bounds sock).1, (timeoutUSeconds_bounds sock).2, right⟩

/-! ### The waits of a call -/

/-- Every wait of the log has this `timeval`. -/
def Waits (direction : Direction) (sock : NcSocket) (calls : List Call) : Prop :=
  ∀ call ∈ calls, call.isWait = true →
    ∃ answer, call = Build.select.waitCall direction sock answer

theorem Waits.append {before more : List Call} (waits : Waits direction sock before)
    (others : Waits direction sock more) : Waits direction sock (before ++ more) := by
  intro call member
  rcases List.mem_append.mp member with earlier | later
  · exact waits call earlier
  · exact others call later

theorem Waits.wait {before : List Call} (waits : Waits direction sock before)
    (answer : WaitAnswer) :
    Waits direction sock (before ++ [Build.select.waitCall direction sock answer]) := by
  refine waits.append fun call member _ => ?_
  exact ⟨answer, List.mem_singleton.mp member⟩

/-- The transfer call and the `shutdown` are no waits. -/
theorem Waits.transfer {locals : Locals} (waits : Waits direction sock locals.calls)
    (answer : TransferAnswer) :
    Waits direction sock (Select.transfer direction sock bufLen locals answer).calls := by
  have attempted : Waits direction sock (locals.attempt sock direction answer).calls := by
    refine waits.append fun call member isWait => ?_
    rw [List.mem_singleton.mp member] at isWait
    exact absurd isWait Bool.false_ne_true
  have disconnected : ∀ code, Waits direction sock
      ((locals.attempt sock direction answer).disconnect sock direction code).calls := by
    intro code
    rw [Locals.disconnect_calls]
    refine attempted.append fun call member isWait => ?_
    rw [List.mem_singleton.mp member] at isWait
    exact absurd isWait Bool.false_ne_true
  unfold Select.transfer
  dsimp only
  split_ifs
  · exact disconnected _
  · exact attempted
  · exact disconnected _

theorem call_waits {counted : Bool} {answers : List Answer} {final : Locals} {ret : RetCode}
    (returns : call direction sock bufLen counted answers = some (final, ret)) :
    Waits direction sock final.calls := by
  refine AnswerLoop.run_invariant (fun locals : Locals => Waits direction sock locals.calls)
    (fun locals _ => Waits direction sock locals.calls) ?again ?leave
    (fun _ _ waits => waits) returns (fun _ none => absurd none List.not_mem_nil)
  case again =>
    intro locals answer next _ waits again
    simp only [loop, body, Select.wait] at again
    split_ifs at again <;> simp only [Pass.again.injEq] at again <;> subst again
    · exact waits.wait answer.wait
    · exact (waits.wait answer.wait).transfer answer.transfer
  case leave =>
    intro locals answer last left _ waits leave
    simp only [loop, body, Select.wait] at leave
    split_ifs at leave <;> simp only [Pass.leave.injEq] at leave <;> rw [← leave.1]
    · exact waits.wait answer.wait
    · exact waits.wait answer.wait

/-- A call that has something to transfer waits. -/
theorem call_waits_once {counted : Bool} {answers : List Answer} {final : Locals}
    {ret : RetCode} (positive : 0 < bufLen) (nonempty : answers ≠ [])
    (returns : call direction sock bufLen counted answers = some (final, ret)) :
    ∃ answer, Build.select.waitCall direction sock answer ∈ final.calls := by
  obtain ⟨first, rest, rfl⟩ := List.exists_cons_of_ne_nil nonempty
  have goes : (loop direction sock bufLen).guard (.start bufLen counted) = true := by
    show Locals.running _ = true
    rw [Locals.running_iff]
    exact ⟨positive, rfl⟩
  obtain ⟨later, passes⟩ := AnswerLoop.passes_cons goes first rest
  have waits := ((isTransferLoop direction sock bufLen).waits_eq returns).1
  rw [passes, List.length_cons] at waits
  have waited : 0 < final.calls.countP Call.isWait := by
    rw [waits]
    exact Nat.succ_pos later.length
  obtain ⟨call, member, isWait⟩ := List.countP_pos_iff.mp waited
  obtain ⟨answer, rfl⟩ := call_waits returns call member isWait
  exact ⟨answer, member⟩

end Select

/-! ### A call that only waits -/

/-- Within the limits of the counter, the last wait is the one that `maxWaits` counts. -/
theorem lastWait_maxWaits {sock : NcSocket} (polls : 0 < sock.polltime)
    (limit : sock.timeout.toNat + sock.polltime.toNat ≤ 2 ^ 32) :
    LastWait sock (maxWaits sock) := by
  have once : 1 ≤ maxWaits sock := Nat.le_max_left _ _
  obtain ⟨before, same⟩ := Nat.exists_eq_add_of_le' once
  rw [same, lastWait_iff, inTime_iff polls limit, inTime_iff polls limit, same]
  exact ⟨Nat.lt_succ_self before, Nat.lt_irrefl _⟩

/-- Waits that ask for the same add up. -/
theorem requested_waits {build : Build} {direction : Direction} {sock : NcSocket}
    {interval : Int} (each : ∀ answer, (build.waitCall direction sock answer).requested = interval)
    (answers : List Answer) :
    requested (answers.map fun answer => build.waitCall direction sock answer.wait) =
      answers.length * interval := by
  induction answers with
  | nil => simp [requested]
  | cons answer answers inductionHypothesis =>
      have split : requested ((answer :: answers).map
          fun answer => build.waitCall direction sock answer.wait) =
          (build.waitCall direction sock answer.wait).requested +
            requested (answers.map fun answer => build.waitCall direction sock answer.wait) := rfl
      rw [split, each, inductionHypothesis, List.length_cons, Nat.cast_succ, Int.add_mul,
        Int.one_mul, Int.add_comm]

/-- A call that only waits asks for `maxWaits` intervals. -/
theorem Build.expires (build : Build) (direction : Direction) {sock : NcSocket} {bufLen : Int}
    (counted : Bool) {supply : Nat → Answer} (polls : 0 < sock.polltime)
    (limit : sock.timeout.toNat + sock.polltime.toNat ≤ 2 ^ 32) (positive : 0 < bufLen)
    (idle : ∀ index < maxWaits sock, (supply index).wait.ret = 0)
    (each : ∀ answer, (build.waitCall direction sock answer).requested =
      1000 * sock.polltime.toNat) :
    ∃ final, build.call direction sock bufLen counted ((List.range (maxWaits sock)).map supply) =
        some (final, .timedOut) ∧
      requested final.calls = 1000 * (maxWaits sock * sock.polltime.toNat) := by
  have supplied : ∀ answer ∈ (List.range (maxWaits sock)).map supply, answer.wait.ret = 0 :=
    List.forall_mem_map.mpr fun index within => idle index (List.mem_range.mp within)
  have size : ((List.range (maxWaits sock)).map supply).length = maxWaits sock := by simp
  refine ⟨_, build.idle_ends direction counted positive (lastWait_maxWaits polls limit) supplied
    size.ge, ?_⟩
  show requested (List.map _ (List.take _ _)) = _
  rw [List.take_of_length_le size.le, requested_waits each, size]
  ring

section Returned

variable {direction : Direction} {sock : NcSocket} {bufLen : Int} {counted : Bool}
variable {supply : Nat → Answer} {final : Locals} {ret : RetCode}

/-- A call that has nothing to transfer does not wait. -/
theorem waitsAsAccounted_of_nothing (nothing : bufLen ≤ 0)
    (returns : Select.call direction sock bufLen counted
      ((List.range (maxWaits sock)).map supply) = some (final, ret)) :
    WaitsAsAccounted direction sock bufLen counted supply final ret := by
  have stopped : (Select.loop direction sock bufLen).guard (.start bufLen counted) = false := by
    show Locals.running _ = false
    rw [← Bool.not_eq_true, Locals.running_iff]
    exact fun goes => absurd nothing (Int.not_le.mpr goes.1)
  rw [Select.call, AnswerLoop.run_of_not_guard stopped, Option.some.injEq, Prod.mk.injEq]
    at returns
  rw [← returns.1]
  exact ⟨fun _ none => absurd none List.not_mem_nil,
    fun positive => absurd nothing (Int.not_le.mpr positive)⟩

/-- With an interval below 100 milliseconds each wait asks for it. -/
theorem waitsAsAccounted_of_short (short : sock.polltime.toNat < 100) (polls : 0 < sock.polltime)
    (limit : sock.timeout.toNat + sock.polltime.toNat ≤ 2 ^ 32)
    (returns : Select.call direction sock bufLen counted
      ((List.range (maxWaits sock)).map supply) = some (final, ret)) :
    WaitsAsAccounted direction sock bufLen counted supply final ret where
  timeval := by
    intro call member
    by_cases isWait : call.isWait = true
    · obtain ⟨answer, rfl⟩ := Select.call_waits returns call member isWait
      exact (Select.wellTimed_iff answer).mpr short
    · cases call <;> trivial
  expires := by
    intro positive idle
    have each : ∀ answer, (Build.select.waitCall direction sock answer).requested =
        1000 * sock.polltime.toNat := fun _ => (Select.timeval_iff sock).mpr short
    obtain ⟨expired, ends, total⟩ :=
      Build.select.expires direction counted polls limit positive idle each
    obtain ⟨polled, endsToo, same⟩ :=
      Build.poll.expires direction counted polls limit positive idle fun _ => rfl
    obtain ⟨rfl, rfl⟩ : final = expired ∧ ret = .timedOut := by
      have both := returns.symm.trans ends
      rw [Option.some.injEq, Prod.mk.injEq] at both
      exact both
    exact ⟨rfl, total, polled, endsToo, same.trans total.symm⟩

end Returned

/-- A call of the select build waits as long as it accounts for exactly if it does not wait
at all or `m_polltime` is below 100 milliseconds. -/
theorem select_waits_iff (direction : Direction) (sock : NcSocket) (bufLen : Int)
    (counted : Bool) (supply : Nat → Answer) (polls : 0 < sock.polltime)
    (limit : sock.timeout.toNat + sock.polltime.toNat ≤ 2 ^ 32) : ∃ final ret,
    (∀ length, maxWaits sock ≤ length →
      Select.call direction sock bufLen counted ((List.range length).map supply) =
        some (final, ret)) ∧
    (WaitsAsAccounted direction sock bufLen counted supply final ret ↔
      bufLen ≤ 0 ∨ sock.polltime.toNat < 100) := by
  have size : ((List.range (maxWaits sock)).map supply).length = maxWaits sock := by simp
  have settles : ∀ answer ∈ (List.range (maxWaits sock)).map supply,
      ¬ (Select.policy direction).spins answer := fun _ _ => id
  obtain ⟨⟨final, ret⟩, returns⟩ :=
    ((Select.isTransferLoop direction sock bufLen).returns counted polls limit settles).2 size.ge
  refine ⟨final, ret, ?_, ?_, ?_⟩
  · intro length atLeast
    obtain ⟨extra, rfl⟩ := Nat.exists_eq_add_of_le atLeast
    rw [List.range_add, List.map_append]
    exact AnswerLoop.run_append returns _
  · intro accounted
    by_contra neither
    rw [not_or, Int.not_le] at neither
    have nonempty : (List.range (maxWaits sock)).map supply ≠ [] := by
      have once : 1 ≤ maxWaits sock := Nat.le_max_left _ _
      rw [← List.length_pos_iff, size]
      exact once
    obtain ⟨answer, member⟩ := Select.call_waits_once neither.1 nonempty returns
    exact neither.2 ((Select.wellTimed_iff answer).mp (accounted.timeval _ member))
  · rintro (nothing | short)
    · exact waitsAsAccounted_of_nothing nothing returns
    · exact waitsAsAccounted_of_short short polls limit returns

/-- An interval of 99 milliseconds is asked for as it is. -/
theorem select_waits_iff_short : ∃ final ret,
    (∀ length, maxWaits ((NcSocket.ofSockfd 5).setPollTime 99) ≤ length →
      Select.call .read ((NcSocket.ofSockfd 5).setPollTime 99) 3 true
        ((List.range length).map fun _ => ⟨⟨0, 0, false⟩, ⟨0, .other 0, []⟩⟩) =
          some (final, ret)) ∧
    WaitsAsAccounted .read ((NcSocket.ofSockfd 5).setPollTime 99) 3 true
      (fun _ => ⟨⟨0, 0, false⟩, ⟨0, .other 0, []⟩⟩) final ret := by
  obtain ⟨final, ret, returns, waits⟩ := select_waits_iff .read
    ((NcSocket.ofSockfd 5).setPollTime 99) 3 true
    (fun _ => ⟨⟨0, 0, false⟩, ⟨0, .other 0, []⟩⟩) (by decide) (by decide)
  exact ⟨final, ret, returns, waits.mpr (Or.inr (by decide))⟩

/-- The constructors set an interval of 100 milliseconds. With a time-out of as much, the
one wait of an idle read asks for a second. -/
theorem select_waits_second :
    Select.call .read ((NcSocket.ofSockfd 5).setTimeout 100) 3 true
        [⟨⟨0, 0, false⟩, ⟨0, .other 0, []⟩⟩] =
      some (⟨0, 3, some 0, 100, true, .timedOut, [.select 5 .read 1 0 ⟨0, 0, false⟩]⟩,
        .timedOut) ∧
    ¬ Call.WellTimed ((NcSocket.ofSockfd 5).setTimeout 100)
      (.select 5 .read 1 0 ⟨0, 0, false⟩) ∧
    requested [.select 5 .read 1 0 ⟨0, 0, false⟩] = 1000000 ∧
    1000 * (maxWaits ((NcSocket.ofSockfd 5).setTimeout 100) *
      ((NcSocket.ofSockfd 5).setTimeout 100).polltime.toNat) = 100000 := by
  refine ⟨by decide, ?_, by decide, by decide⟩
  rintro ⟨-, -, right⟩
  exact absurd right (by decide)

end NetClass.Socket
