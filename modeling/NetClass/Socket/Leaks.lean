import NetClass.Socket.Descriptors

/-!
Contract: an `ncSocket` leaves no descriptor open.

Owns: the condition under which this holds, and the proof for whole lives of an object.

`connect` does not close the descriptor it overwrites, and the destructor closes the
stream or `m_sockfd`, never both, and never the descriptor 0.
-/

set_option autoImplicit false

namespace NetClass.Socket

/-- The condition on an operation. A descriptor must not be overwritten while it is open,
unless the stream is on it, and the destructor closes one descriptor that is not 0. -/
def Tidy (object : Object) (operation : Operation) : Prop :=
  (operation.Asks → object.sock.sockfd < 0 ∨ object.Placeholder ∨
      object.sock.stdiofd = some object.sock.sockfd) ∧
    (operation = .destroy →
      (∀ fd, object.sock.stdiofd = some fd →
        object.sock.sockfd < 0 ∨ object.sock.sockfd = fd) ∧
      (object.sock.stdiofd = none → object.sock.sockfd ≠ 0 ∨ object.Placeholder))

/-- Every descriptor that the object owns is in one of its two fields. -/
structure Covers (object : Object) : Prop where
  nonneg : ∀ fd ∈ object.owned, 0 ≤ fd
  covered : ∀ fd ∈ object.owned, fd = object.sock.sockfd ∨ object.sock.stdiofd = some fd
  placeholder : object.Placeholder → object.owned = ∅

section Step

variable {object next : Object} {operation : Operation} {calls : List Call}

/-- An operation that opens nothing and leaves the covered fields. -/
theorem Covers.keep (covers : Covers object)
    (performs : Performs object operation next calls)
    (owned : next.owned ⊆ object.owned)
    (covered : ∀ fd ∈ next.owned, fd = next.sock.sockfd ∨ next.sock.stdiofd = some fd) :
    Covers next where
  nonneg := fun fd member => covers.nonneg fd (owned member)
  covered := covered
  placeholder := by
    intro still
    rw [Set.eq_empty_iff_forall_notMem]
    intro fd member
    have mine := owned member
    rw [covers.placeholder (performs.placeholder still)] at mine
    exact mine

theorem Covers.of_empty (none : object.owned = ∅) : Covers object where
  nonneg := by simp [none]
  covered := by simp [none]
  placeholder := fun _ => none

/-- A connect leaves open what is under the stream, and nothing else. -/
theorem Covers.connected (covers : Covers object) {rest : List Call}
    (performs : Performs object operation next (.socket next.sock.sockfd :: rest))
    (setup : ∀ call ∈ rest, call.IsSetup) (stdiofd : next.sock.stdiofd = object.sock.stdiofd)
    (streamed : ∀ fd ∈ object.owned, object.sock.stdiofd = some fd) : Covers next := by
  have owned := performs.owned
  rw [owned_connected setup] at owned
  have either : ∀ fd ∈ next.owned, (fd = next.sock.sockfd ∧ 0 ≤ fd) ∨ fd ∈ object.owned := by
    intro fd member
    rw [owned] at member
    split_ifs at member with nonneg
    · rcases member with here | before
      · exact Or.inl ⟨here, here ▸ nonneg⟩
      · exact Or.inr before
    · exact Or.inr member
  exact {
    nonneg := fun fd member => (either fd member).elim And.right (covers.nonneg fd)
    covered := by
      intro fd member
      rcases either fd member with ⟨here, -⟩ | before
      · exact Or.inl here
      · rw [stdiofd]
        exact Or.inr (streamed fd before)
    placeholder := fun still => absurd still performs.not_placeholder }

/-- Under the condition on a connect, whatever is owned is under the stream. -/
theorem Covers.streamed_of_tidy (covers : Covers object)
    (free : object.sock.sockfd < 0 ∨ object.Placeholder ∨
      object.sock.stdiofd = some object.sock.sockfd) :
    ∀ fd ∈ object.owned, object.sock.stdiofd = some fd := by
  intro fd member
  have nonneg := covers.nonneg fd member
  rcases covers.covered fd member with here | stream
  · rcases free with negative | still | stream
    · omega
    · rw [covers.placeholder still] at member
      exact member.elim
    · rw [here]
      exact stream
  · exact stream

/-- Under the condition on the destructor, the descriptor that it closes is the only one
that is owned. -/
theorem Covers.only_of_tidy (covers : Covers object) (tidy : Tidy object .destroy) :
    ∀ fd ∈ object.owned, match object.sock.stdiofd with
      | some stream => fd = stream
      | none => fd = object.sock.sockfd ∧ 0 < fd := by
  intro fd member
  have nonneg := covers.nonneg fd member
  obtain ⟨withStream, without⟩ := tidy.2 rfl
  cases stream : object.sock.stdiofd with
  | some opened =>
      rcases covers.covered fd member with here | under
      · rcases withStream opened stream with negative | same
        · omega
        · exact here.trans same
      · rw [stream] at under
        exact (Option.some.inj under).symm
  | none =>
      have here : fd = object.sock.sockfd := by
        refine (covers.covered fd member).resolve_right fun under => ?_
        rw [stream] at under
        simp at under
      refine ⟨here, ?_⟩
      rcases without stream with notZero | still
      · omega
      · rw [covers.placeholder still] at member
        exact member.elim

/-- The step lemma: the fields cover what is owned, and after the destructor nothing is. -/
theorem Covers.step (covers : Covers object)
    (performs : Performs object operation next calls) (tidy : Tidy object operation) :
    Covers next ∧ (next.alive = false → next.owned = ∅) := by
  have owned := performs.owned
  have act := performs.act
  have living : operation ≠ .destroy → Covers next →
      Covers next ∧ (next.alive = false → next.owned = ∅) :=
    fun lives covers => ⟨covers, fun dies => absurd (performs.dies dies) lives⟩
  have ended : next.owned = ∅ → Covers next ∧ (next.alive = false → next.owned = ∅) :=
    fun none => ⟨.of_empty none, fun _ => none⟩
  have unchanged : descriptors.owned object.owned calls = object.owned →
      next.sock.sockfd = object.sock.sockfd → next.sock.stdiofd = object.sock.stdiofd →
      Covers next := by
    intro same sockfd stdiofd
    rw [same] at owned
    refine covers.keep performs owned.subset ?_
    rw [owned, sockfd, stdiofd]
    exact covers.covered
  have used : (∀ call ∈ calls, descriptors.effect call = none ∨
      (descriptors.effect call = some (.uses object.sock.sockfd) ∧ 0 ≤ object.sock.sockfd)) →
      descriptors.owned object.owned calls = object.owned := by
    intro only
    apply Ledger.owned_of_uses object.sock.sockfd
    exact fun call member => (only call member).imp_right And.left
  generalize same : next.sock = after at act
  cases act with
  | connected _ rest asks stdiofd setup =>
      subst same
      apply living
      · rintro rfl
        exact asks
      · exact covers.connected performs setup stdiofd (covers.streamed_of_tidy (tidy.1 asks))
  | idle _ lives sockfd stdiofd =>
      exact living lives (unchanged rfl (by rw [same, sockfd]) (by rw [same, stdiofd]))
  | closed isClose =>
      rw [owned_release (Or.inl rfl) covers.nonneg] at owned
      have smaller : next.owned ⊆ object.owned := by
        rw [owned]
        exact Set.sdiff_subset
      refine living (by simp [isClose]) (covers.keep performs smaller fun fd member => ?_)
      rw [owned] at member
      rw [same]
      exact Or.inr ((covers.covered fd member.1).resolve_left member.2)
  | flushed opened value isFlush fd stream =>
      have silent : ∀ call ∈ [Call.fflush fd value], descriptors.effect call = none := by
        simp [descriptors]
      exact living (by simp [isFlush])
        (unchanged (owned_of_silent silent _) (by rw [same]) (by rw [same]))
  | streamed value isFlush noStream =>
      rw [used (uses_of_opens _ _ true (by simp [descriptors]))] at owned
      refine living (by simp [isFlush]) (covers.keep performs owned.subset fun fd member => ?_)
      rw [owned] at member
      rw [same]
      refine (covers.covered fd member).imp_right fun stream => ?_
      rw [noStream] at stream
      simp at stream
  | notStreamed value isFlush noStream =>
      exact living (by simp [isFlush])
        (unchanged (used (uses_of_opens _ [] false (by simp))) (by rw [same]) (by rw [same]))
  | transferred build direction bufLen counted answers isTransfer _ on _ =>
      exact living (by simp [isTransfer])
        (unchanged (used fun call member => effect_of_isOn (on call member)) (by rw [same])
          (by rw [same]))
  | streamClosed isDestroy fd stream _ =>
      subst isDestroy
      have only := covers.only_of_tidy tidy
      rw [stream] at only
      rw [owned_release (Or.inr rfl) covers.nonneg] at owned
      apply ended
      rw [owned, Set.sdiff_eq_empty]
      exact only
  | destroyed isDestroy noStream positive _ =>
      subst isDestroy
      have only := covers.only_of_tidy tidy
      rw [noStream] at only
      rw [owned_release (Or.inl rfl) covers.nonneg] at owned
      apply ended
      rw [owned, Set.sdiff_eq_empty]
      exact fun fd member => (only fd member).1
  | dropped isDestroy noStream notPositive =>
      subst isDestroy
      have only := covers.only_of_tidy tidy
      rw [noStream] at only
      apply ended
      rw [owned, Ledger.owned_nil, Set.eq_empty_iff_forall_notMem]
      intro fd member
      obtain ⟨here, positive⟩ := only fd member
      omega

end Step

theorem Covers.make (origin : Origin) : Covers (.make origin) := by
  cases origin with
  | default => exact .of_empty rfl
  | ofSockfd sockfd =>
      refine ⟨fun fd member => member.2, fun fd member => Or.inl member.1, ?_⟩
      rintro ⟨⟨host, port, sockType, isHost⟩, -⟩
      exact Origin.noConfusion isHost
  | ofHost host port sockType => exact .of_empty rfl

/-- An object whose operations are all tidy has nothing open after its destructor: the
descriptor it adopted has been closed, and every one that `socket` returned has been
closed after that. -/
theorem closes_everything (object : Object)
    (reachable : (Object.machine Tidy).Reachable object) (dead : object.alive = false) :
    object.owned = ∅ ∧
      (∀ fd ∈ object.origin.adopted, .close fd ∈ object.calls ∨ .fclose fd ∈ object.calls) ∧
      ∀ before later fd, object.calls = before ++ .socket fd :: later → 0 ≤ fd →
        .close fd ∈ later ∨ .fclose fd ∈ later := by
  have covered : Covers object ∧ (object.alive = false → object.owned = ∅) := by
    refine reachable.invariant (fun object =>
      Covers object ∧ (object.alive = false → object.owned = ∅)) ?_ ?_
    · rintro _ ⟨origin, rfl⟩
      exact ⟨.make origin, fun dead => Bool.noConfusion dead⟩
    · rintro object next - ⟨covers, -⟩ ⟨operation, tidy, step⟩
      obtain ⟨calls, performs⟩ := Object.performs step
      exact covers.step performs tidy
  have none := covered.2 dead
  have lost : ∀ fd, fd ∉ object.owned := by
    rw [none]
    exact fun _ => id
  refine ⟨none, fun fd adopted => ?_, fun before later fd split nonneg => ?_⟩
  · obtain ⟨call, member, effect⟩ := Ledger.released_of_lost object.calls _ adopted (lost fd)
    rcases releases_iff.mp effect with ⟨-, rfl | rfl⟩
    · exact Or.inl member
    · exact Or.inr member
  · have notOwned := lost fd
    rw [Object.owned, split] at notOwned
    obtain ⟨call, member, effect⟩ :=
      Ledger.released_of_acquired (if_pos nonneg) notOwned
    rcases releases_iff.mp effect with ⟨-, rfl | rfl⟩
    · exact Or.inl member
    · exact Or.inr member

/-- A socket that failed to connect is closed before the next attempt. -/
theorem closes_everything_retried :
    Call.close 0 ∈ ([.close 0, .socket 6, .setNonBlocking 6,
      .connect 6 ⟨afInet, 0, 1⟩ 0 (.other 0), .close 6] : List Call) ∨
    Call.fclose 0 ∈ ([.close 0, .socket 6, .setNonBlocking 6,
      .connect 6 ⟨afInet, 0, 1⟩ 0 (.other 0), .close 6] : List Call) := by
  have made : (Object.machine Tidy).Reachable (.make .default) := .start ⟨_, rfl⟩
  have failed := made.tail
    ⟨.connect ⟨0, none, []⟩, ⟨fun _ => Or.inl (by decide), Operation.noConfusion⟩, rfl⟩
  have closed := failed.tail ⟨.close, ⟨False.elim, Operation.noConfusion⟩, rfl⟩
  have connected := closed.tail
    ⟨.connect ⟨6, some 1, [⟨0, .other 0⟩]⟩,
      ⟨fun _ => Or.inl (by decide), Operation.noConfusion⟩, rfl⟩
  have destroyed := connected.tail
    ⟨.destroy, ⟨False.elim, fun _ => ⟨fun fd stream => (Option.some_ne_none fd stream.symm).elim,
      fun _ => Or.inl (by decide)⟩⟩, rfl⟩
  exact (closes_everything _ destroyed rfl).2.2 [] _ 0 rfl le_rfl

/-- A second connect leaves the first descriptor open, and an adopted descriptor 0 is
never closed. -/
theorem leaves_open :
    (∃ object, (Object.machine fun _ _ => True).Reachable object ∧ object.alive = false ∧
      object.calls = [.socket 5, .socket 6, .close 6] ∧ (5 : Int) ∈ object.owned) ∧
    ∃ object, (Object.machine fun _ _ => True).Reachable object ∧ object.alive = false ∧
      object.origin = .ofSockfd 0 ∧ object.calls = [] ∧ (0 : Int) ∈ object.owned := by
  have made : ∀ origin, (Object.machine fun _ _ => True).Reachable (.make origin) :=
    fun origin => .start ⟨origin, rfl⟩
  constructor
  · have first := (made .default).tail ⟨.connect ⟨5, none, []⟩, trivial, rfl⟩
    have second := first.tail ⟨.connect ⟨6, none, []⟩, trivial, rfl⟩
    have destroyed := second.tail ⟨.destroy, trivial, rfl⟩
    refine ⟨_, destroyed, rfl, rfl, ?_⟩
    exact ⟨Or.inr (Or.inl rfl), by simp⟩
  · have destroyed := (made (.ofSockfd 0)).tail ⟨.destroy, trivial, rfl⟩
    exact ⟨_, destroyed, rfl, rfl, rfl, rfl, le_rfl⟩

end NetClass.Socket
