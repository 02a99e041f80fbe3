import NetClass.Socket.Descriptors

/-!
Contract: an `ncSocket` touches only the descriptors it owns.

Owns: the condition under which this holds, and the proof for whole lives of an object.

Two fields hold descriptors, and each operation updates one of them only. The
constructor that takes a host sets `m_sockfd` to 0, which `close`, `flush` and the
transfers take for a descriptor. `close` does not close the stream that `flush` has
opened, so the destructor closes that descriptor a second time.
-/

set_option autoImplicit false

namespace NetClass.Socket

/-- The descriptor has been closed, and `socket` has not returned its number again
since. -/
def ClosedLast (calls : List Call) (fd : Int) : Prop :=
  ∃ before later, calls = before ++ .close fd :: later ∧ .socket fd ∉ later

/-- The stream is on a descriptor that has been closed. -/
def Object.Stale (object : Object) : Prop :=
  ∃ fd, 0 ≤ fd ∧ object.sock.stdiofd = some fd ∧ ClosedLast object.calls fd

theorem ClosedLast.mem {calls : List Call} {fd : Int} (closed : ClosedLast calls fd) :
    .close fd ∈ calls := by
  obtain ⟨before, later, rfl, -⟩ := closed
  simp

theorem ClosedLast.append {calls more : List Call} {fd : Int} (closed : ClosedLast calls fd)
    (quiet : .socket fd ∉ more) : ClosedLast (calls ++ more) fd := by
  obtain ⟨before, later, rfl, notAgain⟩ := closed
  refine ⟨before, later ++ more, by simp, ?_⟩
  rw [List.mem_append]
  exact fun member => member.elim notAgain quiet

/-! ### Touching only what is owned -/

/-- The condition on an operation. Only a `connect` makes a descriptor of the 0 of the
constructor that takes a host, and a stream on a closed descriptor must not be closed. -/
def Careful (object : Object) : Operation → Prop
  | .close | .flush _ _ => ¬ object.Placeholder
  | .transfer build direction bufLen _ answers =>
      (0 < bufLen ∧ ∃ answer ∈ answers, build.Ready direction answer) → ¬ object.Placeholder
  | .destroy => ¬ object.Stale
  | _ => True

/-- The two fields of a living object hold descriptors it owns. -/
structure OwnsFields (object : Object) : Prop where
  sockfd : 0 ≤ object.sock.sockfd → ¬ object.Placeholder → object.sock.sockfd ∈ object.owned
  stream : ∀ fd, object.sock.stdiofd = some fd → 0 ≤ fd →
    fd ∈ object.owned ∨ ClosedLast object.calls fd
  placeholder : object.Placeholder → object.sock.sockfd ≤ 0

section Step

variable {object next : Object} {operation : Operation} {calls : List Call}

/-- An operation that opens and closes nothing. -/
theorem OwnsFields.keep (fields : OwnsFields object)
    (performs : Performs object operation next calls) (quiet : ∀ fd, .socket fd ∉ calls)
    (owned : next.owned = object.owned) (sockfd : next.sock.sockfd = object.sock.sockfd)
    (stdiofd : next.sock.stdiofd = object.sock.stdiofd) : OwnsFields next where
  sockfd := by
    intro nonneg real
    rw [sockfd] at nonneg ⊢
    rw [owned]
    exact fields.sockfd nonneg fun was => real (performs.placeholder_of_quiet quiet was)
  stream := by
    intro fd stream nonneg
    rw [stdiofd] at stream
    rw [owned, performs.calls]
    exact (fields.stream fd stream nonneg).imp_right fun closed => closed.append (quiet fd)
  placeholder := by
    intro still
    rw [sockfd]
    exact fields.placeholder (performs.placeholder still)

/-- Calls that only use `m_sockfd`. -/
theorem OwnsFields.lawful_of_uses (fields : OwnsFields object)
    (only : ∀ call ∈ calls, descriptors.effect call = none ∨
      (descriptors.effect call = some (.uses object.sock.sockfd) ∧ 0 ≤ object.sock.sockfd))
    (real : ∀ call ∈ calls, descriptors.effect call ≠ none → ¬ object.Placeholder) :
    descriptors.Lawful object.owned calls ∧
      descriptors.owned object.owned calls = object.owned := by
  constructor
  · apply Ledger.lawful_of_uses object.sock.sockfd
    intro call member
    refine (only call member).imp_right fun uses => ⟨uses.1, ?_⟩
    exact fields.sockfd uses.2 (real call member (by simp [uses.1]))
  · apply Ledger.owned_of_uses object.sock.sockfd
    exact fun call member => (only call member).imp_right And.left

theorem OwnsFields.connected (fields : OwnsFields object) {rest : List Call}
    (performs : Performs object operation next (.socket next.sock.sockfd :: rest))
    (setup : ∀ call ∈ rest, call.IsSetup) (stdiofd : next.sock.stdiofd = object.sock.stdiofd) :
    OwnsFields next := by
  have owned := performs.owned
  rw [owned_connected setup] at owned
  exact {
    sockfd := by
      intro nonneg _
      rw [owned, if_pos nonneg]
      exact Set.mem_insert _ _
    stream := by
      intro fd stream nonneg
      rw [stdiofd] at stream
      rw [owned, performs.calls]
      by_cases again : fd = next.sock.sockfd
      · rw [← again, if_pos nonneg]
        exact Or.inl (Set.mem_insert _ _)
      · rcases fields.stream fd stream nonneg with mine | closed
        · left
          split_ifs
          · exact Set.mem_insert_of_mem _ mine
          · exact mine
        · right
          apply closed.append
          exact fun member => again (eq_of_socket_mem setup member)
    placeholder := fun still => absurd still performs.not_placeholder }

theorem OwnsFields.closed (fields : OwnsFields object)
    (performs : Performs object operation next [.close object.sock.sockfd])
    (same : next.sock = { object.sock with sockfd := -1 }) : OwnsFields next := by
  have owned := performs.owned
  rw [Ledger.owned_cons, Ledger.owned_nil, after_release (Or.inl rfl)] at owned
  exact {
    sockfd := by
      intro nonneg
      rw [same] at nonneg
      exact absurd nonneg (show ¬ (0 : Int) ≤ -1 by decide)
    stream := by
      intro fd stream nonneg
      rw [same] at stream
      rw [performs.calls]
      by_cases closes : fd = object.sock.sockfd
      · right
        rw [closes]
        exact ⟨object.calls, [], rfl, by simp⟩
      · rcases fields.stream fd stream nonneg with mine | closed
        · left
          rw [owned]
          split_ifs
          · exact ⟨mine, closes⟩
          · exact mine
        · exact Or.inr (closed.append (by simp))
    placeholder := by
      intro _
      rw [same]
      exact (show (-1 : Int) ≤ 0 by decide) }

theorem OwnsFields.streamed (fields : OwnsFields object)
    (performs : Performs object operation next calls) (real : ¬ object.Placeholder)
    (owned : next.owned = object.owned)
    (same : next.sock = { object.sock with stdiofd := some object.sock.sockfd }) :
    OwnsFields next where
  sockfd := by
    intro nonneg _
    rw [same] at nonneg ⊢
    rw [owned]
    exact fields.sockfd nonneg real
  stream := by
    intro fd stream nonneg
    rw [same, Option.some.injEq] at stream
    subst stream
    rw [owned]
    exact Or.inl (fields.sockfd nonneg real)
  placeholder := fun still => absurd (performs.placeholder still) real

/-- The step lemma. -/
theorem OwnsFields.step (fields : OwnsFields object)
    (performs : Performs object operation next calls) (careful : Careful object operation) :
    descriptors.Lawful object.owned calls ∧ (next.alive = true → OwnsFields next) := by
  have owned := performs.owned
  have act := performs.act
  generalize same : next.sock = after at act
  cases act with
  | connected _ rest asks stdiofd setup =>
      subst same
      exact ⟨lawful_connected setup _ _, fun _ => fields.connected performs setup stdiofd⟩
  | idle _ lives sockfd stdiofd =>
      refine ⟨trivial, fun _ => ?_⟩
      exact fields.keep performs (by simp) owned (by rw [same, sockfd]) (by rw [same, stdiofd])
  | closed isClose =>
      subst isClose
      have mine : 0 ≤ object.sock.sockfd → object.sock.sockfd ∈ object.owned :=
        fun nonneg => fields.sockfd nonneg careful
      exact ⟨lawful_single (Or.inl rfl) mine, fun _ => fields.closed performs same⟩
  | flushed opened value isFlush fd stream =>
      have silent : ∀ call ∈ [Call.fflush fd value], descriptors.effect call = none := by
        simp [descriptors]
      rw [owned_of_silent silent] at owned
      refine ⟨lawful_of_silent silent _, fun _ => ?_⟩
      exact fields.keep performs (by simp) owned (by rw [same]) (by rw [same])
  | streamed value isFlush noStream =>
      subst isFlush
      obtain ⟨lawful, unchanged⟩ := fields.lawful_of_uses
        (uses_of_opens _ [.fflush object.sock.sockfd value] true (by simp [descriptors]))
        fun _ _ _ => careful
      exact ⟨lawful, fun _ => fields.streamed performs careful (owned.trans unchanged) same⟩
  | notStreamed value isFlush noStream =>
      subst isFlush
      obtain ⟨lawful, unchanged⟩ := fields.lawful_of_uses
        (uses_of_opens object.sock.sockfd [] false (by simp)) fun _ _ _ => careful
      refine ⟨lawful, fun _ => ?_⟩
      exact fields.keep performs (by simp) (owned.trans unchanged) (by rw [same]) (by rw [same])
  | transferred build direction bufLen counted answers isTransfer _ on waits =>
      subst isTransfer
      have real : ∀ call ∈ calls, descriptors.effect call ≠ none → ¬ object.Placeholder := by
        intro call member effect
        apply careful
        by_contra idle
        exact effect (effect_of_isWait (waits idle call member))
      obtain ⟨lawful, unchanged⟩ := fields.lawful_of_uses
        (fun call member => effect_of_isOn (on call member)) real
      refine ⟨lawful, fun _ => fields.keep performs ?_ (owned.trans unchanged) (by rw [same])
        (by rw [same])⟩
      exact fun fd member => not_socket_of_isOn (on _ member) fd rfl
  | streamClosed isDestroy fd stream _ =>
      subst isDestroy
      refine ⟨lawful_single (Or.inr (Or.inl rfl)) fun nonneg => ?_,
        fun lives => absurd rfl (performs.lives lives)⟩
      exact (fields.stream fd stream nonneg).resolve_right fun closed =>
        careful ⟨fd, nonneg, stream, closed⟩
  | destroyed isDestroy noStream positive _ =>
      refine ⟨lawful_single (Or.inl rfl) fun nonneg => fields.sockfd nonneg fun still => ?_,
        fun lives => absurd isDestroy (performs.lives lives)⟩
      have notPositive := fields.placeholder still
      omega
  | dropped isDestroy noStream notPositive =>
      exact ⟨trivial, fun lives => absurd isDestroy (performs.lives lives)⟩

end Step

theorem OwnsFields.make (origin : Origin) : OwnsFields (.make origin) where
  sockfd := by
    intro nonneg real
    cases origin with
    | default => exact absurd nonneg (show ¬ (0 : Int) ≤ -1 by decide)
    | ofSockfd sockfd => exact ⟨rfl, nonneg⟩
    | ofHost host port sockType =>
        exact absurd ⟨⟨host, port, sockType, rfl⟩, fun _ member => by simp [Object.make] at member⟩
          real
  stream := by
    intro fd stream
    have none : (Object.make origin).sock.stdiofd = none := by cases origin <;> rfl
    rw [none] at stream
    simp at stream
  placeholder := by
    rintro ⟨⟨host, port, sockType, isHost⟩, -⟩
    have same : origin = .ofHost host port sockType := isHost
    rw [same]
    exact le_rfl

/-- An object whose operations are all careful touches a descriptor only while it owns
it: before every call of its log that uses or releases a descriptor, the descriptor had
been adopted or returned by `socket`, and had not been closed since. -/
theorem touches_owned_only (object : Object)
    (reachable : (Object.machine Careful).Reachable object) (before later : List Call)
    (call : Call) (split : object.calls = before ++ call :: later) (fd : Int)
    (touches : descriptors.Touches call fd) :
    fd ∈ descriptors.owned object.origin.adopted before := by
  have lawful : descriptors.Lawful object.origin.adopted object.calls ∧
      (object.alive = true → OwnsFields object) := by
    refine reachable.invariant (fun object =>
      descriptors.Lawful object.origin.adopted object.calls ∧
        (object.alive = true → OwnsFields object)) ?_ ?_
    · rintro _ ⟨origin, rfl⟩
      exact ⟨trivial, fun _ => .make origin⟩
    · rintro object next - ⟨lawful, fields⟩ ⟨operation, careful, step⟩
      obtain ⟨calls, performs⟩ := Object.performs step
      obtain ⟨lawfulStep, fieldsNext⟩ := (fields performs.alive).step performs careful
      refine ⟨?_, fieldsNext⟩
      rw [performs.origin, performs.calls, Ledger.lawful_append]
      exact ⟨lawful, lawfulStep⟩
  exact (Ledger.lawful_iff _ _).mp lawful.1 before call later split fd touches

/-- A stream that is closed while its descriptor is open. -/
theorem touches_owned_only_streamed :
    (7 : Int) ∈ descriptors.owned ∅
      [.socket 7, .setNonBlocking 7, .connect 7 ⟨afInet, 80, 1⟩ 0 (.other 0),
        .fdopen 7 true, .fflush 7 0] := by
  have made : (Object.machine Careful).Reachable (.make (.ofHost [] 80 socktypeTcpip)) :=
    .start ⟨_, rfl⟩
  have connected := made.tail
    ⟨.connect ⟨7, some 1, [⟨0, .other 0⟩]⟩, trivial, rfl⟩
  have flushed := connected.tail
    ⟨.flush true 0, fun ⟨_, never⟩ => never 7 (by decide), rfl⟩
  have destroyed := flushed.tail
    ⟨.destroy, by
      rintro ⟨fd, -, -, closed⟩
      have member : Call.close fd ∈ ([.socket 7, .setNonBlocking 7,
        .connect 7 ⟨afInet, 80, 1⟩ 0 (.other 0), .fdopen 7 true, .fflush 7 0] : List Call) :=
          closed.mem
      simp at member, rfl⟩
  exact touches_owned_only _ destroyed _ [] (.fclose 7) rfl 7 (Or.inr rfl)

/-- An object made with a host closes the descriptor 0 before any connect, and one
whose descriptor was closed under its stream closes it once more. -/
theorem touches_unowned :
    (∃ object, (Object.machine fun _ _ => True).Reachable object ∧
      object.calls = [.close 0] ∧ (0 : Int) ∉ descriptors.owned object.origin.adopted []) ∧
    ∃ object, (Object.machine fun _ _ => True).Reachable object ∧
      object.calls = [.fdopen 5 true, .fflush 5 0, .close 5, .fclose 5] ∧
      (5 : Int) ∉ descriptors.owned object.origin.adopted
        [.fdopen 5 true, .fflush 5 0, .close 5] := by
  have made : ∀ origin, (Object.machine fun _ _ => True).Reachable (.make origin) :=
    fun origin => .start ⟨origin, rfl⟩
  constructor
  · exact ⟨_, (made (.ofHost [] 80 socktypeTcpip)).tail ⟨.close, trivial, rfl⟩, rfl, id⟩
  · have flushed := (made (.ofSockfd 5)).tail ⟨.flush true 0, trivial, rfl⟩
    have closed := flushed.tail ⟨.close, trivial, rfl⟩
    have destroyed := closed.tail ⟨.destroy, trivial, rfl⟩
    refine ⟨_, destroyed, rfl, fun mine => ?_⟩
    exact mine.2 rfl

end NetClass.Socket
