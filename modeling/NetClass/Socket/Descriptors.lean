import NetClass.Library.Ledger
import NetClass.Socket.Object

/-!
Contract: the log of an `ncSocket` read as a ledger of descriptors.

Owns: what each call does to a descriptor, what an object owns after its log, and what
one operation adds to the log of an object.

Does **not** own: what the operations may touch and what they leave open; see
`NetClass.Socket.Ownership` and `NetClass.Socket.Leaks`.
-/

set_option autoImplicit false

namespace NetClass.Socket

/-- `socket` acquires a descriptor, `close` and `fclose` release one, and the calls that
move bytes, `shutdown` and `fdopen` use one. Negative numbers are no descriptors. -/
def descriptors : Ledger Call Int where
  effect
    | .socket fd => if 0 ≤ fd then some (.acquires fd) else none
    | .transfer _ fd _ _ _ => if 0 ≤ fd then some (.uses fd) else none
    | .shutdown fd _ => if 0 ≤ fd then some (.uses fd) else none
    | .fdopen fd _ => if 0 ≤ fd then some (.uses fd) else none
    | .close fd => if 0 ≤ fd then some (.releases fd) else none
    | .fclose fd => if 0 ≤ fd then some (.releases fd) else none
    | _ => none

/-- What the object owns from its constructor on. -/
def Origin.adopted : Origin → Set Int
  | .ofSockfd sockfd => fun fd => fd = sockfd ∧ 0 ≤ fd
  | _ => ∅

namespace Object

/-- What the object owns. -/
def owned (object : Object) : Set Int :=
  descriptors.owned object.origin.adopted object.calls

/-- `m_sockfd` is still the 0 of the constructor that takes a host. -/
def Placeholder (object : Object) : Prop :=
  (∃ host port sockType, object.origin = .ofHost host port sockType) ∧
    ∀ fd, .socket fd ∉ object.calls

end Object

/-! ### The calls as entries of the ledger -/

theorem effect_of_isSetup {call : Call} (setup : call.IsSetup) :
    descriptors.effect call = none := by
  cases call <;> first | rfl | exact setup.elim

theorem not_socket_of_isSetup {call : Call} (setup : call.IsSetup) (fd : Int) :
    call ≠ .socket fd := by
  rintro rfl
  exact setup

theorem effect_of_isWait {call : Call} (isWait : call.isWait = true) :
    descriptors.effect call = none := by
  cases call <;> simp_all [Call.isWait, descriptors]

theorem effect_of_isOn {call : Call} {fd : Int} (on : call.IsOn fd) :
    descriptors.effect call = none ∨
      (descriptors.effect call = some (.uses fd) ∧ 0 ≤ fd) := by
  rcases on with isWait | ⟨name, offset, length, answer, rfl⟩ | ⟨how, rfl⟩
  · exact Or.inl (effect_of_isWait isWait)
  · by_cases nonneg : 0 ≤ fd
    · exact Or.inr ⟨if_pos nonneg, nonneg⟩
    · exact Or.inl (if_neg nonneg)
  · by_cases nonneg : 0 ≤ fd
    · exact Or.inr ⟨if_pos nonneg, nonneg⟩
    · exact Or.inl (if_neg nonneg)

theorem not_socket_of_isOn {call : Call} {fd : Int} (on : call.IsOn fd) (other : Int) :
    call ≠ .socket other := by
  rintro rfl
  rcases on with isWait | ⟨_, _, _, _, same⟩ | ⟨_, same⟩
  · exact Bool.noConfusion isWait
  · exact Call.noConfusion same
  · exact Call.noConfusion same

theorem after_socket (fd : Int) (owned : Set Int) :
    descriptors.after owned (.socket fd) = if 0 ≤ fd then insert fd owned else owned := by
  unfold Ledger.after descriptors
  split_ifs with nonneg <;> simp [nonneg]

/-- `close` and `fclose` are the only calls that give a descriptor back. -/
theorem releases_iff {call : Call} {fd : Int} :
    descriptors.effect call = some (.releases fd) ↔
      0 ≤ fd ∧ (call = .close fd ∨ call = .fclose fd) := by
  constructor
  · intro effect
    cases call with
    | close other =>
        simp only [descriptors, Option.ite_none_right_eq_some, Option.some.injEq,
          Effect.releases.injEq] at effect
        obtain ⟨nonneg, rfl⟩ := effect
        exact ⟨nonneg, Or.inl rfl⟩
    | fclose other =>
        simp only [descriptors, Option.ite_none_right_eq_some, Option.some.injEq,
          Effect.releases.injEq] at effect
        obtain ⟨nonneg, rfl⟩ := effect
        exact ⟨nonneg, Or.inr rfl⟩
    | _ => simp [descriptors] at effect
  · rintro ⟨nonneg, rfl | rfl⟩
    · exact if_pos nonneg
    · exact if_pos nonneg

/-- `close` and `fclose` take one descriptor out of the set. -/
theorem after_release {call : Call} {fd : Int} (release : call = .close fd ∨ call = .fclose fd)
    (owned : Set Int) :
    descriptors.after owned call = if 0 ≤ fd then owned \ {fd} else owned := by
  unfold Ledger.after descriptors
  rcases release with rfl | rfl <;> split_ifs with nonneg <;> simp [nonneg]

/-- What a call that closes `fd` leaves owned. -/
theorem owned_release {call : Call} {fd : Int} (release : call = .close fd ∨ call = .fclose fd)
    {owned : Set Int} (nonneg : ∀ other ∈ owned, 0 ≤ other) :
    descriptors.owned owned [call] = owned \ {fd} := by
  rw [Ledger.owned_cons, Ledger.owned_nil, after_release release]
  split_ifs with positive
  · rfl
  · symm
    rw [Set.sdiff_singleton_eq_self]
    exact fun member => positive (nonneg fd member)

/-- The calls on one descriptor that are not part of a transfer. -/
theorem lawful_single {call : Call} {fd : Int}
    (on : call = .close fd ∨ call = .fclose fd ∨ (∃ opened, call = .fdopen fd opened))
    {owned : Set Int} (mine : 0 ≤ fd → fd ∈ owned) : descriptors.Lawful owned [call] := by
  refine ⟨fun other touches => ?_, trivial⟩
  have only : other = fd ∧ 0 ≤ fd := by
    unfold Ledger.Touches descriptors at touches
    rcases on with rfl | rfl | ⟨opened, rfl⟩ <;> by_cases nonneg : 0 ≤ fd <;>
      simp [nonneg] at touches <;> exact ⟨touches.symm, nonneg⟩
  rw [only.1]
  exact mine only.2

/-- Calls without an effect on descriptors. -/
theorem lawful_of_silent {calls : List Call}
    (silent : ∀ call ∈ calls, descriptors.effect call = none) (owned : Set Int) :
    descriptors.Lawful owned calls :=
  Ledger.lawful_of_uses 0 calls owned fun call member => Or.inl (silent call member)

theorem owned_of_silent {calls : List Call}
    (silent : ∀ call ∈ calls, descriptors.effect call = none) (owned : Set Int) :
    descriptors.owned owned calls = owned :=
  Ledger.owned_of_uses 0 calls owned fun call member => Or.inl (silent call member)

/-- Opening a stream on `fd`, whatever becomes of it, uses `fd`. -/
theorem uses_of_opens (fd : Int) (rest : List Call) (opened : Bool)
    (silent : ∀ call ∈ rest, descriptors.effect call = none) :
    ∀ call ∈ Call.fdopen fd opened :: rest, descriptors.effect call = none ∨
      (descriptors.effect call = some (.uses fd) ∧ 0 ≤ fd) := by
  intro call member
  rcases List.mem_cons.mp member with rfl | later
  · by_cases nonneg : 0 ≤ fd
    · exact Or.inr ⟨if_pos nonneg, nonneg⟩
    · exact Or.inl (if_neg nonneg)
  · exact Or.inl (silent call later)

/-- A connect acquires what `socket` returns, and nothing else. -/
theorem owned_connected {rest : List Call} (setup : ∀ call ∈ rest, call.IsSetup) (fd : Int)
    (owned : Set Int) :
    descriptors.owned owned (.socket fd :: rest) = if 0 ≤ fd then insert fd owned else owned := by
  rw [Ledger.owned_cons, after_socket]
  exact owned_of_silent (fun call member => effect_of_isSetup (setup call member)) _

theorem lawful_connected {rest : List Call} (setup : ∀ call ∈ rest, call.IsSetup) (fd : Int)
    (owned : Set Int) : descriptors.Lawful owned (.socket fd :: rest) := by
  refine ⟨fun other touches => ?_, lawful_of_silent ?_ _⟩
  · unfold Ledger.Touches descriptors at touches
    by_cases nonneg : 0 ≤ fd <;> simp [nonneg] at touches
  · exact fun call member => effect_of_isSetup (setup call member)

theorem eq_of_socket_mem {rest : List Call} (setup : ∀ call ∈ rest, call.IsSetup)
    {fd other : Int} (member : .socket other ∈ Call.socket fd :: rest) : other = fd := by
  rcases List.mem_cons.mp member with same | later
  · exact Call.socket.inj same
  · exact absurd rfl (not_socket_of_isSetup (setup _ later) other)

/-! ### One operation -/

/-- What `perform` makes of an object. -/
structure Performs (object : Object) (operation : Operation) (next : Object)
    (calls : List Call) : Prop where
  alive : object.alive = true
  act : Act operation object.sock next.sock calls
  origin : next.origin = object.origin
  calls : next.calls = object.calls ++ calls
  lives : next.alive = true → operation ≠ .destroy
  dies : next.alive = false → operation = .destroy

theorem Object.performs {object next : Object} {operation : Operation}
    (step : object.perform operation = some next) :
    ∃ calls, Performs object operation next calls := by
  unfold Object.perform at step
  split_ifs at step with alive
  obtain ⟨⟨sock, calls⟩, runs, rfl⟩ := Option.map_eq_some_iff.mp step
  exact ⟨calls, alive, Operation.act runs, rfl, rfl, fun lives => by simpa using lives,
    fun dies => by simpa using dies⟩

namespace Performs

variable {object next : Object} {operation : Operation} {calls : List Call}

theorem owned (performs : Performs object operation next calls) :
    next.owned = descriptors.owned object.owned calls := by
  rw [Object.owned, performs.origin, performs.calls, Ledger.owned_append, Object.owned]

/-- A placeholder stays one as long as `socket` is not called. -/
theorem placeholder (performs : Performs object operation next calls)
    (still : next.Placeholder) : object.Placeholder := by
  obtain ⟨host, never⟩ := still
  rw [performs.origin] at host
  refine ⟨host, fun fd member => never fd ?_⟩
  rw [performs.calls]
  exact List.mem_append_left _ member

theorem placeholder_of_quiet (performs : Performs object operation next calls)
    (quiet : ∀ fd, .socket fd ∉ calls) (was : object.Placeholder) : next.Placeholder := by
  obtain ⟨host, never⟩ := was
  refine ⟨by rw [performs.origin]; exact host, fun fd member => ?_⟩
  rw [performs.calls, List.mem_append] at member
  exact member.elim (never fd) (quiet fd)

/-- Nor is it one any more after `socket` has been called. -/
theorem not_placeholder {fd : Int} {rest : List Call}
    (performs : Performs object operation next (.socket fd :: rest)) : ¬ next.Placeholder := by
  rintro ⟨-, never⟩
  apply never fd
  rw [performs.calls]
  simp

end Performs

end NetClass.Socket
