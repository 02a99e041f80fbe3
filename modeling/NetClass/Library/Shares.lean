import Mathlib.Data.List.Induction
import NetClass.Library.Ledger
import NetClass.Library.Precedence

/-!
Contract: one log to which several holders of resources add.

Owns: what each holder has after a log, and the law that no two of them have the same
resource as long as whatever is acquired is a resource that nobody has.

Does **not** own: how the holders take turns. The log is in the order of their entries.
-/

set_option autoImplicit false

universe u v w

namespace Ledger

variable {Holder : Type w} {Entry : Type u} {Resource : Type v}

section Share

variable [DecidableEq Holder]

/-- The entries of one holder. -/
def share (holder : Holder) (log : List (Holder × Entry)) : List Entry :=
  (log.filter fun entry => entry.1 = holder).map Prod.snd

@[simp] theorem share_nil (holder : Holder) :
    share holder ([] : List (Holder × Entry)) = [] := rfl

theorem share_append (holder : Holder) (left right : List (Holder × Entry)) :
    share holder (left ++ right) = share holder left ++ share holder right := by
  simp [share]

@[simp] theorem share_own (holder : Holder) (entry : Entry) :
    share holder [(holder, entry)] = [entry] := by
  simp [share]

theorem share_other {holder other : Holder} (differs : other ≠ holder) (entry : Entry) :
    share holder [(other, entry)] = [] := by
  simp [share, differs]

/-- What the holder has after the log. -/
def has (ledger : Ledger Entry Resource) (start : Holder → Set Resource)
    (log : List (Holder × Entry)) (holder : Holder) : Set Resource :=
  ledger.owned (start holder) (share holder log)

/-- Somebody has the resource. -/
def Taken (ledger : Ledger Entry Resource) (start : Holder → Set Resource)
    (log : List (Holder × Entry)) (resource : Resource) : Prop :=
  ∃ holder, resource ∈ ledger.has start log holder

/-- An entry acquires only what nobody has. -/
def Fresh (ledger : Ledger Entry Resource) (start : Holder → Set Resource)
    (before : List (Holder × Entry)) (entry : Holder × Entry) : Prop :=
  ∀ resource, ledger.effect entry.2 = some (.acquires resource) →
    ¬ ledger.Taken start before resource

/-- A holder touches only what it has. -/
def Own (ledger : Ledger Entry Resource) (start : Holder → Set Resource)
    (before : List (Holder × Entry)) (entry : Holder × Entry) : Prop :=
  ∀ resource, ledger.Touches entry.2 resource →
    resource ∈ ledger.has start before entry.1

end Share

/-- No two holders have the same resource. -/
def Apart (has : Holder → Set Resource) : Prop :=
  ∀ resource left right, resource ∈ has left → resource ∈ has right → left = right

variable {ledger : Ledger Entry Resource}

/-- An entry adds at most what it acquires. -/
theorem mem_of_mem_after {start : Set Resource} {entry : Entry} {resource : Resource}
    (member : resource ∈ ledger.after start entry) :
    resource ∈ start ∨ ledger.effect entry = some (.acquires resource) := by
  unfold after at member
  split at member
  · next acquired effect =>
      rcases Set.mem_insert_iff.mp member with rfl | before
      · exact Or.inr effect
      · exact Or.inl before
  · exact Or.inl member.1
  · exact Or.inl member

section Log

variable [DecidableEq Holder] {start : Holder → Set Resource} {log : List (Holder × Entry)}

@[simp] theorem has_nil : ledger.has start ([] : List (Holder × Entry)) = start := rfl

theorem has_append_own (holder : Holder) (entry : Entry) :
    ledger.has start (log ++ [(holder, entry)]) holder =
      ledger.after (ledger.has start log holder) entry := by
  rw [has, share_append, owned_append, share_own, owned_cons, owned_nil]
  rfl

/-- Nobody else notices the entry. -/
theorem has_append_other {holder other : Holder} (differs : other ≠ holder) (entry : Entry) :
    ledger.has start (log ++ [(other, entry)]) holder = ledger.has start log holder := by
  rw [has, share_append, share_other differs, List.append_nil]
  rfl

/-- Nobody has more or less after entries that only use something. -/
theorem has_append_uses {more : List (Holder × Entry)}
    (only : ∀ entry ∈ more, ∃ resource, ledger.effect entry.2 = some (.uses resource))
    (holder : Holder) :
    ledger.has start (log ++ more) holder = ledger.has start log holder := by
  induction more using List.reverseRecOn with
  | nil => rw [List.append_nil]
  | append_singleton more entry inductionHypothesis =>
      have before := inductionHypothesis fun other member =>
        only other (List.mem_append_left _ member)
      rw [← List.append_assoc, ← before]
      by_cases same : entry.1 = holder
      · obtain ⟨resource, uses⟩ := only entry (by simp)
        rw [← same, has_append_own]
        exact after_of_uses uses _
      · exact has_append_other same entry.2

/-- The step lemma: what nobody has can be acquired by anybody. -/
theorem Apart.append {entry : Holder × Entry} (apart : Apart (ledger.has start log))
    (fresh : ledger.Fresh start log entry) :
    Apart (ledger.has start (log ++ [entry])) := by
  obtain ⟨holder, entry⟩ := entry
  have grows : ∀ other resource, resource ∈ ledger.has start (log ++ [(holder, entry)]) other →
      resource ∈ ledger.has start log other ∨
        (other = holder ∧ ledger.effect entry = some (.acquires resource)) := by
    intro other resource member
    by_cases same : other = holder
    · subst same
      rw [has_append_own] at member
      exact (mem_of_mem_after member).imp_right fun acquires => ⟨rfl, acquires⟩
    · rw [has_append_other (Ne.symm same)] at member
      exact Or.inl member
  intro resource left right mine too
  rcases grows left resource mine with before | ⟨isLeft, acquires⟩
  · rcases grows right resource too with before' | ⟨-, acquires⟩
    · exact apart resource left right before before'
    · exact absurd ⟨left, before⟩ (fresh resource acquires)
  · rcases grows right resource too with before | ⟨isRight, -⟩
    · exact absurd ⟨right, before⟩ (fresh resource acquires)
    · exact isLeft.trans isRight.symm

/-- The run lemma: holders that begin apart stay apart. -/
theorem apart_of_fresh (begins : Apart start) (fresh : Justified (ledger.Fresh start) log) :
    Apart (ledger.has start log) := by
  induction log using List.reverseRecOn with
  | nil => exact begins
  | append_singleton log entry inductionHypothesis =>
      exact (inductionHypothesis fresh.left).append (fresh log entry [] rfl)

/-- A holder whose share of the log is lawful touches only what it has. -/
theorem own_of_lawful (lawful : ∀ holder, ledger.Lawful (start holder) (share holder log)) :
    Justified (ledger.Own start) log := by
  rintro before ⟨holder, entry⟩ later rfl resource touches
  have split : share holder (before ++ (holder, entry) :: later) =
      share holder before ++ entry :: share holder later := by
    rw [share_append, show (holder, entry) :: later = [(holder, entry)] ++ later from rfl,
      share_append, share_own]
    rfl
  exact (lawful_iff _ _).mp (lawful holder) _ entry _ split resource touches

/-- Under the two laws an entry touches what its holder has and nobody else has. -/
theorem exclusive (begins : Apart start) (fresh : Justified (ledger.Fresh start) log)
    (lawful : ∀ holder, ledger.Lawful (start holder) (share holder log))
    {before later : List (Holder × Entry)} {holder : Holder} {entry : Entry}
    (split : log = before ++ (holder, entry) :: later) {resource : Resource}
    (touches : ledger.Touches entry resource) :
    resource ∈ ledger.has start before holder ∧
      ∀ other, other ≠ holder → resource ∉ ledger.has start before other := by
  have mine := own_of_lawful lawful before (holder, entry) later split resource touches
  rw [split] at fresh
  refine ⟨mine, fun other differs too => ?_⟩
  exact differs (apart_of_fresh begins fresh.left _ _ _ too mine)

end Log

end Ledger
