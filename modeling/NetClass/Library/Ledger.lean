import Mathlib.Data.Set.Insert

/-!
Contract: resources that are acquired, used and released along a log.

Owns: the set of resources owned after a log, the law that a log uses and releases
only what it owns, and what an empty set at the end says about the log: whatever was
acquired was released later.

Does **not** own: what an entry of the log or a resource is.
-/

set_option autoImplicit false

universe u v w

/-- What an entry of a log does to a resource. -/
inductive Effect (Resource : Type v) where
  | acquires (resource : Resource)
  | uses (resource : Resource)
  | releases (resource : Resource)
deriving DecidableEq, Repr

/-- The reading of a kind of log. -/
structure Ledger (Entry : Type u) (Resource : Type v) where
  effect : Entry → Option (Effect Resource)

namespace Ledger

variable {Entry : Type u} {Resource : Type v} (ledger : Ledger Entry Resource)

/-- The set of owned resources after one entry. -/
def after (owned : Set Resource) (entry : Entry) : Set Resource :=
  match ledger.effect entry with
  | some (.acquires resource) => insert resource owned
  | some (.releases resource) => owned \ {resource}
  | _ => owned

/-- The set of owned resources after a log. -/
def owned (start : Set Resource) (log : List Entry) : Set Resource :=
  log.foldl ledger.after start

/-- The entry uses or releases the resource. -/
def Touches (entry : Entry) (resource : Resource) : Prop :=
  ledger.effect entry = some (.uses resource) ∨ ledger.effect entry = some (.releases resource)

/-- The log touches a resource only while it is owned. -/
def Lawful : Set Resource → List Entry → Prop
  | _, [] => True
  | start, entry :: rest =>
      (∀ resource, ledger.Touches entry resource → resource ∈ start) ∧
        Lawful (ledger.after start entry) rest

variable {ledger}

@[simp] theorem owned_nil (start : Set Resource) : ledger.owned start [] = start := rfl

@[simp] theorem owned_cons (start : Set Resource) (entry : Entry) (rest : List Entry) :
    ledger.owned start (entry :: rest) = ledger.owned (ledger.after start entry) rest := rfl

theorem owned_append (start : Set Resource) (left right : List Entry) :
    ledger.owned start (left ++ right) = ledger.owned (ledger.owned start left) right := by
  simp [owned]

theorem lawful_append (left right : List Entry) : ∀ start : Set Resource,
    ledger.Lawful start (left ++ right) ↔
      ledger.Lawful start left ∧ ledger.Lawful (ledger.owned start left) right := by
  induction left with
  | nil => simp [Lawful]
  | cons entry rest inductionHypothesis =>
      intro start
      simp only [List.cons_append, Lawful, inductionHypothesis, owned_cons, and_assoc]

/-- Lawfulness, told place by place. -/
theorem lawful_iff (log : List Entry) : ∀ start : Set Resource,
    ledger.Lawful start log ↔
      ∀ before entry later, log = before ++ entry :: later →
        ∀ resource, ledger.Touches entry resource → resource ∈ ledger.owned start before := by
  intro start
  constructor
  · rintro lawful before entry later rfl resource touches
    have rest := ((lawful_append before (entry :: later) start).mp lawful).2
    exact rest.1 resource touches
  · intro places
    induction log generalizing start with
    | nil => trivial
    | cons entry rest inductionHypothesis =>
        refine ⟨places [] entry rest rfl, inductionHypothesis _ ?_⟩
        rintro before other later rfl resource touches
        exact places (entry :: before) other later rfl resource touches

/-- One more entry. -/
theorem owned_concat (start : Set Resource) (log : List Entry) (entry : Entry) :
    ledger.owned start (log ++ [entry]) = ledger.after (ledger.owned start log) entry := by
  rw [owned_append, owned_cons, owned_nil]

theorem lawful_concat (start : Set Resource) (log : List Entry) (entry : Entry) :
    ledger.Lawful start (log ++ [entry]) ↔ ledger.Lawful start log ∧
      ∀ resource, ledger.Touches entry resource → resource ∈ ledger.owned start log := by
  simp only [lawful_append, Lawful, and_true]

/-! ### Entries that are read through others -/

section Embedding

variable {Inner : Type w} {inner : Ledger Inner Resource} {embed : Inner → Entry}

theorem owned_map (same : ∀ entry, ledger.effect (embed entry) = inner.effect entry)
    (log : List Inner) : ∀ start : Set Resource,
      ledger.owned start (log.map embed) = inner.owned start log := by
  induction log with
  | nil => exact fun _ => rfl
  | cons entry rest inductionHypothesis =>
      intro start
      have here : ledger.after start (embed entry) = inner.after start entry := by
        unfold after
        rw [same]
      rw [List.map_cons, owned_cons, owned_cons, here, inductionHypothesis]

theorem lawful_map (same : ∀ entry, ledger.effect (embed entry) = inner.effect entry)
    (log : List Inner) : ∀ start : Set Resource,
      ledger.Lawful start (log.map embed) ↔ inner.Lawful start log := by
  induction log with
  | nil => exact fun _ => Iff.rfl
  | cons entry rest inductionHypothesis =>
      intro start
      have here : ledger.after start (embed entry) = inner.after start entry := by
        unfold after
        rw [same]
      rw [List.map_cons, Lawful, Lawful, here, inductionHypothesis]
      simp only [Touches, same]

end Embedding

/-! ### Entries without an effect -/

theorem after_of_none {entry : Entry} (silent : ledger.effect entry = none)
    (start : Set Resource) : ledger.after start entry = start := by
  simp [after, silent]

theorem after_of_uses {entry : Entry} {resource : Resource}
    (uses : ledger.effect entry = some (.uses resource)) (start : Set Resource) :
    ledger.after start entry = start := by
  simp [after, uses]

/-- A log that only uses one resource changes nothing. -/
theorem owned_of_uses (resource : Resource) (log : List Entry) (start : Set Resource)
    (only : ∀ entry ∈ log, ledger.effect entry = none ∨
      ledger.effect entry = some (.uses resource)) : ledger.owned start log = start := by
  induction log with
  | nil => rfl
  | cons entry rest inductionHypothesis =>
      have same : ledger.after start entry = start := by
        rcases only entry List.mem_cons_self with silent | uses
        · exact after_of_none silent start
        · exact after_of_uses uses start
      rw [owned_cons, same]
      exact inductionHypothesis fun entry member => only entry (List.mem_cons_of_mem _ member)

/-- A log that acquires nothing cannot add to what is owned. -/
theorem owned_subset (log : List Entry) (start : Set Resource)
    (never : ∀ entry ∈ log, ∀ resource, ledger.effect entry ≠ some (.acquires resource)) :
    ledger.owned start log ⊆ start := by
  induction log generalizing start with
  | nil => exact subset_rfl
  | cons entry rest inductionHypothesis =>
      have here : ledger.after start entry ⊆ start := by
        unfold after
        split
        · next resource acquires => exact absurd acquires (never entry List.mem_cons_self _)
        · exact fun _ member => member.1
        · exact subset_rfl
      rw [owned_cons]
      apply subset_trans _ here
      apply inductionHypothesis
      exact fun other member => never other (List.mem_cons_of_mem _ member)

/-- Such a log is lawful if the resource is owned. -/
theorem lawful_of_uses (resource : Resource) (log : List Entry) (start : Set Resource)
    (only : ∀ entry ∈ log, ledger.effect entry = none ∨
      (ledger.effect entry = some (.uses resource) ∧ resource ∈ start)) :
    ledger.Lawful start log := by
  rw [lawful_iff]
  rintro before entry later rfl other touches
  have same : ledger.owned start before = start := by
    apply owned_of_uses resource
    intro earlier member
    rcases only earlier (List.mem_append_left _ member) with silent | ⟨uses, -⟩
    · exact Or.inl silent
    · exact Or.inr uses
  rw [same]
  rcases only entry (by simp) with silent | ⟨uses, mine⟩
  · rcases touches with touches | touches <;> simp [silent] at touches
  · rcases touches with touches | touches
    · rw [uses] at touches
      obtain rfl : resource = other := by simpa using touches
      exact mine
    · simp [uses] at touches

/-! ### Nothing left -/

theorem mem_after_of_not_releases {entry : Entry} {resource : Resource} {start : Set Resource}
    (mine : resource ∈ start) (keeps : ledger.effect entry ≠ some (.releases resource)) :
    resource ∈ ledger.after start entry := by
  unfold after
  split
  · exact Set.mem_insert_of_mem _ mine
  · next other isRelease =>
      refine ⟨mine, ?_⟩
      rintro rfl
      exact keeps isRelease
  · exact mine

/-- A resource that was owned and is not any more has been released. -/
theorem released_of_lost {resource : Resource} (log : List Entry) :
    ∀ start : Set Resource, resource ∈ start → resource ∉ ledger.owned start log →
      ∃ entry ∈ log, ledger.effect entry = some (.releases resource) := by
  induction log with
  | nil => exact fun start mine lost => absurd mine lost
  | cons entry rest inductionHypothesis =>
      intro start mine lost
      by_cases releases : ledger.effect entry = some (.releases resource)
      · exact ⟨entry, List.mem_cons_self, releases⟩
      · have kept := mem_after_of_not_releases mine releases
        obtain ⟨later, member, releases⟩ := inductionHypothesis _ kept lost
        exact ⟨later, List.mem_cons_of_mem _ member, releases⟩

/-- If nothing is owned at the end, whatever was acquired was released later. -/
theorem released_of_acquired {start : Set Resource} {before later : List Entry} {entry : Entry}
    {resource : Resource} (acquires : ledger.effect entry = some (.acquires resource))
    (lost : resource ∉ ledger.owned start (before ++ entry :: later)) :
    ∃ other ∈ later, ledger.effect other = some (.releases resource) := by
  rw [owned_append, owned_cons] at lost
  apply released_of_lost later _ _ lost
  simp [after, acquires]

end Ledger
