import Mathlib.Logic.Function.Basic
import NetClass.Library.Shares
import NetClass.Socket.Leaks
import NetClass.Socket.Ownership

/-!
Contract: all the `ncSocket`s of a process, which share one table of descriptors.

Owns: the system in which any number of objects are made, used and destroyed, each by one
thread at a time, with the system calls of all of them interleaved in any order, and the
proof that careful objects do not get in each other's way and that objects that are tidy as
well leave nothing open.

Does **not** own: what a single object does; see `NetClass.Socket.Ownership` and
`NetClass.Socket.Leaks`. The other parties of the process open, use and close descriptors as
they like, as long as they touch only what they have.

The kernel gives the number of a closed descriptor out again, to whoever asks next. So a
descriptor that one object has closed may be another object's by now.
-/

set_option autoImplicit false

namespace NetClass.Socket

/-- What is done to the table of descriptors. `opens`, `uses` and `closes` are calls of the
other parties, `gives` and `takes` the two sides of handing a descriptor over. -/
inductive TableUse where
  | call (call : Call)
  | opens (fd : Int)
  | uses (fd : Int)
  | closes (fd : Int)
  | gives (fd : Int)
  | takes (fd : Int)
deriving DecidableEq, Repr

def table : Ledger TableUse Int where
  effect
    | .call call => descriptors.effect call
    | .opens fd => some (.acquires fd)
    | .uses fd => some (.uses fd)
    | .closes fd => some (.releases fd)
    | .gives fd => some (.releases fd)
    | .takes fd => some (.acquires fd)

/-- An object, and the calls of its operation that have not been issued yet. -/
structure Process.Record where
  object : Object
  pending : List Call
deriving DecidableEq, Repr

/-- The objects that have been made, and what has been done to the table by them and by the
other parties. -/
structure Process (Party Name : Type) where
  records : Name → Option Process.Record
  log : List ((Party ⊕ Name) × TableUse)

namespace Process

variable {Party Name : Type}

/-- No object has been made. -/
def start : Process Party Name := ⟨fun _ => none, []⟩

/-- What the parties have open at the beginning. -/
def atStart (initial : Party → Set Int) : Party ⊕ Name → Set Int
  | .inl party => initial party
  | .inr _ => ∅

/-- A descriptor goes from a party to a new object. -/
def handOver (party : Party) (name : Name) : Origin → List ((Party ⊕ Name) × TableUse)
  | .ofSockfd fd => if 0 ≤ fd then [(.inl party, .gives fd), (.inr name, .takes fd)] else []
  | _ => []

theorem apart_atStart {initial : Party → Set Int} (apart : Ledger.Apart initial) :
    Ledger.Apart (atStart initial : Party ⊕ Name → Set Int) := by
  intro fd left right mine too
  cases left with
  | inl party =>
      cases right with
      | inl other => exact congrArg Sum.inl (apart fd party other mine too)
      | inr name => exact absurd too (Set.notMem_empty fd)
  | inr name => exact absurd mine (Set.notMem_empty fd)

section Steps

variable [DecidableEq Party] [DecidableEq Name]

/-- What a holder has open. -/
def has (initial : Party → Set Int) (process : Process Party Name) (holder : Party ⊕ Name) :
    Set Int :=
  table.has (atStart initial) process.log holder

/-- The descriptor is open. -/
def IsOpen (initial : Party → Set Int) (process : Process Party Name) (fd : Int) : Prop :=
  table.Taken (atStart initial) process.log fd

/-- Something is done by a party. -/
def note (process : Process Party Name) (party : Party) (use : TableUse) :
    Process Party Name :=
  { process with log := process.log ++ [(.inl party, use)] }

/-- Something is done by an object. -/
def put (process : Process Party Name) (name : Name) (record : Record)
    (more : List ((Party ⊕ Name) × TableUse)) : Process Party Name where
  records := Function.update process.records name (some record)
  log := process.log ++ more

omit [DecidableEq Party] in
@[simp] theorem records_put_self (process : Process Party Name) (name : Name) (record : Record)
    (more : List ((Party ⊕ Name) × TableUse)) :
    (process.put name record more).records name = some record :=
  Function.update_self ..

omit [DecidableEq Party] in
theorem records_put_other (process : Process Party Name) {name other : Name}
    (differs : other ≠ name) (record : Record) (more : List ((Party ⊕ Name) × TableUse)) :
    (process.put name record more).records other = process.records other :=
  Function.update_of_ne differs ..

/-- The steps of the process. The answers to an operation come with it, and its calls are
issued one at a time. The kernel answers a call for a descriptor with one that is not
open, and a party touches only what it has. -/
inductive Step (initial : Party → Set Int) (condition : Object → Operation → Prop)
    (process : Process Party Name) : Process Party Name → Prop where
  | opens (party : Party) (fd : Int) (free : ¬ process.IsOpen initial fd) :
      Step initial condition process (process.note party (.opens fd))
  | uses (party : Party) (fd : Int) (mine : fd ∈ process.has initial (.inl party)) :
      Step initial condition process (process.note party (.uses fd))
  | closes (party : Party) (fd : Int) (mine : fd ∈ process.has initial (.inl party)) :
      Step initial condition process (process.note party (.closes fd))
  | makes (party : Party) (name : Name) (origin : Origin) (new : process.records name = none)
      (mine : origin.adopted ⊆ process.has initial (.inl party)) :
      Step initial condition process
        (process.put name ⟨.make origin, []⟩ (handOver party name origin))
  | begins (name : Name) (object next : Object) (operation : Operation) (calls : List Call)
      (idle : process.records name = some ⟨object, []⟩) (meets : condition object operation)
      (performs : object.perform operation = some next)
      (grows : next.calls = object.calls ++ calls) :
      Step initial condition process (process.put name ⟨next, calls⟩ [])
  | issues (name : Name) (object : Object) (call : Call) (rest : List Call)
      (here : process.records name = some ⟨object, call :: rest⟩)
      (free : ∀ fd, descriptors.effect call = some (.acquires fd) →
        ¬ process.IsOpen initial fd) :
      Step initial condition process
        (process.put name ⟨object, rest⟩ [(.inr name, .call call)])

def machine (initial : Party → Set Int) (condition : Object → Operation → Prop) :
    Machine (Process Party Name) where
  initial := fun process => process = start
  step := Step initial condition

/-! ### The records of the objects -/

/-- What a new object finds in the table. -/
def taken : Origin → List TableUse
  | .ofSockfd fd => if 0 ≤ fd then [.takes fd] else []
  | _ => []

/-- The calls of the object that are in the log, and those that are still to come. -/
def Issued (log : List ((Party ⊕ Name) × TableUse)) (name : Name) (record : Record)
    (issued : List Call) : Prop :=
  record.object.calls = issued ++ record.pending ∧
    Ledger.share (.inr name) log = taken record.object.origin ++ issued.map .call

/-- The log is in order. -/
structure InOrder (initial : Party → Set Int) (log : List ((Party ⊕ Name) × TableUse)) :
    Prop where
  fresh : Justified (table.Fresh (atStart initial)) log
  parties : ∀ party, table.Lawful (initial party) (Ledger.share (.inl party) log)

/-- The invariant: the log is in order, and it agrees with the record of each object. -/
structure Sound (initial : Party → Set Int) (condition : Object → Operation → Prop)
    (process : Process Party Name) : Prop where
  inOrder : InOrder initial process.log
  unused : ∀ name, process.records name = none → Ledger.share (.inr name) process.log = []
  reachable : ∀ name record, process.records name = some record →
    (Object.machine condition).Reachable record.object
  issued : ∀ name record, process.records name = some record →
    ∃ issued, Issued process.log name record issued

/-! ### What the table says of an object -/

theorem share_handOver (party : Party) (name : Name) (origin : Origin) :
    Ledger.share (.inr name) (handOver party name origin) = taken origin := by
  unfold handOver taken
  split
  · split_ifs <;> simp [Ledger.share]
  · rfl

theorem share_handOver_other (party : Party) {name other : Name} (differs : other ≠ name)
    (origin : Origin) : Ledger.share (.inr other) (handOver party name origin) = [] := by
  unfold handOver
  split
  · split_ifs <;> simp [Ledger.share, Ne.symm differs]
  · rfl

/-- What an object takes over is what its constructor adopts. -/
theorem owned_taken (origin : Origin) : table.owned ∅ (taken origin) = origin.adopted := by
  cases origin with
  | default => rfl
  | ofHost host port sockType => rfl
  | ofSockfd fd =>
      ext other
      have adopted : other ∈ (Origin.ofSockfd fd).adopted ↔ other = fd ∧ 0 ≤ other := Iff.rfl
      rw [adopted, taken]
      split_ifs with nonneg
      · have member : other ∈ table.owned ∅ [.takes fd] ↔ other = fd := by
          simp [Ledger.owned, Ledger.after, table]
        rw [member, iff_self_and]
        rintro rfl
        exact nonneg
      · refine iff_of_false (Set.notMem_empty other) ?_
        rintro ⟨rfl, positive⟩
        exact nonneg positive

theorem lawful_taken (origin : Origin) : table.Lawful ∅ (taken origin) := by
  unfold taken
  split
  · split_ifs <;> simp [Ledger.Lawful, Ledger.Touches, table]
  · trivial

/-- The calls of an object are in the table as they are. -/
theorem effect_call (call : Call) : table.effect (.call call) = descriptors.effect call := rfl

section Records

variable {log : List ((Party ⊕ Name) × TableUse)} {name : Name} {record : Record}
variable {issued : List Call}

/-- What an object has open is what it owns by its own account. -/
theorem Issued.has_eq (records : Issued log name record issued) (initial : Party → Set Int) :
    table.has (atStart initial) log (.inr name) =
      descriptors.owned record.object.origin.adopted issued := by
  rw [Ledger.has, records.2, Ledger.owned_append]
  show table.owned (table.owned ∅ _) _ = _
  rw [owned_taken, Ledger.owned_map effect_call]

/-- An object whose own log is lawful keeps to the law in the table. -/
theorem Issued.lawful (records : Issued log name record issued)
    (lawful : descriptors.Lawful record.object.origin.adopted record.object.calls) :
    table.Lawful ∅ (Ledger.share (.inr name) log) := by
  rw [records.1, Ledger.lawful_append] at lawful
  rw [records.2, Ledger.lawful_append, owned_taken, Ledger.lawful_map effect_call]
  exact ⟨lawful_taken record.object.origin, lawful.1⟩

end Records

/-! ### Steps -/

variable {process : Process Party Name} {initial : Party → Set Int}
variable {condition : Object → Operation → Prop}

theorem Sound.start : Sound initial condition (start : Process Party Name) where
  inOrder := ⟨.nil, fun _ => trivial⟩
  unused := fun _ _ => rfl
  reachable := fun _ _ here => by cases here
  issued := fun _ _ here => by cases here

section InOrder

variable {log : List ((Party ⊕ Name) × TableUse)}

theorem InOrder.apart (inOrder : InOrder initial log) (apart : Ledger.Apart initial) :
    Ledger.Apart (table.has (atStart initial) log) :=
  Ledger.apart_of_fresh (apart_atStart apart) inOrder.fresh

/-- An entry of a party. -/
theorem InOrder.note (inOrder : InOrder initial log) (party : Party) (use : TableUse)
    (fresh : table.Fresh (atStart initial) log (.inl party, use))
    (own : table.Own (atStart initial) log (.inl party, use)) :
    InOrder initial (log ++ [(.inl party, use)]) := by
  refine ⟨inOrder.fresh.concat fresh, fun other => ?_⟩
  by_cases same : other = party
  · subst same
    rw [Ledger.share_append, Ledger.share_own, Ledger.lawful_append]
    exact ⟨inOrder.parties other, own, trivial⟩
  · rw [Ledger.share_append, Ledger.share_other (by simpa using Ne.symm same), List.append_nil]
    exact inOrder.parties other

/-- An entry of an object. -/
theorem InOrder.put (inOrder : InOrder initial log) (name : Name) (use : TableUse)
    (fresh : table.Fresh (atStart initial) log (.inr name, use)) :
    InOrder initial (log ++ [(.inr name, use)]) := by
  refine ⟨inOrder.fresh.concat fresh, fun party => ?_⟩
  rw [Ledger.share_append, Ledger.share_other (by simp), List.append_nil]
  exact inOrder.parties party

/-- Handing a descriptor over leaves the log in order. -/
theorem InOrder.handOver (inOrder : InOrder initial log) (apart : Ledger.Apart initial)
    (party : Party) (name : Name) {origin : Origin}
    (mine : origin.adopted ⊆ table.has (atStart initial) log (.inl party)) :
    InOrder initial (log ++ Process.handOver party name origin) := by
  unfold Process.handOver
  split
  · next fd =>
      split_ifs with nonneg
      · have owned : fd ∈ table.has (atStart initial) log (.inl party) := mine ⟨rfl, nonneg⟩
        rw [List.append_cons]
        refine (inOrder.note party (.gives fd) ?_ ?_).put name (.takes fd) ?_
        · simp [Ledger.Fresh, table]
        · intro other touches
          obtain rfl : fd = other := by simpa [Ledger.Touches, table] using touches
          exact owned
        · intro other acquires
          obtain rfl : fd = other := by simpa [table] using acquires
          -- The party was the only one to have it.
          rintro ⟨holder, has⟩
          by_cases isParty : holder = .inl party
          · subst isParty
            rw [Ledger.has_append_own] at has
            exact has.2 rfl
          · rw [Ledger.has_append_other (Ne.symm isParty)] at has
            exact isParty (inOrder.apart apart fd _ _ has owned)
      · rwa [List.append_nil]
  · rwa [List.append_nil]

end InOrder

/-- A step of a party. -/
theorem Sound.note (sound : Sound initial condition process) (party : Party) (use : TableUse)
    (fresh : table.Fresh (atStart initial) process.log (.inl party, use))
    (own : table.Own (atStart initial) process.log (.inl party, use)) :
    Sound initial condition (process.note party use) := by
  have same : ∀ name : Name, Ledger.share (.inr name) (process.note party use).log =
      Ledger.share (.inr name) process.log := by
    intro name
    rw [Process.note, Ledger.share_append, Ledger.share_other (by simp), List.append_nil]
  refine ⟨sound.inOrder.note party use fresh own, fun name new => ?_, sound.reachable,
    fun name record here => ?_⟩
  · rw [same]
    exact sound.unused name new
  · obtain ⟨issued, calls, entries⟩ := sound.issued name record here
    exact ⟨issued, calls, (same name).trans entries⟩

/-- A step of one object. The others do not notice it. -/
theorem Sound.put (sound : Sound initial condition process) {name : Name} {record : Record}
    {more : List ((Party ⊕ Name) × TableUse)} (inOrder : InOrder initial (process.log ++ more))
    (silent : ∀ other, other ≠ name → Ledger.share (.inr other) more = [])
    (reachable : (Object.machine condition).Reachable record.object)
    (issues : ∃ issued, Issued (process.log ++ more) name record issued) :
    Sound initial condition (process.put name record more) := by
  have others : ∀ other, other ≠ name → Ledger.share (.inr other) (process.log ++ more) =
      Ledger.share (.inr other) process.log := by
    intro other differs
    rw [Ledger.share_append, silent other differs, List.append_nil]
  refine ⟨inOrder, fun other free => ?_, fun other current there => ?_,
    fun other current there => ?_⟩
  · have differs : other ≠ name := by
      rintro rfl
      simp at free
    rw [records_put_other process differs] at free
    exact (others other differs).trans (sound.unused other free)
  · by_cases same : other = name
    · subst same
      obtain rfl : record = current := by simpa using there
      exact reachable
    · rw [records_put_other process same] at there
      exact sound.reachable other current there
  · by_cases same : other = name
    · subst same
      obtain rfl : record = current := by simpa using there
      exact issues
    · rw [records_put_other process same] at there
      obtain ⟨issued, calls, entries⟩ := sound.issued other current there
      exact ⟨issued, calls, (others other same).trans entries⟩

/-- The step lemma. -/
theorem Sound.step {next : Process Party Name} (apart : Ledger.Apart initial)
    (sound : Sound initial condition process) (step : Step initial condition process next) :
    Sound initial condition next := by
  cases step with
  | opens party fd free =>
      apply sound.note
      · intro other acquires
        obtain rfl : fd = other := by simpa [table] using acquires
        exact free
      · simp [Ledger.Own, Ledger.Touches, table]
  | uses party fd mine | closes party fd mine =>
      apply sound.note
      · simp [Ledger.Fresh, table]
      · intro other touches
        obtain rfl : fd = other := by simpa [Ledger.Touches, table] using touches
        exact mine
  | makes party name origin new mine =>
      apply sound.put (sound.inOrder.handOver apart party name mine)
      · exact fun other differs => share_handOver_other party differs origin
      · exact .start ⟨origin, rfl⟩
      · refine ⟨[], rfl, ?_⟩
        rw [Ledger.share_append, sound.unused name new, share_handOver]
        exact (List.append_nil _).symm
  | begins name object next operation calls idle meets performs grows =>
      have nothing : process.log ++ [] = process.log := List.append_nil _
      apply sound.put
      · rw [nothing]
        exact sound.inOrder
      · exact fun _ _ => rfl
      · exact (sound.reachable name _ idle).tail ⟨operation, meets, performs⟩
      · obtain ⟨issued, before, entries⟩ := sound.issued name _ idle
        obtain ⟨_, performed⟩ := Object.performs performs
        refine ⟨issued, ?_, ?_⟩
        · rw [grows, before, List.append_nil]
        · rw [nothing, performed.origin]
          exact entries
  | issues name object call rest here free =>
      apply sound.put (sound.inOrder.put name (.call call) free)
      · intro other differs
        exact Ledger.share_other (by simpa using Ne.symm differs) _
      · exact sound.reachable name ⟨object, call :: rest⟩ here
      · obtain ⟨issued, before, entries⟩ := sound.issued name _ here
        refine ⟨issued ++ [call], ?_, ?_⟩
        · rw [before, List.append_assoc]
          rfl
        · rw [Ledger.share_append, entries, Ledger.share_own, List.map_append, List.append_assoc]
          rfl

/-- The run lemma. -/
theorem sound_of_reachable (apart : Ledger.Apart initial)
    (reachable : (machine initial condition).Reachable process) :
    Sound initial condition process := by
  apply reachable.invariant (Sound initial condition)
  · rintro _ rfl
    exact .start
  · exact fun _ _ _ sound step => sound.step apart step

/-- A party that uses what it has. -/
theorem reachable_uses {party : Party} {uses : List TableUse}
    (reachable : (machine initial condition).Reachable process)
    (own : ∀ use ∈ uses, ∃ fd ∈ process.has initial (.inl party), use = .uses fd) :
    (machine initial condition).Reachable
        { process with log := process.log ++ uses.map (.inl party, ·) } ∧
      ∀ holder, table.has (atStart initial) (process.log ++ uses.map (.inl party, ·)) holder =
        process.has initial holder := by
  have only : ∀ uses : List TableUse,
      (∀ use ∈ uses, ∃ fd ∈ process.has initial (.inl party), use = .uses fd) →
      ∀ entry ∈ uses.map ((Sum.inl party : Party ⊕ Name), ·),
        ∃ fd, table.effect entry.2 = some (.uses fd) := by
    intro uses own entry member
    obtain ⟨use, inUses, rfl⟩ := List.mem_map.mp member
    obtain ⟨fd, -, rfl⟩ := own use inUses
    exact ⟨fd, rfl⟩
  refine ⟨?_, Ledger.has_append_uses (only uses own)⟩
  induction uses using List.reverseRecOn with
  | nil =>
      rw [List.map_nil, List.append_nil]
      exact reachable
  | append_singleton uses use inductionHypothesis =>
      have earlier := fun other member => own other (List.mem_append_left _ member)
      obtain ⟨fd, mine, rfl⟩ := own use (by simp)
      have still : fd ∈ table.has (atStart initial) (process.log ++
          uses.map (.inl party, ·)) (.inl party) := by
        rw [Ledger.has_append_uses (only uses earlier)]
        exact mine
      have next := (inductionHypothesis earlier).tail (.uses party fd still)
      rw [List.map_append, ← List.append_assoc]
      exact next

/-- Objects that meet a condition meet a weaker one. -/
theorem Step.mono {weaker : Object → Operation → Prop} {next : Process Party Name}
    (step : Step initial condition process next)
    (weakens : ∀ object operation, condition object operation → weaker object operation) :
    Step initial weaker process next := by
  cases step with
  | opens party fd free => exact .opens party fd free
  | uses party fd mine => exact .uses party fd mine
  | closes party fd mine => exact .closes party fd mine
  | makes party name origin new mine => exact .makes party name origin new mine
  | begins name object next operation calls idle meets performs grows =>
      exact .begins name object next operation calls idle (weakens object operation meets)
        performs grows
  | issues name object call rest here free => exact .issues name object call rest here free

theorem reachable_mono {weaker : Object → Operation → Prop}
    (weakens : ∀ object operation, condition object operation → weaker object operation)
    (reachable : (machine initial condition).Reachable process) :
    (machine initial weaker).Reachable process := by
  apply reachable.invariant (fun process => (machine initial weaker).Reachable process)
  · exact fun first initially => .start initially
  · exact fun before after _ reached step => reached.tail (step.mono weakens)

end Steps

end Process

/-! ### Careful objects -/

/-- The log of an object whose operations are all careful is lawful. -/
theorem Object.lawful_of_careful {object : Object}
    (reachable : (Object.machine Careful).Reachable object) :
    descriptors.Lawful object.origin.adopted object.calls := by
  refine (reachable.invariant (fun object =>
    descriptors.Lawful object.origin.adopted object.calls ∧
      (object.alive = true → OwnsFields object)) ?_ ?_).1
  · rintro _ ⟨origin, rfl⟩
    exact ⟨trivial, fun _ => .make origin⟩
  · rintro object next - ⟨lawful, fields⟩ ⟨operation, careful, step⟩
    obtain ⟨calls, performs⟩ := Object.performs step
    obtain ⟨lawfulStep, fieldsNext⟩ := (fields performs.alive).step performs careful
    refine ⟨?_, fieldsNext⟩
    rw [performs.origin, performs.calls, Ledger.lawful_append]
    exact ⟨lawful, lawfulStep⟩

section Processes

variable {Party Name : Type} [DecidableEq Party] [DecidableEq Name]
variable {initial : Party → Set Int} {process : Process Party Name}

/-- Careful objects and the other parties keep to the law of the table. -/
theorem Process.lawful_of_careful (apart : Ledger.Apart initial)
    (reachable : (Process.machine initial Careful).Reachable process)
    (holder : Party ⊕ Name) :
    table.Lawful (Process.atStart initial holder) (Ledger.share holder process.log) := by
  have sound := Process.sound_of_reachable apart reachable
  cases holder with
  | inl party => exact sound.inOrder.parties party
  | inr name =>
      cases made : process.records name with
      | none =>
          rw [sound.unused name made]
          trivial
      | some record =>
          obtain ⟨issued, records⟩ := sound.issued name record made
          exact records.lawful (Object.lawful_of_careful (sound.reachable name record made))

/-- Whoever touches a descriptor has it, and nobody else does. -/
theorem Process.exclusive (apart : Ledger.Apart initial)
    (reachable : (Process.machine initial Careful).Reachable process)
    {before later : List ((Party ⊕ Name) × TableUse)} {holder : Party ⊕ Name} {use : TableUse}
    (split : process.log = before ++ (holder, use) :: later) {fd : Int}
    (touches : table.Touches use fd) :
    fd ∈ table.has (Process.atStart initial) before holder ∧
      ∀ other, other ≠ holder → fd ∉ table.has (Process.atStart initial) before other :=
  Ledger.exclusive (Process.apart_atStart apart)
    (Process.sound_of_reachable apart reachable).inOrder.fresh
    (Process.lawful_of_careful apart reachable) split touches

end Processes

/-- An object whose operations are all tidy owns nothing after its destructor. -/
theorem Object.nothing_of_tidy {object : Object}
    (reachable : (Object.machine Tidy).Reachable object) (dead : object.alive = false) :
    object.owned = ∅ := by
  refine (reachable.invariant (fun object =>
    Covers object ∧ (object.alive = false → object.owned = ∅)) ?_ ?_).2 dead
  · rintro _ ⟨origin, rfl⟩
    exact ⟨.make origin, fun dead => Bool.noConfusion dead⟩
  · rintro object next - ⟨covers, -⟩ ⟨operation, tidy, step⟩
    obtain ⟨calls, performs⟩ := Object.performs step
    exact covers.step performs tidy

/-- The operation is careful and tidy. -/
def Proper (object : Object) (operation : Operation) : Prop :=
  Careful object operation ∧ Tidy object operation

/-- The destructor of every object has come to its end. -/
def Process.Finished {Party Name : Type} (process : Process Party Name) : Prop :=
  ∀ name record, process.records name = some record →
    record.object.alive = false ∧ record.pending = []

section Gone

variable {Party Name : Type} [DecidableEq Party] [DecidableEq Name]
variable {initial : Party → Set Int} {process : Process Party Name}

/-- An object that has been tidy has nothing when it is gone. -/
theorem Process.has_of_tidy (apart : Ledger.Apart initial)
    (reachable : (Process.machine initial Tidy).Reachable process)
    (finished : process.Finished) (name : Name) : process.has initial (.inr name) = ∅ := by
  have sound := Process.sound_of_reachable apart reachable
  cases made : process.records name with
  | none =>
      rw [Process.has, Ledger.has, sound.unused name made]
      rfl
  | some record =>
      obtain ⟨dead, idle⟩ := finished name record made
      obtain ⟨issued, records⟩ := sound.issued name record made
      have all : issued = record.object.calls := by
        rw [records.1, idle, List.append_nil]
      rw [Process.has, records.has_eq, all]
      exact Object.nothing_of_tidy (sound.reachable name record made) dead

/-- A holder that has nothing in the end has given back whatever it has acquired. -/
theorem Process.released {holder : Party ⊕ Name} (nothing : process.has initial holder = ∅)
    {before later : List ((Party ⊕ Name) × TableUse)} {use : TableUse} {fd : Int}
    (split : process.log = before ++ (holder, use) :: later)
    (acquires : table.effect use = some (.acquires fd)) :
    ∃ entry ∈ later, entry.1 = holder ∧ table.effect entry.2 = some (.releases fd) := by
  have lost : fd ∉ table.owned (Process.atStart initial holder) (Ledger.share holder before ++
      use :: Ledger.share holder later) := by
    rw [Process.has, Ledger.has, split, Ledger.share_append,
      show (holder, use) :: later = [(holder, use)] ++ later from rfl,
      Ledger.share_append, Ledger.share_own] at nothing
    rw [← List.singleton_append, nothing]
    exact Set.notMem_empty fd
  obtain ⟨released, member, releases⟩ := Ledger.released_of_acquired acquires lost
  obtain ⟨entry, there, rfl⟩ := List.mem_map.mp member
  obtain ⟨inLater, mine⟩ := List.mem_filter.mp there
  exact ⟨entry, inLater, by simpa using mine, releases⟩

end Gone

/-- An object without a stream closes its descriptor. -/
theorem proper_destroy {object : Object} (noStream : object.sock.stdiofd = none)
    (nonzero : object.sock.sockfd ≠ 0) : Proper object .destroy := by
  refine ⟨?_, fun asks => asks.elim, fun _ => ⟨fun fd stream => ?_, fun _ => Or.inl nonzero⟩⟩
  · rintro ⟨fd, -, stream, -⟩
    rw [noStream] at stream
    cases stream
  · rw [noStream] at stream
    cases stream

end NetClass.Socket
