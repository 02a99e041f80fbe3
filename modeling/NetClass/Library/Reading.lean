import Mathlib.Data.List.Basic

/-!
Contract: what a log says to a reader who looks at one kind of entry only.

Owns: readings that ignore the other kinds, and how such a reading of a log grows with
the log.

Does **not** own: what a kind of entry is.
-/

set_option autoImplicit false

universe u v

variable {Entry : Type u} {Value : Type v} {kind : Entry → Bool} {read : Entry → Option Value}

/-- The reading says nothing about entries of another kind. -/
def ReadsOnly (kind : Entry → Bool) (read : Entry → Option Value) : Prop :=
  ∀ entry, kind entry = false → read entry = none

namespace ReadsOnly

/-- The reader may leave the other entries out. -/
theorem filterMap_filter (reads : ReadsOnly kind read) (log : List Entry) :
    (log.filter kind).filterMap read = log.filterMap read := by
  induction log with
  | nil => rfl
  | cons entry rest inductionHypothesis =>
      cases mine : kind entry with
      | true =>
          rw [List.filter_cons_of_pos mine, List.filterMap_cons, List.filterMap_cons,
            inductionHypothesis]
      | false =>
          rw [List.filter_cons_of_neg (by simp [mine]), List.filterMap_cons_none (reads _ mine),
            inductionHypothesis]

/-- What a log that grows says. -/
theorem append (reads : ReadsOnly kind read) (log : List Entry) {more entries : List Entry}
    (kinds : more.filter kind = entries) :
    (log ++ more).filterMap read = log.filterMap read ++ entries.filterMap read := by
  rw [List.filterMap_append, ← kinds, reads.filterMap_filter]

/-- Entries of other kinds change nothing. -/
theorem append_silent (reads : ReadsOnly kind read) (log : List Entry) {more : List Entry}
    (silent : more.filter kind = []) : (log ++ more).filterMap read = log.filterMap read := by
  rw [reads.append log silent, List.filterMap_nil, List.append_nil]

theorem of_silent (reads : ReadsOnly kind read) {log : List Entry}
    (silent : log.filter kind = []) : log.filterMap read = [] := by
  rw [← reads.filterMap_filter, silent, List.filterMap_nil]

end ReadsOnly
