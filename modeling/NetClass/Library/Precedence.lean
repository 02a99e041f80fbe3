import Mathlib.Data.List.Basic

/-!
Contract: logs in which every entry is justified by what stands before it.

Owns: the law, and the rule by which a log that grows keeps it.

Does **not** own: what justifies an entry.
-/

set_option autoImplicit false

universe u

variable {Entry : Type u}

/-- Every entry of the log is justified by the part of the log before it. -/
def Justified (justifies : List Entry → Entry → Prop) (log : List Entry) : Prop :=
  ∀ before entry later, log = before ++ entry :: later → justifies before entry

namespace Justified

variable {justifies : List Entry → Entry → Prop}

theorem nil : Justified justifies [] := by
  intro before entry later split
  simp at split

/-- What is added to a log has to be justified by the log and what is added before. -/
theorem append {left right : List Entry} (old : Justified justifies left)
    (new : ∀ before entry later, right = before ++ entry :: later →
      justifies (left ++ before) entry) : Justified justifies (left ++ right) := by
  intro before entry later split
  rcases List.append_eq_append_iff.mp split with ⟨middle, rfl, rest⟩ | ⟨middle, rfl, rest⟩
  · exact new middle entry later rest
  · cases middle with
    | nil =>
        have fresh := new [] entry later (by simpa using rest.symm)
        simpa using fresh
    | cons head tail =>
        obtain ⟨rfl, -⟩ := List.cons.inj rest
        exact old before entry tail rfl

/-- The first part of a log. -/
theorem left {left right : List Entry} (all : Justified justifies (left ++ right)) :
    Justified justifies left := by
  rintro before entry later rfl
  exact all before entry (later ++ right) (by simp)

/-- One more entry. -/
theorem concat {log : List Entry} {entry : Entry} (old : Justified justifies log)
    (new : justifies log entry) : Justified justifies (log ++ [entry]) := by
  apply old.append
  intro before other later split
  obtain ⟨rfl, same⟩ : before = [] ∧ [entry] = other :: later := by
    cases before with
    | nil => exact ⟨rfl, split⟩
    | cons head tail => simp at split
  obtain rfl := (List.cons.inj same).1
  simpa using new

end Justified
