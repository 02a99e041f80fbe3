import Mathlib.Data.List.Basic
import Mathlib.Data.List.Range

/-!
Contract: byte windows of a flat memory.

Owns: reading a window of consecutive addresses as a list, storing a list at an
address, and how the two meet: a store is seen inside its own range and nowhere
else, and stores that follow each other without a gap read back as one window.

Does **not** own: where a buffer lies or how long it is. Addresses are relative
to whatever the caller takes as zero, so they may be negative.
-/

set_option autoImplicit false

universe u

namespace Memory

variable {Byte : Type u}

/-- The `length` bytes from address `start` on. -/
def window (mem : Int → Byte) (start : Int) (length : Nat) : List Byte :=
  (List.range length).map fun index : Nat => mem (start + (index : Int))

/-- The memory after `bytes` are written at address `start`. -/
def store (mem : Int → Byte) (start : Int) (bytes : List Byte) : Int → Byte :=
  fun address =>
    if start ≤ address then bytes.getD (address - start).toNat (mem address) else mem address

@[simp] theorem window_length (mem : Int → Byte) (start : Int) (length : Nat) :
    (window mem start length).length = length := by
  simp [window]

@[simp] theorem store_nil (mem : Int → Byte) (start : Int) : store mem start [] = mem := by
  funext address
  simp [store]

theorem window_add (mem : Int → Byte) (start : Int) (left right : Nat) :
    window mem start (left + right) =
      window mem start left ++ window mem (start + left) right := by
  simp [window, List.range_add, Function.comp_def, Int.add_assoc]

/-- The first part of a window. -/
theorem window_take (mem : Int → Byte) (start : Int) {length part : Nat}
    (within : part ≤ length) :
    (window mem start length).take part = window mem start part := by
  obtain ⟨rest, rfl⟩ := Nat.exists_eq_add_of_le within
  rw [window_add, List.take_left' (window_length mem start part)]

theorem window_congr {mem mem' : Int → Byte} {start : Int} {length : Nat}
    (same : ∀ address, start ≤ address → address < start + length →
      mem address = mem' address) :
    window mem start length = window mem' start length := by
  unfold window
  apply List.map_congr_left
  intro index member
  have below := List.mem_range.mp member
  exact same _ (by omega) (by omega)

/-! ### A store and a window -/

theorem store_before {mem : Int → Byte} {start : Int} {bytes : List Byte} {address : Int}
    (before : address < start) : store mem start bytes address = mem address := by
  unfold store
  rw [if_neg (by omega)]

theorem store_after {mem : Int → Byte} {start : Int} {bytes : List Byte} {address : Int}
    (after : start + bytes.length ≤ address) :
    store mem start bytes address = mem address := by
  unfold store
  rw [if_pos (by omega), List.getD_eq_getElem?_getD, List.getElem?_eq_none (by omega)]
  rfl

theorem store_inside (mem : Int → Byte) (start : Int) (bytes : List Byte) (index : Nat)
    (below : index < bytes.length) :
    store mem start bytes (start + index) = bytes[index] := by
  unfold store
  rw [if_pos (by omega), show (start + index - start).toNat = index by omega,
    List.getD_eq_getElem?_getD, List.getElem?_eq_getElem below]
  rfl

theorem window_store_same (mem : Int → Byte) (start : Int) (bytes : List Byte) :
    window (store mem start bytes) start bytes.length = bytes := by
  apply List.ext_getElem (by simp)
  intro index below inBytes
  simp only [window, List.getElem_map, List.getElem_range]
  exact store_inside mem start bytes index inBytes

theorem window_store_before (mem : Int → Byte) (start : Int) (length : Nat)
    {place : Int} (bytes : List Byte) (before : start + length ≤ place) :
    window (store mem place bytes) start length = window mem start length :=
  window_congr fun _ _ below => store_before (by omega)

/-- Storing right behind a window extends the window by the bytes stored. -/
theorem window_store_append (mem : Int → Byte) (start : Int) (length : Nat)
    (bytes : List Byte) :
    window (store mem (start + length) bytes) start (length + bytes.length) =
      window mem start length ++ bytes := by
  rw [window_add, window_store_before mem start length bytes (Int.le_refl _),
    window_store_same]

end Memory
