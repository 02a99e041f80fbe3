import Mathlib.Data.Nat.Digits.Defs

/-!
Contract: numbers in memory.

Owns: the two byte orders, the bytes of a number in a fixed width, the number that bytes
stand for, the round trip, and what becomes of a read that is too wide.

Does **not** own: the widths of a machine.
-/

set_option autoImplicit false

/-- Which byte of a number has the lowest address. -/
inductive ByteOrder where
  | little
  | big
deriving DecidableEq, Repr

namespace ByteOrder

/-- The bytes with the least significant one first. -/
def leastFirst (order : ByteOrder) (bytes : List UInt8) : List UInt8 :=
  match order with
  | .little => bytes
  | .big => bytes.reverse

/-- The number that the bytes stand for. -/
def decode (order : ByteOrder) (bytes : List UInt8) : Nat :=
  Nat.ofDigits 256 ((order.leastFirst bytes).map UInt8.toNat)

/-- The least significant bytes of a number, beginning with the first. -/
def lowBytes : Nat → Nat → List UInt8
  | 0, _ => []
  | size + 1, number => UInt8.ofNat number :: lowBytes size (number / 256)

/-- The number in `size` bytes of memory. -/
def encode (order : ByteOrder) (size number : Nat) : List UInt8 :=
  order.leastFirst (lowBytes size number)

theorem leastFirst_leastFirst (order : ByteOrder) (bytes : List UInt8) :
    order.leastFirst (order.leastFirst bytes) = bytes := by
  cases order with
  | little => rfl
  | big => exact List.reverse_reverse bytes

theorem length_leastFirst (order : ByteOrder) (bytes : List UInt8) :
    (order.leastFirst bytes).length = bytes.length := by
  cases order with
  | little => rfl
  | big => exact List.length_reverse

/-! ### The round trip -/

theorem lowBytes_ofDigits (bytes : List UInt8) :
    lowBytes bytes.length (Nat.ofDigits 256 (bytes.map UInt8.toNat)) = bytes := by
  induction bytes with
  | nil => rfl
  | cons byte rest inductionHypothesis =>
      have small : byte.toNat < 256 := byte.toNat_lt
      rw [List.map_cons, Nat.ofDigits_cons, List.length_cons, lowBytes]
      have low : UInt8.ofNat (byte.toNat + 256 * Nat.ofDigits 256 (rest.map UInt8.toNat)) =
          byte := by
        apply UInt8.toNat_inj.mp
        rw [UInt8.toNat_ofNat']
        omega
      have high : (byte.toNat + 256 * Nat.ofDigits 256 (rest.map UInt8.toNat)) / 256 =
          Nat.ofDigits 256 (rest.map UInt8.toNat) := by
        omega
      exact List.cons_eq_cons.mpr ⟨low, by rw [high, inductionHypothesis]⟩

theorem encode_decode (order : ByteOrder) (bytes : List UInt8) :
    order.encode bytes.length (order.decode bytes) = bytes := by
  rw [encode, decode, ← order.length_leastFirst bytes, lowBytes_ofDigits, leastFirst_leastFirst]

/-- Different bytes stand for different numbers. -/
theorem decode_inj (order : ByteOrder) {left right : List UInt8}
    (length : left.length = right.length) :
    order.decode left = order.decode right ↔ left = right := by
  constructor
  · intro same
    rw [← order.encode_decode left, same, length, order.encode_decode]
  · intro same
    rw [same]

/-- The same bytes stand for the same number in both orders exactly if they read the same
backwards. -/
theorem decode_little_eq_big_iff (bytes : List UInt8) :
    decode .little bytes = decode .big bytes ↔ bytes.reverse = bytes := by
  have swapped : decode .big bytes = decode .little bytes.reverse := rfl
  rw [swapped, decode_inj .little List.length_reverse.symm]
  exact eq_comm

/-! ### Reads that are too wide -/

theorem decode_lt (order : ByteOrder) (bytes : List UInt8) :
    order.decode bytes < 256 ^ bytes.length := by
  rw [decode, ← order.length_leastFirst bytes, ← List.length_map UInt8.toNat]
  apply Nat.ofDigits_lt_base_pow_length (by decide)
  intro digit member
  obtain ⟨byte, -, rfl⟩ := List.mem_map.mp member
  exact byte.toNat_lt

/-- With the least significant byte first, a truncated read is the read of the first
bytes. -/
theorem decode_little_append_mod (first next : List UInt8) :
    decode .little (first ++ next) % 256 ^ first.length = decode .little first := by
  have sum : decode .little (first ++ next) =
      decode .little first + 256 ^ first.length * decode .little next := by
    simp only [decode, leastFirst, List.map_append, Nat.ofDigits_append, List.length_map]
  rw [sum, Nat.add_mul_mod_self_left, Nat.mod_eq_of_lt (decode_lt .little first)]

/-- With the most significant byte first, it is the read of the last ones. -/
theorem decode_big_append_mod (first next : List UInt8) :
    decode .big (first ++ next) % 256 ^ next.length = decode .big next := by
  have swapped : decode .big (first ++ next) =
      decode .little (next.reverse ++ first.reverse) := by
    rw [← List.reverse_append]
    rfl
  rw [swapped, ← List.length_reverse, decode_little_append_mod]
  rfl

end ByteOrder
