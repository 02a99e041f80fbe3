import Mathlib.Tactic.NormNum
import Mathlib.Tactic.SplitIfs
import NetClass.Library.ByteOrder

/-!
Contract: IPv4 addresses and their dotted literals.

Owns: an address with its bytes in network order and its value, its literal, the scanner of
`inet_pton` for `AF_INET`, and the round trip.

Does **not** own: how an address is kept by a machine.
-/

set_option autoImplicit false

/-- The four bytes of an address in network order. -/
structure Ipv4 where
  a : UInt8
  b : UInt8
  c : UInt8
  d : UInt8
deriving DecidableEq, Repr

namespace Ipv4

def bytes (address : Ipv4) : List UInt8 := [address.a, address.b, address.c, address.d]

theorem length_bytes (address : Ipv4) : address.bytes.length = 4 := rfl

/-- Four bytes have this many values. -/
theorem span_bytes (address : Ipv4) : 256 ^ address.bytes.length = 2 ^ 32 := by
  rw [length_bytes]
  norm_num

/-- The number that the address stands for. -/
def value (address : Ipv4) : Nat :=
  ((address.a.toNat * 256 + address.b.toNat) * 256 + address.c.toNat) * 256 + address.d.toNat

theorem bytes_inj {left right : Ipv4} : left.bytes = right.bytes ↔ left = right := by
  constructor
  · intro same
    obtain ⟨a, b, c, d⟩ := left
    simp only [bytes, List.cons.injEq, and_true] at same
    obtain ⟨rfl, rfl, rfl, rfl⟩ := same
    rfl
  · intro same
    rw [same]

theorem decode_bytes (address : Ipv4) : ByteOrder.big.decode address.bytes = address.value := by
  simp only [ByteOrder.decode, ByteOrder.leastFirst, bytes, List.reverse_cons, List.reverse_nil,
    List.nil_append, List.cons_append, List.map_cons, List.map_nil, Nat.ofDigits_cons,
    Nat.ofDigits_nil, value]
  omega

end Ipv4

namespace DottedQuad

/-! ### The literal -/

/-- `'0' + number`. -/
def digit (number : Nat) : UInt8 := UInt8.ofNat (48 + number)

/-- `'.'`. -/
def dot : UInt8 := 46

/-- An octet in decimal, without leading zeros. -/
def decimal (octet : UInt8) : List UInt8 :=
  if octet.toNat < 10 then [digit octet.toNat]
  else if octet.toNat < 100 then [digit (octet.toNat / 10), digit (octet.toNat % 10)]
  else [digit (octet.toNat / 100), digit (octet.toNat / 10 % 10), digit (octet.toNat % 10)]

def dotted (address : Ipv4) : List UInt8 :=
  decimal address.a ++ dot :: decimal address.b ++ dot :: decimal address.c ++
    dot :: decimal address.d

/-! ### The scanner -/

/-- The octets that have been read and the value of the digits after the last dot. -/
structure Scan where
  octets : List UInt8
  current : Option Nat
deriving DecidableEq, Repr

/-- One character. An octet has no leading zero and is at most 255. -/
def scan (state : Scan) (char : UInt8) : Option Scan :=
  if 48 ≤ char.toNat ∧ char.toNat ≤ 57 then
    match state.current with
    | none => some { state with current := some (char.toNat - 48) }
    | some octet =>
        if octet = 0 ∨ 255 < octet * 10 + (char.toNat - 48) then none
        else some { state with current := some (octet * 10 + (char.toNat - 48)) }
  else if char = dot then
    match state.current with
    | none => none
    | some octet =>
        if state.octets.length = 3 then none
        else some { octets := state.octets ++ [UInt8.ofNat octet], current := none }
  else none

/-- `inet_pton(AF_INET,...)`: the bytes that it stores, or `none` if it answers 0. -/
def inetPton (text : List UInt8) : Option (List UInt8) :=
  match text.foldlM scan { octets := [], current := none } with
  | some { octets := octets, current := some octet } =>
      if octets.length = 3 then some (octets ++ [UInt8.ofNat octet]) else none
  | _ => none

/-! ### The round trip -/

theorem digit_toNat {number : Nat} (small : number < 10) :
    (digit number).toNat = 48 + number := by
  rw [digit, UInt8.toNat_ofNat']
  omega

theorem scan_first {number : Nat} (small : number < 10) (octets : List UInt8) :
    scan ⟨octets, none⟩ (digit number) = some ⟨octets, some number⟩ := by
  have inRange : 48 ≤ 48 + number ∧ 48 + number ≤ 57 := by omega
  simp only [scan, digit_toNat small, if_pos inRange, Nat.add_sub_cancel_left]

theorem scan_next {number octet : Nat} (small : number < 10) (octets : List UInt8)
    (leads : octet ≠ 0) (fits : octet * 10 + number ≤ 255) :
    scan ⟨octets, some octet⟩ (digit number) = some ⟨octets, some (octet * 10 + number)⟩ := by
  have inRange : 48 ≤ 48 + number ∧ 48 + number ≤ 57 := by omega
  have accepted : ¬ (octet = 0 ∨ 255 < octet * 10 + number) := by omega
  simp only [scan, digit_toNat small, if_pos inRange, Nat.add_sub_cancel_left, if_neg accepted]

theorem scan_dot {octet : Nat} {octets : List UInt8} (room : octets.length ≠ 3) :
    scan ⟨octets, some octet⟩ dot = some ⟨octets ++ [UInt8.ofNat octet], none⟩ := by
  have notDigit : ¬ (48 ≤ dot.toNat ∧ dot.toNat ≤ 57) := by decide
  simp only [scan, if_neg notDigit, if_neg room, ↓reduceIte]

/-- The digits of an octet are read as the octet. -/
theorem scan_decimal (octet : UInt8) (octets : List UInt8) :
    (decimal octet).foldlM scan ⟨octets, none⟩ = some ⟨octets, some octet.toNat⟩ := by
  have bound := octet.toNat_lt
  unfold decimal
  generalize octet.toNat = number at *
  split_ifs with one two
  · simp only [List.foldlM_cons, List.foldlM_nil, scan_first one, Option.bind_eq_bind,
      Option.bind_some]
    rfl
  · have joined : number / 10 * 10 + number % 10 = number := Nat.div_add_mod' number 10
    have first := scan_first (show number / 10 < 10 by omega) octets
    have second := scan_next (Nat.mod_lt number (by decide)) octets
      (show number / 10 ≠ 0 by omega) (show number / 10 * 10 + number % 10 ≤ 255 by omega)
    rw [joined] at second
    simp only [List.foldlM_cons, List.foldlM_nil, first, second, Option.bind_eq_bind,
      Option.bind_some]
    rfl
  · have joined : number / 100 * 10 + number / 10 % 10 = number / 10 := by omega
    have joined' : number / 10 * 10 + number % 10 = number := Nat.div_add_mod' number 10
    have first := scan_first (show number / 100 < 10 by omega) octets
    have second := scan_next (Nat.mod_lt (number / 10) (by decide)) octets
      (show number / 100 ≠ 0 by omega)
      (show number / 100 * 10 + number / 10 % 10 ≤ 255 by omega)
    have third := scan_next (Nat.mod_lt number (by decide)) octets
      (show number / 10 ≠ 0 by omega) (show number / 10 * 10 + number % 10 ≤ 255 by omega)
    rw [joined] at second
    rw [joined'] at third
    simp only [List.foldlM_cons, List.foldlM_nil, first, second, third, Option.bind_eq_bind,
      Option.bind_some]
    rfl

/-- An octet and the dot behind it. -/
theorem scan_octet {octets : List UInt8} (room : octets.length ≠ 3) (octet : UInt8)
    (rest : List UInt8) :
    (decimal octet ++ dot :: rest).foldlM scan ⟨octets, none⟩ =
      rest.foldlM scan ⟨octets ++ [octet], none⟩ := by
  rw [List.foldlM_append, scan_decimal, Option.bind_eq_bind, Option.bind_some, List.foldlM_cons,
    scan_dot room, Option.bind_eq_bind, Option.bind_some, UInt8.ofNat_toNat]

/-- The literal of an address is read as its bytes. -/
theorem inetPton_dotted (address : Ipv4) : inetPton (dotted address) = some address.bytes := by
  have scanned : (dotted address).foldlM scan ⟨[], none⟩ =
      some ⟨[address.a, address.b, address.c], some address.d.toNat⟩ := by
    have grouped : dotted address = decimal address.a ++ dot :: (decimal address.b ++
        dot :: (decimal address.c ++ dot :: decimal address.d)) := by
      simp only [dotted, List.append_assoc, List.cons_append]
    rw [grouped, scan_octet (by simp), scan_octet (by simp), scan_octet (by simp)]
    exact scan_decimal address.d _
  rw [inetPton, scanned]
  simp [Ipv4.bytes]

end DottedQuad
