/-!
# Byte strings

Byte strings as lists, numbers of a fixed width in little-endian form, and the effect of
received bytes on a buffer that is reused between reads.
-/

set_option autoImplicit false

namespace RemoteTree

/-- A byte string. -/
abbrev Bytes := List UInt8

namespace Bytes

/-- The `width` bytes of a number, least significant first. Higher bits are dropped. -/
def littleEndian : Nat → Nat → Bytes
  | 0, _ => []
  | width + 1, number => UInt8.ofNat number :: littleEndian width (number / 256)

/-- The number whose bytes are given, least significant first. -/
def toNumber : Bytes → Nat
  | [] => 0
  | byte :: rest => byte.toNat + 256 * toNumber rest

def zeros (size : Nat) : Bytes := List.replicate size 0

/-- Received bytes cover the front of a buffer. What does not fit is dropped, and what they do
not cover stays as it was, so the size of the buffer never changes. -/
def overlay (received buffer : Bytes) : Bytes :=
  received.take buffer.length ++ buffer.drop received.length

/-- So many bytes at the front, if there are so many. -/
def front? (bytes : Bytes) (count : Nat) : Option Bytes :=
  if count ≤ bytes.length then some (bytes.take count) else none

/-- The bytes behind so many, if there are so many. -/
def behind? (bytes : Bytes) (count : Nat) : Option Bytes :=
  if count ≤ bytes.length then some (bytes.drop count) else none

@[simp] theorem length_littleEndian (width number : Nat) :
    (littleEndian width number).length = width := by
  induction width generalizing number with
  | zero => rfl
  | succ width ih => simp [littleEndian, ih]

theorem littleEndian_toNumber (bytes : Bytes) :
    littleEndian bytes.length (toNumber bytes) = bytes := by
  induction bytes with
  | nil => rfl
  | cons byte rest ih =>
      have bound : byte.toNat < 256 := byte.toNat_lt
      have quotient : (byte.toNat + 256 * toNumber rest) / 256 = toNumber rest := by omega
      have first : UInt8.ofNat (byte.toNat + 256 * toNumber rest) = byte := by
        apply UInt8.toNat_inj.1
        rw [UInt8.toNat_ofNat']
        omega
      simp only [List.length_cons, littleEndian, toNumber, quotient, first, ih]

@[simp] theorem length_overlay (received buffer : Bytes) :
    (overlay received buffer).length = buffer.length := by
  simp only [overlay, List.length_append, List.length_take, List.length_drop]
  omega

@[simp] theorem front?_append (front rest : Bytes) :
    front? (front ++ rest) front.length = some front := by
  simp [front?]

theorem front?_eq_some_iff {bytes front : Bytes} {count : Nat} :
    front? bytes count = some front ↔ front <+: bytes ∧ front.length = count := by
  unfold front?
  constructor
  · intro found
    split at found
    · next fits =>
      cases found
      exact ⟨List.take_prefix count bytes, List.length_take_of_le fits⟩
    · cases found
  · rintro ⟨⟨rest, rfl⟩, rfl⟩
    simp

theorem behind?_eq_some_iff {bytes rest : Bytes} {count : Nat} :
    behind? bytes count = some rest ↔ ∃ front, bytes = front ++ rest ∧ front.length = count := by
  unfold behind?
  constructor
  · intro found
    split at found
    · next fits =>
      cases found
      exact ⟨bytes.take count, (List.take_append_drop count bytes).symm, List.length_take_of_le fits⟩
    · cases found
  · rintro ⟨front, rfl, rfl⟩
    simp

@[simp] theorem behind?_zero (bytes : Bytes) : behind? bytes 0 = some bytes := rfl

/-- What lies behind some more bytes. -/
theorem behind?_add {bytes now later : Bytes} {count : Nat}
    (found : behind? bytes count = some (now ++ later)) :
    behind? bytes (count + now.length) = some later := by
  obtain ⟨front, rfl, rfl⟩ := behind?_eq_some_iff.mp found
  exact behind?_eq_some_iff.mpr
    ⟨front ++ now, (List.append_assoc ..).symm, List.length_append⟩

end Bytes

end RemoteTree
