import Mathlib
import RemoteTree.Bytes

/-!
# Numbers as bytes, and bytes received

A number and its bytes: a width of bytes holds exactly the numbers below the power of 256, and
higher bits are lost. Bytes that fit into a buffer stand at its front when they are received.
-/

set_option autoImplicit false

namespace RemoteTree.Bytes

theorem toNumber_littleEndian (width number : Nat) :
    toNumber (littleEndian width number) = number % 256 ^ width := by
  induction width generalizing number with
  | zero => simp [littleEndian, toNumber, Nat.mod_one]
  | succ width ih =>
      simp only [littleEndian, toNumber, ih]
      rw [Nat.pow_succ', Nat.mod_mul, UInt8.toNat_ofNat']

theorem toNumber_lt (bytes : Bytes) : toNumber bytes < 256 ^ bytes.length := by
  induction bytes with
  | nil => simp [toNumber]
  | cons byte rest ih =>
      have bound : byte.toNat < 256 := byte.toNat_lt
      rw [toNumber, List.length_cons, Nat.pow_succ]
      omega

private theorem overlay_eq {received buffer : Bytes} (fits : received.length ≤ buffer.length) :
    overlay received buffer = received ++ buffer.drop received.length := by
  rw [overlay, List.take_of_length_le fits]

theorem take_overlay {received buffer : Bytes} (fits : received.length ≤ buffer.length) :
    (overlay received buffer).take received.length = received := by
  rw [overlay_eq fits, List.take_left]

/-- What lies behind the front of some bytes. -/
theorem drop_length_take (bytes : Bytes) (count : Nat) :
    bytes.drop (bytes.take count).length = bytes.drop count := by
  rw [List.length_take]
  rcases Nat.le_total count bytes.length with short | long
  · rw [Nat.min_eq_left short]
  · rw [Nat.min_eq_right long, List.drop_length, List.drop_of_length_le long]

end RemoteTree.Bytes
