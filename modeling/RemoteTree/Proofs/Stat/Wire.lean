import RemoteTree.Bytes.Lemmas
import RemoteTree.Proofs.Text.Utf8
import RemoteTree.Stat.Wire

/-!
# Stat records on the wire

A record whose body is not longer than its size can say is read back as it was, from any offset
and with anything behind it.
-/

set_option autoImplicit false

namespace RemoteTree

namespace Cursor

theorem take_append (offset : Nat) (bytes rest : Bytes) {count : Nat}
    (size : bytes.length = count) :
    (Cursor.mk offset (bytes ++ rest)).take count = .ok (bytes, ⟨offset + count, rest⟩) := by
  subst size
  simp [take]

/-- A number that its width can hold is read back. -/
theorem number_littleEndian (offset : Nat) {width number : Nat} (small : number < 256 ^ width)
    (rest : Bytes) :
    (Cursor.mk offset (Bytes.littleEndian width number ++ rest)).number width =
      .ok (number, ⟨offset + width, rest⟩) := by
  rw [Cursor.number, take_append offset _ rest (Bytes.length_littleEndian width number)]
  simp only [Bytes.toNumber_littleEndian, Nat.mod_eq_of_lt small]

private theorem number_uint8 (offset : Nat) (value : UInt8) (rest : Bytes) :
    (Cursor.mk offset (Bytes.littleEndian 1 value.toNat ++ rest)).number 1 =
      .ok (value.toNat, ⟨offset + 1, rest⟩) :=
  number_littleEndian offset value.toNat_lt rest

private theorem number_uint16 (offset : Nat) (value : UInt16) (rest : Bytes) :
    (Cursor.mk offset (Bytes.littleEndian 2 value.toNat ++ rest)).number 2 =
      .ok (value.toNat, ⟨offset + 2, rest⟩) :=
  number_littleEndian offset value.toNat_lt rest

private theorem number_uint32 (offset : Nat) (value : UInt32) (rest : Bytes) :
    (Cursor.mk offset (Bytes.littleEndian 4 value.toNat ++ rest)).number 4 =
      .ok (value.toNat, ⟨offset + 4, rest⟩) :=
  number_littleEndian offset value.toNat_lt rest

private theorem number_uint64 (offset : Nat) (value : UInt64) (rest : Bytes) :
    (Cursor.mk offset (Bytes.littleEndian 8 value.toNat ++ rest)).number 8 =
      .ok (value.toNat, ⟨offset + 8, rest⟩) :=
  number_littleEndian offset value.toNat_lt rest

private theorem text_encodeText (offset : Nat) {text : String}
    (fits : (Utf8.encode text).length ≤ Stat.largestSize) (rest : Bytes) :
    (Cursor.mk offset (Stat.encodeText text ++ rest)).text =
      .ok (text, ⟨offset + (Stat.encodeText text).length, rest⟩) := by
  have whole : Stat.encodeText text =
      Bytes.littleEndian 2 (Utf8.encode text).length ++ Utf8.encode text := by
    rw [Stat.encodeText, Nat.min_eq_left fits, List.take_length]
  have small : (Utf8.encode text).length < 256 ^ 2 := by
    unfold Stat.largestSize at fits
    omega
  rw [whole, List.append_assoc, Cursor.text, number_littleEndian offset small]
  simp only [take_append _ _ rest rfl, Utf8.decodeLossy_encode, List.length_append,
    Bytes.length_littleEndian, Nat.add_assoc]

end Cursor

namespace Stat

/-- The text is not cut when it is written behind its length. -/
def Says (text : String) : Prop := (Utf8.encode text).length ≤ largestSize

theorem length_encodeText (text : String) :
    (encodeText text).length = 2 + min (Utf8.encode text).length largestSize := by
  simp [encodeText]

theorem length_encodeBody (stat : Stat) :
    stat.encodeBody.length = 39 + (encodeText stat.name).length + (encodeText stat.owner).length +
      (encodeText stat.group).length + (encodeText stat.changedBy).length := by
  simp only [encodeBody, Qid.encode, List.length_append, Bytes.length_littleEndian]

theorem length_encode (stat : Stat) : stat.encode.length = 2 + stat.encodeBody.length := by
  simp [encode]

/-- A body that its size can say holds no text that is cut. -/
theorem says_of_fits {stat : Stat} (fits : stat.encodeBody.length ≤ largestSize) :
    Says stat.name ∧ Says stat.owner ∧ Says stat.group ∧ Says stat.changedBy := by
  simp only [length_encodeBody, length_encodeText] at fits
  unfold Says
  unfold largestSize at fits ⊢
  omega

private theorem decodeBody_encodeBody {stat : Stat} (fits : stat.encodeBody.length ≤ largestSize)
    (extension : Bytes) : decodeBody (stat.encodeBody ++ extension) = .ok stat := by
  obtain ⟨name, owner, group, changedBy⟩ := says_of_fits fits
  simp only [decodeBody, encodeBody, Qid.encode, List.append_assoc, bind, Except.bind, pure,
    Except.pure, Cursor.number_uint8, Cursor.number_uint16, Cursor.number_uint32,
    Cursor.number_uint64, Cursor.text_encodeText _ name, Cursor.text_encodeText _ owner,
    Cursor.text_encodeText _ group, Cursor.text_encodeText _ changedBy, UInt8.ofNat_toNat,
    UInt16.ofNat_toNat, UInt32.ofNat_toNat, UInt64.ofNat_toNat]

/-- A record is read back, and the cursor is behind it. -/
theorem decodeNext_encode {stat : Stat} (fits : stat.encodeBody.length ≤ largestSize)
    (offset : Nat) (rest : Bytes) :
    decodeNext ⟨offset, stat.encode ++ rest⟩ = .ok (stat, ⟨offset + stat.encode.length, rest⟩) := by
  have small : stat.encodeBody.length < 256 ^ 2 := by
    unfold largestSize at fits
    omega
  have body := decodeBody_encodeBody fits []
  rw [List.append_nil] at body
  have whole : stat.encode ++ rest =
      Bytes.littleEndian 2 stat.encodeBody.length ++ (stat.encodeBody ++ rest) := by
    simp only [encode, Nat.min_eq_left fits, List.append_assoc]
  rw [whole]
  simp only [decodeNext, Cursor.number_littleEndian offset small, Cursor.take_append _ _ rest rfl,
    bind, Except.bind, body, pure, Except.pure, length_encode, Nat.add_assoc]

theorem decode_encode {stat : Stat} (fits : stat.encodeBody.length ≤ largestSize) :
    decode stat.encode = .ok stat := by
  have next := decodeNext_encode fits 0 []
  rw [List.append_nil] at next
  simp only [decode, decodeAt, Cursor.at?, List.drop_zero, next, bind, Except.bind, pure,
    Except.pure]

end Stat

end RemoteTree
