import RemoteTree.Proofs.Stat.Layout
import RemoteTree.Proofs.Tree.Records

/-!
# Messages of stat records

Records that were written one behind the other are read back one behind the other, wherever they
stand in a message. A record that is read and holds nothing that is not written is written as the
bytes it was read from.
-/

set_option autoImplicit false

namespace RemoteTree

namespace Stat

/-- The size of a body whose texts are not cut. -/
def bodySize (stat : Stat) : Nat :=
  47 + (Utf8.encode stat.name).length + (Utf8.encode stat.owner).length +
    (Utf8.encode stat.group).length + (Utf8.encode stat.changedBy).length

/-- Reads a number of records, each from where the one before it ended. The answer holds the
records and the offset behind the last. -/
def decodeMany (message : Bytes) : Nat → Nat → Except Shortfall (List Stat × Nat)
  | 0, offset => .ok ([], offset)
  | count + 1, offset => do
      let (stat, next) ← decodeAt message offset
      let (others, last) ← decodeMany message count next
      return (stat :: others, last)

private theorem length_encodeBody_le (stat : Stat) : stat.encodeBody.length ≤ stat.bodySize := by
  simp only [length_encodeBody, length_encodeText, bodySize]
  omega

/-! ## What is written is read -/

private theorem decodeAt_encode {stat : Stat} (fits : stat.bodySize ≤ largestSize)
    (before after : Bytes) :
    decodeAt (before ++ stat.encode ++ after) before.length =
      .ok (stat, before.length + stat.encode.length) := by
  have short := Nat.le_trans stat.length_encodeBody_le fits
  rw [decodeAt_eq_ok_iff_next]
  refine ⟨after, ?_⟩
  rw [List.append_assoc, List.drop_left]
  exact decodeNext_encode short before.length after

private theorem decodeMany_encodeAll {stats : List Stat}
    (fits : ∀ stat ∈ stats, stat.bodySize ≤ largestSize) (before after : Bytes) :
    decodeMany (before ++ encodeAll stats ++ after) stats.length before.length =
      .ok (stats, before.length + (encodeAll stats).length) := by
  induction stats generalizing before with
  | nil => rfl
  | cons stat rest ih =>
      obtain ⟨first, others⟩ := List.forall_mem_cons.mp fits
      have front := decodeAt_encode first before (encodeAll rest ++ after)
      have behind := ih others (before ++ stat.encode)
      have same : before ++ stat.encode ++ (encodeAll rest ++ after) =
          before ++ encodeAll (stat :: rest) ++ after := by
        simp only [encodeAll_cons, List.append_assoc]
      rw [List.append_assoc (before ++ stat.encode), same, List.length_append] at behind
      rw [same] at front
      rw [List.length_cons, decodeMany]
      simp only [front, bind, Except.bind, behind, pure, Except.pure]
      rw [encodeAll_cons, List.length_append, Nat.add_assoc]

private theorem decodeAt_encodeAll {stats : List Stat}
    (fits : ∀ stat ∈ stats, stat.bodySize ≤ largestSize) (before after : Bytes) {index : Nat}
    (within : index < stats.length) :
    decodeAt (before ++ encodeAll stats ++ after)
        (before.length + (encodeAll (stats.take index)).length) =
      .ok (stats[index], before.length + (encodeAll (stats.take (index + 1))).length) := by
  have split : stats = stats.take index ++ stats[index] :: stats.drop (index + 1) := by
    rw [← List.drop_eq_getElem_cons within, List.take_append_drop]
  have front := decodeAt_encode (fits _ (List.getElem_mem within))
    (before ++ encodeAll (stats.take index)) (encodeAll (stats.drop (index + 1)) ++ after)
  have same : before ++ encodeAll (stats.take index) ++ stats[index].encode ++
      (encodeAll (stats.drop (index + 1)) ++ after) = before ++ encodeAll stats ++ after := by
    conv_rhs => rw [split]
    simp only [encodeAll_append, encodeAll_cons, List.append_assoc]
  have size : (encodeAll (stats.take (index + 1))).length =
      (encodeAll (stats.take index)).length + stats[index].encode.length := by
    rw [List.take_succ_eq_append_getElem within, encodeAll_append, encodeAll_cons, encodeAll_nil,
      List.append_nil, List.length_append]
  rw [same, List.length_append] at front
  rw [front, size, Nat.add_assoc]

/-! ## What is read is written -/

namespace Layout

/-- Does a record hold only what is written again: texts in proper form, and nothing else? -/
structure Plain (layout : Layout) : Prop where
  name : ∃ text, Utf8.encode text = layout.name
  owner : ∃ text, Utf8.encode text = layout.owner
  group : ∃ text, Utf8.encode text = layout.group
  changedBy : ∃ text, Utf8.encode text = layout.changedBy
  extension : layout.extension = []

private theorem field_lt (layout : Layout) (start width : Nat) :
    layout.field start width < 256 ^ width := by
  have bound := Bytes.toNumber_lt ((layout.numbers.drop start).take width)
  have length : ((layout.numbers.drop start).take width).length ≤ width := List.length_take_le ..
  exact Nat.lt_of_lt_of_le bound (Nat.pow_le_pow_right (by decide) length)

private theorem littleEndian_field {layout : Layout} {start width : Nat}
    (within : start + width ≤ layout.numbers.length) :
    Bytes.littleEndian width (layout.field start width) =
      (layout.numbers.drop start).take width := by
  have size : ((layout.numbers.drop start).take width).length = width := by
    rw [List.length_take, List.length_drop]
    omega
  have same := Bytes.littleEndian_toNumber ((layout.numbers.drop start).take width)
  rwa [size] at same

private theorem encodeText_decodeLossy {bytes : Bytes} (short : bytes.length ≤ largestSize)
    (proper : ∃ text, Utf8.encode text = bytes) :
    encodeText (Utf8.decodeLossy bytes) = counted bytes := by
  obtain ⟨text, rfl⟩ := proper
  rw [Utf8.decodeLossy_encode, encodeText, Nat.min_eq_left short, List.take_length, counted]

private theorem field_mod (layout : Layout) (start : Nat) {width bits : Nat}
    (wide : 256 ^ width ≤ 2 ^ bits) :
    layout.field start width % 2 ^ bits = layout.field start width :=
  Nat.mod_eq_of_lt (Nat.lt_of_lt_of_le (layout.field_lt start width) wide)

private theorem Valid.encodeBody_stat {layout : Layout} (valid : layout.Valid)
    (plain : layout.Plain) : layout.stat.encodeBody = layout.body := by
  obtain ⟨name, owner, group, changedBy⟩ := valid.texts
  have slice {start width : Nat} (fits : start + width ≤ 39) :
      Bytes.littleEndian width (layout.field start width) =
        (layout.numbers.drop start).take width :=
    littleEndian_field (valid.numbers ▸ fits)
  -- The fields stand one behind the other and leave no gap.
  have whole : layout.numbers =
      (layout.numbers.drop 0).take 2 ++ (layout.numbers.drop 2).take 4 ++
        (layout.numbers.drop 6).take 1 ++ (layout.numbers.drop 7).take 4 ++
        (layout.numbers.drop 11).take 8 ++ (layout.numbers.drop 19).take 4 ++
        (layout.numbers.drop 23).take 4 ++ (layout.numbers.drop 27).take 4 ++
        (layout.numbers.drop 31).take 8 := by
    simp only [List.drop_zero, ← List.take_add, Nat.reduceAdd]
    exact (List.take_of_length_le (by rw [valid.numbers])).symm
  simp only [encodeBody, stat, Qid.encode, UInt8.toNat_ofNat', UInt16.toNat_ofNat',
    UInt32.toNat_ofNat', UInt64.toNat_ofNat', encodeText_decodeLossy name plain.name,
    encodeText_decodeLossy owner plain.owner, encodeText_decodeLossy group plain.group,
    encodeText_decodeLossy changedBy plain.changedBy]
  simp (disch := decide) only [field_mod]
  rw [slice (show 0 + 2 ≤ 39 by decide), slice (show 2 + 4 ≤ 39 by decide),
    slice (show 6 + 1 ≤ 39 by decide), slice (show 7 + 4 ≤ 39 by decide),
    slice (show 11 + 8 ≤ 39 by decide), slice (show 19 + 4 ≤ 39 by decide),
    slice (show 23 + 4 ≤ 39 by decide), slice (show 27 + 4 ≤ 39 by decide),
    slice (show 31 + 8 ≤ 39 by decide), body, plain.extension, List.append_nil]
  conv_rhs => rw [whole]
  simp only [List.append_assoc]

private theorem Valid.encode_stat {layout : Layout} (valid : layout.Valid) (plain : layout.Plain) :
    layout.stat.encode = layout.bytes := by
  rw [encode, valid.encodeBody_stat plain, Nat.min_eq_left valid.size, bytes, counted]

end Layout

/-- Records written back to back are read back, all of them and each behind the ones before it,
whatever stands around them. A message that is read to its end, without broken texts and without
an extension, is written as it was. -/
theorem message_roundTrip :
    (∀ (stats : List Stat) (before after : Bytes),
      (∀ stat ∈ stats, stat.bodySize ≤ largestSize) →
        decodeMany (before ++ encodeAll stats ++ after) stats.length before.length =
            .ok (stats, before.length + (encodeAll stats).length) ∧
          ∀ (index : Nat) (within : index < stats.length),
            decodeAt (before ++ encodeAll stats ++ after)
                (before.length + (encodeAll (stats.take index)).length) =
              .ok (stats[index],
                before.length + (encodeAll (stats.take (index + 1))).length)) ∧
      ∀ (bytes : Bytes) (stat : Stat), decodeAt bytes 0 = .ok (stat, bytes.length) →
        ∀ layout : Layout, layout.Valid → layout.bytes = bytes → layout.Plain →
          stat.encode = bytes := by
  constructor
  · intro stats before after fits
    constructor
    · exact decodeMany_encodeAll fits before after
    · intro index within
      exact decodeAt_encodeAll fits before after within
  · rintro _ stat decoded layout valid rfl plain
    have stands : layout.StandsAt layout.bytes 0 := List.prefix_refl _
    have isRead : decodeAt layout.bytes 0 = .ok (layout.stat, _) :=
      decodeAt_eq_ok_iff.mpr ⟨layout, valid, stands, rfl, rfl⟩
    rw [isRead, Except.ok.injEq, Prod.mk.injEq] at decoded
    obtain ⟨rfl, -⟩ := decoded
    exact valid.encode_stat plain

/-- Two records between other bytes, and a record of 39 different bytes and texts of one, two,
three and no bytes. -/
theorem message_roundTrip_of_records :
    let first : Stat :=
      { (default : Stat) with
        qid := ⟨0x80, 0x01020304, 0x1122334455667788⟩, length := 0x0102030405060708, name := "é" }
    let second : Stat := { (default : Stat) with type := 0x0102, owner := "ab", changedBy := "€" }
    let layout : Layout :=
      ⟨(List.range 39).map fun place => UInt8.ofNat (200 + place), [0x61], [0xC3, 0xA9],
        [0xE2, 0x82, 0xAC], [], []⟩
    (∀ stat ∈ [first, second], stat.bodySize ≤ largestSize) ∧
      decodeMany ([7, 0, 255] ++ encodeAll [first, second] ++ [1]) 2 3 =
        .ok ([first, second], 3 + (51 + 54)) ∧
      decodeAt layout.bytes 0 = .ok (layout.stat, layout.bytes.length) ∧
      layout.Valid ∧ layout.Plain ∧ layout.stat.encode = layout.bytes := by
  intro first second layout
  have fits : ∀ stat ∈ [first, second], stat.bodySize ≤ largestSize := by decide +kernel
  have decoded : decodeAt layout.bytes 0 = .ok (layout.stat, layout.bytes.length) := by
    decide +kernel
  have valid : layout.Valid := ⟨by decide, by decide⟩
  have plain : layout.Plain :=
    ⟨⟨"a", by decide +kernel⟩, ⟨"é", by decide +kernel⟩, ⟨"€", by decide +kernel⟩,
      ⟨"", by decide +kernel⟩, rfl⟩
  have size : (encodeAll [first, second]).length = 51 + 54 := by decide +kernel
  obtain ⟨both, -⟩ := message_roundTrip.1 [first, second] [7, 0, 255] [1] fits
  rw [size] at both
  exact ⟨fits, both, decoded, valid, plain,
    message_roundTrip.2 layout.bytes layout.stat decoded layout valid rfl plain⟩

end Stat

end RemoteTree
