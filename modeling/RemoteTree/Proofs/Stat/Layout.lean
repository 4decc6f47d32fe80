import RemoteTree.Proofs.Stat.Wire

/-!
# The grammar of stat records

A record is laid out as its size, 39 bytes of numbers, four texts behind their lengths, and
whatever else its size covers. A record is read at an offset exactly if one stands there, and what
is read are the numbers and the texts at their places.
-/

set_option autoImplicit false

namespace RemoteTree

/-! ## Readings of a cursor -/

namespace Cursor

private theorem take_ok {cursor next : Cursor} {count : Nat} {bytes : Bytes}
    (taken : cursor.take count = .ok (bytes, next)) :
    cursor.rest = bytes ++ next.rest ∧ bytes.length = count := by
  unfold take at taken
  split at taken
  · cases taken
  · next enough =>
    cases taken
    refine ⟨(List.take_append_drop ..).symm, ?_⟩
    rw [List.length_take]
    omega

private theorem number_ok {cursor next : Cursor} {width number : Nat}
    (isRead : cursor.number width = .ok (number, next)) :
    ∃ bytes : Bytes, cursor.rest = bytes ++ next.rest ∧ bytes.length = width ∧
      number = bytes.toNumber := by
  unfold Cursor.number at isRead
  split at isRead
  · next bytes after taken =>
    cases isRead
    obtain ⟨split, size⟩ := take_ok taken
    exact ⟨bytes, split, size, rfl⟩
  · cases isRead

private theorem number_append (offset : Nat) (bytes rest : Bytes) {width : Nat}
    (size : bytes.length = width) :
    (Cursor.mk offset (bytes ++ rest)).number width =
      .ok (bytes.toNumber, ⟨offset + width, rest⟩) := by
  rw [number, take_append offset bytes rest size]

private theorem number_within {bytes : Bytes} {start width : Nat}
    (within : start + width ≤ bytes.length) (rest : Bytes) :
    (Cursor.mk start (bytes.drop start ++ rest)).number width =
      .ok (Bytes.toNumber ((bytes.drop start).take width),
        ⟨start + width, bytes.drop (start + width) ++ rest⟩) := by
  have split : bytes.drop start ++ rest =
      (bytes.drop start).take width ++ (bytes.drop (start + width) ++ rest) := by
    rw [← List.append_assoc, ← List.drop_drop, List.take_append_drop]
  rw [split, number_append]
  rw [List.length_take, List.length_drop]
  omega

end Cursor

namespace Stat

/-- Bytes behind their number. -/
def counted (bytes : Bytes) : Bytes := Bytes.littleEndian 2 bytes.length ++ bytes

@[simp] theorem length_counted (bytes : Bytes) : (counted bytes).length = 2 + bytes.length := by
  simp [counted]

private theorem counted_of_toNumber {length bytes : Bytes} (two : length.length = 2)
    (count : bytes.length = length.toNumber) : counted bytes = length ++ bytes := by
  rw [counted, count, ← two, Bytes.littleEndian_toNumber]

end Stat

namespace Cursor

open Stat (counted)

private theorem text_append (offset : Nat) {bytes : Bytes} (short : bytes.length ≤ Stat.largestSize)
    (rest : Bytes) :
    (Cursor.mk offset (counted bytes ++ rest)).text =
      .ok (Utf8.decodeLossy bytes, ⟨offset + (counted bytes).length, rest⟩) := by
  have small : bytes.length < 256 ^ 2 := by
    unfold Stat.largestSize at short
    omega
  have whole := number_littleEndian offset small (bytes ++ rest)
  rw [text, counted, List.append_assoc, whole]
  simp only [take_append _ _ rest rfl, List.length_append, Bytes.length_littleEndian,
    Nat.add_assoc]

private theorem text_ok {cursor next : Cursor} {read : String}
    (isRead : cursor.text = .ok (read, next)) :
    ∃ bytes : Bytes, bytes.length ≤ Stat.largestSize ∧
      cursor.rest = counted bytes ++ next.rest ∧ read = Utf8.decodeLossy bytes := by
  unfold text at isRead
  split at isRead
  · cases isRead
  · next length middle counts =>
    split at isRead
    · cases isRead
    · next bytes last taken =>
      cases isRead
      obtain ⟨front, split, two, count⟩ := number_ok counts
      obtain ⟨rest, size⟩ := take_ok taken
      have bound := Bytes.toNumber_lt front
      rw [two] at bound
      refine ⟨bytes, ?_, ?_, rfl⟩
      · unfold Stat.largestSize
        omega
      · rw [Stat.counted_of_toNumber two (size.trans count), split, rest, List.append_assoc]

end Cursor

namespace Stat

/-! ## Layouts -/

/-- The parts of a record: its numbers, the bytes of its four texts, and what is left of it. -/
structure Layout where
  numbers : Bytes
  name : Bytes
  owner : Bytes
  group : Bytes
  changedBy : Bytes
  extension : Bytes

namespace Layout

def body (layout : Layout) : Bytes :=
  layout.numbers ++ (counted layout.name ++ (counted layout.owner ++ (counted layout.group ++
    (counted layout.changedBy ++ layout.extension))))

def bytes (layout : Layout) : Bytes := counted layout.body

/-- The numbers take 39 bytes, and the size can say how long the body is. -/
structure Valid (layout : Layout) : Prop where
  numbers : layout.numbers.length = 39
  size : layout.body.length ≤ largestSize

/-- The number that stands at a place among the numbers. -/
def field (layout : Layout) (start width : Nat) : Nat :=
  Bytes.toNumber ((layout.numbers.drop start).take width)

def stat (layout : Layout) : Stat :=
  { type := UInt16.ofNat (layout.field 0 2)
    device := UInt32.ofNat (layout.field 2 4)
    qid := ⟨UInt8.ofNat (layout.field 6 1), UInt32.ofNat (layout.field 7 4),
      UInt64.ofNat (layout.field 11 8)⟩
    mode := UInt32.ofNat (layout.field 19 4)
    accessTime := UInt32.ofNat (layout.field 23 4)
    changeTime := UInt32.ofNat (layout.field 27 4)
    length := UInt64.ofNat (layout.field 31 8)
    name := Utf8.decodeLossy layout.name
    owner := Utf8.decodeLossy layout.owner
    group := Utf8.decodeLossy layout.group
    changedBy := Utf8.decodeLossy layout.changedBy }

/-- Does a record stand at an offset of a message? -/
def StandsAt (layout : Layout) (message : Bytes) (offset : Nat) : Prop :=
  layout.bytes <+: message.drop offset

private theorem length_body (layout : Layout) :
    layout.body.length = layout.numbers.length + (2 + layout.name.length) +
      (2 + layout.owner.length) + (2 + layout.group.length) + (2 + layout.changedBy.length) +
      layout.extension.length := by
  simp only [body, List.length_append, length_counted]
  omega

theorem Valid.texts {layout : Layout} (valid : layout.Valid) :
    layout.name.length ≤ largestSize ∧ layout.owner.length ≤ largestSize ∧
      layout.group.length ≤ largestSize ∧ layout.changedBy.length ≤ largestSize := by
  have size := valid.size
  rw [length_body] at size
  omega

theorem Valid.decodeBody {layout : Layout} (valid : layout.Valid) :
    decodeBody layout.body = .ok layout.stat := by
  obtain ⟨name, owner, group, changedBy⟩ := valid.texts
  have within {start width : Nat} (fits : start + width ≤ 39) (rest : Bytes) :
      (Cursor.mk start (layout.numbers.drop start ++ rest)).number width =
        .ok (layout.field start width,
          ⟨start + width, layout.numbers.drop (start + width) ++ rest⟩) :=
    Cursor.number_within (valid.numbers ▸ fits) rest
  have start : layout.body = layout.numbers.drop 0 ++ (counted layout.name ++
    (counted layout.owner ++ (counted layout.group ++ (counted layout.changedBy ++
      layout.extension)))) := rfl
  have behind : layout.numbers.drop 39 = [] := List.drop_eq_nil_of_le (by rw [valid.numbers])
  rw [start]
  simp only [Stat.decodeBody, bind, Except.bind, pure, Except.pure,
    within (show 0 + 2 ≤ 39 by decide), within (show 2 + 4 ≤ 39 by decide),
    within (show 6 + 1 ≤ 39 by decide), within (show 7 + 4 ≤ 39 by decide),
    within (show 11 + 8 ≤ 39 by decide), within (show 19 + 4 ≤ 39 by decide),
    within (show 23 + 4 ≤ 39 by decide), within (show 27 + 4 ≤ 39 by decide),
    within (show 31 + 8 ≤ 39 by decide), Nat.reduceAdd, behind, List.nil_append,
    Cursor.text_append _ name, Cursor.text_append _ owner, Cursor.text_append _ group,
    Cursor.text_append _ changedBy, stat]

end Layout

private theorem number_bind_ok {Result : Type} {cursor : Cursor} {width : Nat}
    {next : Nat × Cursor → Except Shortfall Result} {result : Result}
    (success : (cursor.number width >>= next) = .ok result) :
    ∃ bytes value after, cursor.rest = bytes ++ after.rest ∧ bytes.length = width ∧
      next (value, after) = .ok result := by
  cases isRead : cursor.number width with
  | error shortfall =>
      rw [isRead] at success
      cases success
  | ok pair =>
      rw [isRead] at success
      obtain ⟨bytes, split, size, -⟩ := Cursor.number_ok isRead
      exact ⟨bytes, pair.1, pair.2, split, size, success⟩

private theorem text_bind_ok {Result : Type} {cursor : Cursor}
    {next : String × Cursor → Except Shortfall Result} {result : Result}
    (success : (cursor.text >>= next) = .ok result) :
    ∃ bytes value after, cursor.rest = counted bytes ++ after.rest ∧
      next (value, after) = .ok result := by
  cases isRead : cursor.text with
  | error shortfall =>
      rw [isRead] at success
      cases success
  | ok pair =>
      rw [isRead] at success
      obtain ⟨bytes, -, split, -⟩ := Cursor.text_ok isRead
      exact ⟨bytes, pair.1, pair.2, split, success⟩

private theorem exists_layout_of_decodeBody {body : Bytes} {stat : Stat}
    (decoded : decodeBody body = .ok stat) :
    ∃ layout : Layout, layout.body = body ∧ layout.numbers.length = 39 := by
  -- One step for each of the nine numbers and four texts, in their order.
  obtain ⟨type, _, c1, split1, size1, decoded⟩ := number_bind_ok decoded
  obtain ⟨device, _, c2, split2, size2, decoded⟩ := number_bind_ok decoded
  obtain ⟨kind, _, c3, split3, size3, decoded⟩ := number_bind_ok decoded
  obtain ⟨version, _, c4, split4, size4, decoded⟩ := number_bind_ok decoded
  obtain ⟨path, _, c5, split5, size5, decoded⟩ := number_bind_ok decoded
  obtain ⟨mode, _, c6, split6, size6, decoded⟩ := number_bind_ok decoded
  obtain ⟨accessTime, _, c7, split7, size7, decoded⟩ := number_bind_ok decoded
  obtain ⟨changeTime, _, c8, split8, size8, decoded⟩ := number_bind_ok decoded
  obtain ⟨length, _, c9, split9, size9, decoded⟩ := number_bind_ok decoded
  obtain ⟨name, _, c10, split10, decoded⟩ := text_bind_ok decoded
  obtain ⟨owner, _, c11, split11, decoded⟩ := text_bind_ok decoded
  obtain ⟨group, _, c12, split12, decoded⟩ := text_bind_ok decoded
  obtain ⟨changedBy, _, c13, split13, -⟩ := text_bind_ok decoded
  refine ⟨⟨type ++ device ++ kind ++ version ++ path ++ mode ++ accessTime ++ changeTime ++ length,
    name, owner, group, changedBy, c13.rest⟩, ?_, ?_⟩
  · change body = _ at split1
    simp only [Layout.body, split1, split2, split3, split4, split5, split6, split7, split8, split9,
      split10, split11, split12, split13, List.append_assoc]
  · simp only [List.length_append, size1, size2, size3, size4, size5, size6, size7, size8, size9]

/-- A body is read exactly if it has a layout, and then it is read as what the layout says. -/
theorem decodeBody_eq_ok_iff {body : Bytes} (short : body.length ≤ largestSize) {stat : Stat} :
    decodeBody body = .ok stat ↔
      ∃ layout : Layout, layout.Valid ∧ layout.body = body ∧ layout.stat = stat := by
  constructor
  · intro decoded
    obtain ⟨layout, rfl, numbers⟩ := exists_layout_of_decodeBody decoded
    have valid : layout.Valid := ⟨numbers, short⟩
    refine ⟨layout, valid, rfl, ?_⟩
    rw [valid.decodeBody] at decoded
    exact Except.ok.inj decoded
  · rintro ⟨layout, valid, rfl, rfl⟩
    exact valid.decodeBody

/-! ## Records in messages -/

/-- A record in front of anything else is read by its body alone. -/
theorem decodeNext_counted {body : Bytes} (short : body.length ≤ largestSize) (offset : Nat)
    (rest : Bytes) :
    decodeNext ⟨offset, counted body ++ rest⟩ =
      (decodeBody body).map fun stat => (stat, ⟨offset + 2 + body.length, rest⟩) := by
  have small : body.length < 256 ^ 2 := by
    unfold largestSize at short
    omega
  rw [counted, List.append_assoc]
  simp only [decodeNext, Cursor.number_littleEndian offset small, Cursor.take_append _ _ rest rfl,
    bind, Except.bind, pure, Except.pure]
  cases decodeBody body <;> rfl

theorem decodeAt_eq_ok_iff_next {message : Bytes} {offset next : Nat} {stat : Stat} :
    decodeAt message offset = .ok (stat, next) ↔
      ∃ rest, decodeNext ⟨offset, message.drop offset⟩ = .ok (stat, ⟨next, rest⟩) := by
  rw [decodeAt, Cursor.at?]
  cases decodeNext ⟨offset, message.drop offset⟩ with
  | error shortfall => simp [bind, Except.bind]
  | ok pair =>
      obtain ⟨read, place, rest⟩ := pair
      simp [bind, Except.bind, pure, Except.pure]

theorem decodeNext_ok {cursor next : Cursor} {stat : Stat}
    (decoded : decodeNext cursor = .ok (stat, next)) :
    ∃ body : Bytes, body.length ≤ largestSize ∧ cursor.rest = counted body ++ next.rest ∧
      decodeBody body = .ok stat := by
  unfold decodeNext at decoded
  cases counts : cursor.number 2 with
  | error shortfall =>
      rw [counts] at decoded
      cases decoded
  | ok pair =>
      obtain ⟨size, inner⟩ := pair
      rw [counts] at decoded
      cases taken : inner.take size with
      | error shortfall =>
          simp only [bind, Except.bind, taken] at decoded
          cases decoded
      | ok pair =>
          obtain ⟨body, after⟩ := pair
          cases isRead : decodeBody body with
          | error shortfall =>
              simp only [bind, Except.bind, taken, isRead] at decoded
              cases decoded
          | ok found =>
              simp only [bind, Except.bind, taken, isRead, pure, Except.pure, Except.ok.injEq,
                Prod.mk.injEq] at decoded
              obtain ⟨rfl, rfl⟩ := decoded
              obtain ⟨front, split, two, count⟩ := Cursor.number_ok counts
              obtain ⟨rest, length⟩ := Cursor.take_ok taken
              have bound := Bytes.toNumber_lt front
              rw [two] at bound
              refine ⟨body, ?_, ?_, isRead⟩
              · unfold largestSize
                omega
              · rw [counted_of_toNumber two (length.trans count), split, rest, List.append_assoc]

/-- A record is read at an offset exactly if one stands there. It is read as what it says, and the
cursor comes to lie right behind it. -/
theorem decodeAt_eq_ok_iff {message : Bytes} {offset next : Nat} {stat : Stat} :
    decodeAt message offset = .ok (stat, next) ↔
      ∃ layout : Layout, layout.Valid ∧ layout.StandsAt message offset ∧ stat = layout.stat ∧
        next = offset + 2 + layout.body.length := by
  rw [decodeAt_eq_ok_iff_next]
  constructor
  · rintro ⟨rest, decoded⟩
    obtain ⟨body, short, split, isRead⟩ := decodeNext_ok decoded
    obtain ⟨layout, valid, rfl, rfl⟩ := (decodeBody_eq_ok_iff short).mp isRead
    simp only at split
    rw [split, decodeNext_counted short, isRead] at decoded
    cases decoded
    exact ⟨layout, valid, ⟨rest, split.symm⟩, rfl, rfl⟩
  · rintro ⟨layout, valid, ⟨rest, split⟩, rfl, rfl⟩
    refine ⟨rest, ?_⟩
    rw [← split, Layout.bytes, decodeNext_counted valid.size, valid.decodeBody]
    rfl

theorem decodeAt_advance {message : Bytes} {offset next : Nat} {stat : Stat}
    (decoded : decodeAt message offset = .ok (stat, next)) :
    offset + 49 ≤ next ∧ next ≤ message.length := by
  obtain ⟨layout, valid, stands, -, rfl⟩ := decodeAt_eq_ok_iff.mp decoded
  have size := layout.length_body
  rw [valid.numbers] at size
  have room := stands.length_le
  rw [Layout.bytes, length_counted, List.length_drop] at room
  omega

theorem decodeAt_counted {message body rest : Bytes} {offset : Nat}
    (short : body.length ≤ largestSize) (stands : message.drop offset = counted body ++ rest) :
    decodeAt message offset =
      (decodeBody body).map fun stat => (stat, offset + 2 + body.length) := by
  rw [decodeAt, Cursor.at?, stands, decodeNext_counted short]
  cases decodeBody body <;> rfl

/-- Two messages that agree on the bytes that a size claims, and on the size, are read alike. -/
theorem decodeAt_congr {message other : Bytes} {offset size : Nat}
    (claimed : size = Bytes.toNumber ((message.drop offset).take 2))
    (present : offset + 2 + size ≤ message.length)
    (agree : (other.drop offset).take (2 + size) = (message.drop offset).take (2 + size)) :
    decodeAt other offset = decodeAt message offset := by
  have two : ((message.drop offset).take 2).length = 2 := by
    rw [List.length_take, List.length_drop]
    omega
  obtain ⟨body, isBody⟩ : ∃ body, body = ((message.drop offset).drop 2).take size := ⟨_, rfl⟩
  have count : body.length = size := by
    rw [isBody, List.length_take, List.length_drop, List.length_drop]
    omega
  have short : body.length ≤ largestSize := by
    have bound := Bytes.toNumber_lt ((message.drop offset).take 2)
    rw [two, ← claimed] at bound
    unfold largestSize
    omega
  have record : (message.drop offset).take (2 + size) = counted body := by
    rw [counted_of_toNumber two (count.trans claimed), isBody, List.take_add]
  have here : message.drop offset = counted body ++ (message.drop offset).drop (2 + size) := by
    rw [← record, List.take_append_drop]
  have there : other.drop offset = counted body ++ (other.drop offset).drop (2 + size) := by
    rw [← record, ← agree, List.take_append_drop]
  rw [decodeAt_counted short here, decodeAt_counted short there]

end Stat

end RemoteTree
