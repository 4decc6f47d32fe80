import RemoteTree.Proofs.Stat.Layout

/-!
# Stat records read by index

Reading with an index into the bytes, where every access checks its bounds and the index that a
caller keeps is moved last. It finds what reading with cursors finds, never looks outside of the
bytes, and moves the caller's index only past a record that was read.
-/

set_option autoImplicit false

namespace RemoteTree

namespace Stat

/-- What stops a reading: bytes that lack, or an access outside of the bytes. -/
inductive Fault where
  | shortfall (shortfall : Shortfall)
  | outOfRange (start stop size : Nat)
  deriving DecidableEq

/-- The bytes between two indices, both of which have to lie within them. -/
def slice (bytes : Bytes) (start stop : Nat) : Except Fault Bytes :=
  if start ≤ stop ∧ stop ≤ bytes.length then .ok ((bytes.drop start).take (stop - start))
  else .error (.outOfRange start stop bytes.length)

structure Indexed where
  bytes : Bytes
  index : Nat

namespace Indexed

def take (indexed : Indexed) (count : Nat) : Except Fault (Bytes × Indexed) :=
  let available := indexed.bytes.length - indexed.index
  if available < count then
    .error (.shortfall { offset := indexed.index, needed := count, available := available })
  else do
    let taken ← slice indexed.bytes indexed.index (indexed.index + count)
    return (taken, { indexed with index := indexed.index + count })

def number (indexed : Indexed) (width : Nat) : Except Fault (Nat × Indexed) := do
  let (bytes, indexed) ← indexed.take width
  return (bytes.toNumber, indexed)

def text (indexed : Indexed) : Except Fault (String × Indexed) := do
  let (length, indexed) ← indexed.number 2
  let (bytes, indexed) ← indexed.take length
  return (Utf8.decodeLossy bytes, indexed)

def stat (indexed : Indexed) : Except Fault Stat := do
  let (type, indexed) ← indexed.number 2
  let (device, indexed) ← indexed.number 4
  let (kind, indexed) ← indexed.number 1
  let (version, indexed) ← indexed.number 4
  let (path, indexed) ← indexed.number 8
  let (mode, indexed) ← indexed.number 4
  let (accessTime, indexed) ← indexed.number 4
  let (changeTime, indexed) ← indexed.number 4
  let (length, indexed) ← indexed.number 8
  let (name, indexed) ← indexed.text
  let (owner, indexed) ← indexed.text
  let (group, indexed) ← indexed.text
  let (changedBy, _) ← indexed.text
  return {
    type := UInt16.ofNat type
    device := UInt32.ofNat device
    qid := ⟨UInt8.ofNat kind, UInt32.ofNat version, UInt64.ofNat path⟩
    mode := UInt32.ofNat mode
    accessTime := UInt32.ofNat accessTime
    changeTime := UInt32.ofNat changeTime
    length := UInt64.ofNat length
    name := name
    owner := owner
    group := group
    changedBy := changedBy }

end Indexed

/-- The record at the index that a caller keeps. What has been moved stays moved when the reading
fails. -/
def decodeInPlace (message : Bytes) : ExceptT Fault (StateM Nat) Stat := do
  let index ← get
  let (size, outer) ← Indexed.number ⟨message, index⟩ 2
  let (body, outer) ← outer.take size
  let stat ← Indexed.stat ⟨body, 0⟩
  set outer.index
  return stat

namespace Indexed

/-- Does a cursor lie where an index points? -/
def Marks (indexed : Indexed) (cursor : Cursor) : Prop :=
  cursor = ⟨indexed.index, indexed.bytes.drop indexed.index⟩

/-- One reading by index and one by cursor that find the same, and go on from the same place
within the bytes. -/
inductive Follows {Value : Type} :
    Except Fault (Value × Indexed) → Except Shortfall (Value × Cursor) → Prop where
  | error (shortfall : Shortfall) : Follows (.error (.shortfall shortfall)) (.error shortfall)
  | ok (value : Value) {indexed : Indexed} {cursor : Cursor} (marks : indexed.Marks cursor)
      (within : indexed.index ≤ indexed.bytes.length) :
      Follows (.ok (value, indexed)) (.ok (value, cursor))

private theorem Follows.bind {Value Result : Type} {byIndex : Except Fault (Value × Indexed)}
    {byCursor : Except Shortfall (Value × Cursor)} (follows : Follows byIndex byCursor)
    {restByIndex : Value × Indexed → Except Fault Result}
    {restByCursor : Value × Cursor → Except Shortfall Result}
    (rest : ∀ value indexed cursor, indexed.Marks cursor → indexed.index ≤ indexed.bytes.length →
      restByIndex (value, indexed) = (restByCursor (value, cursor)).mapError .shortfall) :
    (byIndex >>= restByIndex) = (byCursor >>= restByCursor).mapError .shortfall := by
  cases follows with
  | error shortfall => rfl
  | ok value marks within => exact rest value _ _ marks within

variable {indexed : Indexed} {cursor : Cursor}

private theorem take_follows (marks : indexed.Marks cursor) {count : Nat}
    (safe : 0 < count ∨ indexed.index ≤ indexed.bytes.length) :
    Follows (indexed.take count) (cursor.take count) := by
  unfold Marks at marks
  subst marks
  unfold take Cursor.take
  simp only [List.length_drop]
  by_cases few : indexed.bytes.length - indexed.index < count
  · rw [if_pos few, if_pos few]
    exact .error _
  · -- Taking nothing past the end would leave the bytes, which is what `safe` rules out.
    have inside : indexed.index ≤ indexed.index + count ∧
        indexed.index + count ≤ indexed.bytes.length := by omega
    rw [if_neg few, if_neg few, slice, if_pos inside, Nat.add_sub_cancel_left]
    refine .ok _ ?_ inside.2
    rw [Marks, List.drop_drop]

private theorem number_follows (marks : indexed.Marks cursor) {width : Nat} (some : 0 < width) :
    Follows (indexed.number width) (cursor.number width) := by
  have follows := take_follows marks (.inl some)
  unfold number Cursor.number
  generalize indexed.take width = byIndex, cursor.take width = byCursor at follows ⊢
  cases follows with
  | error shortfall => exact .error shortfall
  | ok bytes marks within => exact .ok bytes.toNumber marks within

private theorem text_follows (marks : indexed.Marks cursor) : Follows indexed.text cursor.text := by
  have counts := number_follows marks (show 0 < 2 by decide)
  unfold text Cursor.text
  generalize indexed.number 2 = byIndex, cursor.number 2 = byCursor at counts ⊢
  cases counts with
  | error shortfall => exact .error shortfall
  | @ok length indexed cursor marks within =>
      have follows : Follows (indexed.take length) (cursor.take length) :=
        take_follows marks (.inr within)
      simp only [bind, Except.bind]
      generalize indexed.take length = byIndex, cursor.take length = byCursor at follows ⊢
      cases follows with
      | error shortfall => exact .error shortfall
      | ok bytes marks within => exact .ok _ marks within

private theorem stat_eq (body : Bytes) :
    (Indexed.mk body 0).stat = (decodeBody body).mapError .shortfall := by
  have marks : (Indexed.mk body 0).Marks ⟨0, body⟩ := rfl
  refine (number_follows marks (by decide)).bind fun type _ _ marks _ => ?_
  refine (number_follows marks (by decide)).bind fun device _ _ marks _ => ?_
  refine (number_follows marks (by decide)).bind fun kind _ _ marks _ => ?_
  refine (number_follows marks (by decide)).bind fun version _ _ marks _ => ?_
  refine (number_follows marks (by decide)).bind fun path _ _ marks _ => ?_
  refine (number_follows marks (by decide)).bind fun mode _ _ marks _ => ?_
  refine (number_follows marks (by decide)).bind fun accessTime _ _ marks _ => ?_
  refine (number_follows marks (by decide)).bind fun changeTime _ _ marks _ => ?_
  refine (number_follows marks (by decide)).bind fun length _ _ marks _ => ?_
  refine (text_follows marks).bind fun name _ _ marks _ => ?_
  refine (text_follows marks).bind fun owner _ _ marks _ => ?_
  refine (text_follows marks).bind fun group _ _ marks _ => ?_
  exact (text_follows marks).bind fun changedBy _ _ _ _ => rfl

end Indexed

private theorem run_lift_bind {Value Result : Type} (part : Except Fault Value)
    (rest : Value → ExceptT Fault (StateM Nat) Result) (index : Nat) :
    (liftM part >>= rest : ExceptT Fault (StateM Nat) Result).run.run index =
      match part with
      | .ok value => (rest value).run.run index
      | .error fault => (.error fault, index) := by
  cases part <;> rfl

private theorem run_decodeInPlace (message : Bytes) (offset : Nat) :
    (decodeInPlace message).run.run offset =
      match decodeAt message offset with
      | .ok (stat, next) => (.ok stat, next)
      | .error shortfall => (.error (.shortfall shortfall), offset) := by
  have marks : (Indexed.mk message offset).Marks (Cursor.at? message offset) := rfl
  have counts := Indexed.number_follows marks (show 0 < 2 by decide)
  -- The caller's index is read first and moved last; in between only parts that leave it alone.
  have opened : (decodeInPlace message).run.run offset =
      (liftM (Indexed.number ⟨message, offset⟩ 2) >>= fun (size, outer) => do
        let (body, outer) ← outer.take size
        let stat ← Indexed.stat ⟨body, 0⟩
        set outer.index
        return stat : ExceptT Fault (StateM Nat) Stat).run.run offset := rfl
  rw [opened, run_lift_bind, decodeAt, decodeNext]
  generalize (Indexed.mk message offset).number 2 = byIndex,
    (Cursor.at? message offset).number 2 = byCursor at counts ⊢
  cases counts with
  | error shortfall => rfl
  | @ok size outer cursor marks within =>
      have follows : Indexed.Follows (outer.take size) (cursor.take size) :=
        Indexed.take_follows marks (.inr within)
      simp only [run_lift_bind, Indexed.stat_eq]
      simp only [bind, Except.bind]
      generalize outer.take size = byIndex, cursor.take size = byCursor at follows ⊢
      cases follows with
      | error shortfall => rfl
      | @ok body outer cursor marks within =>
          unfold Indexed.Marks at marks
          subst marks
          dsimp only
          cases decodeBody body with
          | error shortfall => rfl
          | ok stat => rfl

/-- A record is read exactly if one stands at the offset: then as what it says, and the cursor
comes to lie behind it, at least 49 bytes on and still in the message. Other bytes make no
difference. Reading in place never looks outside of the message, and leaves the index of its caller
alone if it fails. -/
theorem decodeAt_grammar (message : Bytes) (offset : Nat) :
    (∀ (stat : Stat) (next : Nat), decodeAt message offset = .ok (stat, next) ↔
      ∃ layout : Layout, layout.Valid ∧ layout.StandsAt message offset ∧ stat = layout.stat ∧
        next = offset + 2 + layout.body.length) ∧
    (∀ (stat : Stat) (next : Nat), decodeAt message offset = .ok (stat, next) →
      offset + 49 ≤ next ∧ next ≤ message.length) ∧
    (∀ (other : Bytes) (size : Nat), size = Bytes.toNumber ((message.drop offset).take 2) →
      offset + 2 + size ≤ message.length →
      (other.drop offset).take (2 + size) = (message.drop offset).take (2 + size) →
      decodeAt other offset = decodeAt message offset) ∧
    (decodeInPlace message).run.run offset =
      match decodeAt message offset with
      | .ok (stat, next) => (.ok stat, next)
      | .error shortfall => (.error (.shortfall shortfall), offset) := by
  refine ⟨?_, ?_, ?_, ?_⟩
  · intro stat next
    exact decodeAt_eq_ok_iff
  · intro stat next decoded
    exact decodeAt_advance decoded
  · intro other size claimed present agree
    exact decodeAt_congr claimed present agree
  · exact run_decodeInPlace message offset

/-- A record with broken text and an extension between other bytes, and the same bytes with a name
that is said to go on past the end of the record. -/
theorem decodeAt_grammar_of_extension :
    let layout : Layout :=
      ⟨(List.range 39).map fun place => UInt8.ofNat (200 + place), [0x61, 0xFF], [], [0xC3, 0xA9],
        [], [5, 6, 7]⟩
    let message := 9 :: layout.bytes ++ [1, 2, 3]
    let cut := 9 :: counted (layout.numbers ++ [15, 0] ++ layout.body.drop 41) ++ [1, 2, 3]
    layout.Valid ∧ layout.StandsAt message 1 ∧
      decodeAt message 1 = .ok (layout.stat, 57) ∧ 57 ≤ message.length ∧
      decodeAt (4 :: layout.bytes) 1 = decodeAt message 1 ∧
      (decodeInPlace message).run.run 1 = (.ok layout.stat, 57) ∧
      (decodeInPlace cut).run.run 1 = (.error (.shortfall ⟨41, 15, 13⟩), 1) := by
  intro layout message cut
  have valid : layout.Valid := ⟨by decide, by decide⟩
  have stands : layout.StandsAt message 1 := ⟨[1, 2, 3], rfl⟩
  obtain ⟨accepted, bounded, same, inPlace⟩ := decodeAt_grammar message 1
  have decoded : decodeAt message 1 = .ok (layout.stat, 57) :=
    (accepted layout.stat 57).mpr ⟨layout, valid, stands, rfl, rfl⟩
  rw [decoded] at inPlace
  have refused : decodeAt cut 1 = .error ⟨41, 15, 13⟩ := by decide +kernel
  have unmoved := (decodeAt_grammar cut 1).2.2.2
  rw [refused] at unmoved
  exact ⟨valid, stands, decoded, (bounded layout.stat 57 decoded).2,
    same (4 :: layout.bytes) 54 (by decide +kernel) (by decide) rfl, inPlace, unmoved⟩

end Stat

end RemoteTree
