import RemoteTree.Proofs.Stat.Message

/-!
# The framing of records

A message is walked by the sizes that stand in it. The size of a record counts the bytes behind it
as long as it can say their number; a body that is longer gets the largest size and is not cut, so
a walk steps into it. Texts are cut and always stand behind their true length.
-/

set_option autoImplicit false

namespace RemoteTree

namespace Bytes

/-- Walks a message by the sizes that stand in it. A frame is a size in two bytes and as many
bytes as it says; nothing may be left over. -/
def frames? (message : Bytes) : Option (List Bytes) :=
  match message with
  | [] => some []
  | [_] => none
  | low :: high :: rest =>
      let size := toNumber [low, high]
      if size ≤ rest.length then
        (frames? (rest.drop size)).map fun others => (low :: high :: rest.take size) :: others
      else none
  termination_by message.length
  decreasing_by simp only [List.length_drop, List.length_cons]; omega

@[simp] theorem frames?_nil : frames? [] = some [] := by
  rw [frames?]

/-- A walk that says how many bytes follow finds a frame and goes on behind it. -/
theorem frames?_littleEndian {size : Nat} (small : size < 256 ^ 2) (rest : Bytes) :
    frames? (littleEndian 2 size ++ rest) =
      if size ≤ rest.length then
        (frames? (rest.drop size)).map fun others =>
          (littleEndian 2 size ++ rest.take size) :: others
      else none := by
  have said := toNumber_littleEndian 2 size
  rw [Nat.mod_eq_of_lt small] at said
  simp only [littleEndian] at said
  simp only [littleEndian, List.cons_append, List.nil_append]
  rw [frames?, said]

end Bytes

namespace Stat

/-- The body of a record is as long as its size can say if its texts would be, uncut. -/
theorem length_encodeBody_le_iff (stat : Stat) :
    stat.encodeBody.length ≤ largestSize ↔ stat.bodySize ≤ largestSize := by
  simp only [length_encodeBody, length_encodeText, bodySize, largestSize]
  omega

/-- The size of a record is that of its body, or the largest one. -/
theorem size_encode (stat : Stat) :
    Bytes.toNumber (stat.encode.take 2) = min (stat.encode.drop 2).length largestSize := by
  rw [encode, List.take_left' (Bytes.length_littleEndian ..),
    List.drop_left' (Bytes.length_littleEndian ..), Bytes.toNumber_littleEndian, Nat.mod_eq_of_lt]
  unfold largestSize
  omega

private theorem size_encode_eq_iff (stat : Stat) :
    Bytes.toNumber (stat.encode.take 2) = (stat.encode.drop 2).length ↔
      stat.bodySize ≤ largestSize := by
  rw [size_encode, ← length_encodeBody_le_iff, List.length_drop, length_encode]
  omega

/-- A text is written behind the number of its bytes that are written: all of them, or the most
that a length can say. -/
theorem counted_encodeText (text : String) :
    Bytes.toNumber ((encodeText text).take 2) = ((encodeText text).drop 2).length ∧
      (encodeText text).drop 2 = (Utf8.encode text).take largestSize := by
  have written : (encodeText text).drop 2 = (Utf8.encode text).take largestSize := by
    rw [encodeText, List.drop_left' (Bytes.length_littleEndian ..), Nat.min_comm,
      List.take_eq_take_min (i := largestSize)]
  refine ⟨?_, written⟩
  rw [written, encodeText, List.take_left' (Bytes.length_littleEndian ..),
    Bytes.toNumber_littleEndian, List.length_take, Nat.min_comm, Nat.mod_eq_of_lt]
  unfold largestSize
  omega

/-- Behind the size and the numbers of a record stand its four texts, and nothing else. -/
theorem drop_encode (stat : Stat) :
    stat.encode.drop 41 =
      encodeText stat.name ++ encodeText stat.owner ++ encodeText stat.group ++
        encodeText stat.changedBy := by
  have whole : stat.encode =
      (Bytes.littleEndian 2 (min stat.encodeBody.length largestSize) ++
        (Bytes.littleEndian 2 stat.type.toNat ++ Bytes.littleEndian 4 stat.device.toNat ++
          stat.qid.encode ++ Bytes.littleEndian 4 stat.mode.toNat ++
          Bytes.littleEndian 4 stat.accessTime.toNat ++
          Bytes.littleEndian 4 stat.changeTime.toNat ++ Bytes.littleEndian 8 stat.length.toNat)) ++
        (encodeText stat.name ++ encodeText stat.owner ++ encodeText stat.group ++
          encodeText stat.changedBy) := by
    simp only [encode, encodeBody, List.append_assoc]
  rw [whole, List.drop_left']
  simp only [List.length_append, Bytes.length_littleEndian, Qid.encode]

/-- A walk finds a record at the front exactly if its size can say how long it is. -/
theorem frames?_encode_append (stat : Stat) (rest : Bytes) (others : List Bytes) :
    Bytes.frames? (stat.encode ++ rest) = some (stat.encode :: others) ↔
      stat.bodySize ≤ largestSize ∧ Bytes.frames? rest = some others := by
  rw [← length_encodeBody_le_iff]
  have small : min stat.encodeBody.length largestSize < 256 ^ 2 := by
    unfold largestSize
    omega
  rw [encode, List.append_assoc, Bytes.frames?_littleEndian small, if_pos (by simp)]
  constructor
  · intro walked
    obtain ⟨behind, walk, same⟩ := Option.map_eq_some_iff.mp walked
    rw [List.cons.injEq, List.append_cancel_left_eq] at same
    obtain ⟨frame, rfl⟩ := same
    have whole := congrArg List.length frame
    have fits : stat.encodeBody.length ≤ largestSize := by
      rw [List.length_take, List.length_append] at whole
      omega
    rw [Nat.min_eq_left fits, List.drop_left] at walk
    exact ⟨fits, walk⟩
  · rintro ⟨fits, walk⟩
    rw [Nat.min_eq_left fits, List.drop_left, List.take_left, walk]
    rfl

private theorem frames?_encodeAll_iff (stats : List Stat) :
    Bytes.frames? (encodeAll stats) = some (stats.map encode) ↔
      ∀ stat ∈ stats, stat.bodySize ≤ largestSize := by
  induction stats with
  | nil => simp
  | cons stat rest ih =>
      rw [encodeAll_cons, List.map_cons, frames?_encode_append, ih, List.forall_mem_cons]

/-- What a message of records says about their sizes. Every text stands behind the number of its
bytes that are written. The size of a record counts what follows exactly if the uncut record is not
longer than a size can say, and a walk finds all records of a message, and nothing else, exactly
if this is so for each of them. -/
theorem framing (stat : Stat) (text : String) (stats : List Stat) :
    ((Bytes.toNumber (stat.encode.take 2) = (stat.encode.drop 2).length ↔
          stat.bodySize ≤ largestSize) ∧
        stat.encode.drop 41 =
          encodeText stat.name ++ encodeText stat.owner ++ encodeText stat.group ++
            encodeText stat.changedBy) ∧
      (Bytes.toNumber ((encodeText text).take 2) = ((encodeText text).drop 2).length ∧
        (encodeText text).drop 2 = (Utf8.encode text).take largestSize) ∧
      (Bytes.frames? (encodeAll stats) = some (stats.map encode) ↔
        ∀ stat ∈ stats, stat.bodySize ≤ largestSize) :=
  ⟨⟨stat.size_encode_eq_iff, stat.drop_encode⟩, counted_encodeText text,
    frames?_encodeAll_iff stats⟩

/-- With a name of 65489 bytes a body is one byte longer than its size can say. -/
theorem size_encode_of_long_name :
    let stat : Stat := { (default : Stat) with name := String.ofList (List.replicate 65489 'a') }
    Bytes.toNumber (stat.encode.take 2) = 65535 ∧ (stat.encode.drop 2).length = 65536 ∧
      Bytes.frames? (encodeAll [stat]) ≠ some [stat.encode] := by
  intro stat
  have name : (Utf8.encode stat.name).length = 65489 := by
    simp only [stat, Utf8.encode, Utf8.encodeChars, String.toList_ofList, List.length_flatMap,
      List.map_replicate, List.sum_replicate]
    rfl
  have body : stat.encodeBody.length = 65536 := by
    rw [length_encodeBody, length_encodeText, name]
    rfl
  have long : ¬ stat.bodySize ≤ largestSize := by
    rw [← length_encodeBody_le_iff, body]
    decide
  have behind : (stat.encode.drop 2).length = 65536 := by
    rw [List.length_drop, length_encode, body]
  refine ⟨?_, behind, ?_⟩
  · rw [size_encode, behind]
    rfl
  · intro walked
    exact long ((frames?_encodeAll_iff [stat]).mp walked stat List.mem_cons_self)

end Stat

end RemoteTree
