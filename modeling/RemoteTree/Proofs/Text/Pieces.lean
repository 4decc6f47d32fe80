import RemoteTree.Proofs.Text.Utf8
import RemoteTree.Proofs.Tree.Queue

/-!
# Text that is read in pieces

The bytes of a text, cut at every multiple of some number and read piece by piece. A character that
is cut is read as replacement characters, one for its bytes in front of the first cut and one for
every byte behind it, and nothing else of the text changes.
-/

set_option autoImplicit false

namespace RemoteTree.Utf8

/-! ## Lossy reading, one character at a time -/

def lossy (bytes : Bytes) : List Char := readLossy 0 bytes []

@[simp] theorem toList_decodeLossy (bytes : Bytes) : (decodeLossy bytes).toList = lossy bytes :=
  String.toList_ofList

private theorem readLossy_eq (skip : Nat) (bytes : Bytes) (read : List Char) :
    readLossy skip bytes read = read.reverse ++ lossy (bytes.drop skip) := by
  induction bytes generalizing skip read with
  | nil => simp [lossy, readLossy]
  | cons byte rest ih =>
      cases skip with
      | succ skip => exact ih skip read
      | zero =>
          simp only [readLossy, ih, List.drop_zero, lossy, List.reverse_cons, List.reverse_nil,
            List.nil_append, List.append_assoc, List.singleton_append]

@[simp] theorem lossy_nil : lossy [] = [] := rfl

private theorem lossy_cons (byte : UInt8) (rest : Bytes) :
    lossy (byte :: rest) =
      (readFirst byte rest).1.getD replacement :: lossy (rest.drop (readFirst byte rest).2) := by
  conv_lhs => rw [lossy]
  simp only [readLossy, readLossy_eq, List.reverse_singleton, List.singleton_append]

/-- A whole character is read as itself. -/
theorem lossy_encodeChar_append (character : Char) (rest : Bytes) :
    lossy (String.utf8EncodeChar character ++ rest) = [character] ++ lossy rest := by
  obtain ⟨first, others, bytes, isRead⟩ := readFirst_encodeChar character rest
  rw [bytes, List.cons_append, lossy_cons, isRead, List.drop_left]
  rfl

/-! ## Broken characters -/

/-- A byte that no character starts with. -/
def Continues (byte : UInt8) : Prop := 0x80 ≤ byte ∧ byte ≤ 0xBF

private theorem lead?_of_continues {byte : UInt8} (continues : Continues byte) :
    lead? byte = none := by
  have low : byte < 0xC2 := by
    have high := continues.2
    rw [UInt8.le_iff_toNat_le] at high
    rw [UInt8.lt_iff_toNat_lt]
    exact Nat.lt_of_le_of_lt high (by decide)
  rw [lead?, if_pos low]

private theorem lossy_continues {byte : UInt8} (continues : Continues byte) (rest : Bytes) :
    lossy (byte :: rest) = replacement :: lossy rest := by
  have several : ¬ byte < 0x80 := by
    rw [UInt8.not_lt]
    exact continues.1
  have isRead : readFirst byte rest = (none, 0) := by
    unfold readFirst
    simp only [if_neg several, lead?_of_continues continues]
  rw [lossy_cons, isRead]
  rfl

/-- The bytes that a character owes, as long as they are there. -/
theorem readOwed_take {owed value used : Nat} {bytes : Bytes} {character : Char}
    (isRead : readOwed owed value used bytes = (some character, used + bytes.length)) :
    (∀ byte ∈ bytes, Continues byte) ∧
      ∀ count < bytes.length, readOwed owed value used (bytes.take count) = (none, used + count) := by
  induction owed generalizing value used bytes with
  | zero =>
      have empty : bytes.length = 0 := by
        have same := congrArg Prod.snd isRead
        simp only [readOwed] at same
        omega
      rw [List.length_eq_zero_iff.mp empty]
      exact ⟨List.forall_mem_nil _, fun count short => absurd short (Nat.not_lt_zero count)⟩
  | succ owed ih =>
      cases bytes with
      | nil => cases isRead
      | cons byte rest =>
          rw [readOwed] at isRead
          split at isRead
          · next continues =>
            rw [List.length_cons, Nat.add_comm rest.length, ← Nat.add_assoc] at isRead
            obtain ⟨others, cut⟩ := ih isRead
            refine ⟨List.forall_mem_cons.mpr ⟨continues, others⟩, fun count short => ?_⟩
            cases count with
            | zero => rfl
            | succ count =>
                rw [List.take_succ_cons, readOwed, if_pos continues,
                  cut count (Nat.lt_of_succ_lt_succ short), Nat.add_assoc, Nat.add_comm 1]
          · cases isRead

private theorem lead?_bounds {byte : UInt8} {lead : Lead} (promised : lead? byte = some lead) :
    0x80 ≤ lead.low ∧ lead.high ≤ 0xBF := by
  unfold lead? at promised
  split_ifs at promised <;> (injection promised with same; subst same; simp)

/-- A character that is cut is read as one replacement character as far as it goes, and what is
left of it holds no byte that a character starts with. -/
theorem encodeChar_take (character : Char) :
    (∀ byte ∈ (String.utf8EncodeChar character).drop 1, Continues byte) ∧
      ∀ count, 0 < count → count < (String.utf8EncodeChar character).length →
        lossy ((String.utf8EncodeChar character).take count) = [replacement] := by
  obtain ⟨first, others, bytes, isRead⟩ := readFirst_encodeChar character []
  rw [List.append_nil] at isRead
  rw [bytes]
  rcases readFirst_eq_some isRead with
    ⟨-, -, none⟩ | ⟨second, owed, bits, more, rfl, opens, isRead⟩
  · rw [List.length_eq_zero_iff.mp none]
    refine ⟨List.forall_mem_nil _, fun count some short => ?_⟩
    simp only [List.length_singleton] at short
    omega
  · rw [List.length_cons, Nat.add_comm owed.length] at isRead
    obtain ⟨others, cut⟩ := readOwed_take isRead
    have behind : Continues second := by
      obtain ⟨lead, promised, low, high, -⟩ := opens
      obtain ⟨least, most⟩ := lead?_bounds promised
      exact ⟨UInt8.le_trans least low, UInt8.le_trans high most⟩
    refine ⟨List.forall_mem_cons.mpr ⟨behind, others⟩, fun count some short => ?_⟩
    obtain ⟨count, rfl⟩ := Nat.exists_eq_add_of_le' some
    have broken : readFirst first ((second :: owed).take count) = (none, count) := by
      cases count with
      | zero =>
          unfold readFirst
          rw [if_neg opens.not_ascii]
          cases lead? first <;> rfl
      | succ count =>
          simp only [List.length_cons] at short
          rw [List.take_succ_cons, opens.readFirst, cut count (by omega), Nat.add_comm]
    rw [List.take_succ_cons, lossy_cons, broken, List.drop_of_length_le (List.length_take_le ..)]
    rfl

/-! ## Newlines -/

private theorem readOwed_used_le (owed value used : Nat) (bytes : Bytes) :
    (readOwed owed value used bytes).2 ≤ used + bytes.length := by
  induction owed generalizing value used bytes with
  | zero => exact Nat.le_add_right _ _
  | succ owed ih =>
      cases bytes with
      | nil => exact Nat.le_refl _
      | cons byte rest =>
          rw [readOwed]
          split
          · have bound := ih (64 * value + byte.toNat % 64) (used + 1) rest
            simp only [List.length_cons]
            omega
          · exact Nat.le_add_right _ _

private theorem readOwed_append_ascii (owed value used : Nat) (bytes : Bytes) {stop : UInt8}
    (ascii : ¬ 0x80 ≤ stop) (rest : Bytes) :
    readOwed owed value used (bytes ++ stop :: rest) = readOwed owed value used bytes := by
  induction owed generalizing value used bytes with
  | zero => rfl
  | succ owed ih =>
      cases bytes with
      | nil =>
          have ended : ¬ (0x80 ≤ stop ∧ stop ≤ 0xBF) := fun range => ascii range.1
          simp only [List.nil_append, readOwed, if_neg ended]
      | cons byte bytes =>
          rw [List.cons_append, readOwed, readOwed, ih]

private theorem readFirst_used_le (byte : UInt8) (bytes : Bytes) :
    (readFirst byte bytes).2 ≤ bytes.length := by
  unfold readFirst
  split
  · exact Nat.zero_le _
  · cases lead? byte with
    | none => exact Nat.zero_le _
    | some lead =>
        cases bytes with
        | nil => exact Nat.zero_le _
        | cons second rest =>
            dsimp only
            split
            · rw [List.length_cons, Nat.add_comm rest.length]
              exact readOwed_used_le ..
            · exact Nat.zero_le _

private theorem readFirst_append_ascii (byte : UInt8) (bytes : Bytes) {stop : UInt8}
    (ascii : ¬ 0x80 ≤ stop) (rest : Bytes) :
    readFirst byte (bytes ++ stop :: rest) = readFirst byte bytes := by
  simp only [readFirst]
  split
  · rfl
  · cases promised : lead? byte with
    | none => rfl
    | some lead =>
        cases bytes with
        | nil =>
            have ended : ¬ (lead.low ≤ stop ∧ stop ≤ lead.high) := fun range =>
              ascii (UInt8.le_trans (lead?_bounds promised).1 range.1)
            simp only [List.nil_append, if_neg ended]
        | cons second bytes =>
            simp only [List.cons_append, readOwed_append_ascii _ _ _ _ ascii]

/-- A byte that is a character by itself ends whatever is in front of it. -/
theorem lossy_append_ascii (bytes : Bytes) {stop : UInt8} (ascii : stop < 0x80) (rest : Bytes) :
    lossy (bytes ++ stop :: rest) = lossy bytes ++ Char.ofNat stop.toNat :: lossy rest := by
  induction size : bytes.length using Nat.strong_induction_on generalizing bytes with
  | _ size ih =>
    subst size
    cases bytes with
    | nil =>
        have isRead : readFirst stop rest = (some (Char.ofNat stop.toNat), 0) := by
          unfold readFirst
          rw [if_pos ascii]
        rw [List.nil_append, lossy_cons, isRead]
        rfl
    | cons byte bytes =>
        have within := readFirst_used_le byte bytes
        rw [List.cons_append, lossy_cons, lossy_cons byte bytes,
          readFirst_append_ascii byte bytes (UInt8.not_le.mpr ascii), List.drop_append_of_le_length within,
          ih _ _ _ rfl, List.cons_append]
        rw [List.length_drop, List.length_cons]
        omega

/-- A newline is read only where there is one. -/
theorem newline_not_mem_lossy {bytes : Bytes} (none : 10 ∉ bytes) : '\n' ∉ lossy bytes := by
  induction size : bytes.length using Nat.strong_induction_on generalizing bytes with
  | _ size ih =>
    subst size
    cases bytes with
    | nil => exact List.not_mem_nil
    | cons byte bytes =>
        obtain ⟨other, others⟩ := not_or.mp (mt List.mem_cons.mpr none)
        rw [lossy_cons, List.mem_cons, not_or]
        constructor
        · intro same
          cases isRead : readFirst byte bytes with
          | mk character used =>
            rw [isRead] at same
            cases character with
            | none => exact absurd same (show '\n' ≠ replacement by decide)
            | some character =>
                obtain rfl : '\n' = character := same
                obtain ⟨newline, -⟩ := encodeChar_of_readFirst isRead
                exact other (List.cons.inj newline).1
        · refine ih _ ?_ (fun member => others (List.mem_of_mem_drop member)) rfl
          rw [List.length_drop, List.length_cons]
          omega

/-! ## Pieces -/

variable {room : Nat}

/-- What is read when the bytes that begin at some offset are cut at every multiple of `room`. -/
def readCut (room offset : Nat) (bytes : Bytes) : List Char :=
  lossy (bytes.take (room - offset % room)) ++
    (Chunk.cut room (bytes.drop (room - offset % room))).flatMap lossy

theorem flatMap_cut (some : 0 < room) (bytes : Bytes) :
    (Chunk.cut room bytes).flatMap lossy = readCut room 0 bytes := by
  rw [readCut, Nat.zero_mod, Nat.sub_zero]
  by_cases empty : bytes = []
  · subst empty
    simp
  · rw [Chunk.cut_of_ne_nil some empty, List.flatMap_cons]

private theorem ahead_add {offset count : Nat} (some : 0 < room)
    (short : count ≤ room - offset % room) :
    room - (offset + count) % room =
      if count = room - offset % room then room else room - offset % room - count := by
  have within := Nat.mod_lt offset some
  have whole := Nat.div_add_mod offset room
  split
  · next full =>
    have multiple : offset + count = room * (offset / room + 1) := by
      rw [Nat.mul_succ]
      omega
    rw [multiple, Nat.mul_mod_right, Nat.sub_zero]
  · have rest : offset + count = room * (offset / room) + (offset % room + count) := by omega
    rw [rest, Nat.mul_add_mod, Nat.mod_eq_of_lt (by omega)]
    omega

/-- What is read of bytes in front of the next cut, and what is read behind them. -/
theorem readCut_append {offset : Nat} (some : 0 < room) {front rest : Bytes} {read : List Char}
    (short : front.length ≤ room - offset % room)
    (isRead : lossy (front ++ rest.take (room - offset % room - front.length)) =
      read ++ lossy (rest.take (room - offset % room - front.length))) :
    readCut room offset (front ++ rest) = read ++ readCut room (offset + front.length) rest := by
  have ahead := ahead_add some short
  rw [readCut, List.take_append, List.take_of_length_le short, List.drop_append,
    List.drop_of_length_le short, isRead, List.nil_append, List.append_assoc]
  congr 1
  split at ahead
  · next full =>
    rw [full, Nat.sub_self, List.take_zero, List.drop_zero, lossy_nil, List.nil_append,
      flatMap_cut some, readCut, readCut, ← full, ahead, Nat.zero_mod, Nat.sub_zero]
  · rw [readCut, ahead]

private theorem readCut_continues (some : 0 < room) {bytes : Bytes}
    (continues : ∀ byte ∈ bytes, Continues byte) (offset : Nat) (rest : Bytes) :
    readCut room offset (bytes ++ rest) =
      List.replicate bytes.length replacement ++ readCut room (offset + bytes.length) rest := by
  induction bytes generalizing offset with
  | nil => rfl
  | cons byte bytes ih =>
      obtain ⟨first, others⟩ := List.forall_mem_cons.mp continues
      have within := Nat.mod_lt offset some
      have one : readCut room offset ([byte] ++ (bytes ++ rest)) =
          [replacement] ++ readCut room (offset + 1) (bytes ++ rest) :=
        readCut_append some (by rw [List.length_singleton]; omega) (lossy_continues first _)
      rw [List.cons_append, ← List.singleton_append, one, ih others, List.length_cons,
        List.replicate_succ, Nat.add_assoc offset 1, Nat.add_comm 1]
      rfl

/-- What is read of a text whose bytes begin at some offset and are cut at every multiple of
`room`. -/
def pieced (room : Nat) : Nat → List Char → List Char
  | _, [] => []
  | offset, character :: rest =>
      let ahead := room - offset % room
      (if character.utf8Size ≤ ahead then [character]
        else List.replicate (1 + (character.utf8Size - ahead)) replacement) ++
        pieced room (offset + character.utf8Size) rest

private theorem readCut_encodeChar (some : 0 < room) (offset : Nat) (character : Char)
    (rest : Bytes) : readCut room offset (String.utf8EncodeChar character ++ rest) =
      (if character.utf8Size ≤ room - offset % room then [character]
        else
          List.replicate (1 + (character.utf8Size - (room - offset % room))) replacement) ++
        readCut room (offset + character.utf8Size) rest := by
  have size := String.length_utf8EncodeChar character
  have within := Nat.mod_lt offset some
  split
  · next whole =>
    rw [readCut_append some (size ▸ whole) (lossy_encodeChar_append character _), size]
  · next broken =>
    -- The character falls apart at the next cut.
    obtain ⟨continues, front⟩ := encodeChar_take character
    generalize aheadIs : room - offset % room = ahead at broken ⊢
    have positive : 0 < ahead := by omega
    have frontSize : ((String.utf8EncodeChar character).take ahead).length = ahead := by
      rw [List.length_take, size]
      omega
    have tails : ∀ byte ∈ (String.utf8EncodeChar character).drop ahead, Continues byte := by
      intro byte member
      rw [show ahead = 1 + (ahead - 1) by omega, ← List.drop_drop] at member
      exact continues byte (List.mem_of_mem_drop member)
    have isRead : lossy ((String.utf8EncodeChar character).take ahead ++
        ((String.utf8EncodeChar character).drop ahead ++ rest).take 0) = [replacement] ++ lossy [] := by
      rw [List.take_zero, List.append_nil, front ahead positive (by omega)]
      rfl
    rw [← List.take_append_drop ahead (String.utf8EncodeChar character), List.append_assoc,
      readCut_append some (by rw [frontSize, aheadIs])
        (by rw [frontSize, aheadIs, Nat.sub_self]; exact isRead),
      frontSize, readCut_continues some tails, List.length_drop, size, Nat.add_assoc,
      Nat.add_sub_cancel' (by omega), Nat.add_comm 1, List.replicate_succ]
    rfl

theorem readCut_encodeChars (some : 0 < room) (characters : List Char) (offset : Nat) :
    readCut room offset (encodeChars characters) = pieced room offset characters := by
  induction characters generalizing offset with
  | nil => simp [encodeChars, readCut, pieced]
  | cons character rest ih =>
      have split : encodeChars (character :: rest) =
          String.utf8EncodeChar character ++ encodeChars rest := List.flatMap_cons
      rw [split, readCut_encodeChar some, ih]
      rfl

/-! ## Characters that are not cut -/

/-- Does every character of a text end before the next cut, or at it? -/
def Uncut (room offset : Nat) (characters : List Char) : Prop :=
  ∀ front character behind, characters = front ++ character :: behind →
    character.utf8Size ≤ room - (offset + (encodeChars front).length) % room

private theorem length_encodeChars_cons (character : Char) (rest : List Char) :
    (encodeChars (character :: rest)).length = character.utf8Size + (encodeChars rest).length := by
  rw [encodeChars, List.flatMap_cons, List.length_append, String.length_utf8EncodeChar]
  rfl

private theorem uncut_cons {offset : Nat} {character : Char} {rest : List Char} :
    Uncut room offset (character :: rest) ↔
      character.utf8Size ≤ room - offset % room ∧
        Uncut room (offset + character.utf8Size) rest := by
  constructor
  · intro uncut
    refine ⟨uncut [] character rest rfl, fun front other behind split => ?_⟩
    have later := uncut (character :: front) other behind (by rw [split, List.cons_append])
    rwa [length_encodeChars_cons, ← Nat.add_assoc] at later
  · rintro ⟨first, others⟩ front other behind split
    cases front with
    | nil =>
        obtain ⟨rfl, -⟩ := List.cons.inj split
        exact first
    | cons head front =>
        obtain ⟨rfl, rest⟩ := List.cons.inj split
        rw [length_encodeChars_cons, ← Nat.add_assoc]
        exact others front other behind rest

def withoutNewlines (characters : List Char) : List Char := characters.filter (· ≠ '\n')

@[simp] theorem withoutNewlines_append (first rest : List Char) :
    withoutNewlines (first ++ rest) = withoutNewlines first ++ withoutNewlines rest :=
  List.filter_append ..

theorem withoutNewlines_cons (character : Char) (rest : List Char) :
    withoutNewlines (character :: rest) = withoutNewlines [character] ++ withoutNewlines rest :=
  withoutNewlines_append [character] rest

private theorem length_withoutNewlines_cons_le (character : Char) (rest : List Char) :
    (withoutNewlines (character :: rest)).length ≤ 1 + (withoutNewlines rest).length := by
  rw [withoutNewlines_cons, List.length_append]
  exact Nat.add_le_add_right (List.length_filter_le ..) _

private theorem withoutNewlines_replicate (count : Nat) :
    withoutNewlines (List.replicate count replacement) = List.replicate count replacement := by
  rw [withoutNewlines, List.filter_replicate, if_pos (by decide)]

private theorem length_withoutNewlines_pieced (characters : List Char) (offset : Nat) :
    (withoutNewlines characters).length ≤
      (withoutNewlines (pieced room offset characters)).length := by
  induction characters generalizing offset with
  | nil => exact Nat.le_refl _
  | cons character rest ih =>
      have others := ih (offset + character.utf8Size)
      have most := length_withoutNewlines_cons_le character rest
      simp only [pieced]
      split
      · rw [withoutNewlines_cons, withoutNewlines_append, List.length_append, List.length_append]
        omega
      · rw [withoutNewlines_append, withoutNewlines_replicate, List.length_append,
          List.length_replicate]
        omega

/-- But for newlines a text is read as it is exactly if no character is cut. -/
theorem withoutNewlines_pieced_iff (characters : List Char) (offset : Nat) :
    withoutNewlines (pieced room offset characters) = withoutNewlines characters ↔
      Uncut room offset characters := by
  induction characters generalizing offset with
  | nil => exact iff_of_true rfl fun front character behind split => by simp at split
  | cons character rest ih =>
      rw [uncut_cons, ← ih]
      simp only [pieced]
      split
      · next whole =>
        rw [withoutNewlines_cons character rest, withoutNewlines_append,
          List.append_cancel_left_eq, and_iff_right whole]
      · next broken =>
        -- A character that is cut is read as more than one.
        refine iff_of_false (fun same => ?_) (fun both => broken both.1)
        have more := congrArg List.length same
        have least : (withoutNewlines rest).length ≤ (withoutNewlines (pieced room _ rest)).length :=
          length_withoutNewlines_pieced rest (offset + character.utf8Size)
        have most := length_withoutNewlines_cons_le character rest
        rw [withoutNewlines_append, withoutNewlines_replicate, List.length_append,
          List.length_replicate] at more
        omega

end RemoteTree.Utf8
