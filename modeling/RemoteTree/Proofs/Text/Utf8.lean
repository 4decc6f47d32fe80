import Mathlib
import RemoteTree.Text.Utf8

/-!
# UTF-8 there and back

The bytes of a text read back as that text, strictly and lossily, and bytes that are read strictly
are the bytes of the text that was read. Both rest on what the first two bytes of a character of
several bytes may be.
-/

set_option autoImplicit false

namespace RemoteTree.Utf8

/-- The first two bytes of a character of several bytes, with the bits of the first and the number
of bytes that follow the second. -/
def Opens (first second : UInt8) (bits more : Nat) : Prop :=
  ∃ lead, lead? first = some lead ∧ lead.low ≤ second ∧ second ≤ lead.high ∧
    lead.bits = bits ∧ lead.more = more

private theorem opens_two_iff (first second : UInt8) (bits : Nat) :
    Opens first second bits 0 ↔
      0xC2 ≤ first.toNat ∧ first.toNat ≤ 0xDF ∧ 0x80 ≤ second.toNat ∧ second.toNat ≤ 0xBF ∧
        bits = first.toNat - 0xC0 := by
  simp only [Opens, lead?, UInt8.lt_iff_toNat_lt, UInt8.le_iff_toNat_le, ← UInt8.toNat_inj]
  split_ifs <;> simp_all
  all_goals omega

private theorem opens_three_iff (first second : UInt8) (bits : Nat) :
    Opens first second bits 1 ↔
      0xE0 ≤ first.toNat ∧ first.toNat ≤ 0xEF ∧ 0x80 ≤ second.toNat ∧ second.toNat ≤ 0xBF ∧
        (first.toNat = 0xE0 → 0xA0 ≤ second.toNat) ∧
        (first.toNat = 0xED → second.toNat ≤ 0x9F) ∧ bits = first.toNat - 0xE0 := by
  simp only [Opens, lead?, UInt8.lt_iff_toNat_lt, UInt8.le_iff_toNat_le, ← UInt8.toNat_inj]
  split_ifs <;> simp_all
  all_goals omega

private theorem opens_four_iff (first second : UInt8) (bits : Nat) :
    Opens first second bits 2 ↔
      0xF0 ≤ first.toNat ∧ first.toNat ≤ 0xF4 ∧ 0x80 ≤ second.toNat ∧ second.toNat ≤ 0xBF ∧
        (first.toNat = 0xF0 → 0x90 ≤ second.toNat) ∧
        (first.toNat = 0xF4 → second.toNat ≤ 0x8F) ∧ bits = first.toNat - 0xF0 := by
  simp only [Opens, lead?, UInt8.lt_iff_toNat_lt, UInt8.le_iff_toNat_le, ← UInt8.toNat_inj]
  split_ifs <;> simp_all
  all_goals omega

private theorem Opens.more_le {first second : UInt8} {bits more : Nat}
    (opens : Opens first second bits more) : more ≤ 2 := by
  obtain ⟨lead, promised, -, -, -, rfl⟩ := opens
  unfold lead? at promised
  split_ifs at promised <;> (injection promised with same; subst same; simp)

theorem Opens.not_ascii {first second : UInt8} {bits more : Nat}
    (opens : Opens first second bits more) : ¬ first < 0x80 := by
  obtain ⟨lead, promised, -⟩ := opens
  intro ascii
  have below : first < 0xC2 := by
    rw [UInt8.lt_iff_toNat_lt] at ascii ⊢
    simp only [UInt8.reduceToNat] at ascii ⊢
    omega
  rw [lead?, if_pos below] at promised
  cases promised

/-- After two bytes that open a character the rest of it is read. -/
theorem Opens.readFirst {first second : UInt8} {bits more : Nat}
    (opens : Opens first second bits more) (rest : Bytes) :
    readFirst first (second :: rest) = readOwed more (64 * bits + second.toNat % 64) 1 rest := by
  have several := opens.not_ascii
  obtain ⟨lead, promised, low, high, rfl, rfl⟩ := opens
  simp only [Utf8.readFirst, several, ↓reduceIte, promised, low, high, and_self]

/-- A character is read from one byte, or from two bytes that open it and those it still owes. -/
theorem readFirst_eq_some {first : UInt8} {rest : Bytes} {character : Char} {used : Nat}
    (read : readFirst first rest = (some character, used)) :
    (first < 0x80 ∧ character = Char.ofNat first.toNat ∧ used = 0) ∨
      ∃ second others bits more, rest = second :: others ∧ Opens first second bits more ∧
        readOwed more (64 * bits + second.toNat % 64) 1 others = (some character, used) := by
  unfold readFirst at read
  split_ifs at read with ascii
  · cases read
    exact .inl ⟨ascii, rfl, rfl⟩
  · cases promised : lead? first with
    | none => simp [promised] at read
    | some lead =>
        cases rest with
        | nil => simp [promised] at read
        | cons second others =>
            simp only [promised] at read
            split_ifs at read with inRange
            · exact .inr ⟨second, others, lead.bits, lead.more, rfl,
                ⟨lead, promised, inRange.1, inRange.2, rfl, rfl⟩, read⟩
            · cases read

private theorem toNat_ofNat {value : Nat} (valid : value.isValidChar) :
    (Char.ofNat value).val.toNat = value := by
  simp only [Char.ofNat, valid, ↓reduceDIte]
  exact Char.toNat_ofNatAux valid

private theorem readOwed_succ_eq_some_iff {owed value used total : Nat} {rest : Bytes}
    {character : Char} :
    readOwed (owed + 1) value used rest = (some character, total) ↔
      ∃ byte others, rest = byte :: others ∧ 0x80 ≤ byte.toNat ∧ byte.toNat ≤ 0xBF ∧
        readOwed owed (64 * value + byte.toNat % 64) (used + 1) others =
          (some character, total) := by
  cases rest with
  | nil => simp [readOwed]
  | cons byte others =>
      simp only [readOwed, UInt8.le_iff_toNat_le, UInt8.reduceToNat]
      constructor
      · intro read
        split_ifs at read with inRange
        · exact ⟨byte, others, rfl, inRange.1, inRange.2, read⟩
        · cases read
      · rintro ⟨_, _, same, low, high, read⟩
        cases same
        rwa [if_pos ⟨low, high⟩]

private theorem ofNat_eq (byte : UInt8) {value : Nat} (same : value = byte.toNat) :
    UInt8.ofNat value = byte := by
  rw [same, UInt8.ofNat_toNat]

/-- A character that is read stands in the bytes that were used for it. -/
theorem encodeChar_of_readFirst {first : UInt8} {rest : Bytes} {character : Char} {used : Nat}
    (read : readFirst first rest = (some character, used)) :
    String.utf8EncodeChar character = first :: rest.take used ∧ used ≤ rest.length := by
  have firstBound := first.toNat_lt
  rcases readFirst_eq_some read with
    ⟨ascii, rfl, rfl⟩ | ⟨second, others, bits, more, rfl, opens, owed⟩
  · simp only [UInt8.lt_iff_toNat_lt, UInt8.reduceToNat] at ascii
    have valid : first.toNat.isValidChar := .inl (by omega)
    have small : first.toNat ≤ 0x7F := by omega
    simp [String.utf8EncodeChar, toNat_ofNat valid, small]
  · have bound := opens.more_le
    interval_cases more
    · obtain ⟨low, high, secondLow, secondHigh, bitsAre⟩ := (opens_two_iff ..).mp opens
      rw [bitsAre] at owed
      cases owed
      have valid : (64 * (first.toNat - 0xC0) + second.toNat % 64).isValidChar := .inl (by omega)
      simp only [String.utf8EncodeChar, toNat_ofNat valid]
      rw [if_neg (by omega), if_pos (by omega), ofNat_eq first (by omega),
        ofNat_eq second (by omega)]
      simp
    · obtain ⟨low, high, secondLow, secondHigh, overlong, surrogate, bitsAre⟩ :=
        (opens_three_iff ..).mp opens
      rw [bitsAre] at owed
      obtain ⟨third, others, rfl, thirdLow, thirdHigh, owed⟩ := readOwed_succ_eq_some_iff.mp owed
      cases owed
      have valid : (64 * (64 * (first.toNat - 0xE0) + second.toNat % 64) +
          third.toNat % 64).isValidChar := by
        unfold Nat.isValidChar
        omega
      simp only [String.utf8EncodeChar, toNat_ofNat valid]
      rw [if_neg (by omega), if_neg (by omega), if_pos (by omega),
        ofNat_eq first (by omega), ofNat_eq second (by omega),
        ofNat_eq third (by omega)]
      simp
    · obtain ⟨low, high, secondLow, secondHigh, overlong, last, bitsAre⟩ :=
        (opens_four_iff ..).mp opens
      rw [bitsAre] at owed
      obtain ⟨third, others, rfl, thirdLow, thirdHigh, owed⟩ := readOwed_succ_eq_some_iff.mp owed
      obtain ⟨fourth, others, rfl, fourthLow, fourthHigh, owed⟩ :=
        readOwed_succ_eq_some_iff.mp owed
      cases owed
      have valid : (64 * (64 * (64 * (first.toNat - 0xF0) + second.toNat % 64) +
          third.toNat % 64) + fourth.toNat % 64).isValidChar := by
        unfold Nat.isValidChar
        omega
      simp only [String.utf8EncodeChar, toNat_ofNat valid]
      rw [if_neg (by omega), if_neg (by omega), if_neg (by omega),
        ofNat_eq first (by omega), ofNat_eq second (by omega),
        ofNat_eq third (by omega), ofNat_eq fourth (by omega)]
      simp

/-- The bytes of a character are read as that character, whatever follows them. -/
theorem readFirst_encodeChar (character : Char) (rest : Bytes) :
    ∃ first others, String.utf8EncodeChar character = first :: others ∧
      readFirst first (others ++ rest) = (some character, others.length) := by
  have valid : character.val.toNat.isValidChar := character.valid
  have back : Char.ofNat character.val.toNat = character := Char.ofNat_toNat character
  have byte : ∀ value, value < 256 → (UInt8.ofNat value).toNat = value := by
    intro value bound
    rw [UInt8.toNat_ofNat']
    omega
  unfold Nat.isValidChar at valid
  generalize valueIs : character.val.toNat = value at valid back
  simp only [String.utf8EncodeChar, valueIs]
  split_ifs with one two three
  · refine ⟨_, _, rfl, ?_⟩
    have ascii : UInt8.ofNat value < 0x80 := by
      simp only [UInt8.lt_iff_toNat_lt, byte value (by omega), UInt8.reduceToNat]
      omega
    simp only [readFirst, ascii, ↓reduceIte, byte value (by omega), back, List.length_nil]
  · refine ⟨_, _, rfl, ?_⟩
    have opens : Opens (UInt8.ofNat (value / 64 % 32 + 192)) (UInt8.ofNat (value % 64 + 128))
        (value / 64) 0 := by
      rw [opens_two_iff, byte _ (by omega), byte _ (by omega)]
      omega
    rw [List.cons_append, opens.readFirst, byte _ (by omega), readOwed,
      show 64 * (value / 64) + (value % 64 + 128) % 64 = value by omega, back]
    rfl
  · refine ⟨_, _, rfl, ?_⟩
    have opens : Opens (UInt8.ofNat (value / 4096 % 16 + 224))
        (UInt8.ofNat (value / 64 % 64 + 128)) (value / 4096) 1 := by
      rw [opens_three_iff, byte _ (by omega), byte _ (by omega)]
      omega
    rw [List.cons_append, opens.readFirst, readOwed_succ_eq_some_iff]
    refine ⟨_, _, rfl, ?_, ?_, ?_⟩
    all_goals simp only [byte (value / 64 % 64 + 128) (by omega),
      byte (value % 64 + 128) (by omega), readOwed]
    · omega
    · omega
    · rw [show 64 * (64 * (value / 4096) + (value / 64 % 64 + 128) % 64) +
        (value % 64 + 128) % 64 = value by omega, back]
      rfl
  · refine ⟨_, _, rfl, ?_⟩
    have opens : Opens (UInt8.ofNat (value / 262144 % 8 + 240))
        (UInt8.ofNat (value / 4096 % 64 + 128)) (value / 262144) 2 := by
      rw [opens_four_iff, byte _ (by omega), byte _ (by omega)]
      omega
    rw [List.cons_append, opens.readFirst, readOwed_succ_eq_some_iff]
    refine ⟨_, _, rfl, ?_, ?_, readOwed_succ_eq_some_iff.mpr ⟨_, _, rfl, ?_, ?_, ?_⟩⟩
    all_goals simp only [byte (value / 4096 % 64 + 128) (by omega),
      byte (value / 64 % 64 + 128) (by omega), byte (value % 64 + 128) (by omega), readOwed]
    · omega
    · omega
    · omega
    · omega
    · rw [show 64 * (64 * (64 * (value / 262144) + (value / 4096 % 64 + 128) % 64) +
        (value / 64 % 64 + 128) % 64) + (value % 64 + 128) % 64 = value by omega, back]
      rfl

private theorem readStrict_skip (skipped rest : Bytes) (read : List Char) :
    readStrict skipped.length (skipped ++ rest) read = readStrict 0 rest read := by
  induction skipped with
  | nil => rfl
  | cons byte skipped ih => simpa only [List.cons_append, List.length_cons, readStrict] using ih

private theorem readLossy_skip (skipped rest : Bytes) (read : List Char) :
    readLossy skipped.length (skipped ++ rest) read = readLossy 0 rest read := by
  induction skipped with
  | nil => rfl
  | cons byte skipped ih => simpa only [List.cons_append, List.length_cons, readLossy] using ih

private theorem readStrict_encodeChars (characters read : List Char) :
    readStrict 0 (encodeChars characters) read = some (read.reverse ++ characters) := by
  induction characters generalizing read with
  | nil => simp [encodeChars, readStrict]
  | cons character characters ih =>
      obtain ⟨first, others, bytes, isRead⟩ :=
        readFirst_encodeChar character (encodeChars characters)
      have split : encodeChars (character :: characters) =
          first :: (others ++ encodeChars characters) := by
        rw [encodeChars, List.flatMap_cons, bytes]
        rfl
      simp only [split, readStrict, isRead, readStrict_skip, ih, List.reverse_cons,
        List.append_assoc, List.singleton_append]

private theorem readLossy_encodeChars (characters read : List Char) :
    readLossy 0 (encodeChars characters) read = read.reverse ++ characters := by
  induction characters generalizing read with
  | nil => simp [encodeChars, readLossy]
  | cons character characters ih =>
      obtain ⟨first, others, bytes, isRead⟩ :=
        readFirst_encodeChar character (encodeChars characters)
      have split : encodeChars (character :: characters) =
          first :: (others ++ encodeChars characters) := by
        rw [encodeChars, List.flatMap_cons, bytes]
        rfl
      simp only [split, readLossy, isRead, Option.getD_some, readLossy_skip, ih,
        List.reverse_cons, List.append_assoc, List.singleton_append]

/-- Strict reading uses up its bytes: behind those that are skipped stand the bytes of the
characters that it adds. -/
theorem encodeChars_of_readStrict {skip : Nat} {bytes : Bytes} {read result : List Char}
    (isRead : readStrict skip bytes read = some result) (available : skip ≤ bytes.length) :
    ∃ characters, result = read.reverse ++ characters ∧
      encodeChars characters = bytes.drop skip := by
  induction bytes generalizing skip read with
  | nil =>
      cases isRead
      exact ⟨[], by simp, by simp [encodeChars]⟩
  | cons byte rest ih =>
      cases skip with
      | succ skip =>
          simp only [readStrict] at isRead
          obtain ⟨characters, resultIs, bytesAre⟩ := ih isRead (by simpa using available)
          exact ⟨characters, resultIs, by simpa using bytesAre⟩
      | zero =>
          rw [readStrict] at isRead
          split at isRead
          · next character used first =>
            obtain ⟨bytesAre, within⟩ := encodeChar_of_readFirst first
            obtain ⟨characters, resultIs, restIs⟩ := ih isRead within
            refine ⟨character :: characters, by simp [resultIs], ?_⟩
            rw [encodeChars, List.flatMap_cons, bytesAre]
            rw [encodeChars] at restIs
            rw [restIs, List.cons_append, List.take_append_drop, List.drop_zero]
          · cases isRead

@[simp] theorem decode?_encode (text : String) : decode? (encode text) = some text := by
  simp [decode?, encode, readStrict_encodeChars]

/-- Lossy reading loses nothing of a text. -/
@[simp] theorem decodeLossy_encode (text : String) : decodeLossy (encode text) = text := by
  simp [decodeLossy, encode, readLossy_encodeChars]

/-- Bytes that are read as a text are the bytes of that text. -/
theorem encode_of_decode? {bytes : Bytes} {text : String} (decoded : decode? bytes = some text) :
    encode text = bytes := by
  obtain ⟨characters, read, rfl⟩ := Option.map_eq_some_iff.mp decoded
  obtain ⟨same, readIs, bytesAre⟩ := encodeChars_of_readStrict read (Nat.zero_le _)
  simp only [List.reverse_nil, List.nil_append] at readIs
  rw [encode, String.toList_ofList, readIs, bytesAre, List.drop_zero]

end RemoteTree.Utf8
