import Mathlib
import RemoteTree.Proofs.Text.Utf8
import RemoteTree.Tape.Calls

/-!
# Recorded answers read back

What a reply is made of survives being written as a value and read again, and so does the object
with the key `Ok` or `Err` around it.
-/

set_option autoImplicit false

namespace RemoteTree

namespace Json

theorem toNat?_ofNat {value bound : Nat} (below : value < bound) :
    (ofNat value).toNat? bound = some value := by
  change (if value < bound then some value else none) = some value
  rw [if_pos below]

@[simp] theorem toUInt8?_ofNat (value : UInt8) :
    (ofNat value.toNat).toUInt8? = some value := by
  simp [toUInt8?, toNat?_ofNat value.toNat_lt]

@[simp] theorem toUInt32?_ofNat (value : UInt32) :
    (ofNat value.toNat).toUInt32? = some value := by
  simp [toUInt32?, toNat?_ofNat value.toNat_lt]

@[simp] theorem toInt32?_ofInt (value : Int32) :
    (number (.integer value.toInt)).toInt32? = some value := by
  have low := value.le_toInt
  have high := value.toInt_lt
  simp only [toInt32?, toInt?]
  rw [if_pos ⟨by omega, by omega⟩, Int32.ofInt_toInt]

end Json

@[simp] theorem Handle.ofJson?_toJson (handle : Handle) :
    Handle.ofJson? handle.toJson = some handle := by
  simp [Handle.ofJson?, Handle.toJson, Json.columns?, Table.find?]

private theorem Refusal.codeOfJson?_codeToJson (code : Option Int32) :
    codeOfJson? (some (codeToJson code)) = some code := by
  cases code with
  | none => rfl
  | some code =>
      change Option.map some (Json.number (.integer code.toInt)).toInt32? = _
      rw [Json.toInt32?_ofInt]
      rfl

@[simp] theorem Refusal.ofJson?_toJson (refusal : Refusal) :
    Refusal.ofJson? refusal.toJson = some refusal := by
  cases refusal with
  | timedOut => rfl
  | failed message code =>
      simp [Refusal.toJson, Refusal.ofJson?, Table.find?, Json.toText?,
        Refusal.codeOfJson?_codeToJson]

namespace Payload

/-- The recorded form of some bytes holds them, whichever form it is. -/
@[simp] theorem bytes_ofBytes (data : Bytes) : (ofBytes data).bytes = data := by
  unfold ofBytes
  split
  · next content decoded =>
    split
    · exact Utf8.encode_of_decode? decoded
    · rfl
  · rfl

@[simp] theorem ofJson?_toJson (payload : Payload) : ofJson? payload.toJson = some payload := by
  cases payload with
  | text content => rfl
  | raw data =>
      have numbers : (data.map fun byte => Json.ofNat byte.toNat).mapM Json.toUInt8? =
          some data := by
        induction data with
        | nil => rfl
        | cons byte rest ih => simp [ih]
      simp [toJson, ofJson?, numbers]

end Payload

@[simp] theorem bytesOfJson?_ofBytes (data : Bytes) :
    bytesOfJson? (Payload.ofBytes data).toJson = some data := by
  simp [bytesOfJson?]

@[simp] theorem countOfJson?_ofNat (count : Nat) : countOfJson? (.ofNat count) = some count := rfl

/-- An answer that can be refused is read back as it was, if its results are. -/
theorem answerOfJson_answerToJson {Result : Type} (wording : Wording) (method : String)
    (toJson : Result → Json) (ofJson? : Json → Option Result)
    (back : ∀ result, ofJson? (toJson result) = some result) (answer : Except Refusal Result) :
    answerOfJson wording method ofJson? (answerToJson toJson answer) = answer := by
  cases answer with
  | error refusal => simp [answerToJson, answerOfJson, Json.field?, Table.find?]
  | ok result => simp [answerToJson, answerOfJson, Json.field?, Table.find?, back]

end RemoteTree
