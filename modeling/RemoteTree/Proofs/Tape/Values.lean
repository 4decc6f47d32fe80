import Mathlib
import RemoteTree.Proofs.Table
import RemoteTree.Proofs.Tape.Answers
import RemoteTree.Stat.Record

/-!
# Recorded values read back

Every kind of value that stands on a tape is read back as it was written. A record is read by the
names of its columns, so what else the object holds does not matter.
-/

set_option autoImplicit false

namespace RemoteTree

namespace Json

@[simp] theorem toUInt16?_ofNat (value : UInt16) :
    (ofNat value.toNat).toUInt16? = some value := by
  simp [toUInt16?, toNat?_ofNat value.toNat_lt]

@[simp] theorem toUInt64?_ofNat (value : UInt64) :
    (ofNat value.toNat).toUInt64? = some value := by
  simp [toUInt64?, toNat?_ofNat value.toNat_lt]

@[simp] theorem toText?_string (text : String) : (string text).toText? = some text := rfl

/-- An object that begins with the columns of a record holds them, whatever comes after. -/
theorem columns?_append {columns : List (String × Json)} {names : List String}
    (named : columns.map (·.1) = names) (unique : names.Nodup) (others : List (String × Json)) :
    (object (columns ++ others)).columns? names =
      some (columns.map fun column => some column.2) := by
  subst named
  rw [columns?, List.map_map]
  congr 1
  apply List.map_congr_left
  intro column member
  have found : Table.find? column.1 columns = some column.2 := Table.find?_of_mem unique member
  change Table.find? column.1 (columns ++ others) = some column.2
  rw [Table.find?_append, found]
  rfl

private theorem columns?_object {columns : List (String × Json)} {names : List String}
    (named : columns.map (·.1) = names) (unique : names.Nodup) :
    (object columns).columns? names = some (columns.map fun column => some column.2) := by
  have begins := columns?_append named unique []
  rwa [List.append_nil] at begins

end Json

@[simp] theorem OpenMode.ofJson?_toJson (mode : OpenMode) :
    OpenMode.ofJson? mode.toJson = some mode := by
  cases mode <;> rfl

@[simp] theorem Qid.ofJson?_toJson (qid : Qid) : Qid.ofJson? qid.toJson = some qid := by
  have columns : qid.toJson.columns? ["qtype", "version", "path"] = _ :=
    Json.columns?_object rfl (by decide)
  simp [Qid.ofJson?, columns]

namespace Stat

/-- A stat record is read from its columns, whatever texts for readers come after them. -/
theorem ofJson?_columns (stat : Stat) (others : List (String × Json)) :
    ofJson? (.object (stat.columns ++ others)) = some stat := by
  have named : stat.columns.map (·.1) = columnNames := rfl
  rw [ofJson?, Json.columns?_append named (by decide)]
  simp [columns]

@[simp] theorem ofJson?_toJson (stat : Stat) : ofJson? stat.toJson = some stat := by
  have exact := stat.ofJson?_columns []
  rwa [List.append_nil] at exact

/-- The form for readers is a record, too. -/
@[simp] theorem ofJson?_toRecord (stat : Stat) : ofJson? stat.toRecord = some stat :=
  stat.ofJson?_columns _

end Stat

@[simp] theorem Interaction.ofJson?_toJson (interaction : Interaction) :
    Interaction.ofJson? interaction.toJson = some interaction := by
  have columns : interaction.toJson.columns? ["seq", "port", "method", "input", "output"] = _ :=
    Json.columns?_object rfl (by decide)
  simp [Interaction.ofJson?, columns]

/-- Everything that a recording is made of is read back as it was: identities, stat records,
handles, modes, refusals, payloads and whole calls, the bytes in a payload, and every answer to a
call, whether it is a refusal or a handle, a count, nothing or bytes. -/
theorem recorded_values_read_back :
    (∀ qid : Qid, Qid.ofJson? qid.toJson = some qid) ∧
    (∀ stat : Stat, Stat.ofJson? stat.toJson = some stat) ∧
    (∀ handle : Handle, Handle.ofJson? handle.toJson = some handle) ∧
    (∀ mode : OpenMode, OpenMode.ofJson? mode.toJson = some mode) ∧
    (∀ refusal : Refusal, Refusal.ofJson? refusal.toJson = some refusal) ∧
    (∀ payload : Payload, Payload.ofJson? payload.toJson = some payload) ∧
    (∀ interaction : Interaction,
      Interaction.ofJson? interaction.toJson = some interaction) ∧
    (∀ data : Bytes, (Payload.ofBytes data).bytes = data ∧
      (Payload.ofJson? (Payload.ofBytes data).toJson).map Payload.bytes = some data) ∧
    ∀ (wording : Wording) (method : String),
      (∀ answer : Except Refusal Handle,
        answerOfJson wording method Handle.ofJson? (answerToJson Handle.toJson answer) = answer) ∧
      (∀ answer : Except Refusal Nat,
        answerOfJson wording method countOfJson? (answerToJson Json.ofNat answer) = answer) ∧
      (∀ answer : Except Refusal Unit,
        answerOfJson wording method nothingOfJson? (answerToJson (fun _ => .null) answer) = answer) ∧
      (∀ answer : Except Refusal Payload,
        answerOfJson wording method Payload.ofJson? (answerToJson Payload.toJson answer) = answer) ∧
      ∀ answer : Except Refusal Bytes,
        answerOfJson wording method bytesOfJson?
          (answerToJson (fun bytes => (Payload.ofBytes bytes).toJson) answer) = answer := by
  refine ⟨Qid.ofJson?_toJson, Stat.ofJson?_toJson, Handle.ofJson?_toJson, OpenMode.ofJson?_toJson,
    Refusal.ofJson?_toJson, Payload.ofJson?_toJson, Interaction.ofJson?_toJson, ?_, ?_⟩
  · intro data
    exact ⟨Payload.bytes_ofBytes data, bytesOfJson?_ofBytes data⟩
  · intro wording method
    refine ⟨?_, ?_, ?_, ?_, ?_⟩
    · exact answerOfJson_answerToJson wording method _ _ Handle.ofJson?_toJson
    · exact answerOfJson_answerToJson wording method _ _ countOfJson?_ofNat
    · exact answerOfJson_answerToJson wording method _ _ fun _ => rfl
    · exact answerOfJson_answerToJson wording method _ _ Payload.ofJson?_toJson
    · exact answerOfJson_answerToJson wording method _ _ bytesOfJson?_ofBytes

end RemoteTree
