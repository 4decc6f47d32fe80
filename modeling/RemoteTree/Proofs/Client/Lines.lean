import RemoteTree.Client.Lines

/-!
# Steps of a line reader

One step of a line reader by the state that the reader is in: after the end there is nothing more,
pending bytes give a line without a read, and else what the wait for a delivery comes to decides.
-/

set_option autoImplicit false

namespace RemoteTree.LineReader

/-- The state of a reader, and what its step yields, once a wait has ended. -/
def arrive (reader : LineReader) : Arrival × Bytes × Nat → Option LineEvent × LineReader × Nat
  | (.data count, buffer, asked) =>
      let filled := { reader with buffer := buffer, consumed := 0, pending := buffer.take count }
      (some (.line filled.takeLine.1), filled.takeLine.2, asked)
  | (.timeout, buffer, asked) =>
      (some .timeout, { reader with buffer := buffer, consumed := 0, pending := [] }, asked)
  | (.nothing, buffer, asked) =>
      (none, { reader with buffer := buffer, consumed := 0, pending := [], finished := true },
        asked)

theorem advance_of_finished (reader : LineReader) (finished : reader.finished = true)
    (deadline : Option Deadline) : reader.advance deadline = .done (none, reader, 0) := by
  rw [advance, if_pos finished]

theorem advance_of_pending (reader : LineReader) (live : reader.finished = false)
    (pending : reader.pending ≠ []) (deadline : Option Deadline) :
    reader.advance deadline =
      .done (some (.line reader.takeLine.1), reader.takeLine.2, 0) := by
  have some : (!reader.pending.isEmpty) = true := by simpa using pending
  rw [advance, if_neg (by simp [live]), if_pos some]

theorem advance_of_empty (reader : LineReader) (live : reader.finished = false)
    (empty : reader.pending = []) (deadline : Option Deadline) :
    reader.advance deadline =
      (awaitWith reader.handle reader.buffer (Deadline.waits deadline).1
        (Deadline.waits deadline).2).andThen fun arrived => .done (reader.arrive arrived) := by
  rw [advance, if_neg (by simp [live]), if_neg (by simp [empty])]
  rcases Deadline.waits deadline with ⟨wait, extensions⟩
  dsimp only
  congr 1
  funext ⟨arrival, buffer, asked⟩
  cases arrival <;> rfl

/-- Handing out a line does not touch the buffer. -/
theorem takeLine_withBuffer (reader : LineReader) (buffer : Bytes) :
    { reader with buffer := buffer }.takeLine =
      (reader.takeLine.1, { reader.takeLine.2 with buffer := buffer }) := by
  simp only [takeLine]
  cases reader.pending.drop (reader.pending.takeWhile (· != newline)).length <;> rfl

end RemoteTree.LineReader
