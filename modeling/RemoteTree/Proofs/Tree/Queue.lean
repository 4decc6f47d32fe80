import RemoteTree.Bytes.Lemmas
import RemoteTree.Proofs.Tree.Deliveries

/-!
# Queues of streams

What a read takes out of the queue of a stream. It passes over stalls and chunks without bytes, and
takes bytes of one chunk, or one stall if it has a deadline.
-/

set_option autoImplicit false

namespace RemoteTree

namespace Chunk

def carried : Chunk → Bytes
  | .data bytes => bytes
  | .stall => []

/-- The bytes that wait in a queue. -/
def queued (queue : List Chunk) : Bytes := queue.flatMap carried

@[simp] theorem queued_nil : queued [] = [] := rfl

@[simp] theorem queued_cons (chunk : Chunk) (rest : List Chunk) :
    queued (chunk :: rest) = chunk.carried ++ queued rest := rfl

@[simp] theorem queued_append (first rest : List Chunk) :
    queued (first ++ rest) = queued first ++ queued rest := List.flatMap_append

/-- What is left of a chunk goes back to the front of its queue, unless nothing is left. -/
def putBack (left : Bytes) (later : List Chunk) : List Chunk :=
  if left.isEmpty then later else .data left :: later

@[simp] theorem queued_putBack (left : Bytes) (later : List Chunk) :
    queued (putBack left later) = left ++ queued later := by
  unfold putBack
  split
  · next nothing => rw [List.isEmpty_iff.mp nothing, List.nil_append]
  · rfl

/-- The ways in which a read with some room takes from a queue: it finds no bytes, or takes the
front of one chunk, or a deadline lets it take a stall that only chunks without bytes precede. The
relation is between the queue before, what the read brings, and the queue after. -/
inductive Takes (room : Nat) (wait : Option Duration) :
    List Chunk → Except Refusal Bytes → List Chunk → Prop where
  | nothing {skipped : List Chunk} (bare : queued skipped = []) :
      Takes room wait skipped (.ok []) []
  | front {skipped : List Chunk} (bare : queued skipped = []) {bytes : Bytes} (some : bytes ≠ [])
      (later : List Chunk) :
      Takes room wait (skipped ++ .data bytes :: later) (.ok (bytes.take room))
        (putBack (bytes.drop room) later)
  | stall {skipped : List Chunk} (empty : ∀ chunk ∈ skipped, chunk = .data [])
      (waits : wait.isSome = true) (later : List Chunk) :
      Takes room wait (skipped ++ .stall :: later) (.error .timedOut) later

variable {room : Nat} {wait : Option Duration} {before after : List Chunk}
  {outcome : Except Refusal Bytes}

private theorem Takes.skip_empty (takes : Takes room wait before outcome after) :
    Takes room wait (.data [] :: before) outcome after := by
  cases takes with
  | nothing bare => exact .nothing bare
  | @front skipped bare bytes some later =>
      rw [← List.cons_append]
      exact .front (by rw [queued_cons, bare]; rfl) some later
  | @stall skipped empty waits =>
      rw [← List.cons_append]
      exact .stall (by simpa using empty) waits after

private theorem Takes.skip_stall (takes : Takes room none before outcome after) :
    Takes room none (.stall :: before) outcome after := by
  cases takes with
  | nothing bare => exact .nothing bare
  | @front skipped bare bytes some later =>
      rw [← List.cons_append]
      exact .front (by rw [queued_cons, bare]; rfl) some later
  | stall empty waits later => cases waits

def brought : Except Refusal Bytes → Bytes
  | .ok bytes => bytes
  | .error _ => []

private theorem queued_of_empty {skipped : List Chunk}
    (empty : ∀ chunk ∈ skipped, chunk = .data []) : queued skipped = [] := by
  rw [queued, List.flatMap_eq_nil_iff]
  intro chunk member
  rw [empty chunk member]
  rfl

theorem Takes.conserves (takes : Takes room wait before outcome after) :
    brought outcome ++ queued after = queued before := by
  cases takes with
  | nothing bare => rw [bare]; rfl
  | front bare some later =>
      rw [queued_append, bare, queued_putBack, ← List.append_assoc, brought, List.take_append_drop]
      rfl
  | stall empty waits later =>
      rw [queued_append, queued_of_empty empty]
      rfl

/-! ## Windows -/

/-- The pieces in which reads with some room bring the bytes of a chunk. -/
def cut (room : Nat) (bytes : Bytes) : List Bytes :=
  if _more : 0 < room ∧ bytes ≠ [] then bytes.take room :: cut room (bytes.drop room) else []
termination_by bytes.length
decreasing_by
  have some := List.length_pos_of_ne_nil _more.2
  rw [List.length_drop]
  omega

/-- What reads with some room bring of a queue, one after the other. -/
def windows (room : Nat) (queue : List Chunk) : List Bytes :=
  queue.flatMap fun chunk => cut room chunk.carried

@[simp] theorem windows_nil (room : Nat) : windows room [] = [] := rfl

@[simp] theorem windows_append (room : Nat) (first rest : List Chunk) :
    windows room (first ++ rest) = windows room first ++ windows room rest :=
  List.flatMap_append

@[simp] theorem windows_cons (room : Nat) (chunk : Chunk) (rest : List Chunk) :
    windows room (chunk :: rest) = cut room chunk.carried ++ windows room rest := rfl

@[simp] theorem cut_nil (room : Nat) : cut room [] = [] := by
  unfold cut
  simp

theorem cut_of_ne_nil (some : 0 < room) {bytes : Bytes} (more : bytes ≠ []) :
    cut room bytes = bytes.take room :: cut room (bytes.drop room) := by
  rw [cut, dif_pos ⟨some, more⟩]

private theorem windows_putBack (room : Nat) (left : Bytes) (later : List Chunk) :
    windows room (putBack left later) = cut room left ++ windows room later := by
  unfold putBack
  split
  · next nothing => rw [List.isEmpty_iff.mp nothing, cut_nil, List.nil_append]
  · rfl

private theorem windows_of_bare (room : Nat) {skipped : List Chunk} (bare : queued skipped = []) :
    windows room skipped = [] := by
  rw [queued, List.flatMap_eq_nil_iff] at bare
  rw [windows, List.flatMap_eq_nil_iff]
  intro chunk member
  rw [bare chunk member, cut_nil]

theorem windows_filter (room : Nat) (queue : List Chunk) :
    windows room (queue.filter (· ≠ .stall)) = windows room queue := by
  induction queue with
  | nil => rfl
  | cons chunk rest ih =>
      cases chunk with
      | data bytes => simp only [List.filter_cons, ne_eq, reduceCtorEq, not_false_eq_true,
          decide_true, ↓reduceIte, windows_cons, ih]
      | stall => simpa [carried] using ih

private theorem count_putBack (left : Bytes) (later : List Chunk) :
    (putBack left later).count .stall = later.count .stall := by
  unfold putBack
  split
  · rfl
  · exact List.count_cons_of_ne (by simp)

theorem Takes.count_le (takes : Takes room wait before outcome after) :
    after.count .stall ≤ before.count .stall := by
  cases takes with
  | nothing bare => exact Nat.zero_le _
  | front bare some later =>
      rw [count_putBack, List.count_append, List.count_cons_of_ne (by simp)]
      exact Nat.le_add_left _ _
  | stall empty waits =>
      rw [List.count_append, List.count_cons_self]
      omega

theorem Takes.windows_ok (some : 0 < room) {bytes : Bytes}
    (takes : Takes room wait before (.ok bytes) after) :
    windows room before = if bytes = [] then [] else bytes :: windows room after := by
  cases takes with
  | nothing bare => rw [windows_of_bare room bare, if_pos rfl]
  | front bare more later =>
      rw [windows_append, windows_of_bare room bare, windows_cons, windows_putBack, carried,
        cut_of_ne_nil some more, if_neg]
      · rfl
      · rw [List.take_eq_nil_iff, not_or]
        exact ⟨Nat.ne_of_gt some, more⟩

theorem Takes.windows_timedOut (takes : Takes room wait before (.error .timedOut) after) :
    windows room before = windows room after ∧ after.count .stall < before.count .stall ∧
      wait.isSome = true := by
  cases takes with
  | stall empty waits =>
      refine ⟨?_, ?_, waits⟩
      · rw [windows_append, windows_of_bare room (queued_of_empty empty), windows_cons]
        simp [carried]
      · rw [List.count_append, List.count_cons_self]
        omega

end Chunk

/-- The bytes that a delivery leaves in front of a buffer, as many as it claims. -/
def Delivery.outcome (delivery : Delivery) (buffer : Bytes) : Except Refusal Bytes :=
  delivery.claimed.map fun count => (Bytes.overlay delivery.received buffer).take count

namespace Tree

open Chunk (Takes queued)

theorem readQueue_takes {room : Nat} {buffer : Bytes} (fits : room ≤ buffer.length)
    (wait : Option Duration) (queue : List Chunk) :
    Takes room wait queue ((readQueue room wait queue).1.outcome buffer)
      (readQueue room wait queue).2 := by
  fun_induction readQueue room wait queue with
  | case1 => exact .nothing rfl
  | case2 rest waits =>
      have stalls : Takes room wait ([] ++ .stall :: rest) (.error .timedOut) rest :=
        .stall (List.forall_mem_nil _) waits rest
      exact stalls
  | case3 rest waits ih =>
      obtain rfl : wait = none := by simpa using waits
      exact ih.skip_stall
  | case4 rest ih => exact ih.skip_empty
  | case5 bytes rest some taken left =>
      have front : Takes room wait ([] ++ .data bytes :: rest) (.ok (bytes.take room))
          (Chunk.putBack (bytes.drop room) rest) := .front rfl some rest
      have short : (bytes.take room).length ≤ buffer.length :=
        Nat.le_trans (List.length_take_le room bytes) fits
      have outcome : Delivery.outcome ⟨taken, .ok taken.length⟩ buffer = .ok (bytes.take room) :=
        congrArg Except.ok (Bytes.take_overlay short)
      rw [outcome]
      exact front

end Tree

end RemoteTree
