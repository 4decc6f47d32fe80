import RemoteTree.Proofs.Tree.Queue

/-!
# What arrives in time

A reader that puts up with a number of stalls gets what is queued in front of that many of them
with no bytes in between. Reads that wait bring just that, as long as the stalls which one after
the other use up are counted.
-/

set_option autoImplicit false

namespace RemoteTree

namespace Chunk

/-- The stalls at the end of a queue, with no bytes behind the first of them. -/
def idle (front : List Chunk) : Nat :=
  (front.rtakeWhile fun chunk => chunk.carried = []).count .stall

/-- The front of a queue up to the first stalls, as many as may not be, that have no bytes between
them. Without a limit to the stalls, or without as many of them, it is the whole queue. -/
def inTime (allowed : Option Nat) (queue : List Chunk) : List Chunk :=
  match allowed with
  | none => queue
  | some stalls => (queue.inits.find? fun front => idle front = stalls).getD queue

private theorem idle_stall (front : List Chunk) : idle (front ++ [.stall]) = idle front + 1 := by
  rw [idle, List.rtakeWhile_concat_pos _ _ _ (by rfl), List.count_append]
  rfl

private theorem idle_empty (front : List Chunk) : idle (front ++ [.data []]) = idle front := by
  rw [idle, List.rtakeWhile_concat_pos _ _ _ (by rfl), List.count_append]
  rfl

private theorem idle_data (front : List Chunk) {bytes : Bytes} (some : bytes ≠ []) :
    idle (front ++ [.data bytes]) = 0 := by
  have bare : decide ((data bytes).carried = []) = false := decide_eq_false some
  rw [idle, List.rtakeWhile_concat, bare]
  rfl

/-- The same front, chunk by chunk, when some stalls without bytes between them are past. -/
def upTo (allowed : Option Nat) : Nat → List Chunk → List Chunk
  | _, [] => []
  | past, .stall :: rest =>
      if allowed = some (past + 1) then [] else .stall :: upTo allowed (past + 1) rest
  | past, .data bytes :: rest =>
      .data bytes :: upTo allowed (if bytes = [] then past else 0) rest

private theorem upTo_none (past : Nat) (queue : List Chunk) : upTo none past queue = queue := by
  induction queue generalizing past with
  | nil => rfl
  | cons chunk rest ih =>
      cases chunk with
      | stall => rw [upTo, if_neg nofun, ih]
      | data bytes => rw [upTo, ih]

variable {room : Nat}

/-- Where a front of a queue is past already, the shortest one that goes on from it and ends in a
number of stalls, or else all of the queue. -/
def firstIdle (stalls : Nat) (front queue : List Chunk) : List Chunk :=
  ((queue.inits.map (front ++ ·)).find? fun start => idle start = stalls).getD (front ++ queue)

private theorem firstIdle_here {stalls : Nat} {front : List Chunk} (here : idle front = stalls)
    (queue : List Chunk) : firstIdle stalls front queue = front := by
  cases queue with
  | nil => simp [firstIdle, here]
  | cons chunk rest => simp [firstIdle, here]

private theorem firstIdle_cons {stalls : Nat} {front : List Chunk} (fewer : idle front ≠ stalls)
    (chunk : Chunk) (rest : List Chunk) :
    firstIdle stalls front (chunk :: rest) = firstIdle stalls (front ++ [chunk]) rest := by
  rw [firstIdle, List.inits_cons, List.map_cons, List.append_nil,
    List.find?_cons_of_neg (by simpa using fewer), List.map_map, firstIdle]
  simp [Function.comp_def]

/-- Behind a front with too few stalls, what is in time is what comes up to the stall that is one
too many. -/
theorem windows_firstIdle (room : Nat) {front : List Chunk} {stalls : Nat}
    (fewer : idle front < stalls) (queue : List Chunk) :
    windows room (firstIdle stalls front queue) =
      windows room front ++ windows room (upTo (some stalls) (idle front) queue) := by
  induction queue generalizing front with
  | nil => simp [firstIdle, upTo, Nat.ne_of_lt fewer]
  | cons chunk rest ih =>
      rw [firstIdle_cons (Nat.ne_of_lt fewer)]
      cases chunk with
      | stall =>
          unfold upTo
          split
          · next last =>
            have here : idle (front ++ [.stall]) = stalls :=
              (idle_stall front).trans (Option.some.inj last).symm
            rw [firstIdle_here here, windows_append]
            simp [carried]
          · next more =>
            have further : idle front + 1 < stalls :=
              Nat.lt_of_le_of_ne fewer fun same => more (congrArg some same.symm)
            rw [ih (by rwa [idle_stall]), idle_stall]
            simp [carried]
      | data bytes =>
          by_cases empty : bytes = []
          · subst empty
            rw [ih (by rwa [idle_empty]), idle_empty, upTo, if_pos rfl]
            simp [carried]
          · rw [ih (by rw [idle_data _ empty]; omega), idle_data _ empty, upTo, if_neg empty]
            simp

theorem windows_inTime (allowed : Option Nat) (positive : allowed ≠ some 0) (queue : List Chunk) :
    windows room (inTime allowed queue) = windows room (upTo allowed 0 queue) := by
  cases allowed with
  | none => rw [upTo_none, inTime]
  | some stalls =>
      have fewer : idle [] < stalls := Nat.pos_of_ne_zero fun zero => positive (congrArg some zero)
      have front : inTime (some stalls) queue = firstIdle stalls [] queue := by
        simp [inTime, firstIdle]
      rw [front, windows_firstIdle room fewer]
      rfl

/-! ## Reads -/

/-- The windows that are still to come in time. -/
def due (room : Nat) (allowed : Option Nat) (past : Nat) (queue : List Chunk) : List Bytes :=
  windows room (upTo allowed past queue)

private theorem due_putBack (room : Nat) (allowed : Option Nat) (left : Bytes)
    (later : List Chunk) :
    due room allowed 0 (putBack left later) = cut room left ++ due room allowed 0 later := by
  unfold putBack
  split
  · next nothing => rw [List.isEmpty_iff.mp nothing, cut_nil, List.nil_append]
  · rw [due, upTo, ite_self, windows_cons, due]
    rfl

private theorem due_data (some : 0 < room) {bytes : Bytes} (more : bytes ≠ [])
    (allowed : Option Nat) (past : Nat) (rest : List Chunk) :
    due room allowed past (.data bytes :: rest) =
      bytes.take room :: due room allowed 0 (putBack (bytes.drop room) rest) := by
  rw [due_putBack, due, upTo, if_neg more, windows_cons, carried, cut_of_ne_nil some more]
  rfl

/-- What a read makes of the windows that are due: it brings the first of them, finds none, or waits
for a stall in vain. -/
inductive Meets (room : Nat) (allowed : Option Nat) (past : Nat) (queue : List Chunk) :
    Except Refusal Bytes → List Chunk → Prop where
  | window {bytes : Bytes} {rest : List Chunk} (some : bytes ≠ [])
      (next : due room allowed past queue = bytes :: due room allowed 0 rest) :
      Meets room allowed past queue (.ok bytes) rest
  | nothing {rest : List Chunk} (ended : due room allowed past queue = []) :
      Meets room allowed past queue (.ok []) rest
  | stall {rest : List Chunk} (waits : allowed.isSome = true)
      (next : due room allowed past queue =
        if allowed = some (past + 1) then [] else due room allowed (past + 1) rest) :
      Meets room allowed past queue (.error .timedOut) rest

private theorem Meets.skip {allowed : Option Nat} {past : Nat} {queue rest : List Chunk}
    {outcome : Except Refusal Bytes} (meets : Meets room allowed past queue outcome rest) :
    Meets room allowed past (.data [] :: queue) outcome rest := by
  have same : due room allowed past (.data [] :: queue) = due room allowed past queue := by
    rw [due, upTo, if_pos rfl, windows_cons, carried, cut_nil, List.nil_append, due]
  cases meets with
  | window some next => exact .window some (same.trans next)
  | nothing ended => exact .nothing (same.trans ended)
  | stall waits next => exact .stall waits (same.trans next)

end Chunk

namespace Tree

open Chunk (Meets due windows upTo cut)

/-- With a deadline exactly where stalls are limited, a read meets what is due. -/
theorem readQueue_meets {room : Nat} {buffer : Bytes} (some : 0 < room)
    (fits : room ≤ buffer.length) {wait : Option Duration} {allowed : Option Nat}
    (limited : wait.isSome = allowed.isSome) (past : Nat) (queue : List Chunk) :
    Meets room allowed past queue ((readQueue room wait queue).1.outcome buffer)
      (readQueue room wait queue).2 := by
  cases allowed with
  | none =>
      obtain rfl : wait = none := by simpa using limited
      have takes := readQueue_takes fits none queue
      generalize (readQueue room none queue).2 = rest at takes ⊢
      have whole (past : Nat) (queue : List Chunk) :
          due room none past queue = windows room queue := by rw [due, Chunk.upTo_none]
      cases outcome : (readQueue room none queue).1.outcome buffer with
      | ok bytes =>
          rw [outcome] at takes
          have next := takes.windows_ok some
          by_cases empty : bytes = []
          · subst empty
            exact .nothing ((whole past queue).trans (next.trans (if_pos rfl)))
          · rw [if_neg empty] at next
            exact .window empty (by rw [whole, whole, next])
      | error refusal =>
          rw [outcome] at takes
          cases takes with
          | stall empty waits later => cases waits
  | some stalls =>
      have waits : wait.isSome = true := limited
      fun_induction readQueue room wait queue with
      | case1 => exact .nothing rfl
      | case2 rest =>
          refine .stall rfl ?_
          rw [due, upTo]
          split
          · rfl
          · rw [Chunk.windows_cons, Chunk.carried, Chunk.cut_nil]
            rfl
      | case3 rest still => exact absurd waits still
      | case4 rest ih => exact ih.skip
      | case5 bytes rest more taken left =>
          have short : (bytes.take room).length ≤ buffer.length :=
            Nat.le_trans (List.length_take_le room bytes) fits
          have outcome : Delivery.outcome ⟨taken, .ok taken.length⟩ buffer =
              .ok (bytes.take room) := congrArg Except.ok (Bytes.take_overlay short)
          have front : bytes.take room ≠ [] := by
            rw [ne_eq, List.take_eq_nil_iff, not_or]
            exact ⟨Nat.ne_of_gt some, more⟩
          rw [outcome]
          refine .window front ?_
          exact Chunk.due_data some more _ _ rest

end Tree

end RemoteTree
