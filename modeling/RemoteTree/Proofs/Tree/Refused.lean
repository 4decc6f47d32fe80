import RemoteTree.Proofs.Tree.Queue
import RemoteTree.Proofs.Tree.Writing

/-!
# Refused requests

A request that is refused leaves a tree as it was. Reads and writes are counted all the same, and a
read with a deadline uses up the stall that it waited for.
-/

set_option autoImplicit false

namespace RemoteTree.Tree

variable {tree after : Tree} {path : Path} {fid : UInt32} {mode : OpenMode} {refusal : Refusal}

private theorem openAt_refused (refused : tree.openAt path mode = (.error refusal, after)) :
    after = tree := by
  unfold openAt at refused
  split at refused
  · cases refused
    rfl
  · split at refused
    · cases refused
      rfl
    · cases refused

private theorem createAt_refused {permissions : UInt32}
    (refused : tree.createAt path permissions mode = (.error refusal, after)) : after = tree := by
  unfold createAt at refused
  split at refused
  · cases refused
    rfl
  · split at refused
    · cases refused
      rfl
    · split at refused
      · cases refused
        rfl
      · split at refused
        · cases refused
        · cases refused
          rfl

private theorem removeAt_refused (refused : tree.removeAt path = (.error refusal, after)) :
    after = tree := by
  unfold removeAt at refused
  split at refused
  · cases refused
    rfl
  · split at refused
    · cases refused
      rfl
    · split at refused
      · cases refused
        rfl
      · cases refused

theorem writeTo_refused {data : Bytes} (refused : tree.writeTo fid data = (.error refusal, after)) :
    after = tree.countWrite := by
  unfold writeTo at refused
  dsimp only at refused
  split at refused
  · cases refused
    rfl
  · split at refused
    · cases refused
      rfl
    · split at refused
      · split at refused
        · cases refused
          rfl
        · split at refused
          · cases refused
            rfl
          · cases refused
          · cases refused
      · cases refused
        rfl

/-- What a refused read through an open file leaves of a tree. A deadline that passes costs a stall
and the chunks in front of it, none of which has any bytes. -/
inductive Withheld (fid : UInt32) (wait : Option Duration) (tree : Tree) : Refusal → Tree → Prop where
  | failed (message : String) (code : Option Int32) :
      Withheld fid wait tree (.failed message code) tree
  | timedOut {opened : OpenFile} {node : Node} {skipped later : List Chunk} :
      Table.find? fid tree.openFiles = some opened → tree.find? opened.path = some node →
      node.content = .stream (skipped ++ .stall :: later) →
      (∀ chunk ∈ skipped, chunk = .data []) → wait.isSome = true →
      Withheld fid wait tree .timedOut (tree.setContent opened.path node (.stream later))

private theorem readQueue_refused {room : Nat} {wait : Option Duration} {queue rest : List Chunk}
    {delivery : Delivery} (read : readQueue room wait queue = (delivery, rest))
    (refused : delivery.claimed = .error refusal) :
    delivery.received = [] ∧ refusal = .timedOut ∧ wait.isSome = true ∧
      ∃ skipped, queue = skipped ++ .stall :: rest ∧ ∀ chunk ∈ skipped, chunk = .data [] := by
  fun_induction readQueue room wait queue with
  | case1 =>
      cases read
      cases refused
  | case2 later waits =>
      cases read
      cases refused
      exact ⟨rfl, rfl, waits, [], rfl, List.forall_mem_nil _⟩
  | case3 later waits ih =>
      obtain ⟨-, -, bounded, -⟩ := ih read
      exact absurd bounded waits
  | case4 later ih =>
      obtain ⟨nothing, timedOut, bounded, skipped, split, empty⟩ := ih read
      refine ⟨nothing, timedOut, bounded, .data [] :: skipped, ?_, ?_⟩
      · rw [split, List.cons_append]
      · exact List.forall_mem_cons.mpr ⟨rfl, empty⟩
  | case5 =>
      cases read
      cases refused

theorem packRecords_refused {listing : Bytes} {room : Nat} {limit : Option Nat}
    (refused : packRecords listing room limit = .error refusal) : refusal = .roomTooSmall := by
  simp only [packRecords] at refused
  split at refused
  · cases refused
    rfl
  · cases refused

section

variable {room : Nat} {wait : Option Duration} {delivery : Delivery}

private theorem readNode_refused {opened : OpenFile} {node : Node}
    (found : Table.find? fid tree.openFiles = some opened)
    (there : tree.find? opened.path = some node)
    (read : tree.readNode fid opened node room wait = (some delivery, after))
    (refused : delivery.claimed = .error refusal) :
    delivery.received = [] ∧ Withheld fid wait tree refusal after := by
  unfold readNode at read
  split at read
  · split at read
    · cases read
    · split at read
      · next small packed =>
        cases read
        cases refused
        rw [packRecords_refused packed]
        exact ⟨rfl, .failed _ _⟩
      · split at read
        · cases read
        · cases read
          cases refused
  · cases read
    cases refused
  · next queue holds =>
    cases delivered : readQueue (capped tree.limits.mostRead room) wait queue with
    | mk brought rest =>
        rw [delivered] at read
        cases read
        obtain ⟨nothing, rfl, waits, skipped, rfl, empty⟩ := readQueue_refused delivered refused
        exact ⟨nothing, .timedOut found there holds empty waits⟩

theorem readFrom_refused (read : tree.readFrom fid room wait = (some delivery, after))
    (refused : delivery.claimed = .error refusal) :
    delivery.received = [] ∧ Withheld fid wait tree.countRead refusal after := by
  have failed {message : String} {code : Option Int32}
      (read : (some (refusedRead (.failed message code)), tree.countRead) =
        (some delivery, after)) :
      delivery.received = [] ∧ Withheld fid wait tree.countRead refusal after := by
    cases read
    cases refused
    exact ⟨rfl, .failed message code⟩
  unfold readFrom at read
  dsimp only at read
  split at read
  · exact failed read
  · split at read
    · exact failed read
    · next opened found =>
      split at read
      · split at read
        · exact failed read
        · next node there => exact readNode_refused found there read refused
      · exact failed read

/-- A read that a tree refuses as a server has not broken off. -/
theorem readFrom_of_refused {handle : Handle} {buffer : Bytes}
    (answered : server.answer (.readFrom handle buffer wait) tree = (delivery, after))
    (refused : delivery.claimed = .error refusal) :
    tree.readFrom handle.fid buffer.length wait = (some delivery, after) := by
  rcases read : tree.readFrom handle.fid buffer.length wait with ⟨brought, left⟩
  simp only [server, read] at answered
  cases answered
  cases brought with
  | none => cases refused
  | some delivery => rfl

end

private theorem closeFid_unknown (unknown : Table.find? fid tree.openFiles = none) :
    tree.closeFid fid = tree := by
  unfold closeFid
  rw [unknown]

/-- What is left of a tree when it has refused a request: all that was there, with one more read or
write on the ledger if it was one. Only a read with a deadline takes anything, and that is the stall
which kept it waiting. No byte of a read's buffer is touched. -/
theorem refused_leaves (tree after : Tree) (refusal : Refusal) :
    (∀ text mode, server.answer (.openFile text mode) tree = (.error refusal, after) →
      after = tree) ∧
    (∀ text permissions mode,
      server.answer (.createFile text permissions mode) tree = (.error refusal, after) →
        after = tree) ∧
    (∀ text, server.answer (.removeFile text) tree = (.error refusal, after) → after = tree) ∧
    (∀ text, server.answer (.statFile text) tree = (.error refusal, after) → after = tree) ∧
    (∀ handle data, server.answer (.writeTo handle data) tree = (.error refusal, after) →
      after = tree.countWrite) ∧
    (∀ handle buffer wait delivery,
      server.answer (.readFrom handle buffer wait) tree = (delivery, after) →
        delivery.claimed = .error refusal →
          Bytes.overlay delivery.received buffer = buffer ∧
            Withheld handle.fid wait tree.countRead refusal after) ∧
    ∀ handle, Table.find? handle.fid tree.openFiles = none →
      server.answer (.closeFile handle) tree = ((), tree) := by
  refine ⟨?_, ?_, ?_, ?_, ?_, ?_, ?_⟩
  · intro text mode refused
    exact openAt_refused refused
  · intro text permissions mode refused
    exact createAt_refused refused
  · intro text refused
    exact removeAt_refused refused
  · intro text refused
    simp only [server] at refused
    split at refused
    · cases refused
    · cases refused
      rfl
  · intro handle data refused
    exact writeTo_refused refused
  · intro handle buffer wait delivery read refused
    obtain ⟨nothing, left⟩ := readFrom_refused (readFrom_of_refused read refused) refused
    refine ⟨?_, left⟩
    rw [nothing]
    simp [Bytes.overlay]
  · intro handle unknown
    exact congrArg (Prod.mk ()) (closeFid_unknown unknown)

/-- A directory that is not empty stays, a write fails for good, and a read with a deadline meets a
stall behind chunks without bytes. -/
theorem refused_leaves_of_stall :
    let tree := (((Tree.empty { failAfterWrites := some 0 } 3).addFile "/d/f" [7]).addStream "/s"
      [.data [], .data [], .stall, .data [1]]).after [.request (.openFile "/s" .readWrite)]
    let handle : Handle := ⟨1, 0, 0⟩
    let wait : Option Duration := some (.seconds 1)
    server.answer (.removeFile "/d") tree = (.error .notEmpty, tree) ∧
      server.answer (.writeTo handle [2]) tree = (.error .faulty, tree.countWrite) ∧
      ∃ delivery after, server.answer (.readFrom handle [8, 9] wait) tree = (delivery, after) ∧
        Bytes.overlay delivery.received [8, 9] = [8, 9] ∧
        Withheld 1 wait tree.countRead .timedOut after ∧
        after.find? (.ofText "/s") = some ⟨4, 0o444, 3, .stream [.data [1]]⟩ := by
  intro tree handle wait
  have remove : server.answer (.removeFile "/d") tree =
      (.error .notEmpty, (server.answer (.removeFile "/d") tree).2) :=
    Prod.ext (by decide +kernel) rfl
  have write : server.answer (.writeTo handle [2]) tree =
      (.error .faulty, (server.answer (.writeTo handle [2]) tree).2) :=
    Prod.ext (by decide +kernel) rfl
  have late : (server.answer (.readFrom handle [8, 9] wait) tree).1.claimed =
      .error .timedOut := by decide +kernel
  obtain ⟨-, -, removed, -, -, -, -⟩ := refused_leaves tree _ .notEmpty
  obtain ⟨-, -, -, -, written, -, -⟩ := refused_leaves tree _ .faulty
  obtain ⟨-, -, -, -, -, read, -⟩ := refused_leaves tree _ .timedOut
  obtain ⟨untouched, left⟩ := read handle [8, 9] wait _ rfl late
  refine ⟨?_, ?_, _, _, rfl, untouched, left, by decide +kernel⟩
  · rw [remove, removed "/d" remove]
  · rw [write, written handle [2] write]

end RemoteTree.Tree
