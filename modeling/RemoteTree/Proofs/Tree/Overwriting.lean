import RemoteTree.Bytes.Lemmas
import RemoteTree.Proofs.Client.Custody
import RemoteTree.Proofs.Tree.Deliveries
import RemoteTree.Proofs.Tree.Writing

/-!
# Overwriting a plain file

What offering all of some data to a plain file comes to when a tree takes little at once and starts
to fail after some writes.
-/

set_option autoImplicit false

namespace RemoteTree

/-! ## Counts of writes -/

/-- The writes that it takes to have some number of bytes taken. -/
def writesNeeded (most : Option Nat) (size : Nat) : Nat :=
  match most with
  | some most => (size + most - 1) / most
  | none => if size = 0 then 0 else 1

/-- The bytes that some writes take. -/
def bytesTaken (most : Option Nat) (writes size : Nat) : Nat :=
  match most with
  | some most => min size (writes * most)
  | none => if writes = 0 then 0 else size

@[simp] theorem writesNeeded_zero (most : Option Nat) : writesNeeded most 0 = 0 := by
  cases most with
  | none => rfl
  | some most =>
      rw [writesNeeded, Nat.zero_add, Nat.div_eq_zero_iff]
      omega

@[simp] theorem bytesTaken_zero (most : Option Nat) (size : Nat) : bytesTaken most 0 size = 0 := by
  cases most with
  | none => rfl
  | some most => rw [bytesTaken, Nat.zero_mul, Nat.min_zero]

theorem bytesTaken_le (most : Option Nat) (writes size : Nat) :
    bytesTaken most writes size ≤ size := by
  unfold bytesTaken
  split
  · exact Nat.min_le_left _ _
  · split
    · exact Nat.zero_le _
    · exact Nat.le_refl _

section

variable {most : Option Nat} {size : Nat}

private theorem writesNeeded_succ (moving : most ≠ some 0) (more : 0 < size) :
    writesNeeded most size = writesNeeded most (size - Tree.capped most size) + 1 := by
  cases most with
  | none =>
      rw [Tree.capped, Nat.sub_self, writesNeeded_zero, writesNeeded, if_neg (Nat.ne_of_gt more)]
  | some most =>
      have positive : 0 < most := Nat.pos_of_ne_zero fun zero => moving (by rw [zero])
      rw [writesNeeded, writesNeeded, Tree.capped]
      by_cases within : size ≤ most
      · have once : size + most - 1 = size - 1 + most := by omega
        have last : (0 + most - 1) / most = 0 := Nat.div_eq_of_lt (by omega)
        rw [Nat.min_eq_left within, Nat.sub_self, last, once, Nat.add_div_right _ positive,
          Nat.div_eq_of_lt (by omega)]
      · have once : size + most - 1 = size - most + most - 1 + most := by omega
        rw [Nat.min_eq_right (by omega), once, Nat.add_div_right _ positive]

private theorem bytesTaken_succ (moving : most ≠ some 0) (writes : Nat) :
    bytesTaken most (writes + 1) size =
      Tree.capped most size + bytesTaken most writes (size - Tree.capped most size) := by
  cases most with
  | none =>
      rw [Tree.capped, Nat.sub_self, bytesTaken, bytesTaken, if_neg (Nat.succ_ne_zero writes),
        ite_self, Nat.add_zero]
  | some most =>
      rw [bytesTaken, bytesTaken, Tree.capped, Nat.succ_mul]
      omega

theorem bytesTaken_needed (moving : most ≠ some 0) :
    bytesTaken most (writesNeeded most size) size = size := by
  cases most with
  | none =>
      rw [writesNeeded, bytesTaken]
      split <;> simp_all
  | some most =>
      have positive : 0 < most := Nat.pos_of_ne_zero fun zero => moving (by rw [zero])
      have parts := Nat.div_add_mod (size + most - 1) most
      have rest := Nat.mod_lt (size + most - 1) positive
      rw [writesNeeded, bytesTaken, Nat.mul_comm]
      omega

end

private theorem Node.content_written_file {node : Node} {contents : Bytes}
    (holds : node.content = .file contents) (now : UInt32) (offset : Nat) (data : Bytes) :
    (node.written now offset data).content = .file (Tree.writtenAt contents offset data) := by
  rw [written, holds]

namespace Tree

/-- The writes that a tree still allows, if it is to fail at all. -/
def writesAllowed (tree : Tree) : Option Nat :=
  tree.limits.failAfterWrites.map (· - tree.ledger.writes)

def countWrites (tree : Tree) (calls : Nat) : Tree :=
  { tree with ledger := { tree.ledger with writes := tree.ledger.writes + calls } }

/-- The tree after some writes, the first ones of which were accepted and took some data. -/
def wrote (tree : Tree) (fid : UInt32) (opened : OpenFile) (node : Node) (accepted calls : Nat)
    (data : Bytes) : Tree :=
  (if accepted = 0 then tree else tree.put fid opened node data).countWrites calls

variable {tree : Tree} {fid : UInt32} {opened : OpenFile} {node : Node} {contents : Bytes}

private theorem exceeds_succ_iff :
    exceeds tree.limits.failAfterWrites (tree.ledger.writes + 1) = true ↔
      tree.writesAllowed = some 0 := by
  rw [writesAllowed]
  cases tree.limits.failAfterWrites with
  | none => exact iff_of_false nofun nofun
  | some most =>
      rw [exceeds, Option.map_some, Option.some_inj, decide_eq_true_iff]
      omega

@[simp] theorem capped_zero (limit : Option Nat) : capped limit 0 = 0 :=
  Nat.le_zero.mp (capped_le limit 0)

@[simp] theorem exceeds_zero (limit : Option Nat) : exceeds limit 0 = false := by
  cases limit <;> rfl

section

variable {allowed : Option Nat} {count : Nat}

theorem capped_of_enough (enough : exceeds allowed count = false) :
    capped allowed count = count ∧ capped (allowed.map (· + 1)) count = count := by
  cases allowed with
  | none => exact ⟨rfl, rfl⟩
  | some allowed =>
      have within : count ≤ allowed := by simpa [exceeds] using enough
      exact ⟨Nat.min_eq_left within, Nat.min_eq_left (Nat.le_succ_of_le within)⟩

private theorem capped_succ (left : allowed ≠ some 0) (count : Nat) :
    capped allowed (count + 1) = capped (allowed.map (· - 1)) count + 1 := by
  cases allowed with
  | none => rfl
  | some allowed =>
      have positive : allowed ≠ 0 := fun zero => left (by rw [zero])
      rw [capped, Option.map_some, capped]
      omega

private theorem exceeds_succ (left : allowed ≠ some 0) (count : Nat) :
    exceeds allowed (count + 1) = exceeds (allowed.map (· - 1)) count := by
  cases allowed with
  | none => rfl
  | some allowed =>
      have positive : allowed ≠ 0 := fun zero => left (by rw [zero])
      rw [exceeds, Option.map_some, exceeds, decide_eq_decide]
      omega

private theorem map_succ_map_pred (left : allowed ≠ some 0) :
    (allowed.map (· - 1)).map (· + 1) = (allowed.map (· + 1)).map (· - 1) := by
  cases allowed with
  | none => rfl
  | some allowed =>
      have positive : allowed ≠ 0 := fun zero => left (by rw [zero])
      rw [Option.map_some, Option.map_some, Option.map_some, Option.map_some, Option.some_inj]
      omega

end

private theorem writesAllowed_put (tree : Tree) (fid : UInt32) (opened : OpenFile) (node : Node)
    (data : Bytes) :
    (tree.countWrite.put fid opened node data).writesAllowed =
      tree.writesAllowed.map (· - 1) := by
  rw [writesAllowed, writesAllowed, Option.map_map]
  rfl

private theorem put_put_file (tree : Tree) (fid : UInt32) (opened : OpenFile)
    (holds : node.content = .file contents) (first rest : Bytes) :
    (tree.put fid opened node first).put fid (opened.past node first.length)
        (node.written tree.now opened.offset first) rest =
      tree.put fid opened node (first ++ rest) := by
  obtain ⟨identity, mode, changeTime, content⟩ := node
  cases holds
  simp [put, Node.written, OpenFile.past, writtenAt_writtenAt, Nat.add_assoc]

private theorem wrote_put (holds : node.content = .file contents) {accepted : Nat}
    {first rest : Bytes} (none : accepted = 0 → rest = []) (calls : Nat) :
    (tree.countWrite.put fid opened node first).wrote fid (opened.past node first.length)
        (node.written tree.now opened.offset first) accepted calls rest =
      tree.wrote fid opened node (accepted + 1) (calls + 1) (first ++ rest) := by
  have counts (after : Tree) :
      after.countWrite.countWrites calls = after.countWrites (calls + 1) := by
    simp only [countWrite, countWrites, Nat.add_assoc, Nat.add_comm 1]
  rw [wrote, wrote, if_neg (Nat.succ_ne_zero accepted), ← counts]
  split
  · next zero =>
    rw [none zero, List.append_nil]
    rfl
  · next some =>
    exact congrArg (countWrites · calls)
      (congrArg countWrite (tree.put_put_file fid opened holds first rest))

end Tree

namespace Client

def resultOfOverwriting (path : String) (allowed : Option Nat) (needed : Nat) :
    Except ClientError Unit :=
  if Tree.exceeds allowed needed then .error (.write path .faulty) else .ok ()

/-- How offering all of some data to an open plain file goes: the writes that are allowed take the
front of it. -/
structure Overwritten (tree : Tree) (handle : Handle) (opened : OpenFile) (node : Node)
    (path : String) (data : Bytes) (log : List Exchange) (ran : Except ClientError Unit × Tree) :
    Prop where
  result : ran.1 = resultOfOverwriting path tree.writesAllowed
    (writesNeeded tree.limits.mostWritten data.length)
  calls : log.length = Tree.capped (tree.writesAllowed.map (· + 1))
    (writesNeeded tree.limits.mostWritten data.length)
  after :
    let accepted := Tree.capped tree.writesAllowed
      (writesNeeded tree.limits.mostWritten data.length)
    ran.2 = tree.wrote handle.fid opened node accepted log.length
      (data.take (bytesTaken tree.limits.mostWritten accepted data.length))

namespace Overwritten

variable {tree : Tree} {handle : Handle} {opened : OpenFile} {node : Node} {contents data : Bytes}
  {log : List Exchange} {ran : Except ClientError Unit × Tree}

private theorem nothing (tree : Tree) (handle : Handle) (opened : OpenFile) (node : Node)
    (path : String) : Overwritten tree handle opened node path [] [] (.ok (), tree) := by
  constructor
  · simp [resultOfOverwriting]
  · simp
  · simp [Tree.wrote, Tree.countWrites]

theorem refused (spent : tree.writesAllowed = some 0) (some : data ≠ [])
    (moving : tree.limits.mostWritten ≠ .some 0) (handle : Handle) (opened : OpenFile)
    (node : Node) (path : String) (exchange : Exchange) :
    Overwritten tree handle opened node path data [exchange]
      (.error (.write path .faulty), tree.countWrite) := by
  have needed := writesNeeded_succ moving (List.length_pos_of_ne_nil some)
  constructor
  · rw [spent, needed, resultOfOverwriting, Tree.exceeds, decide_eq_true (Nat.succ_pos _)]
    rfl
  · rw [spent, needed, Option.map_some, Tree.capped, Nat.min_eq_right (Nat.le_add_left _ _)]
    rfl
  · rw [spent, Tree.capped, Nat.min_zero]
    rfl

private theorem cons (holds : node.content = .file contents) (left : tree.writesAllowed ≠ some 0)
    (moving : tree.limits.mostWritten ≠ some 0) (some : data ≠ []) {path : String}
    (exchange : Exchange)
    (rest :
      let most := Tree.capped tree.limits.mostWritten data.length
      let taken := data.take most
      Overwritten (tree.countWrite.put handle.fid opened node taken) handle
        (opened.past node taken.length) (node.written tree.now opened.offset taken) path
        (data.drop most) log ran) :
    Overwritten tree handle opened node path data (exchange :: log) ran := by
  have needed := writesNeeded_succ moving (List.length_pos_of_ne_nil some)
  obtain ⟨result, calls, after⟩ := rest
  dsimp only at result calls after
  rw [Tree.writesAllowed_put, List.length_drop] at result calls after
  have limits (data : Bytes) :
    (tree.countWrite.put handle.fid opened node data).limits = tree.limits := rfl
  rw [limits] at result calls after
  generalize writesNeeded tree.limits.mostWritten
    (data.length - Tree.capped tree.limits.mostWritten data.length) = more at *
  constructor
  · rw [result, needed, resultOfOverwriting, resultOfOverwriting, Tree.exceeds_succ left]
  · have spare : tree.writesAllowed.map (· + 1) ≠ .some 0 := by
      simp
    rw [needed, Tree.capped_succ spare, List.length_cons, calls, Tree.map_succ_map_pred left]
  · dsimp only
    rw [needed, Tree.capped_succ left, bytesTaken_succ moving, List.take_add, after]
    refine Tree.wrote_put holds (fun zero => ?_) log.length
    rw [zero, bytesTaken_zero, List.take_zero]

end Overwritten

/-- The rounds that write all of some data to an open plain file: a tree that has no write left
refuses, any other takes a front of what is left. -/
theorem WriteRounds.overwritten {tree : Tree} {handle : Handle} {opened : OpenFile} {node : Node}
    {path : String} {contents data : Bytes} {log : List Exchange}
    {ran : Except ClientError Unit × Tree}
    (rounds : WriteRounds Tree.server handle path data tree log ran)
    (writes : tree.Writes handle.fid opened node) (holds : node.content = .file contents)
    (moving : tree.limits.mostWritten ≠ some 0) :
    Overwritten tree handle opened node path data log ran := by
  have refuses (tree : Tree) (data : Bytes) (spent : tree.writesAllowed = some 0) :
      Round Tree.server tree ⟨.writeTo handle data, .error .faulty⟩ (.refused .faulty)
        tree.countWrite :=
    ⟨if_pos (Tree.exceeds_succ_iff.mpr spent), rfl⟩
  have allowed (tree : Tree) (left : tree.writesAllowed ≠ some 0) :
      Tree.exceeds tree.limits.failAfterWrites (tree.ledger.writes + 1) = false :=
    Bool.eq_false_of_not_eq_true (mt Tree.exceeds_succ_iff.mp left)
  -- The tree stays one that writes to a plain file.
  induction rounds generalizing opened node contents with
  | nothing tree => exact .nothing tree handle opened node path
  | @last data tree after reply transfer some round still =>
      by_cases spent : tree.writesAllowed = .some 0
      · obtain ⟨rfl, rfl⟩ := round.unique (refuses tree data spent)
        exact .refused spent some moving handle opened node path _
      · obtain ⟨moves, -⟩ := round.unique
          (round_of_writes writes (allowed tree spent) moving some)
        exact absurd moves (still _)
  | @next data bytes left tree middle reply log ran round split rounds ih =>
      by_cases spent : tree.writesAllowed = some 0
      · obtain ⟨moves, -⟩ := round.unique (refuses tree data spent)
        cases moves
      · have some : data ≠ [] := by
          rintro rfl
          exact Exchange.ne_nil_of_transfer? round.comes (List.append_eq_nil_iff.mp split).1
        obtain ⟨moves, rfl⟩ := round.unique
          (round_of_writes writes (allowed tree spent) moving some)
        have behind : left = data.drop (Tree.capped tree.limits.mostWritten data.length) := by
          rw [Transfer.moved.inj moves] at split
          exact List.append_cancel_left (split.trans (List.take_append_drop _ data).symm)
        subst behind
        have later := ih (writes.countWrite.put _) (Node.content_written_file holds ..) moving
        exact .cons holds spent moving some _ later

end Client

end RemoteTree
