import RemoteTree.Proofs.Tree.Listing

/-!
# Well-formed trees

In a well-formed tree every node lies in a directory of the tree, up to the root, and its mode says
whether it is a directory itself. Requests leave a tree well formed, so everything that is in it can
be reached from the root by the names that its directories list.
-/

set_option autoImplicit false

namespace RemoteTree.Tree

theorem hasDirectory_iff {tree : Tree} {path : Path} :
    tree.hasDirectory path = true ↔
      ∃ node, tree.find? path = some node ∧ node.isDirectory = true := by
  unfold hasDirectory
  cases tree.find? path with
  | none => simp
  | some node => simp

structure WellFormed (tree : Tree) : Prop extends tree.Proper where
  root : tree.hasDirectory .root = true
  parents : ∀ parent name node,
    tree.find? (.child parent name) = some node → tree.hasDirectory parent = true
  modes : ∀ path node,
    tree.find? path = some node → (node.mode &&& directoryMode != 0) = node.isDirectory

/-- Every node but the root lies in a directory of the tree. -/
def Parented (tree : Tree) : Prop :=
  ∀ parent name node,
    tree.find? (.child parent name) = some node → tree.hasDirectory parent = true

/-- The places that a walk gets to which starts at the root and takes every step by the name in a
record of a directory's listing. -/
inductive Reached (tree : Tree) : Path → Prop where
  | root : Reached tree .root
  | entry {directory : Path} {stat : Stat} :
      Reached tree directory → tree.hasDirectory directory = true →
      stat ∈ tree.childStats directory → Reached tree (.child directory stat.name)

theorem WellFormed.reached {tree : Tree} (wellFormed : tree.WellFormed) {path : Path} {node : Node}
    (found : tree.find? path = some node) : tree.Reached path := by
  induction path generalizing node with
  | root => exact .root
  | child parent name ih =>
      have inside := wellFormed.parents parent name node found
      obtain ⟨directory, above, -⟩ := hasDirectory_iff.mp inside
      have listed : tree.statOf (.child parent name) node ∈ tree.childStats parent :=
        wellFormed.toProper.mem_childStats.mpr ⟨name, node, found, rfl⟩
      exact .entry (ih above) inside listed

/-! ## What a request does to the nodes -/

/-- The nodes before a request and after it. -/
inductive Turn (nodes : Table Path Node) : Table Path Node → Prop where
  | still : Turn nodes nodes
  | rewrite {path : Path} {node rewritten : Node} :
      Table.find? path nodes = some node → rewritten.mode = node.mode →
      rewritten.isDirectory = node.isDirectory → Turn nodes (Table.insert path rewritten nodes)
  | create {parent : Path} {name : String} {directory node : Node} :
      (Path.child parent name).Proper → Table.find? (.child parent name) nodes = none →
      Table.find? parent nodes = some directory → directory.isDirectory = true →
      (node.mode &&& directoryMode != 0) = node.isDirectory →
      Turn nodes (Table.insert (.child parent name) node nodes)
  | unlink {path : Path} {node : Node} :
      path ≠ .root → Table.find? path nodes = some node →
      (node.isDirectory = true → ∀ entry ∈ nodes, entry.1.parent? ≠ some path) →
      Turn nodes (Table.erase path nodes)

private theorem openAt_turn (tree : Tree) (path : Path) (mode : OpenMode) :
    Turn tree.nodes (tree.openAt path mode).2.nodes := by
  unfold openAt
  split
  · exact .still
  · split
    · exact .still
    · exact .still

private theorem insert_of_free {tree : Tree} {parent : Path} {name : String}
    (free : tree.find? (.child parent name) = none) (above : tree.hasDirectory parent = true)
    (mode : UInt32) (content : Content) :
    (tree.insert (.child parent name) mode content).nodes =
      Table.insert (.child parent name) ⟨tree.lastIdentity + 1, mode, tree.now, content⟩
        tree.nodes := by
  unfold insert
  dsimp only
  rw [if_pos above, place, free]

private theorem kept_unmarked (permissions : UInt32) :
    permissions &&& permissionBits &&& directoryMode = 0 := by
  have apart : permissionBits &&& directoryMode = 0 := by decide
  rw [UInt32.and_assoc, apart, UInt32.and_zero]

private theorem kept_marked (permissions : UInt32) :
    (directoryMode ||| permissions &&& permissionBits) &&& directoryMode = directoryMode := by
  have apart := congrArg UInt32.toBitVec (kept_unmarked permissions)
  rw [UInt32.toBitVec_and] at apart
  apply UInt32.toBitVec_inj.mp
  rw [UInt32.toBitVec_and, UInt32.toBitVec_or, BitVec.and_or_distrib_right, BitVec.and_self, apart]
  exact BitVec.or_zero

private theorem createAt_turn (tree : Tree) {path : Path} (proper : path.Proper)
    (permissions : UInt32)
    (mode : OpenMode) : Turn tree.nodes (tree.createAt path permissions mode).2.nodes := by
  unfold createAt
  split
  · exact .still
  · next taken =>
    cases path with
    | root => exact .still
    | child parent name =>
        have free : tree.find? (.child parent name) = none := by simpa using taken
        simp only [Path.parent?]
        split
        · exact .still
        · next directory found =>
          split
          · next isDirectory =>
            have above : tree.hasDirectory parent = true :=
              hasDirectory_iff.mpr ⟨directory, found, isDirectory⟩
            simp only [issue]
            -- Neither kind of node can get the other's mode, whatever permissions are asked for.
            split
            · rw [insert_of_free free above]
              apply Turn.create proper free found isDirectory
              rw [kept_marked]
              rfl
            · rw [insert_of_free free above]
              apply Turn.create proper free found isDirectory
              rw [kept_unmarked]
              rfl
          · exact .still

private theorem readNode_turn {tree : Tree} {fid : UInt32} {opened : OpenFile} {node : Node}
    (there : tree.find? opened.path = some node) (room : Nat) (wait : Option Duration) :
    Turn tree.nodes (tree.readNode fid opened node room wait).2.nodes := by
  unfold readNode
  split
  · split
    · exact .still
    · split
      · exact .still
      · split
        · exact .still
        · exact .still
  · exact .still
  · next queue holds => exact .rewrite there rfl (by simp [Node.isDirectory, holds])

private theorem readFrom_turn (tree : Tree) (fid : UInt32) (room : Nat) (wait : Option Duration) :
    Turn tree.nodes (tree.readFrom fid room wait).2.nodes := by
  unfold readFrom
  dsimp only
  split
  · exact .still
  · split
    · exact .still
    · next opened found =>
      split
      · split
        · exact .still
        · next node there => exact readNode_turn there room wait
      · exact .still

private theorem writeTo_turn (tree : Tree) (fid : UInt32) (data : Bytes) :
    Turn tree.nodes (tree.writeTo fid data).2.nodes := by
  unfold writeTo
  dsimp only
  split
  · exact .still
  · split
    · exact .still
    · next opened found =>
      split
      · split
        · exact .still
        · next node there =>
          split
          · exact .still
          · next contents holds => exact .rewrite there rfl (by simp [Node.isDirectory, holds])
          · next queue holds => exact .rewrite there rfl (by simp [Node.isDirectory, holds])
      · exact .still

private theorem removeAt_turn (tree : Tree) (path : Path) :
    Turn tree.nodes (tree.removeAt path).2.nodes := by
  unfold removeAt
  split
  · exact .still
  · next below =>
    split
    · exact .still
    · next node found =>
      split
      · exact .still
      · next bare =>
        apply Turn.unlink below found
        intro isDirectory entry member inside
        apply bare
        simp only [isDirectory, Bool.true_and, List.any_eq_true, decide_eq_true_eq]
        exact ⟨entry, member, inside⟩

private theorem closeFid_turn (tree : Tree) (fid : UInt32) :
    Turn tree.nodes (tree.closeFid fid).nodes := by
  unfold closeFid
  split
  · exact .still
  · exact .still

private theorem answer_turn (tree : Tree) (request : Request) :
    Turn tree.nodes (server.answer request tree).2.nodes := by
  cases request with
  | openFile path mode => exact openAt_turn tree _ mode
  | createFile path permissions mode =>
      exact createAt_turn tree (Path.proper_ofText path) permissions mode
  | readFrom handle buffer wait => exact readFrom_turn tree handle.fid _ wait
  | writeTo handle data => exact writeTo_turn tree handle.fid data
  | removeFile path => exact removeAt_turn tree _
  | statFile path =>
      simp only [server]
      split
      · exact .still
      · exact .still
  | closeFile handle => exact closeFid_turn tree handle.fid
  | unmount => exact .still

private theorem push_turn (tree : Tree) (path : String) (chunk : Chunk) :
    Turn tree.nodes (tree.push path chunk).2.nodes := by
  unfold push
  split
  · next node found =>
    split
    · next queue holds => exact .rewrite found rfl (by simp [Node.isDirectory, holds])
    · exact .still
  · exact .still

/-- Does a change put a node of any kind at any place, whatever stands there? -/
def Change.builds : Change → Bool
  | .addDirectory _ => true
  | .addFile _ _ => true
  | .addStream _ _ => true
  | _ => false

theorem change_turn {change : Change} (serves : change.builds = false) (tree : Tree) :
    Turn tree.nodes (change.apply tree).nodes := by
  cases change with
  | request request => exact answer_turn tree request
  | addDirectory path => cases serves
  | addFile path contents => cases serves
  | addStream path queue => cases serves
  | push path chunk => exact push_turn tree path chunk
  | _ => exact .still

/-! ## What keeps a tree well formed -/

section

variable {before after : Tree}

/-- A node that is there afterwards was there before, or it is new in a directory. -/
theorem Turn.found {path : Path} {node : Node} (turn : Turn before.nodes after.nodes)
    (there : after.find? path = some node) :
    (∃ old, before.find? path = some old) ∨
      ∃ parent name, path = .child parent name ∧ before.hasDirectory parent = true := by
  unfold find? at there
  generalize after.nodes = nodes at turn there
  cases turn with
  | still => exact .inl ⟨node, there⟩
  | @rewrite place old rewritten found mode kind =>
      rw [Table.find?_insert] at there
      split at there
      · next same => exact .inl ⟨old, same ▸ found⟩
      · exact .inl ⟨node, there⟩
  | @create parent name directory made named free found isDirectory mode =>
      rw [Table.find?_insert] at there
      split at there
      · next same =>
        exact .inr ⟨parent, name, same.symm, hasDirectory_iff.mpr ⟨directory, found, isDirectory⟩⟩
      · exact .inl ⟨node, there⟩
  | unlink below found bare =>
      rw [Table.find?_erase] at there
      split at there
      · cases there
      · exact .inl ⟨node, there⟩

/-- A directory stays one, unless it is taken away and had no entries. -/
theorem Turn.directory {path : Path} (turn : Turn before.nodes after.nodes)
    (isDirectory : before.hasDirectory path = true) :
    after.hasDirectory path = true ∨
      ∀ name, before.find? (.child path name) = none ∧ after.find? (.child path name) = none := by
  obtain ⟨old, here, kind⟩ := hasDirectory_iff.mp isDirectory
  simp only [hasDirectory_iff, find?] at here ⊢
  generalize after.nodes = nodes at turn
  cases turn with
  | still => exact .inl ⟨old, here, kind⟩
  | @rewrite place node rewritten found mode same =>
      left
      rw [Table.find?_insert]
      by_cases at_place : place = path
      · subst at_place
        cases found.symm.trans here
        exact ⟨rewritten, if_pos rfl, same.trans kind⟩
      · exact ⟨old, (if_neg at_place).trans here, kind⟩
  | @create parent name directory made named free found within mode =>
      left
      have apart : Path.child parent name ≠ path := by
        rintro rfl
        cases free.symm.trans here
      exact ⟨old, by rw [Table.find?_insert, if_neg apart, here], kind⟩
  | @unlink place node below found bare =>
      by_cases at_place : place = path
      · subst at_place
        cases found.symm.trans here
        right
        intro name
        have absent : Table.find? (.child place name) before.nodes = none := by
          cases entry : Table.find? (.child place name) before.nodes with
          | none => rfl
          | some child => exact absurd rfl (bare kind _ (Table.mem_of_find? entry))
        refine ⟨absent, ?_⟩
        rw [Table.find?_erase, absent, ite_self]
      · left
        exact ⟨old, by rw [Table.find?_erase, if_neg at_place, here], kind⟩

theorem Parented.turn (parented : before.Parented) (turn : Turn before.nodes after.nodes) :
    after.Parented := by
  intro parent name node there
  have within : before.hasDirectory parent = true := by
    cases turn.found there with
    | inl old =>
        obtain ⟨old, here⟩ := old
        exact parented parent name old here
    | inr made =>
        obtain ⟨holder, entry, same, directory⟩ := made
        cases same
        exact directory
  cases turn.directory within with
  | inl directory => exact directory
  | inr empty =>
      rw [(empty name).2] at there
      cases there

private theorem Proper.of_insert (proper : before.Proper) {path : Path} {node : Node}
    (named : path.Proper) (nodes : after.nodes = Table.insert path node before.nodes) :
    after.Proper := by
  have inserted := proper.insert named node
  constructor
  · rw [nodes]
    exact inserted.unique
  · rw [nodes]
    exact inserted.names

private theorem WellFormed.congr (wellFormed : before.WellFormed)
    (same : after.nodes = before.nodes) : after.WellFormed := by
  have lookup (path : Path) : after.find? path = before.find? path := by rw [find?, same, find?]
  refine ⟨⟨?_, ?_⟩, ?_, ?_, ?_⟩
  · rw [same]
    exact wellFormed.unique
  · rw [same]
    exact wellFormed.names
  · rw [hasDirectory, lookup]
    exact wellFormed.root
  · intro parent name node found
    rw [hasDirectory, lookup]
    exact wellFormed.parents parent name node (lookup _ ▸ found)
  · intro path node found
    exact wellFormed.modes path node (lookup path ▸ found)

theorem WellFormed.rewrite (wellFormed : before.WellFormed) {path : Path} {node rewritten : Node}
    (found : before.find? path = some node) (mode : rewritten.mode = node.mode)
    (kind : rewritten.isDirectory = node.isDirectory)
    (nodes : after.nodes = Table.insert path rewritten before.nodes) : after.WellFormed := by
  have lookup (wanted : Path) : after.find? wanted =
      if path = wanted then some rewritten else before.find? wanted := by
    rw [find?, nodes, Table.find?_insert, find?]
  have directories (wanted : Path) : after.hasDirectory wanted = before.hasDirectory wanted := by
    unfold hasDirectory
    rw [lookup]
    by_cases same : path = wanted
    · subst same
      rw [if_pos rfl, found]
      exact kind
    · rw [if_neg same]
  -- A rewritten node stands where a node of the same mode and kind stood.
  have stood {wanted : Path} {now : Node} (there : after.find? wanted = some now) :
      ∃ old, before.find? wanted = some old ∧ now.mode = old.mode ∧
        now.isDirectory = old.isDirectory := by
    rw [lookup] at there
    split at there
    · next same =>
      cases there
      exact ⟨node, same ▸ found, mode, kind⟩
    · exact ⟨now, there, rfl, rfl⟩
  refine ⟨wellFormed.toProper.of_insert (wellFormed.names _ (mem_keys_of_find? found)) nodes,
    ?_, ?_, ?_⟩
  · rw [directories]
    exact wellFormed.root
  · apply Parented.turn wellFormed.parents
    rw [nodes]
    exact .rewrite found mode kind
  · intro wanted now there
    obtain ⟨old, here, sameMode, sameKind⟩ := stood there
    rw [sameMode, sameKind]
    exact wellFormed.modes wanted old here

theorem WellFormed.create (wellFormed : before.WellFormed) {parent : Path} {name : String}
    {directory node : Node} (named : (Path.child parent name).Proper)
    (free : before.find? (.child parent name) = none) (found : before.find? parent = some directory)
    (isDirectory : directory.isDirectory = true)
    (mode : (node.mode &&& directoryMode != 0) = node.isDirectory)
    (nodes : after.nodes = Table.insert (.child parent name) node before.nodes) :
    after.WellFormed := by
  have lookup (wanted : Path) : after.find? wanted =
      if .child parent name = wanted then some node else before.find? wanted := by
    rw [find?, nodes, Table.find?_insert, find?]
  have kept {wanted : Path} (directory : before.hasDirectory wanted = true) :
      after.hasDirectory wanted = true := by
    obtain ⟨old, found, isDirectory⟩ := hasDirectory_iff.mp directory
    have apart : Path.child parent name ≠ wanted := by
      rintro rfl
      rw [free] at found
      cases found
    exact hasDirectory_iff.mpr ⟨old, by rw [lookup, if_neg apart, found], isDirectory⟩
  refine ⟨wellFormed.toProper.of_insert named nodes, kept wellFormed.root, ?_, ?_⟩
  · apply Parented.turn wellFormed.parents
    rw [nodes]
    exact .create named free found isDirectory mode
  · intro wanted now there
    rw [lookup] at there
    split at there
    · cases there
      exact mode
    · exact wellFormed.modes wanted now there

theorem WellFormed.unlink (wellFormed : before.WellFormed) {path : Path} {node : Node}
    (below : path ≠ .root) (found : before.find? path = some node)
    (bare : node.isDirectory = true → ∀ entry ∈ before.nodes, entry.1.parent? ≠ some path)
    (nodes : after.nodes = Table.erase path before.nodes) : after.WellFormed := by
  have lookup (wanted : Path) : after.find? wanted =
      if path = wanted then none else before.find? wanted := by
    rw [find?, nodes, Table.find?_erase, find?]
  have stood {wanted : Path} {now : Node} (there : after.find? wanted = some now) :
      before.find? wanted = some now := by
    rw [lookup] at there
    split at there
    · cases there
    · exact there
  have kept {wanted : Path} (apart : path ≠ wanted) (directory : before.hasDirectory wanted = true) :
      after.hasDirectory wanted = true := by
    obtain ⟨old, there, isDirectory⟩ := hasDirectory_iff.mp directory
    exact hasDirectory_iff.mpr ⟨old, by rw [lookup, if_neg apart, there], isDirectory⟩
  refine ⟨⟨?_, ?_⟩, kept below wellFormed.root, ?_, ?_⟩
  · rw [nodes]
    exact Table.nodup_keys_erase path wellFormed.unique
  · intro wanted member
    rw [nodes] at member
    exact wellFormed.names wanted ((List.filter_sublist.map _).subset member)
  · apply Parented.turn wellFormed.parents
    rw [nodes]
    exact .unlink below found bare
  · intro wanted now there
    exact wellFormed.modes wanted now (stood there)

theorem WellFormed.turn (wellFormed : before.WellFormed)
    (turn : Turn before.nodes after.nodes) : after.WellFormed := by
  generalize same : after.nodes = nodes at turn
  cases turn with
  | still => exact wellFormed.congr same
  | rewrite found mode kind => exact wellFormed.rewrite found mode kind same
  | create named free found isDirectory mode =>
      exact wellFormed.create named free found isDirectory mode same
  | unlink below found bare => exact wellFormed.unlink below found bare same

end

theorem wellFormed_empty (limits : Limits) (now : UInt32) : (empty limits now).WellFormed := by
  have root : (empty limits now).nodes = [(.root, ⟨1, plainDirectoryMode, now, .directory⟩)] := rfl
  have only {path : Path} {node : Node} (found : (empty limits now).find? path = some node) :
      path = .root ∧ node = ⟨1, plainDirectoryMode, now, .directory⟩ := by
    have member := mem_nodes_of_find? found
    rw [root, List.mem_singleton] at member
    cases member
    exact ⟨rfl, rfl⟩
  refine ⟨Reachable.proper (.empty limits now), rfl, ?_, ?_⟩
  · intro parent name node found
    cases (only found).1
  · intro path node found
    have marked : (plainDirectoryMode &&& directoryMode != 0) = true := by decide
    rw [(only found).2]
    exact marked

private theorem after_wellFormed {tree : Tree} (wellFormed : tree.WellFormed)
    {changes : List Change}
    (served : ∀ change ∈ changes, change.builds = false) : (tree.after changes).WellFormed := by
  induction changes generalizing tree with
  | nil => exact wellFormed
  | cons change rest ih =>
      obtain ⟨first, others⟩ := List.forall_mem_cons.mp served
      exact ih (wellFormed.turn (change_turn first tree)) others

/-- Whatever clients ask of a well-formed tree, in whatever spelling and through whatever handles,
it is well formed all along. Every node then has a text that spells its path, and a walk by the
names in listings gets to it; so no removal cuts a node off. A read that breaks off ends the run of
its client and leaves the tree as it was, but for the count of reads. -/
theorem wellFormed_throughout {tree : Tree} (wellFormed : tree.WellFormed) {changes : List Change}
    (served : ∀ change ∈ changes, change.builds = false) (earlier later : List Change)
    (split : changes = earlier ++ later) :
    (tree.after earlier).WellFormed ∧
      (∀ path node, (tree.after earlier).find? path = some node →
        Path.ofText path.text = path ∧ (tree.after earlier).Reached path) ∧
      ∀ asked, (tree.after earlier).reply? asked = none →
        tree.after (earlier ++ [.request asked]) = (tree.after earlier).countRead := by
  have kept : (tree.after earlier).WellFormed := by
    apply after_wellFormed wellFormed
    intro change member
    apply served
    rw [split]
    exact List.mem_append_left later member
  refine ⟨kept, ?_, fun asked unanswered => after_unanswered unanswered⟩
  intro path node found
  constructor
  · exact Path.ofText_text (kept.names path (mem_keys_of_find? found))
  · exact kept.reached found

/-- All permission bits at once, odd spellings, a directory that is not empty, and handles that are
closed or made up. A file is written and gives way to a directory, where the read through its handle
breaks off. -/
theorem wellFormed_throughout_of_spellings :
    let tree := Tree.empty {} 5
    let handle (fid : UInt32) : Handle := ⟨fid, 0, 0⟩
    let earlier : List Change :=
      [.request (.createFile "/d" 0xFFFFFFFF .write),
        .request (.createFile "d//./f/" 0x7FFFFFFF .readWrite), .request (.removeFile "./d/."),
        .request (.writeTo (handle 1) [1]), .request (.closeFile (handle 2)),
        .request (.writeTo (handle 2) [2]), .request (.readFrom (handle 99) [0] none),
        .createDirectories true, .request (.createFile "/d/.." 0 .read)]
    let between : List Change :=
      [.request (.openFile "/d/f" .readWrite), .request (.writeTo (handle 4) [1]),
        .request (.removeFile "/d/f"), .request (.createFile "/d/f" 0 .read)]
    let broken : Request := .readFrom (handle 4) [0] none
    let later : List Change :=
      between ++ [.request broken, .request (.removeFile "/d/f"), .request (.removeFile "/d/../")]
    let changes := earlier ++ later
    tree.WellFormed ∧ (∀ change ∈ changes, change.builds = false) ∧
      (tree.after earlier).WellFormed ∧ (tree.after earlier).Reached (.ofText "/d/f") ∧
      (tree.after earlier).Reached (.ofText "/d/..") ∧
      tree.after (earlier ++ between ++ [.request broken]) =
        (tree.after (earlier ++ between)).countRead ∧
      (tree.after changes).WellFormed ∧
      (tree.after changes).Reached (.ofText "/d") ∧
      (tree.after changes).find? (.ofText "/d/f") = none := by
  intro tree handle earlier between broken later changes
  have served : ∀ change ∈ changes, change.builds = false := by decide
  have start : tree.WellFormed := wellFormed_empty {} 5
  obtain ⟨midway, reached, -⟩ := wellFormed_throughout start served earlier later rfl
  obtain ⟨-, -, breaks⟩ := wellFormed_throughout start served (earlier ++ between)
    [.request broken, .request (.removeFile "/d/f"), .request (.removeFile "/d/../")] rfl
  obtain ⟨final, last, -⟩ :=
    wellFormed_throughout start served changes [] (List.append_nil changes).symm
  have unanswered : (tree.after (earlier ++ between)).reply? broken = none :=
    Option.isNone_iff_eq_none.mp (by decide +kernel)
  have file : (tree.after earlier).find? (.ofText "/d/f") =
      some ⟨3, 0o777, 5, .file []⟩ := by decide +kernel
  have odd : (tree.after earlier).find? (.ofText "/d/..") =
      some ⟨4, directoryMode, 5, .directory⟩ := by decide +kernel
  have kept : (tree.after changes).find? (.ofText "/d") =
      some ⟨2, directoryMode ||| 0o777, 5, .directory⟩ := by decide +kernel
  exact ⟨start, served, midway, (reached _ _ file).2, (reached _ _ odd).2,
    breaks broken unanswered, final, (last _ _ kept).2, by decide +kernel⟩

end RemoteTree.Tree
