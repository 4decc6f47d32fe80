import Mathlib.Logic.Relation
import RemoteTree.Client.Basic
import RemoteTree.Proofs.Server.Exchange
import RemoteTree.Proofs.Table
import RemoteTree.Proofs.Tree.Path
import RemoteTree.Tree.Fixture
import RemoteTree.Tree.Service

/-!
# Histories of trees

What can happen to a tree, as data: a request of some client, or a call of whoever builds it. All
of it comes down to a few kinds of edits, and an invariant is shown by looking at these alone.
-/

set_option autoImplicit false

namespace RemoteTree

namespace Tree

inductive Change where
  | request (request : Request)
  | mount
  | addDirectory (path : String)
  | addFile (path : String) (contents : Bytes)
  | addStream (path : String) (queue : List Chunk)
  | push (path : String) (chunk : Chunk)
  | setTime (now : UInt32)
  | setOwner (owner : String)
  | createDirectories (on : Bool)

namespace Change

def apply : Change → Tree → Tree
  | .request asked, tree => (server.answer asked tree).2
  | .mount, tree => tree.mounted
  | .addDirectory path, tree => tree.addDirectory path
  | .addFile path contents, tree => tree.addFile path contents
  | .addStream path queue, tree => tree.addStream path queue
  | .push path chunk, tree => (tree.push path chunk).2
  | .setTime now, tree => { tree with now := now }
  | .setOwner owner, tree => { tree with owner := owner }
  | .createDirectories on, tree => { tree with createsDirectories := on }

/-- The number of the open file that a change names. -/
def fid? : Change → Option UInt32
  | .request asked => asked.handle?.map (·.fid)
  | _ => none

end Change

def after (tree : Tree) (changes : List Change) : Tree :=
  changes.foldl (fun tree change => change.apply tree) tree

theorem after_append (tree : Tree) (earlier later : List Change) :
    tree.after (earlier ++ later) = (tree.after earlier).after later := List.foldl_append

theorem after_concat (tree : Tree) (earlier : List Change) (change : Change) :
    tree.after (earlier ++ [change]) = change.apply (tree.after earlier) :=
  tree.after_append earlier [change]

private theorem readNode_breaks (tree : Tree) (fid : UInt32) (opened : OpenFile) (node : Node)
    (room : Nat) (wait : Option Duration) :
    tree.readNode fid opened node room wait = (none, tree) ∨
      (tree.readNode fid opened node room wait).1 ≠ none := by
  unfold readNode
  split
  · split
    · exact .inl rfl
    · split
      · exact .inr (Option.some_ne_none _)
      · split
        · exact .inl rfl
        · exact .inr (Option.some_ne_none _)
  · exact .inr (Option.some_ne_none _)
  · exact .inr (Option.some_ne_none _)

private theorem readFrom_breaks (tree : Tree) (fid : UInt32) (room : Nat) (wait : Option Duration) :
    tree.readFrom fid room wait = (none, tree.countRead) ∨
      (tree.readFrom fid room wait).1 ≠ none := by
  unfold readFrom
  dsimp only
  split
  · exact .inr (Option.some_ne_none _)
  · split
    · exact .inr (Option.some_ne_none _)
    · split
      · split
        · exact .inr (Option.some_ne_none _)
        · exact readNode_breaks tree.countRead fid _ _ room wait
      · exact .inr (Option.some_ne_none _)

private theorem apply_unanswered {tree : Tree} {asked : Request}
    (unanswered : tree.reply? asked = none) :
    (Change.request asked).apply tree = tree.countRead := by
  cases asked with
  | readFrom handle buffer wait =>
      have breaks := (tree.readFrom_breaks handle.fid buffer.length wait).resolve_right
        (not_not_intro unanswered)
      exact congrArg Prod.snd breaks
  | _ => cases unanswered

/-- A read that breaks off leaves the tree as it was, but for the count of reads. -/
theorem after_unanswered {tree : Tree} {past : List Change} {asked : Request}
    (unanswered : (tree.after past).reply? asked = none) :
    tree.after (past ++ [.request asked]) = (tree.after past).countRead := by
  rw [after_concat]
  exact apply_unanswered unanswered

/-- The trees that come about. -/
inductive Reachable : Tree → Prop where
  | empty (limits : Limits) (now : UInt32) : Reachable (Tree.empty limits now)
  | change {tree : Tree} (change : Change) : Reachable tree → Reachable (change.apply tree)

/-! ## Edits -/

/-- One edit of a tree by something that touches certain open files. -/
inductive Edit (touched : UInt32 → Prop) : Tree → Tree → Prop where
  | place (tree : Tree) {path : Path} (proper : path.Proper) (mode : UInt32) (content : Content) :
      Edit touched tree (tree.place path mode content)
  | rewrite {tree : Tree} {path : Path} {node rewritten : Node}
      (found : tree.find? path = some node) (identity : rewritten.identity = node.identity)
      (mode : rewritten.mode = node.mode) (kind : rewritten.isDirectory = node.isDirectory) :
      Edit touched tree { tree with nodes := Table.insert path rewritten tree.nodes }
  | unlink {tree : Tree} {path : Path} {node : Node} (found : tree.find? path = some node)
      (below : path ≠ .root)
      (bare : node.isDirectory = true → ∀ entry ∈ tree.nodes, entry.1.parent? ≠ some path) :
      Edit touched tree { tree with nodes := Table.erase path tree.nodes }
  | issue (tree : Tree) {path : Path} {node : Node} (found : tree.find? path = some node)
      (mode : OpenMode) : Edit touched tree (tree.issue path mode).2
  | seek {tree : Tree} {fid : UInt32} {opened : OpenFile} (named : touched fid)
      (found : Table.find? fid tree.openFiles = some opened) (offset : Nat) :
      Edit touched tree (tree.setOffset fid opened offset)
  | release {tree : Tree} {fid : UInt32} (named : touched fid) :
      Edit touched tree { tree with openFiles := Table.erase fid tree.openFiles }
  | count (tree : Tree) (ledger : Ledger) (same : ledger.opens = tree.ledger.opens) :
      Edit touched tree { tree with ledger := ledger }
  | set (tree : Tree) (now : UInt32) (owner : String) (createsDirectories : Bool) :
      Edit touched tree
        { tree with now := now, owner := owner, createsDirectories := createsDirectories }

abbrev Edits (touched : UInt32 → Prop) : Tree → Tree → Prop := Relation.ReflTransGen (Edit touched)

variable {touched : UInt32 → Prop}

open Relation (ReflTransGen)

private theorem Edit.mono {others : UInt32 → Prop} {before after : Tree}
    (edit : Edit touched before after) (more : ∀ fid, touched fid → others fid) :
    Edit others before after := by
  cases edit with
  | place proper mode content => exact .place before proper mode content
  | rewrite found identity mode kind => exact .rewrite found identity mode kind
  | unlink found below bare => exact .unlink found below bare
  | issue found mode => exact .issue before found mode
  | seek named found offset => exact .seek (more _ named) found offset
  | release named => exact .release (more _ named)
  | count ledger same => exact .count before ledger same
  | set now owner createsDirectories => exact .set before now owner createsDirectories

private theorem Edits.mono {others : UInt32 → Prop} {before after : Tree}
    (edits : Edits touched before after) (more : ∀ fid, touched fid → others fid) :
    Edits others before after :=
  ReflTransGen.mono (fun _ _ edit => Edit.mono edit more) _ _ edits

theorem find?_place (tree : Tree) (path wanted : Path) (mode : UInt32) (content : Content) :
    ∃ identity, (tree.place path mode content).find? wanted =
      if path = wanted then some ⟨identity, mode, tree.now, content⟩ else tree.find? wanted := by
  unfold place
  split
  · next old found => exact ⟨old.identity, Table.find?_insert ..⟩
  · exact ⟨tree.lastIdentity + 1, Table.find?_insert ..⟩

theorem isSome_find?_insert (tree : Tree) (path : Path) (mode : UInt32) (content : Content) :
    ((tree.insert path mode content).find? path).isSome := by
  cases path with
  | root =>
      obtain ⟨identity, found⟩ := find?_place tree .root .root mode content
      simp [insert, found]
  | child parent name =>
      unfold insert
      dsimp only
      generalize (if tree.hasDirectory parent then tree
        else tree.insert parent plainDirectoryMode .directory) = above
      obtain ⟨identity, found⟩ :=
        find?_place above (.child parent name) (.child parent name) mode content
      simp [found]

private theorem insert_edits (tree : Tree) {path : Path} (proper : path.Proper) (mode : UInt32)
    (content : Content) : Edits touched tree (tree.insert path mode content) := by
  induction path generalizing tree mode content with
  | root => exact .single (.place tree proper mode content)
  | child parent name ih =>
      unfold insert
      dsimp only
      split
      · exact .single (.place tree proper mode content)
      · exact (ih tree proper.1 _ _).tail (.place _ proper mode content)

private theorem push_edits (tree : Tree) (path : String) (chunk : Chunk) :
    Edits touched tree (tree.push path chunk).2 := by
  unfold push
  split
  · next node found =>
    split
    · next queue holds =>
      exact .single (.rewrite found rfl rfl (by simp [Node.isDirectory, holds]))
    · exact .refl
  · exact .refl

private theorem openAt_edits (tree : Tree) (path : Path) (mode : OpenMode) :
    Edits touched tree (tree.openAt path mode).2 := by
  unfold openAt
  split
  · exact .refl
  · next node found =>
    split
    · exact .refl
    · exact .single (.issue tree found mode)

private theorem readNode_edits {tree : Tree} {fid : UInt32} {opened : OpenFile} {node : Node}
    (found : Table.find? fid tree.openFiles = some opened)
    (there : tree.find? opened.path = some node) (room : Nat) (wait : Option Duration) :
    Edits (Eq fid) tree (tree.readNode fid opened node room wait).2 := by
  unfold readNode
  split
  · split
    · exact .refl
    · split
      · exact .refl
      · split
        · exact .refl
        · exact .single (.seek rfl found _)
  · exact .single (.seek rfl found _)
  · next queue holds =>
    exact .single (.rewrite there rfl rfl (by simp [Node.isDirectory, holds]))

theorem createAt_edits (tree : Tree) {path : Path} (proper : path.Proper) (permissions : UInt32)
    (mode : OpenMode) : Edits touched tree (tree.createAt path permissions mode).2 := by
  have made (made : Tree) (issued : OpenMode) (built : Edits touched tree made)
      (there : (made.find? path).isSome) : Edits touched tree (made.issue path issued).2 := by
    obtain ⟨node, found⟩ := Option.isSome_iff_exists.mp there
    exact built.tail (.issue made found issued)
  unfold createAt
  split
  · exact .refl
  · split
    · exact .refl
    · split
      · exact .refl
      · split
        · dsimp only
          split
          · exact made _ mode (insert_edits tree proper _ _) (isSome_find?_insert ..)
          · exact made _ mode (insert_edits tree proper _ _) (isSome_find?_insert ..)
        · exact .refl

private theorem readFrom_edits (tree : Tree) (fid : UInt32) (room : Nat) (wait : Option Duration) :
    Edits (Eq fid) tree (tree.readFrom fid room wait).2 := by
  have counted : Edit (Eq fid) tree tree.countRead := .count tree _ rfl
  unfold readFrom
  dsimp only
  split
  · exact .single counted
  · split
    · exact .single counted
    · next opened found =>
      split
      · split
        · exact .single counted
        · next node there =>
          refine .head counted (readNode_edits ?_ there room wait)
          exact found
      · exact .single counted

private theorem writeTo_edits (tree : Tree) (fid : UInt32) (data : Bytes) :
    Edits (Eq fid) tree (tree.writeTo fid data).2 := by
  have counted : Edit (Eq fid) tree tree.countWrite := .count tree _ rfl
  unfold writeTo
  dsimp only
  split
  · exact .single counted
  · split
    · exact .single counted
    · next opened found =>
      split
      · split
        · exact .single counted
        · next node there =>
          split
          · exact .single counted
          · next contents holds =>
            refine .tail (.tail (.single counted) ?_) (.seek rfl ?_ _)
            · exact .rewrite there rfl rfl (by simp [Node.isDirectory, holds])
            · exact found
          · next queue holds =>
            exact (ReflTransGen.single counted).tail
              (.rewrite there rfl rfl (by simp [Node.isDirectory, holds]))
      · exact .single counted

private theorem removeAt_edits (tree : Tree) (path : Path) :
    Edits touched tree (tree.removeAt path).2 := by
  unfold removeAt
  split
  · exact .refl
  · next below =>
    split
    · exact .refl
    · next node found =>
      split
      · exact .refl
      · next bare =>
        refine .single (.unlink found below fun directory entry member within => bare ?_)
        simp only [directory, Bool.true_and, List.any_eq_true, decide_eq_true_eq]
        exact ⟨entry, member, within⟩

private theorem closeFid_edits (tree : Tree) (fid : UInt32) :
    Edits (Eq fid) tree (tree.closeFid fid) := by
  unfold closeFid
  split
  · exact .refl
  · refine .tail (.single (.release rfl)) (.count _ _ ?_)
    rfl

/-- The answer to a request edits the tree, and of its open files only the one that it names. -/
theorem answer_edits (tree : Tree) (request : Request) :
    Edits (fun fid => request.handle?.map (·.fid) = some fid) tree
      (server.answer request tree).2 := by
  cases request with
  | openFile path mode => exact openAt_edits tree _ mode
  | createFile path permissions mode =>
      exact createAt_edits tree (Path.proper_ofText path) permissions mode
  | readFrom handle buffer wait =>
      exact (readFrom_edits tree handle.fid _ wait).mono fun _ same => congrArg some same
  | writeTo handle data =>
      exact (writeTo_edits tree handle.fid data).mono fun _ same => congrArg some same
  | removeFile path => exact removeAt_edits tree _
  | statFile path =>
      simp only [server]
      split <;> exact .refl
  | closeFile handle =>
      exact (closeFid_edits tree handle.fid).mono fun _ same => congrArg some same
  | unmount => exact .single (.count tree _ rfl)

theorem change_edits (change : Change) (tree : Tree) :
    Edits (fun fid => change.fid? = some fid) tree (change.apply tree) := by
  cases change with
  | request request => exact answer_edits tree request
  | mount => exact .single (.count tree _ rfl)
  | addDirectory path => exact insert_edits tree (Path.proper_ofText path) _ _
  | addFile path contents => exact insert_edits tree (Path.proper_ofText path) _ _
  | addStream path queue => exact insert_edits tree (Path.proper_ofText path) _ _
  | push path chunk => exact push_edits tree path chunk
  | setTime now => exact .single (.set tree now tree.owner tree.createsDirectories)
  | setOwner owner => exact .single (.set tree tree.now owner tree.createsDirectories)
  | createDirectories on => exact .single (.set tree tree.now tree.owner on)

/-- Whatever a client does edits the tree. -/
theorem run_edits {Result : Type} (program : Client Result) (tree : Tree) :
    Edits (fun _ => True) tree (program.run server tree).2 := by
  induction program generalizing tree with
  | done => exact .refl
  | ask request rest ih =>
      exact .trans ((answer_edits tree request).mono fun _ _ => trivial) (ih _ _)

/-- Changes edit the tree, and of its open files only those that they name. -/
theorem after_edits (tree : Tree) (changes : List Change) :
    Edits (fun fid => ∃ change ∈ changes, change.fid? = some fid) tree (tree.after changes) := by
  induction changes generalizing tree with
  | nil => exact .refl
  | cons change rest ih =>
      refine ReflTransGen.trans ((change_edits change tree).mono ?_)
        ((ih (change.apply tree)).mono ?_)
      · exact fun fid named => ⟨change, List.mem_cons_self, named⟩
      · rintro fid ⟨other, member, named⟩
        exact ⟨other, List.mem_cons_of_mem change member, named⟩

/-! ## Invariants -/

/-- Every place of a tree is there once, under proper names. -/
structure Proper (tree : Tree) : Prop where
  unique : tree.nodes.keys.Nodup
  names : ∀ path ∈ tree.nodes.keys, path.Proper

theorem Proper.insert {tree : Tree} (kept : tree.Proper) {path : Path} (proper : path.Proper)
    (node : Node) : { tree with nodes := Table.insert path node tree.nodes }.Proper := by
  refine ⟨Table.nodup_keys_insert path node kept.unique, fun other member => ?_⟩
  rcases (Table.mem_keys_insert path other node tree.nodes).mp member with rfl | before
  · exact proper
  · exact kept.names other before

theorem mem_nodes_of_find? {tree : Tree} {path : Path} {node : Node}
    (found : tree.find? path = some node) : (path, node) ∈ tree.nodes :=
  Table.mem_of_find? found

theorem mem_keys_of_find? {tree : Tree} {path : Path} {node : Node}
    (found : tree.find? path = some node) : path ∈ tree.nodes.keys :=
  List.mem_map_of_mem (mem_nodes_of_find? found)

/-- Placing a node changes the nodes and the count of identities, and nothing else. -/
theorem place_apart (tree : Tree) (path : Path) (mode : UInt32) (content : Content) :
    ∃ node identity, tree.place path mode content =
      { tree with nodes := Table.insert path node tree.nodes, lastIdentity := identity } := by
  unfold place
  split
  · exact ⟨_, _, rfl⟩
  · exact ⟨_, _, rfl⟩

theorem Edit.proper {before after : Tree} (edit : Edit touched before after)
    (kept : before.Proper) : after.Proper := by
  cases edit with
  | @place path proper mode content =>
      obtain ⟨node, identity, same⟩ := place_apart before path mode content
      have inserted := kept.insert proper node
      rw [same]
      exact ⟨inserted.unique, inserted.names⟩
  | rewrite found => exact kept.insert (kept.names _ (mem_keys_of_find? found)) _
  | unlink =>
      exact ⟨Table.nodup_keys_erase _ kept.unique, fun path member =>
        kept.names path ((List.filter_sublist.map _).subset member)⟩
  | _ => exact ⟨kept.unique, kept.names⟩

theorem Edit.limits {before after : Tree} (edit : Edit touched before after) :
    after.limits = before.limits := by
  cases edit with
  | @place path _ mode content =>
      obtain ⟨_, _, same⟩ := place_apart before path mode content
      rw [same]
  | _ => rfl

/-- The number of the next open file comes from the number of opens. -/
def Numbered (tree : Tree) : Prop := tree.nextFid = UInt32.ofNat (tree.ledger.opens + 1)

theorem Edit.numbered {before after : Tree} (edit : Edit touched before after)
    (kept : before.Numbered) : after.Numbered := by
  unfold Numbered at kept ⊢
  cases edit with
  | @place path _ mode content =>
      obtain ⟨_, _, same⟩ := place_apart before path mode content
      rw [same]
      exact kept
  | issue =>
      change before.nextFid + 1 = UInt32.ofNat (before.ledger.opens + 1 + 1)
      rw [kept, UInt32.ofNat_add (before.ledger.opens + 1) 1]
      rfl
  | count ledger same => simp only [kept, same]
  | _ => exact kept

theorem Edit.opens_le {before after : Tree} (edit : Edit touched before after) :
    before.ledger.opens ≤ after.ledger.opens := by
  cases edit with
  | @place path _ mode content =>
      obtain ⟨_, _, same⟩ := place_apart before path mode content
      simp only [same, Nat.le_refl]
  | issue => exact Nat.le_succ _
  | count ledger same => exact Nat.le_of_eq same.symm
  | _ => exact Nat.le_refl _

/-- An edit leaves an open file alone unless it touches that file, or gives out its number anew. -/
theorem Edit.spares {before after : Tree} (edit : Edit touched before after) {fid : UInt32}
    (other : ¬touched fid)
    (fresh : before.ledger.opens < after.ledger.opens → before.nextFid ≠ fid) :
    Table.find? fid after.openFiles = Table.find? fid before.openFiles := by
  cases edit with
  | @place path _ mode content =>
      obtain ⟨_, _, same⟩ := place_apart before path mode content
      rw [same]
  | issue => exact (Table.find?_insert ..).trans (if_neg (fresh (Nat.lt_succ_self _)))
  | @seek sought opened named found offset =>
      exact (Table.find?_insert ..).trans (if_neg (by rintro rfl; exact other named))
  | @release sought named =>
      exact (Table.find?_erase ..).trans (if_neg (by rintro rfl; exact other named))
  | _ => rfl

namespace Edits

variable {before after : Tree}

theorem proper (edits : Edits touched before after) (kept : before.Proper) : after.Proper := by
  induction edits with
  | refl => exact kept
  | tail _ edit ih => exact edit.proper ih

theorem limits (edits : Edits touched before after) : after.limits = before.limits := by
  induction edits with
  | refl => rfl
  | tail _ edit ih => exact edit.limits.trans ih

theorem numbered (edits : Edits touched before after) (kept : before.Numbered) :
    after.Numbered := by
  induction edits with
  | refl => exact kept
  | tail _ edit ih => exact edit.numbered ih

theorem opens_le (edits : Edits touched before after) :
    before.ledger.opens ≤ after.ledger.opens := by
  induction edits with
  | refl => exact Nat.le_refl _
  | tail _ edit ih => exact Nat.le_trans ih edit.opens_le

/-- The file that the open of a given count brought is left alone by edits that do not touch it,
as long as its number does not come round again. -/
theorem spares (edits : Edits touched before after) (numbered : before.Numbered) {count : Nat}
    (issued : count ≤ before.ledger.opens) (few : after.ledger.opens < count + UInt32.size)
    (other : ¬touched (UInt32.ofNat count)) :
    Table.find? (UInt32.ofNat count) after.openFiles =
      Table.find? (UInt32.ofNat count) before.openFiles := by
  induction edits with
  | refl => rfl
  | @tail middle after edits edit ih =>
      have grown := Edits.opens_le edits
      have step := edit.opens_le
      rw [← ih (by omega)]
      refine edit.spares other fun more => ?_
      -- A number comes round only after as many opens as there are numbers.
      have size : UInt32.size = 4294967296 := rfl
      rw [Edits.numbered edits numbered, ne_eq, ← UInt32.toNat_inj, UInt32.toNat_ofNat',
        UInt32.toNat_ofNat']
      omega

end Edits

/-! ## Trees that come about -/

theorem Reachable.proper {tree : Tree} (reachable : tree.Reachable) : tree.Proper := by
  induction reachable with
  | empty limits now =>
      have keys : (Tree.empty limits now).nodes.keys = [.root] := rfl
      exact ⟨by simp [keys], by simp [keys, Path.Proper]⟩
  | change change _ ih => exact (change_edits change _).proper ih

theorem Reachable.numbered {tree : Tree} (reachable : tree.Reachable) : tree.Numbered := by
  induction reachable with
  | empty limits now => rfl
  | change change _ ih => exact (change_edits change _).numbered ih

theorem Reachable.foldl {Item : Type} (change : Item → Change) (items : List Item) {tree : Tree}
    (reachable : tree.Reachable) :
    (items.foldl (fun tree item => (change item).apply tree) tree).Reachable := by
  induction items generalizing tree with
  | nil => exact reachable
  | cons item rest ih => exact ih (.change (change item) reachable)

end Tree

/-- Every fixture describes a tree that comes about. -/
theorem Fixture.tree_reachable (fixture : Fixture) (clock : UInt32) :
    (fixture.tree clock).Reachable := by
  have bare : (fixture.bareTree clock).Reachable :=
    .change (.setOwner (fixture.owner.getD "none")) (.empty _ _)
  have directories := bare.foldl .addDirectory fixture.directories
  have files := directories.foldl
    (fun entry : String × String => .addFile entry.1 (Utf8.encode entry.2)) (inOrder fixture.files)
  exact files.foldl
    (fun entry : String × List (Option String) => .addStream entry.1 (entry.2.map chunk))
    (inOrder fixture.streams)

end RemoteTree
