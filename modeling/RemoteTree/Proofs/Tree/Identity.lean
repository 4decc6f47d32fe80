import RemoteTree.Proofs.Tree.Building

/-!
# Identities of nodes

The number in the stat record of a node is given out when the node comes about, and only once. What
is put in the place of a node takes over its number; a node that is taken away takes its number with
it.
-/

set_option autoImplicit false

namespace RemoteTree

namespace Tree

/-- The number by which stat records identify the node at a path. -/
def number? (tree : Tree) (path : Path) : Option UInt64 :=
  (tree.find? path).map fun node => (tree.statOf path node).qid.path

section

variable {before middle after tree : Tree} {path : Path} {made : List Path}

private theorem number?_of_find? {node : Node} (found : tree.find? path = some node) :
    tree.number? path = some node.identity := by
  rw [number?, found]
  rfl

private theorem number?_eq_none_iff : tree.number? path = none ↔ tree.find? path = none :=
  Option.map_eq_none_iff

private theorem number?_congr (same : after.nodes = before.nodes) (path : Path) :
    after.number? path = before.number? path := by
  rw [number?, find?, same]
  rfl

private theorem number?_insert {place : Path} {node : Node} {number : UInt64}
    (nodes : after.nodes = Table.insert place node before.nodes)
    (identity : node.identity = number) (path : Path) :
    after.number? path = if place = path then some number else before.number? path := by
  rw [number?, find?, nodes, Table.find?_insert, ← identity]
  split
  · rfl
  · rfl

private theorem number?_erase {place : Path} (nodes : after.nodes = Table.erase place before.nodes)
    (path : Path) : after.number? path = if place = path then none else before.number? path := by
  rw [number?, find?, nodes, Table.find?_erase]
  split
  · rfl
  · rfl

private theorem number?_rewrite {place : Path} {old node : Node}
    (found : before.find? place = some old)
    (nodes : after.nodes = Table.insert place node before.nodes)
    (identity : node.identity = old.identity) (path : Path) :
    after.number? path = before.number? path := by
  rw [number?_insert nodes identity]
  split
  · next same => rw [← same, number?_of_find? found]
  · rfl

/-! ## How one call changes the numbers -/

/-- The numbers before a call and after it: one node is taken away, or some are made, at places
that were free. `made` are these places in the order in which numbers were given out. -/
inductive Passes (before : Tree) : List Path → Tree → Prop where
  | start : Passes before [] before
  | unlink {after : Tree} {place : Path}
      (numbers : ∀ path, after.number? path = if place = path then none else before.number? path)
      (last : after.lastIdentity = before.lastIdentity) : Passes before [] after
  | keep {made : List Path} {middle after : Tree} (passed : Passes before made middle)
      (numbers : ∀ path, after.number? path = middle.number? path)
      (last : after.lastIdentity = middle.lastIdentity) : Passes before made after
  | create {made : List Path} {middle after : Tree} {place : Path}
      (passed : Passes before made middle) (unused : before.number? place = none)
      (free : middle.number? place = none)
      (numbers : ∀ path, after.number? path =
        if place = path then some (middle.lastIdentity + 1) else middle.number? path)
      (last : after.lastIdentity = middle.lastIdentity + 1) :
      Passes before (made ++ [place]) after

private theorem Passes.quiet (nodes : after.nodes = before.nodes)
    (last : after.lastIdentity = before.lastIdentity) : Passes before [] after :=
  .keep .start (number?_congr nodes) last

private theorem Passes.rewrite {node : Node} (found : before.find? path = some node)
    {rewritten : Node} (nodes : after.nodes = Table.insert path rewritten before.nodes)
    (identity : rewritten.identity = node.identity)
    (last : after.lastIdentity = before.lastIdentity) : Passes before [] after :=
  .keep .start (number?_rewrite found nodes identity) last

private theorem Passes.place (passed : Passes before made middle) {place : Path}
    (unused : (middle.find? place) = none → before.find? place = none) (mode : UInt32)
    (content : Content) : ∃ more, Passes before more (middle.place place mode content) := by
  unfold Tree.place
  split
  · next old found => exact ⟨_, .keep passed (number?_rewrite found rfl rfl) rfl⟩
  · next absent =>
    have free := number?_eq_none_iff.mpr absent
    have never := number?_eq_none_iff.mpr (unused absent)
    exact ⟨_, .create passed never free (number?_insert rfl rfl) rfl⟩

private theorem insert_passes (tree : Tree) (path : Path) (mode : UInt32) (content : Content) :
    ∃ made, Passes tree made (tree.insert path mode content) := by
  induction path generalizing mode content with
  | root => exact Passes.place .start id mode content
  | child parent name ih =>
      unfold insert
      dsimp only
      split
      · exact Passes.place .start id mode content
      · obtain ⟨made, above⟩ := ih plainDirectoryMode .directory
        apply above.place
        -- Making the directories above a place does not touch the place.
        rw [find?_insert_of_deeper]
        · exact id
        · rw [Path.length_names_child]
          exact Nat.lt_succ_self _

private theorem openAt_passes (tree : Tree) (path : Path) (mode : OpenMode) :
    Passes tree [] (tree.openAt path mode).2 := by
  unfold openAt
  split
  · exact .start
  · split
    · exact .start
    · exact .quiet rfl rfl

private theorem createAt_passes (tree : Tree) (path : Path) (permissions : UInt32)
    (mode : OpenMode) : ∃ made, Passes tree made (tree.createAt path permissions mode).2 := by
  have issued {made : Tree} (built : ∃ places, Passes tree places made) :
      ∃ places, Passes tree places (made.issue path mode).2 := by
    obtain ⟨places, passed⟩ := built
    exact ⟨places, .keep passed (number?_congr rfl) rfl⟩
  unfold createAt
  split
  · exact ⟨_, .start⟩
  · split
    · exact ⟨_, .start⟩
    · split
      · exact ⟨_, .start⟩
      · split
        · dsimp only
          split
          · exact issued (insert_passes tree path _ _)
          · exact issued (insert_passes tree path _ _)
        · exact ⟨_, .start⟩

private theorem readNode_numbers {opened : OpenFile} {node : Node}
    (there : tree.find? opened.path = some node) (fid : UInt32) (room : Nat)
    (wait : Option Duration) :
    (∀ path, (tree.readNode fid opened node room wait).2.number? path = tree.number? path) ∧
      (tree.readNode fid opened node room wait).2.lastIdentity = tree.lastIdentity := by
  unfold readNode
  split
  · split
    · exact ⟨fun _ => rfl, rfl⟩
    · split
      · exact ⟨fun _ => rfl, rfl⟩
      · split
        · exact ⟨fun _ => rfl, rfl⟩
        · exact ⟨fun _ => rfl, rfl⟩
  · exact ⟨fun _ => rfl, rfl⟩
  · exact ⟨number?_rewrite there rfl rfl, rfl⟩

private theorem readFrom_passes (tree : Tree) (fid : UInt32) (room : Nat) (wait : Option Duration) :
    Passes tree [] (tree.readFrom fid room wait).2 := by
  unfold readFrom
  dsimp only
  split
  · exact .quiet rfl rfl
  · split
    · exact .quiet rfl rfl
    · split
      · split
        · exact .quiet rfl rfl
        · next opened known readable node there =>
          obtain ⟨numbers, last⟩ := readNode_numbers there fid room wait
          exact .keep .start numbers last
      · exact .quiet rfl rfl

private theorem writeTo_passes (tree : Tree) (fid : UInt32) (data : Bytes) :
    Passes tree [] (tree.writeTo fid data).2 := by
  unfold writeTo
  dsimp only
  split
  · exact .quiet rfl rfl
  · split
    · exact .quiet rfl rfl
    · split
      · split
        · exact .quiet rfl rfl
        · next node there =>
          split
          · exact .quiet rfl rfl
          · exact .rewrite there rfl rfl rfl
          · exact .rewrite there rfl rfl rfl
      · exact .quiet rfl rfl

private theorem removeAt_passes (tree : Tree) (path : Path) :
    Passes tree [] (tree.removeAt path).2 := by
  unfold removeAt
  split
  · exact .start
  · split
    · exact .start
    · split
      · exact .start
      · exact .unlink (number?_erase rfl) rfl

private theorem closeFid_passes (tree : Tree) (fid : UInt32) :
    Passes tree [] (tree.closeFid fid) := by
  unfold closeFid
  split
  · exact .start
  · exact .quiet rfl rfl

private theorem push_passes (tree : Tree) (path : String) (chunk : Chunk) :
    Passes tree [] (tree.push path chunk).2 := by
  unfold push
  split
  · next node found =>
    split
    · exact .rewrite found rfl rfl rfl
    · exact .start
  · exact .start

private theorem change_passes (change : Change) (tree : Tree) :
    ∃ made, Passes tree made (change.apply tree) := by
  cases change with
  | request request =>
      cases request with
      | openFile path mode => exact ⟨_, openAt_passes tree _ mode⟩
      | createFile path permissions mode => exact createAt_passes tree _ permissions mode
      | readFrom handle buffer wait => exact ⟨_, readFrom_passes tree handle.fid _ wait⟩
      | writeTo handle data => exact ⟨_, writeTo_passes tree handle.fid data⟩
      | removeFile path => exact ⟨_, removeAt_passes tree _⟩
      | statFile path =>
          simp only [Change.apply, server]
          split
          · exact ⟨_, .start⟩
          · exact ⟨_, .start⟩
      | closeFile handle => exact ⟨_, closeFid_passes tree handle.fid⟩
      | unmount => exact ⟨_, .quiet rfl rfl⟩
  | addDirectory path => exact insert_passes tree _ _ _
  | addFile path contents => exact insert_passes tree _ _ _
  | addStream path queue => exact insert_passes tree _ _ _
  | push path chunk => exact ⟨_, push_passes tree path chunk⟩
  | _ => exact ⟨_, .quiet rfl rfl⟩

/-! ## What a call keeps -/

/-- The numbers in a tree are all different, and none has been given out after the last. -/
structure Identified (tree : Tree) : Prop where
  apart : ∀ {first second : Path} {number : UInt64}, tree.number? first = some number →
    tree.number? second = some number → first = second
  below : ∀ {path : Path} {number : UInt64}, tree.number? path = some number →
    number ≤ tree.lastIdentity

private theorem identified_empty (limits : Limits) (now : UInt32) :
    (empty limits now).Identified := by
  have only {path : Path} {number : UInt64}
      (found : (empty limits now).number? path = some number) : path = .root ∧ number = 1 := by
    cases path with
    | root =>
        cases found
        exact ⟨rfl, rfl⟩
    | child parent name => cases found
  constructor
  · intro first second number here there
    rw [(only here).1, (only there).1]
  · intro path number found
    rw [(only found).2]
    exact UInt64.le_refl 1

private theorem toNat_add_one {last : UInt64} (few : last.toNat + 1 < UInt64.size) :
    (last + 1).toNat = last.toNat + 1 := by
  rw [UInt64.toNat_add]
  exact Nat.mod_eq_of_lt few

namespace Passes

private theorem mem_made_iff (passes : Passes before made after) :
    path ∈ made ↔ before.number? path = none ∧ (after.number? path).isSome := by
  induction passes with
  | start => simp
  | unlink numbers last =>
      rw [numbers]
      split
      · simp
      · simp
  | keep passed numbers last ih => rw [ih, numbers]
  | @create made middle after place passed unused free numbers last ih =>
      rw [List.mem_append, List.mem_singleton, ih, numbers]
      split
      · next same =>
        subst same
        simp [unused]
      · next other => simp [Ne.symm other]

private theorem nodup_made (passes : Passes before made after) : made.Nodup := by
  induction passes with
  | start => exact List.nodup_nil
  | unlink numbers last => exact List.nodup_nil
  | keep passed numbers last ih => exact ih
  | @create made middle after place passed unused free numbers last ih =>
      apply List.nodup_append.mpr
      refine ⟨ih, List.nodup_singleton place, ?_⟩
      intro path member other same
      rw [List.mem_singleton.mp same]
      rintro rfl
      have there := (passed.mem_made_iff.mp member).2
      rw [free] at there
      cases there

/-- What stays keeps its number. -/
theorem kept (passes : Passes before made after) {number : UInt64}
    (found : before.number? path = some number) (there : (after.number? path).isSome) :
    after.number? path = some number := by
  induction passes with
  | start => exact found
  | unlink numbers last =>
      rw [numbers] at there ⊢
      split at there
      · cases there
      · next other => rw [if_neg other, found]
  | keep passed numbers last ih =>
      rw [numbers] at there ⊢
      exact ih there
  | @create made middle after place passed unused free numbers last ih =>
      have other : place ≠ path := by
        rintro rfl
        rw [unused] at found
        cases found
      rw [numbers, if_neg other] at there ⊢
      exact ih there

private theorem toNat_last (passes : Passes before made after)
    (few : before.lastIdentity.toNat + made.length < UInt64.size) :
    after.lastIdentity.toNat = before.lastIdentity.toNat + made.length := by
  induction passes with
  | start => rfl
  | unlink numbers last => rw [last, List.length_nil, Nat.add_zero]
  | keep passed numbers last ih => rw [last, ih few]
  | @create made middle after place passed unused free numbers last ih =>
      rw [List.length_append, List.length_singleton, ← Nat.add_assoc] at few ⊢
      have grown := ih (Nat.lt_of_succ_lt few)
      rw [← grown] at few ⊢
      rw [last, toNat_add_one few]

/-- The next number is above the last, as long as there are numbers. -/
theorem last_lt_next (passed : Passes before made middle)
    (few : before.lastIdentity.toNat + made.length + 1 < UInt64.size) :
    middle.lastIdentity < middle.lastIdentity + 1 := by
  have grown := passed.toNat_last (Nat.lt_of_succ_lt few)
  rw [← grown] at few
  rw [UInt64.lt_iff_toNat_lt, toNat_add_one few]
  exact Nat.lt_succ_self _

private theorem last_le (passes : Passes before made after)
    (few : before.lastIdentity.toNat + made.length < UInt64.size) :
    before.lastIdentity ≤ after.lastIdentity := by
  rw [UInt64.le_iff_toNat_le, passes.toNat_last few]
  exact Nat.le_add_right _ _

/-- What is new has a number above all that were given out before. -/
theorem fresh (passes : Passes before made after)
    (few : before.lastIdentity.toNat + made.length < UInt64.size) {number : UInt64}
    (absent : before.number? path = none) (there : after.number? path = some number) :
    before.lastIdentity < number := by
  induction passes with
  | start =>
      rw [absent] at there
      cases there
  | unlink numbers last =>
      rw [numbers, absent, ite_self] at there
      cases there
  | keep passed numbers last ih =>
      rw [numbers] at there
      exact ih few there
  | @create made middle after place passed unused free numbers last ih =>
      rw [List.length_append, List.length_singleton, ← Nat.add_assoc] at few
      have earlier := Nat.lt_of_succ_lt few
      rw [numbers] at there
      split at there
      · cases there
        exact UInt64.lt_of_le_of_lt (passed.last_le earlier) (passed.last_lt_next few)
      · exact ih earlier there

private theorem identified (passes : Passes before made after) (kept : before.Identified)
    (few : before.lastIdentity.toNat + made.length < UInt64.size) : after.Identified := by
  induction passes with
  | start => exact kept
  | @unlink after place numbers last =>
      have stood {path : Path} {number : UInt64} (there : after.number? path = some number) :
          before.number? path = some number := by
        rw [numbers] at there
        split at there
        · cases there
        · exact there
      constructor
      · intro first second number here there
        exact kept.apart (stood here) (stood there)
      · intro path number there
        rw [last]
        exact kept.below (stood there)
  | keep passed numbers last ih =>
      constructor
      · intro first second number here there
        rw [numbers] at here there
        exact (ih few).apart here there
      · intro path number there
        rw [numbers] at there
        rw [last]
        exact (ih few).below there
  | @create made middle after place passed unused free numbers last ih =>
      rw [List.length_append, List.length_singleton, ← Nat.add_assoc] at few
      have earlier := ih (Nat.lt_of_succ_lt few)
      have next := passed.last_lt_next few
      have older {path : Path} {number : UInt64} (there : middle.number? path = some number) :
          number ≠ middle.lastIdentity + 1 :=
        UInt64.ne_of_lt (UInt64.lt_of_le_of_lt (earlier.below there) next)
      constructor
      · intro first second number here there
        rw [numbers] at here there
        split at here
        · next same =>
          cases here
          split at there
          · next other => exact same.symm.trans other
          · exact absurd rfl (older there)
        · split at there
          · cases there
            exact absurd rfl (older here)
          · exact earlier.apart here there
      · intro path number there
        rw [numbers] at there
        rw [last]
        split at there
        · cases there
          exact UInt64.le_refl _
        · exact UInt64.le_of_lt (UInt64.lt_of_le_of_lt (earlier.below there) next)

end Passes

end

/-! ## Histories -/

/-- The places at which a change makes nodes. -/
def created (tree : Tree) (change : Change) : List Path :=
  (change.apply tree).nodes.keys.filter fun path => (tree.find? path).isNone

/-- How many nodes are made in the course of some changes. -/
def creations : Tree → List Change → Nat
  | _, [] => 0
  | tree, change :: rest => (tree.created change).length + (change.apply tree).creations rest

section

variable {tree : Tree} {path : Path} {made : List Path} {change : Change}
  {changes earlier later : List Change}

private theorem mem_created_iff :
    path ∈ tree.created change ↔
      tree.number? path = none ∧ ((change.apply tree).number? path).isSome := by
  rw [created, List.mem_filter, Option.isNone_iff_eq_none, number?_eq_none_iff, and_comm,
    ← Option.ne_none_iff_isSome, ne_eq, number?_eq_none_iff, find?, find?, Table.find?_eq_none_iff,
    Table.find?_eq_none_iff, not_not]

private theorem length_created (proper : (change.apply tree).Proper)
    (passes : Passes tree made (change.apply tree)) :
    (tree.created change).length = made.length := by
  apply List.Perm.length_eq
  apply (List.perm_ext_iff_of_nodup (proper.unique.filter _) passes.nodup_made).mpr
  intro path
  rw [passes.mem_made_iff]
  exact mem_created_iff

private theorem creations_append (tree : Tree) (earlier later : List Change) :
    tree.creations (earlier ++ later) =
      tree.creations earlier + (tree.after earlier).creations later := by
  induction earlier generalizing tree with
  | nil => exact (Nat.zero_add _).symm
  | cons change rest ih =>
      rw [List.cons_append, creations, creations, ih, Nat.add_assoc]
      rfl

/-- What is known of a tree in which `ahead` more nodes are going to be made. -/
structure Numbering (tree : Tree) (ahead : Nat) : Prop where
  proper : tree.Proper
  identified : tree.Identified
  few : tree.lastIdentity.toNat + ahead < UInt64.size

private theorem Numbering.passes {ahead : Nat}
    (numbering : tree.Numbering ((tree.created change).length + ahead)) :
    ∃ made, Passes tree made (change.apply tree) ∧
      tree.lastIdentity.toNat + made.length + ahead < UInt64.size := by
  obtain ⟨made, passes⟩ := change_passes change tree
  refine ⟨made, passes, ?_⟩
  have few := numbering.few
  rw [length_created ((change_edits change tree).proper numbering.proper) passes,
    ← Nat.add_assoc] at few
  exact few

private theorem Numbering.apply {ahead : Nat}
    (numbering : tree.Numbering ((tree.created change).length + ahead)) :
    (change.apply tree).Numbering ahead := by
  obtain ⟨made, passes, few⟩ := numbering.passes
  have now := Nat.lt_of_le_of_lt (Nat.le_add_right _ _) few
  refine ⟨(change_edits change tree).proper numbering.proper,
    passes.identified numbering.identified now, ?_⟩
  rw [passes.toNat_last now]
  exact few

private theorem Numbering.after (numbering : tree.Numbering (tree.creations (earlier ++ later))) :
    (tree.after earlier).Numbering ((tree.after earlier).creations later) := by
  induction earlier generalizing tree with
  | nil => exact numbering
  | cons change rest ih => exact ih numbering.apply

private theorem Numbering.last_le {past : List Change}
    (numbering : tree.Numbering (tree.creations (past ++ later))) :
    tree.lastIdentity ≤ (tree.after past).lastIdentity := by
  induction past generalizing tree with
  | nil => exact UInt64.le_refl _
  | cons change rest ih =>
      obtain ⟨made, passes, few⟩ := Numbering.passes numbering
      have now := Nat.lt_of_le_of_lt (Nat.le_add_right _ _) few
      exact UInt64.le_trans (passes.last_le now) (ih (Numbering.apply numbering))

/-- A path that is there all along keeps its number. -/
theorem number?_after (there : ∀ past, past <+: changes → ((tree.after past).find? path).isSome) :
    (tree.after changes).number? path = tree.number? path := by
  induction changes using List.reverseRecOn with
  | nil => rfl
  | append_singleton changes change ih =>
      have earlier := ih fun past begins => there past (begins.trans (List.prefix_append ..))
      obtain ⟨node, found⟩ :=
        Option.isSome_iff_exists.mp (there changes (List.prefix_append ..))
      obtain ⟨last, still⟩ := Option.isSome_iff_exists.mp (there _ List.prefix_rfl)
      have before := number?_of_find? found
      have after := number?_of_find? still
      obtain ⟨made, passes⟩ := change_passes change (tree.after changes)
      rw [after_concat] at after ⊢
      rw [passes.kept before (after ▸ rfl), ← before, earlier]

/-- A node that is made gets a number that no node had before. -/
theorem Numbering.fresh {past : List Change} {number : UInt64} {other : Path}
    (numbering : tree.Numbering (tree.creations (past ++ later ++ [change])))
    (absent : (tree.after (past ++ later)).find? path = none)
    (made : (tree.after (past ++ later ++ [change])).number? path = some number) :
    (tree.after past).number? other ≠ some number := by
  intro before
  have midway : (tree.after past).Numbering ((tree.after past).creations (later ++ [change])) := by
    apply Numbering.after
    rw [← List.append_assoc]
    exact numbering
  -- All earlier numbers are at most the last one given out before the change.
  have old := UInt64.le_trans (midway.identified.below before) (Numbering.last_le midway)
  obtain ⟨places, passes, few⟩ := Numbering.passes (Numbering.after numbering)
  have now := Nat.lt_of_le_of_lt (Nat.le_add_right _ _) few
  rw [after_concat] at made
  have new := passes.fresh now (number?_eq_none_iff.mpr absent) made
  rw [after_append] at new
  exact absurd (UInt64.lt_of_le_of_lt old new) (UInt64.lt_irrefl _)

private theorem Numbering.of_prefix (numbering : tree.Numbering (tree.creations changes))
    (begins : earlier <+: changes) : tree.Numbering (tree.creations earlier) := by
  obtain ⟨later, rfl⟩ := begins
  refine ⟨numbering.proper, numbering.identified, ?_⟩
  have few := numbering.few
  rw [creations_append] at few
  omega

end

end Tree

/-- All that happens to a tree without entries when it is made into that of a fixture. -/
def Fixture.history (fixture : Fixture) : List Tree.Change :=
  .setOwner (fixture.owner.getD "none") :: fixture.changes

namespace Tree

/-- Numbers of nodes are good for ever. Whatever is built and asked for from the start on, with or
without a fixture, as long as fewer nodes are made than there are numbers: at every point different
places have different numbers; a place that is in use all along keeps its number, whatever is put
there; and a node that is made, asked for or on the way to one that is, has a number that none had
before. A read that breaks off ends the run of its client and leaves the tree as it was, but for the
count of reads. -/
theorem numbers_lasting (limits : Limits) (now : UInt32) {changes : List Change}
    (few : 1 + (empty limits now).creations changes < UInt64.size) :
    let start := empty limits now
    (∀ past, past <+: changes → ∀ first second number,
      (start.after past).number? first = some number →
        (start.after past).number? second = some number → first = second) ∧
    (∀ past meantime, past ++ meantime <+: changes → ∀ path,
      (∀ part, part <+: meantime → ((start.after (past ++ part)).find? path).isSome) →
        (start.after (past ++ meantime)).number? path = (start.after past).number? path) ∧
    (∀ past change, past ++ [change] <+: changes → ∀ path number,
      (start.after past).find? path = none →
        (start.after (past ++ [change])).number? path = some number →
          ∀ earlier other, earlier <+: past → (start.after earlier).number? other ≠ some number) ∧
    (∀ past asked, (start.after past).reply? asked = none →
      start.after (past ++ [.request asked]) = (start.after past).countRead) ∧
    ∀ (fixture : Fixture) clock rest, (fixture.tree clock).after rest =
      (empty fixture.limits (fixture.changeTime.getD clock)).after (fixture.history ++ rest) := by
  intro start
  have numbering : start.Numbering (start.creations changes) :=
    ⟨Reachable.proper (.empty limits now), identified_empty limits now, few⟩
  refine ⟨?_, ?_, ?_, ?_, ?_⟩
  · intro past begins first second number here there
    obtain ⟨later, rfl⟩ := begins
    exact (Numbering.after numbering).identified.apart here there
  · intro past meantime begins path there
    simp only [after_append] at there ⊢
    exact number?_after there
  · intro past change begins path number absent made earlier other starts
    obtain ⟨later, rfl⟩ := starts
    exact (numbering.of_prefix begins).fresh absent made
  · intro past asked unanswered
    exact after_unanswered unanswered
  · intro fixture clock rest
    rw [after_append, fixture.tree_eq]
    rfl

/-- A file is made with the directories above it, taken away and made again. A directory takes its
place, where the read through its handle breaks off, then a file takes the place of the directory
above, and a directory that of this file. -/
theorem numbers_lasting_of_replacements :
    let start := empty {} 5
    let past : List Change := [.addFile "/a/b/c" [1], .request (.removeFile "a/b/c")]
    let made : Change := .request (.createFile "/a/b//c" 0 .readWrite)
    let written : List Change :=
      [made, .request (.writeTo ⟨1, 0, 0⟩ [7]), .addDirectory "/a/b/c"]
    let broken : Request := .readFrom ⟨1, 0, 0⟩ [0] none
    let meantime : List Change := written ++ [.request broken, .addFile "/a/b" [],
      .addStream "/a/b/d" [], .request (.removeFile "/a/b/c")]
    let changes := past ++ meantime
    let first : Path := .ofText "/a/b/c"
    let directory : Path := .ofText "/a/b"
    1 + start.creations changes = 6 ∧
      (start.after [.addFile "/a/b/c" [1]]).number? first = some 4 ∧
      (start.after (past ++ [made])).number? first = some 5 ∧
      (∀ other, (start.after [.addFile "/a/b/c" [1]]).number? other ≠ some 5) ∧
      start.after (past ++ written ++ [.request broken]) =
        (start.after (past ++ written)).countRead ∧
      (start.after past).number? directory = some 3 ∧
      (start.after changes).number? directory = some 3 ∧
      (start.after changes).number? (.ofText "/a/b/d") = some 6 ∧
      ∀ other, (start.after changes).number? other = some 3 → other = directory := by
  intro start past made written broken meantime changes first directory
  have count : 1 + start.creations changes = 6 := by decide +kernel
  have few : 1 + start.creations changes < UInt64.size := by
    rw [count]
    decide
  obtain ⟨apart, kept, fresh, breaks, -⟩ := numbers_lasting {} 5 few
  have unanswered : (start.after (past ++ written)).reply? broken = none :=
    Option.isNone_iff_eq_none.mp (by decide +kernel)
  have second : (start.after (past ++ [made])).number? first = some 5 := by decide +kernel
  have before : (start.after past).number? directory = some 3 := by decide +kernel
  have there (part : List Change) (begins : part <+: meantime) :
      ((start.after (past ++ part)).find? directory).isSome := by
    have all : ∀ part ∈ meantime.inits,
        ((start.after (past ++ part)).find? directory).isSome = true := by decide +kernel
    exact all part ((List.mem_inits part meantime).mpr begins)
  have last : (start.after changes).number? directory = some 3 :=
    (kept past meantime List.prefix_rfl directory there).trans before
  refine ⟨count, by decide +kernel, second, ?_, breaks _ broken unanswered, before, last,
    by decide +kernel, ?_⟩
  · intro other
    have begins : past ++ [made] <+: changes := ⟨meantime.tail, rfl⟩
    exact fresh past made begins first 5 (by decide +kernel) second _ other ⟨past.tail, rfl⟩
  · intro other same
    exact apart changes List.prefix_rfl other directory 3 same last

end Tree

end RemoteTree
