import RemoteTree.Proofs.Tree.Stream
import RemoteTree.Proofs.Tree.WellFormed

/-!
# Trees as they are built

Building puts a node at a place together with the directories above it, whatever stood there. A
file or a stream that is put where a directory has entries leaves these under something that is no
directory; nothing else that can happen to a tree does so.
-/

set_option autoImplicit false

namespace RemoteTree

namespace Path

/-- Is a place on the way from the root to a path? No place is on the way to itself. -/
def isAbove (place : Path) : Path → Bool
  | root => false
  | child parent _ => parent = place || place.isAbove parent

theorem isAbove_child {place parent : Path} {name : String} :
    place.isAbove (.child parent name) = true ↔ parent = place ∨ place.isAbove parent = true := by
  simp [isAbove]

theorem length_names_child (parent : Path) (name : String) :
    (child parent name).names.length = parent.names.length + 1 := by
  simp [names]

private theorem child_ne (path : Path) (name : String) : child path name ≠ path := by
  intro same
  have sizes := congrArg (fun path => path.names.length) same
  simp only [length_names_child] at sizes
  omega

theorem length_names_lt {place path : Path} (above : place.isAbove path = true) :
    place.names.length < path.names.length := by
  induction path with
  | root => cases above
  | child parent name ih =>
      rw [length_names_child]
      cases isAbove_child.mp above with
      | inl here =>
          rw [here]
          exact Nat.lt_succ_self _
      | inr further => exact Nat.lt_succ_of_lt (ih further)

theorem isAbove_of_child {place path : Path} {name : String}
    (within : .child place name = path ∨ (child place name).isAbove path = true) :
    place.isAbove path = true := by
  cases within with
  | inl same =>
      rw [← same, isAbove_child]
      exact .inl rfl
  | inr above =>
      induction path with
      | root => cases above
      | child parent other ih =>
          rw [isAbove_child] at above ⊢
          cases above with
          | inl here =>
              right
              rw [here, isAbove_child]
              exact .inl rfl
          | inr further => exact .inr (ih further)

end Path

namespace Tree

variable {tree : Tree} {path : Path}

/-! ## What building puts where -/

theorem at_or_above_of_places {place : Path} (placed : tree.places path place = true) :
    path = place ∨ path.isAbove place = true := by
  induction place with
  | root => exact .inl (by simpa [places] using placed)
  | child parent name ih =>
      simp only [places, Bool.or_eq_true, decide_eq_true_eq, Bool.and_eq_true,
        Bool.not_eq_true'] at placed
      cases placed with
      | inl here => exact .inl here
      | inr further =>
          right
          rw [Path.isAbove_child]
          cases ih further.2 with
          | inl here => exact .inl here.symm
          | inr above => exact .inr above

theorem find?_insert_of_deeper {place : Path} (deeper : place.names.length < path.names.length)
    (mode : UInt32) (content : Content) :
    (tree.insert place mode content).find? path = tree.find? path := by
  apply find?_insert_of_not_places
  rw [Bool.eq_false_iff]
  intro placed
  cases at_or_above_of_places placed with
  | inl same =>
      rw [same] at deeper
      exact Nat.lt_irrefl _ deeper
  | inr above =>
      have longer := Path.length_names_lt above
      omega

private theorem hasDirectory_place_of_ne {place : Path} (apart : place ≠ path) (mode : UInt32)
    (content : Content) :
    (tree.place place mode content).hasDirectory path = tree.hasDirectory path := by
  rw [hasDirectory, find?_place_of_ne tree apart.symm, hasDirectory]

private theorem hasDirectory_place_self (tree : Tree) (path : Path) (mode : UInt32)
    (content : Content) :
    (tree.place path mode content).hasDirectory path = true ↔ content = .directory := by
  obtain ⟨identity, found⟩ := find?_place tree path path mode content
  rw [hasDirectory, found, if_pos rfl]
  cases content with
  | directory => simp [Node.isDirectory]
  | file bytes => simp [Node.isDirectory]
  | stream queue => simp [Node.isDirectory]

private theorem hasDirectory_insert_self (tree : Tree) (path : Path) (mode : UInt32)
    (content : Content) :
    (tree.insert path mode content).hasDirectory path = true ↔ content = .directory := by
  cases path with
  | root => exact hasDirectory_place_self tree .root mode content
  | child parent name => exact hasDirectory_place_self _ (.child parent name) mode content

/-- A node that building brings about stands at the place that is built or above it. -/
theorem find?_of_insert {place : Path} {mode : UInt32} {content : Content}
    (found : ((tree.insert place mode content).find? path).isSome) :
    (tree.find? path).isSome ∨ path = place ∨ path.isAbove place = true := by
  cases placed : tree.places path place with
  | false =>
      left
      rwa [find?_insert_of_not_places placed] at found
  | true => exact .inr (at_or_above_of_places placed)

private theorem isSome_find?_place (there : (tree.find? path).isSome) (place : Path) (mode : UInt32)
    (content : Content) : ((tree.place place mode content).find? path).isSome := by
  obtain ⟨identity, found⟩ := find?_place tree place path mode content
  rw [found]
  split
  · rfl
  · exact there

theorem isSome_insert_of_isSome (there : (tree.find? path).isSome) (place : Path) (mode : UInt32)
    (content : Content) : ((tree.insert place mode content).find? path).isSome := by
  induction place generalizing mode content with
  | root => exact isSome_find?_place there .root mode content
  | child parent name ih =>
      unfold insert
      dsimp only
      apply isSome_find?_place
      split
      · exact there
      · exact ih _ _

/-! ## Directories above all nodes -/

private theorem Parented.place (parented : tree.Parented)
    (above : ∀ parent name, path = .child parent name → tree.hasDirectory parent = true)
    {content : Content}
    (bare : content = .directory ∨ ∀ name, tree.find? (.child path name) = none) (mode : UInt32) :
    (tree.place path mode content).Parented := by
  intro parent name node found
  have inside : tree.hasDirectory parent = true := by
    by_cases same : path = .child parent name
    · exact above parent name same
    · rw [find?_place_of_ne tree (Ne.symm same)] at found
      exact parented parent name node found
  by_cases here : path = parent
  · subst here
    rw [hasDirectory_place_self]
    cases bare with
    | inl directory => exact directory
    | inr empty =>
        rw [find?_place_of_ne tree (Path.child_ne path name), empty name] at found
        cases found
  · rwa [hasDirectory_place_of_ne here]

/-- Building leaves nothing behind where it puts a directory, or where nothing lay. -/
theorem Parented.insert (parented : tree.Parented) {content : Content}
    (bare : content = .directory ∨ ∀ name, tree.find? (.child path name) = none) (mode : UInt32) :
    (tree.insert path mode content).Parented := by
  induction path generalizing mode content with
  | root =>
      apply parented.place
      · intro parent name same
        cases same
      · exact bare
  | child parent name ih =>
      unfold Tree.insert
      dsimp only
      split
      · next inside =>
        apply parented.place
        · intro holder entry same
          cases same
          exact inside
        · exact bare
      · apply (ih (.inl rfl) _).place
        · intro holder entry same
          cases same
          rw [hasDirectory_insert_self]
        · cases bare with
          | inl directory => exact .inl directory
          | inr empty =>
              right
              intro other
              rw [find?_insert_of_deeper, empty other]
              simp only [Path.length_names_child]
              omega

/-- What lies under something that is no directory is left behind. -/
theorem not_parented_insert {name : String} {node : Node}
    (within : tree.find? (.child path name) = some node) {content : Content}
    (plain : content ≠ .directory) (mode : UInt32) :
    ¬ (tree.insert path mode content).Parented := by
  intro parented
  have left : (tree.insert path mode content).find? (.child path name) = some node := by
    rw [find?_insert_of_deeper, within]
    rw [Path.length_names_child]
    exact Nat.lt_succ_self _
  have directory := parented path name node left
  rw [hasDirectory_insert_self] at directory
  exact plain directory

theorem Parented.exists_child (parented : tree.Parented) {place : Path}
    (there : (tree.find? path).isSome) (above : place.isAbove path = true) :
    ∃ name node, tree.find? (.child place name) = some node := by
  induction path with
  | root => cases above
  | child parent name ih =>
      obtain ⟨node, found⟩ := Option.isSome_iff_exists.mp there
      cases Path.isAbove_child.mp above with
      | inl here =>
          subst here
          exact ⟨name, node, found⟩
      | inr further =>
          obtain ⟨directory, holder, -⟩ := hasDirectory_iff.mp (parented parent name node found)
          exact ih (Option.isSome_iff_exists.mpr ⟨directory, holder⟩) further

namespace Change

def built? : Change → Option Path
  | .addDirectory text => some (.ofText text)
  | .addFile text _ => some (.ofText text)
  | .addStream text _ => some (.ofText text)
  | _ => none

/-- The place where a change builds something that is no directory. -/
def leaf? : Change → Option Path
  | .addFile text _ => some (.ofText text)
  | .addStream text _ => some (.ofText text)
  | _ => none

/-- Does a change put a file or a stream where a directory of the tree has entries? -/
def Buries (tree : Tree) (change : Change) : Prop :=
  ∃ path name node, change.leaf? = some path ∧ tree.find? (.child path name) = some node

/-- Does a change put a file or a stream above the place where another one builds? -/
def Covers (change other : Change) : Prop :=
  ∃ place path, change.leaf? = some place ∧ other.built? = some path ∧ place.isAbove path = true

inductive Kind (change : Change) : Prop where
  | serves (serves : change.builds = false) (leaf : change.leaf? = none)
  | builds {path : Path} {content : Content} (built : change.built? = some path)
      (leaf : change.leaf? = if content = .directory then none else some path)
      (apply : ∀ tree, ∃ mode, change.apply tree = tree.insert path mode content)

private theorem kind (change : Change) : change.Kind := by
  cases change with
  | addDirectory text => exact @Kind.builds _ _ .directory rfl rfl fun tree => ⟨_, rfl⟩
  | addFile text contents => exact @Kind.builds _ _ (.file contents) rfl rfl fun tree => ⟨_, rfl⟩
  | addStream text queue => exact @Kind.builds _ _ (.stream queue) rfl rfl fun tree => ⟨_, rfl⟩
  | _ => exact .serves rfl rfl

private theorem parented_iff (parented : tree.Parented) (change : Change) :
    (change.apply tree).Parented ↔ ¬ change.Buries tree := by
  cases change.kind with
  | serves serves leaf =>
      have kept := parented.turn (change_turn serves tree)
      simp [Buries, leaf, kept]
  | @builds path content built leaf apply =>
      obtain ⟨mode, applied⟩ := apply tree
      rw [applied]
      by_cases directory : content = .directory
      · rw [if_pos directory] at leaf
        have kept : (tree.insert path mode content).Parented :=
          parented.insert (.inl directory) mode
        simp [Buries, leaf, kept]
      · rw [if_neg directory] at leaf
        constructor
        · rintro kept ⟨place, name, node, same, within⟩
          rw [leaf] at same
          cases same
          exact not_parented_insert within directory mode kept
        · intro bare
          apply parented.insert
          right
          intro name
          cases within : tree.find? (.child path name) with
          | none => rfl
          | some node => exact absurd ⟨path, name, node, leaf, within⟩ bare

end Change

/-- A tree keeps directories above all its nodes exactly as long as nothing is buried in it. -/
theorem after_parented_iff (tree : Tree) (changes : List Change) :
    (∀ earlier, earlier <+: changes → (tree.after earlier).Parented) ↔
      tree.Parented ∧ ∀ earlier change, earlier ++ [change] <+: changes →
        ¬ change.Buries (tree.after earlier) := by
  constructor
  · intro throughout
    refine ⟨throughout [] List.nil_prefix, ?_⟩
    intro earlier change begins
    have before := throughout earlier ((List.prefix_append earlier [change]).trans begins)
    have next := throughout (earlier ++ [change]) begins
    rw [after_concat] at next
    exact (change.parented_iff before).mp next
  · rintro ⟨parented, careful⟩ earlier begins
    induction earlier using List.reverseRecOn with
    | nil => exact parented
    | append_singleton earlier change ih =>
        have before := ih ((List.prefix_append earlier [change]).trans begins)
        rw [after_concat, change.parented_iff before]
        exact careful earlier change begins

/-! ## Building from nothing -/

private theorem find?_of_after {changes : List Change}
    (build : ∀ change ∈ changes, change.builds = true)
    (found : ((tree.after changes).find? path).isSome) :
    (tree.find? path).isSome ∨ ∃ change ∈ changes, ∃ place,
      change.built? = some place ∧ (path = place ∨ path.isAbove place = true) := by
  induction changes using List.reverseRecOn with
  | nil => exact .inl found
  | append_singleton changes change ih =>
      obtain ⟨others, last⟩ := List.forall_mem_append.mp build
      rw [after_concat] at found
      cases change.kind with
      | serves serves => simp [serves] at last
      | @builds place content built leaf apply =>
          obtain ⟨mode, applied⟩ := apply (tree.after changes)
          rw [applied] at found
          cases find?_of_insert found with
          | inl before =>
              cases ih others before with
              | inl start => exact .inl start
              | inr earlier =>
                  obtain ⟨other, member, rest⟩ := earlier
                  exact .inr ⟨other, List.mem_append_left _ member, rest⟩
          | inr here => exact .inr ⟨change, List.mem_concat_self, place, built, here⟩

private theorem isSome_after_of_built {changes : List Change}
    (build : ∀ change ∈ changes, change.builds = true) {change : Change}
    (member : change ∈ changes) (built : change.built? = some path) :
    ((tree.after changes).find? path).isSome := by
  induction changes using List.reverseRecOn with
  | nil => cases member
  | append_singleton changes last ih =>
      obtain ⟨others, final⟩ := List.forall_mem_append.mp build
      rw [after_concat]
      cases last.kind with
      | serves serves => simp [serves] at final
      | @builds place content lastBuilt leaf apply =>
          obtain ⟨mode, applied⟩ := apply (tree.after changes)
          rw [applied]
          cases List.mem_append.mp member with
          | inl earlier => exact isSome_insert_of_isSome (ih others earlier) place mode content
          | inr here =>
              cases List.mem_singleton.mp here
              cases lastBuilt.symm.trans built
              exact isSome_find?_insert ..

/-- From a tree with nothing but its root, building buries something exactly where it puts a file
or a stream above a place that it built at before. -/
theorem buries_iff_covers (bare : ∀ parent name, tree.find? (.child parent name) = none)
    {changes : List Change} (build : ∀ change ∈ changes, change.builds = true)
    (parented : (tree.after changes).Parented) (change : Change) :
    change.Buries (tree.after changes) ↔ ∃ other ∈ changes, change.Covers other := by
  constructor
  · rintro ⟨place, name, node, leaf, within⟩
    cases find?_of_after build (Option.isSome_iff_exists.mpr ⟨node, within⟩) with
    | inl start => simp [bare] at start
    | inr earlier =>
        obtain ⟨other, member, path, built, reached⟩ := earlier
        exact ⟨other, member, place, path, leaf, built, Path.isAbove_of_child reached⟩
  · rintro ⟨other, member, place, path, leaf, built, above⟩
    have there : ((tree.after changes).find? path).isSome :=
      isSome_after_of_built build member built
    obtain ⟨name, node, within⟩ := parented.exists_child there above
    exact ⟨place, name, node, leaf, within⟩

private theorem built_parented_iff (bare : ∀ parent name, tree.find? (.child parent name) = none)
    {changes : List Change} (build : ∀ change ∈ changes, change.builds = true) :
    (∀ earlier, earlier <+: changes → (tree.after earlier).Parented) ↔
      changes.Pairwise fun before after => ¬ after.Covers before := by
  induction changes using List.reverseRecOn with
  | nil =>
      simp only [List.prefix_nil, forall_eq, List.Pairwise.nil, iff_true]
      intro parent name node found
      cases (bare parent name).symm.trans found
  | append_singleton changes last ih =>
      obtain ⟨others, -⟩ := List.forall_mem_append.mp build
      have split : (∀ earlier, earlier <+: changes ++ [last] → (tree.after earlier).Parented) ↔
          (∀ earlier, earlier <+: changes → (tree.after earlier).Parented) ∧
            (tree.after (changes ++ [last])).Parented := by
        simp only [List.prefix_concat_iff, or_imp, forall_and, forall_eq, and_comm]
      rw [split, List.pairwise_append, ih others]
      simp only [List.pairwise_singleton, List.mem_singleton, forall_eq, true_and]
      apply and_congr_right
      intro apart
      have before := (ih others).mpr apart changes List.prefix_rfl
      rw [after_concat, last.parented_iff before, buries_iff_covers bare others before]
      simp only [not_exists, not_and]

end Tree

namespace Fixture

def changes (fixture : Fixture) : List Tree.Change :=
  fixture.directories.map .addDirectory ++
    (inOrder fixture.files).map (fun entry => .addFile entry.1 (Utf8.encode entry.2)) ++
    (inOrder fixture.streams).map fun entry => .addStream entry.1 (entry.2.map chunk)

theorem tree_eq (fixture : Fixture) (clock : UInt32) :
    fixture.tree clock = (fixture.bareTree clock).after fixture.changes := by
  simp only [tree, changes, Tree.after, List.foldl_append, List.foldl_map]
  rfl

theorem builds_of_mem_changes {fixture : Fixture} {change : Tree.Change}
    (member : change ∈ fixture.changes) : change.builds = true := by
  simp only [changes, List.mem_append, List.mem_map] at member
  rcases member with (⟨text, -, rfl⟩ | ⟨entry, -, rfl⟩) | ⟨entry, -, rfl⟩
  · rfl
  · rfl
  · rfl

theorem find?_child_bareTree (fixture : Fixture) (clock : UInt32) (parent : Path) (name : String) :
    (fixture.bareTree clock).find? (.child parent name) = none := rfl

/-- A fixture is built with directories above all nodes at every stage exactly if no file or stream
of it comes after something that is built below its place. Whatever is built or asked for then, the
tree stays so exactly until a file or a stream is put where a directory has entries, which no request
can do. -/
theorem parented_throughout_iff (fixture : Fixture) (clock : UInt32) :
    let start := fixture.bareTree clock
    fixture.tree clock = start.after fixture.changes ∧
    ((∀ earlier, earlier <+: fixture.changes → (start.after earlier).Parented) ↔
      fixture.changes.Pairwise fun before after => ¬ after.Covers before) ∧
    (∀ limits now, (Tree.empty limits now).Parented) ∧
    (∀ tree changes,
      (∀ earlier, earlier <+: changes → (Tree.after tree earlier).Parented) ↔
        tree.Parented ∧ ∀ earlier change, earlier ++ [change] <+: changes →
          ¬ change.Buries (tree.after earlier)) ∧
    ∀ (request : Request) tree, ¬ (Tree.Change.request request).Buries tree := by
  intro start
  refine ⟨fixture.tree_eq clock, ?_, ?_, ?_, ?_⟩
  · apply Tree.built_parented_iff
    · exact fixture.find?_child_bareTree clock
    · intro change member
      exact builds_of_mem_changes member
  · intro limits now
    exact (Tree.wellFormed_empty limits now).parents
  · exact Tree.after_parented_iff
  · rintro request tree ⟨place, name, node, leaf, -⟩
    cases leaf

/-- A directory is declared inside of a file, and then the file is taken away. The calls that build
a tree do the same without a fixture. -/
theorem tree_orphans :
    let fixture : Fixture :=
      { changeTime := some 1, directories := ["/a/b"], files := [("/a", "x")] }
    let tree := fixture.tree 0
    let removed := (Tree.server.answer (.removeFile "/a") tree).2
    let built := ((Tree.empty {} 1).addFile "/a/b" []).addStream "/a" []
    (tree.contents? "/a" = some [0x78] ∧ tree.has "/a/b" = true ∧ ¬ tree.Parented) ∧
      (removed.has "/a" = false ∧ removed.has "/a/b" = true ∧ ¬ removed.Parented) ∧
      (built.has "/a/b" = true ∧ ¬ built.Parented) := by
  intro fixture tree removed built
  have orphaned {tree : Tree} {node : Node}
      (found : tree.find? (.child (.child .root "a") "b") = some node)
      (above : tree.hasDirectory (.child .root "a") = false) : ¬ tree.Parented := by
    intro parented
    have directory := parented _ _ _ found
    rw [above] at directory
    cases directory
  have child : tree.find? (.child (.child .root "a") "b") =
      some ⟨3, Tree.plainDirectoryMode, 1, .directory⟩ := by decide +kernel
  have left : removed.find? (.child (.child .root "a") "b") =
      some ⟨3, Tree.plainDirectoryMode, 1, .directory⟩ := by decide +kernel
  have file : built.find? (.child (.child .root "a") "b") =
      some ⟨3, 0o644, 1, .file []⟩ := by decide +kernel
  refine ⟨⟨?_, ?_, ?_⟩, ⟨?_, ?_, ?_⟩, ?_, ?_⟩
  · decide +kernel
  · decide +kernel
  · exact orphaned child (by decide +kernel)
  · decide +kernel
  · decide +kernel
  · exact orphaned left (by decide +kernel)
  · decide +kernel
  · exact orphaned file (by decide +kernel)

end Fixture

end RemoteTree
