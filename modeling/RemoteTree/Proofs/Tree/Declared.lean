import RemoteTree.Proofs.Tree.Building

/-!
# What a fixture declares

A fixture whose files and streams have their places to themselves is loaded as it stands: with its
entries, the directories on the way to them, and nothing else, in whatever order and spelling the
entries come.
-/

set_option autoImplicit false

namespace RemoteTree

namespace Tree

variable {tree : Tree} {path : Path}

/-! ## Single insertions -/

private theorem find?_insert_self (tree : Tree) (path : Path) (mode : UInt32) (content : Content) :
    ∃ node, (tree.insert path mode content).find? path = some node ∧ node.content = content := by
  cases path with
  | root =>
    obtain ⟨identity, found⟩ := find?_place tree .root .root mode content
    exact ⟨_, found, rfl⟩
  | child parent name =>
    obtain ⟨identity, found⟩ := find?_place
      (if tree.hasDirectory parent then tree
        else tree.insert parent plainDirectoryMode .directory)
      (.child parent name) (.child parent name) mode content
    rw [if_pos rfl] at found
    exact ⟨_, found, rfl⟩

private theorem find?_insert_of_apart {place : Path} (apart : place ≠ path)
    (beside : place.isAbove path = false) (mode : UInt32) (content : Content) :
    (tree.insert path mode content).find? place = tree.find? place := by
  apply find?_insert_of_not_places
  by_contra placed
  cases at_or_above_of_places (Bool.eq_true_of_not_eq_false placed) with
  | inl here => exact apart here
  | inr above =>
    rw [beside] at above
    cases above

private theorem Parented.hasDirectory_above {place : Path} (parented : tree.Parented)
    (there : (tree.find? path).isSome) (above : place.isAbove path = true) :
    tree.hasDirectory place = true := by
  obtain ⟨name, node, found⟩ := parented.exists_child there above
  exact parented place name node found

/-! ## Entries -/

/-- Does nothing else stand at the place of a file or stream, or below it? -/
def Clear (entry other : Path × Content) : Prop :=
  entry.2 = .directory ∨ other.1 ≠ entry.1 ∧ entry.1.isAbove other.1 = false

instance : DecidableRel Clear := fun entry other =>
  inferInstanceAs (Decidable (entry.2 = .directory ∨
    other.1 ≠ entry.1 ∧ entry.1.isAbove other.1 = false))

/-- Have all files and streams their places to themselves? -/
def Apart (entries : List (Path × Content)) : Prop :=
  entries.Pairwise fun first second => Clear first second ∧ Clear second first

instance (entries : List (Path × Content)) : Decidable (Apart entries) :=
  inferInstanceAs (Decidable (List.Pairwise _ entries))

private theorem Apart.perm {first second : List (Path × Content)} (same : first.Perm second)
    (apart : Apart first) : Apart second :=
  (same.pairwise_iff fun clear => clear.symm).mp apart

/-- Is a tree made up of some entries and the directories on the way to them? -/
structure Holds (tree : Tree) (entries : List (Path × Content)) : Prop where
  parented : tree.Parented
  places : ∀ path, (tree.find? path).isSome ↔
    path = .root ∨ ∃ entry ∈ entries, path = entry.1 ∨ path.isAbove entry.1 = true
  contents : ∀ entry ∈ entries, ∃ node, tree.find? entry.1 = some node ∧ node.content = entry.2
  others : ∀ path node, tree.find? path = some node →
    node.content = .directory ∨ (path, node.content) ∈ entries

namespace Holds

variable {entries : List (Path × Content)} {entry : Path × Content}

private theorem bare (holds : tree.Holds entries) (clear : ∀ other ∈ entries, Clear entry other) :
    entry.2 = .directory ∨ ∀ name, tree.find? (.child entry.1 name) = none := by
  by_cases directory : entry.2 = .directory
  · exact .inl directory
  · right
    intro name
    by_contra within
    obtain root | ⟨other, member, reached⟩ :=
      (holds.places _).mp (Option.isSome_iff_ne_none.mpr within)
    · cases root
    · obtain directory' | ⟨-, beside⟩ := clear other member
      · exact directory directory'
      · rw [Path.isAbove_of_child reached] at beside
        cases beside

/-- An entry that is clear of the others joins them. -/
theorem insert (holds : tree.Holds entries)
    (clear : ∀ other ∈ entries, Clear entry other ∧ Clear other entry) (mode : UInt32) :
    (tree.insert entry.1 mode entry.2).Holds (entries ++ [entry]) := by
  obtain ⟨path, content⟩ := entry
  have parented : (tree.insert path mode content).Parented :=
    holds.parented.insert (holds.bare fun other member => (clear other member).1) mode
  have there := isSome_find?_insert tree path mode content
  have onTheWay (place : Path) (above : place.isAbove path = true) :
      ∃ node, (tree.insert path mode content).find? place = some node ∧
        node.content = .directory :=
    exists_directory (parented.hasDirectory_above there above)
  obtain ⟨made, found, holdsContent⟩ := find?_insert_self tree path mode content
  refine ⟨parented, fun place => ?_, fun other member => ?_, fun place node found' => ?_⟩
  · simp only [List.mem_append, List.mem_singleton, or_and_right, exists_or, exists_eq_left,
      ← or_assoc, ← holds.places]
    constructor
    · intro some
      rw [or_assoc]
      exact find?_of_insert some
    · rintro ((before | rfl) | above)
      · exact isSome_insert_of_isSome before path mode content
      · exact there
      · obtain ⟨node, found, -⟩ := onTheWay place above
        exact Option.isSome_of_eq_some found
  · -- An earlier entry at the place or on the way to it is a directory, and so it stays one.
    rcases List.mem_append.mp member with earlier | last
    · obtain ⟨node, before, same⟩ := holds.contents other earlier
      obtain ⟨mine, its⟩ := clear other earlier
      by_cases here : other.1 = path
      · have directory : content = .directory := mine.resolve_right fun apart => apart.1 here
        have also : other.2 = .directory := its.resolve_right fun apart => apart.1 here.symm
        refine ⟨made, ?_, by rw [holdsContent, directory, also]⟩
        rw [here]
        exact found
      · cases above : other.1.isAbove path with
        | true =>
          have directory : other.2 = .directory := by
            refine its.resolve_right fun apart => ?_
            exact Bool.false_ne_true (apart.2.symm.trans above)
          rw [directory]
          exact onTheWay other.1 above
        | false => exact ⟨node, by rw [find?_insert_of_apart here above, before], same⟩
    · cases List.mem_singleton.mp last
      exact ⟨_, found, holdsContent⟩
  · by_cases same : place = path
    · subst same
      cases found.symm.trans found'
      right
      rw [holdsContent]
      exact List.mem_concat_self
    · cases above : place.isAbove path with
      | true =>
        obtain ⟨directory, there, isDirectory⟩ := onTheWay place above
        cases there.symm.trans found'
        exact .inl isDirectory
      | false =>
        rw [find?_insert_of_apart same above] at found'
        exact (holds.others place node found').imp_right (List.mem_append_left _)

/-- The entries say what a tree holds, in whatever order they come. -/
theorem content_eq {other : Tree} {others : List (Path × Content)} (holds : tree.Holds entries)
    (alike : other.Holds others) (same : ∀ entry, entry ∈ entries ↔ entry ∈ others) (path : Path) :
    (tree.find? path).map (·.content) = (other.find? path).map (·.content) := by
  have places : (tree.find? path).isSome ↔ (other.find? path).isSome := by
    simp only [holds.places, alike.places, same]
  cases found : tree.find? path with
  | none =>
    cases found' : other.find? path with
    | none => rfl
    | some node => simp [found, found'] at places
  | some node =>
    cases found' : other.find? path with
    | none => simp [found, found'] at places
    | some node' =>
      rw [Option.map_some, Option.map_some, Option.some_inj]
      rcases holds.others path node found with directory | declared
      · rcases alike.others path node' found' with directory' | declared'
        · rw [directory, directory']
        · obtain ⟨_, there, content⟩ := holds.contents _ ((same _).mpr declared')
          cases there.symm.trans found
          exact content
      · obtain ⟨_, there, content⟩ := alike.contents _ ((same _).mp declared)
        cases there.symm.trans found'
        exact content.symm

end Holds

/-! ## Trees built of entries -/

/-- The mode of what is put into a tree without asking for one. -/
def plainMode : Content → UInt32
  | .directory => plainDirectoryMode
  | .file _ => 0o644
  | .stream _ => 0o444

def build (tree : Tree) (entries : List (Path × Content)) : Tree :=
  entries.foldl (fun tree entry => tree.insert entry.1 (plainMode entry.2) entry.2) tree

private theorem build_append (tree : Tree) (first second : List (Path × Content)) :
    tree.build (first ++ second) = (tree.build first).build second := List.foldl_append

private theorem Holds.build (holds : tree.Holds []) {entries : List (Path × Content)}
    (apart : Apart entries) : (tree.build entries).Holds entries := by
  induction entries using List.reverseRecOn with
  | nil => exact holds
  | append_singleton entries entry ih =>
    obtain ⟨earlier, -, clear⟩ := List.pairwise_append.mp apart
    rw [build_append]
    refine (ih earlier).insert (fun other member => ?_) _
    exact (clear other member entry (List.mem_singleton.mpr rfl)).symm

/-- Do all nodes have been made at one time, and do they belong to one owner? -/
structure Stamped (tree : Tree) (time : UInt32) (user : String) : Prop where
  now : tree.now = time
  owner : tree.owner = user
  times : ∀ path node, tree.find? path = some node → node.changeTime = time

namespace Stamped

variable {time : UInt32} {user : String}

private theorem place (stamped : tree.Stamped time user) (path : Path) (mode : UInt32)
    (content : Content) : (tree.place path mode content).Stamped time user := by
  have same : (tree.place path mode content).now = tree.now ∧
      (tree.place path mode content).owner = tree.owner := by
    unfold Tree.place
    split <;> exact ⟨rfl, rfl⟩
  refine ⟨same.1.trans stamped.now, same.2.trans stamped.owner, fun other node found => ?_⟩
  obtain ⟨identity, placed⟩ := find?_place tree path other mode content
  rw [placed] at found
  split at found
  · cases found
    exact stamped.now
  · exact stamped.times other node found

private theorem insert (stamped : tree.Stamped time user) (path : Path) (mode : UInt32)
    (content : Content) : (tree.insert path mode content).Stamped time user := by
  induction path generalizing mode content with
  | root => exact stamped.place .root mode content
  | child parent name ih =>
    unfold Tree.insert
    dsimp only
    split
    · exact stamped.place _ mode content
    · exact (ih _ _).place _ mode content

private theorem build (stamped : tree.Stamped time user) (entries : List (Path × Content)) :
    (tree.build entries).Stamped time user := by
  induction entries generalizing tree with
  | nil => exact stamped
  | cons entry rest ih => exact ih (stamped.insert entry.1 _ entry.2)

end Stamped

end Tree

namespace Fixture

/-- The entries of a fixture: the place and the content of each. -/
def declared (fixture : Fixture) : List (Path × Content) :=
  fixture.directories.map (fun text => (.ofText text, .directory)) ++
    fixture.files.map (fun entry => (.ofText entry.1, .file (Utf8.encode entry.2))) ++
    fixture.streams.map fun entry => (.ofText entry.1, .stream (entry.2.map chunk))

/-- The entries in the order in which they are loaded. -/
def loaded (fixture : Fixture) : List (Path × Content) :=
  declared { fixture with files := inOrder fixture.files, streams := inOrder fixture.streams }

private theorem perm_loaded (fixture : Fixture) : fixture.loaded.Perm fixture.declared := by
  have files : (inOrder fixture.files).Perm fixture.files := List.mergeSort_perm _ _
  have streams : (inOrder fixture.streams).Perm fixture.streams := List.mergeSort_perm _ _
  exact ((files.map _).append_left _).append (streams.map _)

private theorem tree_eq_build (fixture : Fixture) (clock : UInt32) :
    fixture.tree clock = (fixture.bareTree clock).build fixture.loaded := by
  simp only [tree, loaded, declared, Tree.build, List.foldl_append, List.foldl_map]
  rfl

variable (fixture : Fixture) (clock : UInt32)

private theorem bareTree_holds : (fixture.bareTree clock).Holds [] := by
  have root : (fixture.bareTree clock).find? .root = some
    ⟨1, Tree.plainDirectoryMode, fixture.changeTime.getD clock, .directory⟩ := rfl
  refine ⟨fun parent name node found => ?_, fun path => ?_, fun entry member => ?_,
    fun path node found => ?_⟩
  · cases found
  · cases path with
    | root => simp [root]
    | child parent name => simp [find?_child_bareTree]
  · cases member
  · cases path with
    | root =>
      cases found
      exact .inl rfl
    | child parent name => cases found

private theorem bareTree_stamped : (fixture.bareTree clock).Stamped (fixture.changeTime.getD clock)
    (fixture.owner.getD "none") := by
  refine ⟨rfl, rfl, fun path node found => ?_⟩
  cases path with
  | root =>
    cases found
    rfl
  | child parent name => cases found

/-- A fixture whose files and streams have their places to themselves is loaded as it stands. There
is a node at the root, at the place of every entry and on the way to it, and nowhere else; every
entry has its content, and whatever is no file or stream of the fixture is a directory. All nodes
have the time of the fixture, if it gives one, and all are said to belong to its owner. The order of
the entries and the spelling of their places do not matter. -/
theorem tree_holds_declared (apart : Tree.Apart fixture.declared) :
    let tree := fixture.tree clock
    let owner := fixture.owner.getD "none"
    (∀ path, (tree.find? path).isSome ↔
      path = .root ∨ ∃ entry ∈ fixture.declared, path = entry.1 ∨ path.isAbove entry.1 = true) ∧
    (∀ path content, (path, content) ∈ fixture.declared →
      ∃ node, tree.find? path = some node ∧ node.content = content) ∧
    (∀ path node, tree.find? path = some node →
      (node.content = .directory ∨ (path, node.content) ∈ fixture.declared) ∧
      node.changeTime = fixture.changeTime.getD clock) ∧
    (∀ stat, (∃ text, tree.stat? text = some stat) ∨
        (∃ directory, stat ∈ tree.childStats directory) →
      stat.owner = owner ∧ stat.group = owner ∧ stat.changedBy = owner) ∧
    ∀ (other : Fixture) time path, other.declared.Perm fixture.declared →
      ((other.tree time).find? path).map (·.content) = (tree.find? path).map (·.content) := by
  intro tree owner
  have holds {fixture : Fixture} (time : UInt32) (apart : Tree.Apart fixture.declared) :
      (fixture.tree time).Holds fixture.loaded := by
    rw [tree_eq_build]
    exact (fixture.bareTree_holds time).build (apart.perm fixture.perm_loaded.symm)
  have built : tree.Holds fixture.loaded := holds clock apart
  have stamped : tree.Stamped (fixture.changeTime.getD clock) owner := by
    show (fixture.tree clock).Stamped _ _
    rw [tree_eq_build]
    exact (fixture.bareTree_stamped clock).build fixture.loaded
  have same (entry : Path × Content) : entry ∈ fixture.loaded ↔ entry ∈ fixture.declared :=
    fixture.perm_loaded.mem_iff
  refine ⟨fun path => ?_, fun path content member => ?_, fun path node found => ?_,
    fun stat => ?_, fun other time path alike => ?_⟩
  · simpa only [same] using built.places path
  · exact built.contents (path, content) ((same _).mpr member)
  · refine ⟨?_, stamped.times path node found⟩
    simpa only [same] using built.others path node found
  · have owned (path : Path) (node : Node) : (tree.statOf path node).owner = owner ∧
        (tree.statOf path node).group = owner ∧ (tree.statOf path node).changedBy = owner :=
      ⟨stamped.owner, stamped.owner, stamped.owner⟩
    rintro (⟨text, served⟩ | ⟨directory, listed⟩)
    · obtain ⟨node, -, rfl⟩ := Option.map_eq_some_iff.mp served
      exact owned _ node
    · obtain ⟨entry, -, rfl⟩ := List.mem_map.mp listed
      exact owned entry.1 entry.2
  · refine (holds time (apart.perm alike.symm)).content_eq built (fun entry => ?_) path
    rw [other.perm_loaded.mem_iff, alike.mem_iff, same]

theorem tree_holds_declared_of_spellings :
    let fixture : Fixture :=
      { owner := some "glenda"
        changeTime := some 7
        directories := ["a//b/", "/", "./a"]
        files := [("d/./e", "é"), ("./a/b/c", "x")]
        streams := [("//s", [some "1", none, some ""])] }
    Tree.Apart fixture.declared ∧ ∀ path, ((fixture.tree 0).find? path).isSome ↔
      path = .root ∨ ∃ entry ∈ fixture.declared, path = entry.1 ∨ path.isAbove entry.1 = true := by
  intro fixture
  have apart : Tree.Apart fixture.declared := by decide +kernel
  exact ⟨apart, (fixture.tree_holds_declared 0 apart).1⟩

end Fixture

end RemoteTree
