import RemoteTree.Proofs.Tree.Building
import RemoteTree.Proofs.Tree.Spelling

/-!
# Insertions

Putting something at a path makes directories of the places above it that are none, up to the
nearest that is one, and touches nothing else. It can be done by the text of the path alone, one
call for each of these places, since the parent of a normal text is a shorter normal text.
-/

set_option autoImplicit false

namespace RemoteTree

namespace Path

/-- The places above a path, the nearest first. -/
def above : Path → List Path
  | root => []
  | child parent _ => parent :: parent.above

private theorem isAbove_of_mem_above {place path : Path} (member : place ∈ path.above) :
    place.isAbove path = true := by
  induction path with
  | root => cases member
  | child parent name ih =>
    rw [isAbove_child]
    rcases List.mem_cons.mp member with here | further
    · exact .inl here.symm
    · exact .inr (ih further)

private theorem length_above_lt {path : Path} (proper : path.Proper) :
    path.above.length < path.text.length := by
  induction path with
  | root => exact Nat.zero_lt_one
  | child parent name ih =>
    obtain ⟨higher, named⟩ := proper
    exact Nat.lt_of_le_of_lt (ih higher) (Spelling.length_parent_lt parent named)

end Path

namespace Tree

variable {tree : Tree} {path : Path}

/-- The places above a path that are no directories, up to the nearest that is one. -/
def missing (tree : Tree) (path : Path) : List Path :=
  path.above.takeWhile fun place => !tree.hasDirectory place

@[simp] theorem missing_root (tree : Tree) : tree.missing .root = [] := rfl

private theorem missing_child_of_directory {parent : Path}
    (directory : tree.hasDirectory parent = true)
    (name : String) : tree.missing (.child parent name) = [] := by
  simp [missing, Path.above, directory]

private theorem missing_child_of_none {parent : Path} (none : ¬ tree.hasDirectory parent = true)
    (name : String) : tree.missing (.child parent name) = parent :: tree.missing parent := by
  simp [missing, Path.above, none]

/-- Every place above a path has a shorter text, so there are fewer of them than characters. -/
theorem length_missing_lt (tree : Tree) (text : String) :
    (tree.missing (.ofText text)).length < (Spelling.normalize text).length := by
  rw [Spelling.normalize_eq]
  exact Nat.lt_of_le_of_lt (List.takeWhile_sublist _).length_le
    (Path.length_above_lt (Path.proper_ofText text))

private theorem ne_of_mem_missing {place : Path} (member : place ∈ tree.missing path) :
    place ≠ path := by
  rintro rfl
  have above := Path.isAbove_of_mem_above ((List.takeWhile_sublist _).subset member)
  exact Nat.lt_irrefl _ (Path.length_names_lt above)

/-- The places that are missing and the path itself are the ones an insertion puts something at. -/
theorem places_iff {place : Path} :
    tree.places place path = true ↔ place = path ∨ place ∈ tree.missing path := by
  induction path with
  | root => simp [places]
  | child parent name ih =>
    by_cases directory : tree.hasDirectory parent = true
    · simp [places, directory, missing_child_of_directory directory]
    · simp [places, directory, missing_child_of_none directory, ih]

/-! ## What is put where -/

/-- Something is put at a place of a tree. What was there leaves its identity to it. -/
def Puts (tree : Tree) (place : Path) (mode : UInt32) (content : Content) (put : Option Node) :
    Prop :=
  ∃ identity, put = some ⟨identity, mode, tree.now, content⟩ ∧
    ∀ old, tree.find? place = some old → identity = old.identity

private theorem puts_place (tree : Tree) (path : Path) (mode : UInt32) (content : Content) :
    tree.Puts path mode content ((tree.place path mode content).find? path) := by
  unfold place
  split
  · next old found =>
    refine ⟨old.identity, (Table.find?_insert ..).trans (if_pos rfl), ?_⟩
    intro other same
    cases found.symm.trans same
    rfl
  · next absent =>
    refine ⟨tree.lastIdentity + 1, (Table.find?_insert ..).trans (if_pos rfl), ?_⟩
    intro other same
    cases absent.symm.trans same

/-- Putting something somewhere changes the nodes and the count of identities, and nothing else. -/
theorem insert_apart (tree : Tree) (path : Path) (mode : UInt32) (content : Content) :
    ∃ nodes identity, tree.insert path mode content =
      { tree with nodes := nodes, lastIdentity := identity } := by
  induction path generalizing mode content with
  | root =>
    obtain ⟨node, identity, same⟩ := place_apart tree .root mode content
    exact ⟨_, identity, same⟩
  | child parent name ih =>
    unfold insert
    dsimp only
    split
    · obtain ⟨node, identity, same⟩ := place_apart tree (.child parent name) mode content
      exact ⟨_, identity, same⟩
    · obtain ⟨nodes, last, above⟩ := ih plainDirectoryMode .directory
      obtain ⟨node, identity, same⟩ := place_apart
        (tree.insert parent plainDirectoryMode .directory) (.child parent name) mode content
      rw [above] at same ⊢
      exact ⟨_, identity, same⟩

/-- What was put at the path, at the places above it that were missing, and what was left alone. -/
structure Inserted (tree : Tree) (path : Path) (mode : UInt32) (content : Content) (after : Tree) :
    Prop where
  put : tree.Puts path mode content (after.find? path)
  above : ∀ place ∈ tree.missing path,
    tree.Puts place plainDirectoryMode .directory (after.find? place)
  others : ∀ place, place ≠ path → place ∉ tree.missing path →
    after.find? place = tree.find? place

private theorem puts_insert (tree : Tree) (path : Path) (mode : UInt32) (content : Content) :
    tree.Puts path mode content ((tree.insert path mode content).find? path) := by
  cases path with
  | root => exact tree.puts_place .root mode content
  | child parent name =>
    unfold insert
    dsimp only
    split
    · exact tree.puts_place (.child parent name) mode content
    · -- The directories above are made first, and the place itself is not touched by that.
      have same : (tree.insert parent plainDirectoryMode .directory).find? (.child parent name) =
          tree.find? (.child parent name) := by
        apply find?_insert_of_deeper
        rw [Path.length_names_child]
        exact Nat.lt_succ_self _
      obtain ⟨nodes, last, rest⟩ := insert_apart tree parent plainDirectoryMode .directory
      have now : (tree.insert parent plainDirectoryMode .directory).now = tree.now := by
        rw [rest]
      obtain ⟨identity, put, kept⟩ :=
        puts_place (tree.insert parent plainDirectoryMode .directory) (.child parent name) mode
          content
      rw [same] at kept
      rw [now] at put
      exact ⟨identity, put, kept⟩

private theorem puts_missing {place : Path} (member : place ∈ tree.missing path) (mode : UInt32)
    (content : Content) :
    tree.Puts place plainDirectoryMode .directory
      ((tree.insert path mode content).find? place) := by
  induction path generalizing mode content with
  | root => cases member
  | child parent name ih =>
    have apart := ne_of_mem_missing member
    unfold insert
    dsimp only
    split
    · next directory =>
      rw [missing_child_of_directory directory] at member
      cases member
    · next none =>
      rw [missing_child_of_none none] at member
      rw [find?_place_of_ne _ apart]
      rcases List.mem_cons.mp member with rfl | further
      · exact tree.puts_insert place plainDirectoryMode .directory
      · exact ih further plainDirectoryMode .directory

private theorem insert_inserted (tree : Tree) (path : Path) (mode : UInt32) (content : Content) :
    tree.Inserted path mode content (tree.insert path mode content) := by
  refine ⟨tree.puts_insert path mode content, ?_, ?_⟩
  · intro place member
    exact puts_missing member mode content
  · intro place apart outside
    apply find?_insert_of_not_places
    apply Bool.eq_false_of_not_eq_true
    rw [places_iff, not_or]
    exact ⟨apart, outside⟩

/-! ## Insertion by the text of a path -/

/-- Puts something where a text leads, with room for so many calls, one inside of the other. Where
the parent is no directory a call is made for the text of the parent first. -/
def insertSpelt (tree : Tree) : Nat → String → UInt32 → Content → Option Tree
  | 0, _, _, _ => none
  | calls + 1, text, mode, content =>
      let path := Spelling.normalize text
      let built :=
        match Spelling.parent? path with
        | none => some tree
        | some parent =>
            if tree.hasDirectory (.ofText parent) then some tree
            else tree.insertSpelt calls parent plainDirectoryMode .directory
      built.map fun built => built.place (.ofText path) mode content

/-- The calls come to an end: there is one for the text and one for each place that is missing. -/
theorem insertSpelt_eq (tree : Tree) (calls : Nat) (text : String) (mode : UInt32)
    (content : Content) :
    tree.insertSpelt calls text mode content =
      if (tree.missing (.ofText text)).length < calls then
        some (tree.insert (.ofText text) mode content)
      else none := by
  induction calls generalizing text mode content with
  | zero => rfl
  | succ calls ih =>
    have proper := Path.proper_ofText text
    have parent := Spelling.parent?_text proper
    rw [← Spelling.normalize_eq] at parent
    unfold insertSpelt
    dsimp only
    rw [parent, Spelling.ofText_normalize]
    cases path : Path.ofText text with
    | root => simp [Path.parent?, insert]
    | child holder name =>
      rw [path] at proper
      have spelt := Path.ofText_text proper.1
      simp only [Path.parent?, Option.map_some, spelt, insert]
      by_cases directory : tree.hasDirectory holder = true
      · simp [directory, missing_child_of_directory directory name]
      · rw [if_neg directory, if_neg directory, ih, spelt, missing_child_of_none directory name,
          List.length_cons]
        simp only [Nat.add_lt_add_iff_right]
        split <;> rfl

/-! ## Trees as flat maps -/

/-- The nodes of a tree under the texts of their paths. -/
def flat (tree : Tree) : Table String Node := tree.nodes.map fun entry => (entry.1.text, entry.2)

private theorem find?_flat (proper : tree.Proper) (text : String) :
    Table.find? (Spelling.normalize text) tree.flat = tree.find? (.ofText text) := by
  rw [Spelling.normalize_eq]
  apply Table.find?_mapKeys
  intro other member same
  rw [← Path.ofText_text (proper.names other member), same,
    Path.ofText_text (Path.proper_ofText text)]

open Spelling in
/-- The texts of paths and what they lead to. Bringing a text into its normal form keeps the names
that count in it and nothing else. A normal text but the root's comes apart at its last slash into
the shorter normal text of its parent and one name, and these give it back. So putting something
where a text leads comes to an end in every tree, after one call for each place above that is
missing. It touches the path and these places only. -/
theorem insert_follows_text :
    (∀ text, normalize (normalize text) = normalize text) ∧
    (∀ first second,
      normalize first = normalize second ↔ Path.namesOf first = Path.namesOf second) ∧
    (∀ text, normalize text = text → text ≠ "/" →
      ∃ parent, parent? text = some parent ∧ normalize parent = parent ∧
        parent.length < text.length ∧ Path.ProperName (name text) ∧
        normalize (parent ++ "/" ++ name text) = text) ∧
    parent? "/" = none ∧
    (∀ text, normalize text = (Path.ofText text).text ∧
      parent? (normalize text) = (Path.ofText text).parent?.map Path.text ∧
      name (normalize text) = (Path.ofText text).name) ∧
    (∀ tree : Tree, tree.Proper → ∀ text,
      Table.find? (normalize text) tree.flat = tree.find? (.ofText text)) ∧
    ∀ (tree : Tree) text mode content,
      let path := Path.ofText text
      let after := tree.insert path mode content
      (tree.missing path).length < (normalize text).length ∧
      (∀ calls, tree.insertSpelt calls text mode content =
        if (tree.missing path).length < calls then some after else none) ∧
      (∃ nodes identity, after = { tree with nodes := nodes, lastIdentity := identity }) ∧
      tree.Inserted path mode content after := by
  refine ⟨normalize_normalize, normalize_eq_iff, ?_, rfl, ?_, ?_, ?_⟩
  · intro text normal below
    exact apart_of_normal normal below
  · intro text
    have proper := Path.proper_ofText text
    rw [normalize_eq]
    exact ⟨rfl, parent?_text proper, name_text proper⟩
  · intro tree proper text
    exact find?_flat proper text
  · intro tree text mode content path after
    refine ⟨tree.length_missing_lt text, ?_, tree.insert_apart path mode content,
      tree.insert_inserted path mode content⟩
    intro calls
    exact tree.insertSpelt_eq calls text mode content

/-- Below a file directories are made, and one takes the place of the file. -/
theorem insert_follows_text_of_file_above :
    let tree := (Tree.empty {} 7).addFile "/a" [1]
    let text := "/a/b.c/é"
    let path := Path.ofText text
    Spelling.normalize text = text ∧ text ≠ "/" ∧ tree.Proper ∧
      (∃ parent, Spelling.parent? text = some parent ∧ Spelling.normalize parent = parent ∧
        parent.length < text.length ∧ Path.ProperName (Spelling.name text) ∧
        Spelling.normalize (parent ++ "/" ++ Spelling.name text) = text) ∧
      Table.find? (Spelling.normalize "./a//") tree.flat = tree.find? (.ofText "./a//") ∧
      tree.missing path = [.ofText "/a/b.c", .ofText "/a"] ∧
      ∃ after, tree.insertSpelt 3 text 0o644 (.file []) = some after ∧
        tree.Inserted path 0o644 (.file []) after := by
  intro tree text path
  have normal : Spelling.normalize text = text := by decide +kernel
  have below : text ≠ "/" := by decide +kernel
  have proper : tree.Proper :=
    Reachable.proper (.change (.addFile "/a" [1]) (.empty {} 7))
  have chain : tree.missing path = [.ofText "/a/b.c", .ofText "/a"] := by decide +kernel
  obtain ⟨-, -, cut, -, -, flat, inserts⟩ := insert_follows_text
  obtain ⟨-, calls, -, inserted⟩ := inserts tree text 0o644 (.file [])
  refine ⟨normal, below, proper, cut text normal below, flat tree proper _, chain, _, ?_, inserted⟩
  rw [calls, chain]
  rfl

end Tree

end RemoteTree
