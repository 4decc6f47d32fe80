import RemoteTree.Proofs.Tree.History
import RemoteTree.Proofs.Tree.Records

/-!
# What a directory lists

The children of a directory in the order of the bytes of their names, each once, and each with the
record that asking for its path brings.
-/

set_option autoImplicit false

namespace RemoteTree

namespace Utf8

theorem ordered_trans (first second third : String) :
    ordered first second → ordered second third → ordered first third := by
  simp only [ordered, decide_eq_true_eq]
  exact List.le_trans

theorem ordered_total (first second : String) :
    (ordered first second || ordered second first) = true := by
  simp only [ordered, Bool.or_eq_true, decide_eq_true_eq]
  exact List.le_total _ _

end Utf8

namespace Tree

def childStats (tree : Tree) (directory : Path) : List Stat :=
  (tree.childrenOf directory).map fun entry => tree.statOf entry.1 entry.2

theorem listing_eq (tree : Tree) (directory : Path) :
    tree.listing directory = Stat.encodeAll (tree.childStats directory) := by
  simp only [listing, childStats, Stat.encodeAll, List.flatMap_map]

/-- Children that were placed in the order of their names are listed as they are. -/
theorem childStats_of_ordered {tree : Tree} {directory : Path}
    (ordered : (tree.nodes.filter fun entry => entry.1.parent? = some directory).Pairwise
      fun before after => Utf8.ordered before.1.name after.1.name = true) :
    tree.childStats directory =
      (tree.nodes.filter fun entry => entry.1.parent? = some directory).map
        fun entry => tree.statOf entry.1 entry.2 := by
  rw [childStats, childrenOf, List.mergeSort_of_pairwise ordered]

private theorem Proper.mem_childrenOf {tree : Tree} (proper : tree.Proper) {directory path : Path}
    {node : Node} :
    (path, node) ∈ tree.childrenOf directory ↔
      path.parent? = some directory ∧ tree.find? path = some node := by
  simp only [childrenOf, List.mem_mergeSort, List.mem_filter, decide_eq_true_eq]
  constructor
  · rintro ⟨member, inside⟩
    exact ⟨inside, Table.find?_of_mem proper.unique member⟩
  · rintro ⟨inside, found⟩
    exact ⟨Table.mem_of_find? found, inside⟩

private theorem eq_child_of_parent? {path directory : Path}
    (inside : path.parent? = some directory) : path = .child directory path.name := by
  cases path with
  | root => cases inside
  | child parent name =>
      cases inside
      rfl

/-- A record is listed if it is that of a node right below the directory. -/
theorem Proper.mem_childStats {tree : Tree} (proper : tree.Proper) {directory : Path}
    {stat : Stat} :
    stat ∈ tree.childStats directory ↔ ∃ name node,
      tree.find? (.child directory name) = some node ∧
        stat = tree.statOf (.child directory name) node := by
  simp only [childStats, List.mem_map, Prod.exists, proper.mem_childrenOf]
  constructor
  · rintro ⟨path, node, ⟨inside, found⟩, rfl⟩
    have child := eq_child_of_parent? inside
    exact ⟨path.name, node, child ▸ found, by rw [← child]⟩
  · rintro ⟨name, node, found, rfl⟩
    exact ⟨.child directory name, node, ⟨rfl, found⟩, rfl⟩

private theorem ordered_childrenOf (tree : Tree) (directory : Path) :
    (tree.childrenOf directory).Pairwise fun before after =>
      Utf8.ordered before.1.name after.1.name = true := by
  unfold childrenOf
  apply List.pairwise_mergeSort
  · intro first second third
    exact Utf8.ordered_trans first.1.name second.1.name third.1.name
  · intro first second
    exact Utf8.ordered_total first.1.name second.1.name

private theorem Proper.apart_childrenOf {tree : Tree} (proper : tree.Proper) (directory : Path) :
    (tree.childrenOf directory).Pairwise fun before after => before.1 ≠ after.1 := by
  unfold childrenOf
  refine ((List.mergeSort_perm _ _).pairwise_iff fun different => different.symm).mpr ?_
  exact (List.pairwise_map.mp proper.unique).sublist List.filter_sublist

theorem Proper.names_childStats {tree : Tree} (proper : tree.Proper) (directory : Path) :
    ((tree.childStats directory).map (·.name)).Pairwise fun before after =>
      Utf8.ordered before after = true ∧ before ≠ after := by
  have names : (tree.childStats directory).map (·.name) =
      (tree.childrenOf directory).map fun entry => entry.1.name := by
    simp only [childStats, List.map_map, Function.comp_def, statOf]
  rw [names, List.pairwise_map]
  refine (tree.ordered_childrenOf directory).and ?_
  refine (proper.apart_childrenOf directory).imp_of_mem
    fun {before after} first second different same => different ?_
  have firstChild := eq_child_of_parent? (proper.mem_childrenOf.mp first).1
  have secondChild := eq_child_of_parent? (proper.mem_childrenOf.mp second).1
  rw [firstChild, secondChild, same]

/-- What is listed for a child is what asking for the child's path brings. -/
theorem Proper.stat?_child {tree : Tree} (proper : tree.Proper) {directory : Path} {stat : Stat}
    (listed : stat ∈ tree.childStats directory) :
    ∃ text, Path.ofText text = .child directory stat.name ∧ tree.stat? text = some stat := by
  obtain ⟨name, node, found, rfl⟩ := proper.mem_childStats.mp listed
  have spelt := Path.ofText_text (proper.names _ (mem_keys_of_find? found))
  exact ⟨(Path.child directory name).text, spelt, by rw [stat?, spelt, found]; rfl⟩

end Tree

end RemoteTree
