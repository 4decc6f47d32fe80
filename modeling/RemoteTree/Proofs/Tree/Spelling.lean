import Mathlib.Data.List.DropRight
import RemoteTree.Proofs.Tree.Path

/-!
# Paths as texts

What can be done to a path by its text alone: bringing it into its normal form, and cutting it at
its last slash. On normal texts this is what the parent and the name of a path are, so every normal
text but the root's comes apart into a shorter normal text and one name, and these give it back.
-/

set_option autoImplicit false

namespace RemoteTree

namespace Spelling

open RemoteTree.Path (namesOf ofNames ofText ProperName)

/-- The names that count in a text, each behind one slash. Without names this is a slash. -/
def normalize (text : String) : String := "/" ++ "/".intercalate (namesOf text)

/-- The text in front of the last slash, or the slash itself if that is the first character. The
root has no parent. -/
def parent? (text : String) : Option String :=
  let front := text.toList.rdropWhile (· ≠ '/')
  if text = "/" then none
  else if front = [] then none
  else if front = ['/'] then some "/"
  else some (String.ofList front.dropLast)

/-- The text behind the last slash. The root is its own name. -/
def name (text : String) : String :=
  if text = "/" then text else String.ofList (text.toList.rtakeWhile (· ≠ '/'))

end Spelling

namespace Path

/-! ## Texts of paths -/

/-- What stands in front of the last slash in the text of an entry. -/
def stem : Path → String
  | root => ""
  | path => path.text

private theorem text_child (parent : Path) (name : String) :
    (child parent name).text = parent.stem ++ "/" ++ name := by
  cases parent with
  | root => rfl
  | child => rfl

private theorem toList_text_child (parent : Path) (name : String) :
    (child parent name).text.toList = parent.stem.toList ++ '/' :: name.toList := by
  rw [text_child, String.toList_append, String.toList_append]
  exact List.append_assoc ..

private theorem length_text_child (parent : Path) (name : String) :
    (child parent name).text.length = parent.stem.length + 1 + name.length := by
  rw [text_child, String.length_append, String.length_append]
  rfl

private theorem ProperName.length_pos {name : String} (proper : ProperName name) :
    0 < name.length := by
  obtain ⟨named, -⟩ := proper
  rw [← String.length_toList]
  apply List.length_pos_of_ne_nil
  intro empty
  rw [empty] at named
  cases named

private theorem text_child_ne_root (parent : Path) {name : String} (proper : ProperName name) :
    (child parent name).text ≠ "/" := by
  intro same
  have long := length_text_child parent name
  have some := proper.length_pos
  rw [same] at long
  change 1 = _ at long
  omega

private theorem names_ofNames (names : List String) : (ofNames names).names = names := by
  induction names using List.reverseRecOn with
  | nil => rfl
  | append_singleton names name ih =>
    simp only [ofNames, List.foldl_append, List.foldl_cons, List.foldl_nil, Path.names] at ih ⊢
    rw [ih]

private theorem text_ofNames (names : List String) :
    (ofNames names).text = "/" ++ "/".intercalate names := by
  induction names using List.reverseRecOn with
  | nil => rfl
  | append_singleton names name ih =>
    have last : ofNames (names ++ [name]) = child (ofNames names) name := by
      simp [ofNames, List.foldl_append]
    rw [last, text_child]
    cases above : ofNames names with
    | root =>
      have none := names_ofNames names
      rw [above] at none
      cases none
      rfl
    | child parent other =>
      have some : names ≠ [] := by
        rintro rfl
        cases above
      rw [above] at ih
      rw [stem, ih, String.intercalate_append_of_ne_nil some (List.cons_ne_nil _ _),
        String.intercalate_singleton]
      simp only [String.append_assoc]
      intro nothing
      cases nothing

end Path

namespace Spelling

open RemoteTree.Path (namesOf ofNames ofText ProperName)

/-! ## Normal texts -/

theorem normalize_eq (text : String) : normalize text = (ofText text).text :=
  (Path.text_ofNames (namesOf text)).symm

private theorem namesOf_normalize (text : String) : namesOf (normalize text) = namesOf text := by
  rw [normalize_eq, Path.namesOf_text (Path.proper_ofText text), ofText, Path.names_ofNames]

theorem ofText_normalize (text : String) : ofText (normalize text) = ofText text := by
  rw [ofText, namesOf_normalize, ofText]

private theorem normalize_text {path : Path} (proper : path.Proper) :
    normalize path.text = path.text := by
  rw [normalize_eq, Path.ofText_text proper]

theorem normalize_normalize (text : String) : normalize (normalize text) = normalize text := by
  rw [normalize, namesOf_normalize, normalize]

theorem normalize_eq_iff (first second : String) :
    normalize first = normalize second ↔ namesOf first = namesOf second := by
  constructor
  · intro same
    rw [← namesOf_normalize first, same, namesOf_normalize]
  · intro same
    rw [normalize, same, normalize]

/-! ## Cutting at the last slash -/

section

variable {front tail : List Char}

private theorem rdropWhile_slash (plain : '/' ∉ tail) :
    (front ++ '/' :: tail).rdropWhile (· ≠ '/') = front ++ ['/'] := by
  have passed : ∀ character ∈ tail.reverse, decide (character ≠ '/') = true := by
    intro character member
    rw [decide_eq_true_eq]
    rintro rfl
    exact plain (List.mem_reverse.mp member)
  rw [List.rdropWhile, List.reverse_append, List.reverse_cons, List.append_assoc,
    List.dropWhile_append_of_pos passed]
  simp

private theorem rtakeWhile_slash (plain : '/' ∉ tail) :
    (front ++ '/' :: tail).rtakeWhile (· ≠ '/') = tail := by
  have whole : (front ++ '/' :: tail).rdropWhile (· ≠ '/') ++
      (front ++ '/' :: tail).rtakeWhile (· ≠ '/') = front ++ '/' :: tail :=
    List.rdropWhile_append_rtakeWhile
  rw [rdropWhile_slash plain, List.append_assoc] at whole
  simpa using whole

end

/-- On normal texts the part in front of the last slash is the parent of the path. -/
theorem parent?_text {path : Path} (proper : path.Proper) :
    parent? path.text = path.parent?.map Path.text := by
  cases path with
  | root => rfl
  | child parent entry =>
    obtain ⟨-, named⟩ := proper
    simp only [parent?, Path.toList_text_child, rdropWhile_slash named.2,
      if_neg (Path.text_child_ne_root parent named)]
    cases parent with
    | root => rfl
    | child above other =>
      have some : (Path.child above other).text.toList ≠ [] := by
        rw [Path.toList_text_child]
        exact List.append_ne_nil_of_right_ne_nil _ (List.cons_ne_nil _ _)
      have longer : (Path.child above other).text.toList ++ ['/'] ≠ ['/'] := by
        intro same
        exact some (List.append_left_eq_self.mp same)
      simp only [Path.stem, longer, List.append_eq_nil_iff, some, false_and, ↓reduceIte,
        List.dropLast_concat, String.ofList_toList]
      rfl

/-- On normal texts the part behind the last slash is the name of the path. -/
theorem name_text {path : Path} (proper : path.Proper) : name path.text = path.name := by
  cases path with
  | root => rfl
  | child parent entry =>
    obtain ⟨-, named⟩ := proper
    rw [name, if_neg (Path.text_child_ne_root parent named), Path.toList_text_child,
      rtakeWhile_slash named.2, String.ofList_toList]
    rfl

/-- A normal text that is not the root's is the text of an entry. -/
theorem exists_child_of_normal {text : String} (normal : normalize text = text)
    (below : text ≠ "/") :
    ∃ parent entry, (Path.child parent entry).Proper ∧ text = (Path.child parent entry).text := by
  rw [normalize_eq] at normal
  have proper := Path.proper_ofText text
  cases path : ofText text with
  | root =>
    rw [path] at normal
    exact absurd normal.symm below
  | child parent entry =>
    rw [path] at normal proper
    exact ⟨parent, entry, proper, normal.symm⟩

theorem length_parent_lt (parent : Path) {entry : String} (proper : ProperName entry) :
    parent.text.length < (Path.child parent entry).text.length := by
  have some := proper.length_pos
  rw [Path.length_text_child]
  cases parent with
  | root =>
    change 1 < 0 + 1 + entry.length
    omega
  | child above other =>
    change (Path.child above other).text.length < (Path.child above other).text.length + 1 + _
    omega

/-- A normal text that is not the root's comes apart into a shorter normal text and one name. -/
theorem apart_of_normal {text : String} (normal : normalize text = text) (below : text ≠ "/") :
    ∃ parent, parent? text = some parent ∧ normalize parent = parent ∧
      parent.length < text.length ∧ ProperName (name text) ∧
      normalize (parent ++ "/" ++ name text) = text := by
  obtain ⟨parent, entry, proper, rfl⟩ := exists_child_of_normal normal below
  have above : parent.Proper := proper.1
  have named : ProperName entry := proper.2
  refine ⟨parent.text, parent?_text proper, normalize_text above, length_parent_lt parent named,
    ?_, ?_⟩
  · rw [name_text proper]
    exact named
  · rw [name_text proper, ← normalize_text proper, normalize_eq_iff, Path.namesOf_text proper]
    exact (Path.namesOf_slash parent.text named).trans
      (congrArg (· ++ [entry]) (Path.namesOf_text above))

end Spelling

end RemoteTree
