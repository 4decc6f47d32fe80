import RemoteTree.Tree.Path

/-!
# Spellings of paths

Every text spells a path whose names are proper: not empty, not a single dot and without a slash.
A path with proper names is spelt by its own text.
-/

set_option autoImplicit false

namespace RemoteTree.Path

def ProperName (name : String) : Prop := isName name.toList = true ∧ '/' ∉ name.toList

/-- Can all names on the way to a path stand there? -/
def Proper : Path → Prop
  | root => True
  | child parent name => parent.Proper ∧ ProperName name

/-! ## Segments -/

private theorem segments_cons (character : Char) (rest : List Char) (plain : character ≠ '/') :
    ∃ first others, segments rest = first :: others ∧
      segments (character :: rest) = (character :: first) :: others := by
  have some : segments rest ≠ [] := by
    cases rest with
    | nil => simp [segments]
    | cons next rest =>
        unfold segments
        split
        · simp
        · split <;> simp
  obtain ⟨first, others, split⟩ := List.exists_cons_of_ne_nil some
  exact ⟨first, others, split, by simp [segments, plain, split]⟩

private theorem segments_append (front rest : List Char) :
    segments (front ++ '/' :: rest) = segments front ++ segments rest := by
  induction front with
  | nil => rfl
  | cons character front ih =>
      by_cases slash : character = '/'
      · simp [segments, slash, ih]
      · obtain ⟨first, others, split, whole⟩ := segments_cons character front slash
        simp [segments, slash, ih, split]

private theorem segments_of_no_slash {text : List Char} (plain : '/' ∉ text) :
    segments text = [text] := by
  induction text with
  | nil => rfl
  | cons character rest ih =>
      simp only [List.mem_cons, not_or] at plain
      simp [segments, Ne.symm plain.1, ih plain.2]

private theorem no_slash_of_mem_segments {text segment : List Char}
    (member : segment ∈ segments text) : '/' ∉ segment := by
  induction text generalizing segment with
  | nil => simp_all [segments]
  | cons character rest ih =>
      by_cases slash : character = '/'
      · simp only [segments, slash, ↓reduceIte, List.mem_cons] at member
        rcases member with rfl | later
        · simp
        · exact ih later
      · obtain ⟨first, others, split, whole⟩ := segments_cons character rest slash
        rw [whole] at member
        rw [split] at ih
        rcases List.mem_cons.mp member with rfl | later
        · simp [Ne.symm slash, ih List.mem_cons_self]
        · exact ih (List.mem_cons_of_mem _ later)

/-! ## Names -/

private theorem properName_of_mem_namesOf {text name : String} (member : name ∈ namesOf text) :
    ProperName name := by
  obtain ⟨segment, filtered, rfl⟩ := List.mem_map.mp member
  obtain ⟨inside, named⟩ := List.mem_filter.mp filtered
  unfold ProperName
  rw [String.toList_ofList]
  exact ⟨named, no_slash_of_mem_segments inside⟩

private theorem proper_ofNames {names : List String} (proper : ∀ name ∈ names, ProperName name) :
    (ofNames names).Proper := by
  suffices kept : ∀ start : Path, start.Proper → (names.foldl child start).Proper from
    kept root trivial
  induction names with
  | nil => exact fun _ start => start
  | cons name rest ih =>
      obtain ⟨first, others⟩ := List.forall_mem_cons.mp proper
      exact fun start started => ih others (.child start name) ⟨started, first⟩

theorem proper_ofText (text : String) : (ofText text).Proper :=
  proper_ofNames fun _ member => properName_of_mem_namesOf member

theorem namesOf_slash (text : String) {name : String} (proper : ProperName name) :
    namesOf (text ++ "/" ++ name) = namesOf text ++ [name] := by
  have slash : "/".toList = ['/'] := rfl
  simp only [namesOf, String.toList_append, slash, List.append_assoc, List.singleton_append,
    segments_append, segments_of_no_slash proper.2, List.filter_append, List.map_append,
    List.filter_cons, proper.1, ↓reduceIte, List.filter_nil, List.map_cons, List.map_nil,
    String.ofList_toList]

theorem namesOf_text {path : Path} (proper : path.Proper) : namesOf path.text = path.names := by
  induction path with
  | root => rfl
  | child parent name ih =>
      cases parent with
      | root =>
          have spelt := namesOf_slash "" proper.2
          rwa [String.empty_append] at spelt
      | child => exact (namesOf_slash _ proper.2).trans (congrArg (· ++ [name]) (ih proper.1))

private theorem ofNames_names (path : Path) : ofNames path.names = path := by
  induction path with
  | root => rfl
  | child parent name ih =>
      simp only [ofNames, names, List.foldl_append, List.foldl_cons, List.foldl_nil] at ih ⊢
      rw [ih]

/-- A path with proper names is what its own text spells. -/
theorem ofText_text {path : Path} (proper : path.Proper) : ofText path.text = path := by
  rw [ofText, namesOf_text proper, ofNames_names]

end RemoteTree.Path
