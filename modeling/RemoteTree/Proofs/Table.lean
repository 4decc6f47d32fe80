import RemoteTree.Table

/-!
# Tables under changes of their values

A change made to all values of a table goes past every operation on keys.
-/

set_option autoImplicit false

namespace RemoteTree.Table

variable {Key Value Other : Type}

def mapValues (change : Value → Other) (table : Table Key Value) : Table Key Other :=
  table.map fun entry => (entry.1, change entry.2)

@[simp] theorem isEmpty_mapValues (change : Value → Other) (table : Table Key Value) :
    (mapValues change table).isEmpty = table.isEmpty := by
  cases table <;> rfl

@[simp] theorem keys_mapValues (change : Value → Other) (table : Table Key Value) :
    (mapValues change table).keys = table.keys := by
  simp [keys, mapValues]

variable [DecidableEq Key]

@[simp] theorem find?_mapValues (change : Value → Other) (key : Key) (table : Table Key Value) :
    find? key (mapValues change table) = (find? key table).map change := by
  induction table with
  | nil => rfl
  | cons entry rest ih =>
      obtain ⟨other, value⟩ := entry
      by_cases same : other = key
      · simp [mapValues, find?, same]
      · simpa [mapValues, find?, same] using ih

@[simp] theorem insert_mapValues (change : Value → Other) (key : Key) (value : Value)
    (table : Table Key Value) :
    insert key (change value) (mapValues change table) =
      mapValues change (insert key value table) := by
  induction table with
  | nil => rfl
  | cons entry rest ih =>
      obtain ⟨other, old⟩ := entry
      by_cases same : other = key
      · simp [mapValues, insert, same]
      · simpa [mapValues, insert, same] using ih

@[simp] theorem erase_mapValues (change : Value → Other) (key : Key) (table : Table Key Value) :
    erase key (mapValues change table) = mapValues change (erase key table) := by
  simp only [erase, mapValues, List.filter_map]
  rfl

@[simp] theorem isEmpty_insert (key : Key) (value : Value) (table : Table Key Value) :
    (insert key value table).isEmpty = false := by
  cases table with
  | nil => rfl
  | cons entry rest =>
      unfold insert
      split <;> rfl

/-- Where no other key has the image of a key, it is found under that image. -/
theorem find?_mapKeys {Image : Type} [DecidableEq Image] {image : Key → Image} {key : Key}
    {table : Table Key Value} (apart : ∀ other ∈ table.keys, image other = image key → other = key) :
    find? (image key) (table.map fun entry => (image entry.1, entry.2)) = find? key table := by
  induction table with
  | nil => rfl
  | cons entry rest ih =>
      obtain ⟨other, value⟩ := entry
      obtain ⟨first, others⟩ := List.forall_mem_cons.mp apart
      by_cases same : other = key
      · simp [find?, same]
      · have different : image other ≠ image key := fun equal => same (first equal)
        simpa [find?, same, different] using ih others

theorem mem_keys_insert (key other : Key) (value : Value) (table : Table Key Value) :
    other ∈ (insert key value table).keys ↔ other = key ∨ other ∈ table.keys := by
  induction table with
  | nil => simp [insert, keys]
  | cons entry rest ih =>
      obtain ⟨first, old⟩ := entry
      by_cases same : first = key
      · simp [insert, keys, same]
      · simp only [insert, same, ↓reduceIte, keys, List.map_cons, List.mem_cons] at ih ⊢
        rw [ih]
        exact or_left_comm

theorem keys_insert (key : Key) (value : Value) (table : Table Key Value) :
    (insert key value table).keys =
      if key ∈ table.keys then table.keys else table.keys ++ [key] := by
  induction table with
  | nil => simp [insert, keys]
  | cons entry rest ih =>
      obtain ⟨first, old⟩ := entry
      by_cases same : first = key
      · simp [insert, keys, same]
      · have moved : (insert key value ((first, old) :: rest)).keys =
            first :: (insert key value rest).keys := by
          simp [insert, keys, same]
        have known : key ∈ keys ((first, old) :: rest) ↔ key ∈ keys rest := by
          simp [keys, Ne.symm same]
        simp only [moved, ih, known]
        split <;> rfl

theorem nodup_keys_insert (key : Key) (value : Value) {table : Table Key Value}
    (unique : table.keys.Nodup) : (insert key value table).keys.Nodup := by
  induction table with
  | nil => simp [insert, keys]
  | cons entry rest ih =>
      obtain ⟨first, old⟩ := entry
      obtain ⟨fresh, unique⟩ := List.nodup_cons.mp unique
      by_cases same : first = key
      · subst same
        simpa [insert, keys] using ⟨by simpa [keys] using fresh, unique⟩
      · simp only [insert, same, ↓reduceIte]
        refine List.nodup_cons.mpr ⟨fun member => ?_, ih unique⟩
        rcases (mem_keys_insert key first value rest).mp member with here | there
        · exact same here
        · exact fresh there

theorem find?_append (key : Key) (first second : Table Key Value) :
    find? key (first ++ second) = (find? key first).or (find? key second) := by
  induction first with
  | nil => rfl
  | cons entry rest ih =>
      obtain ⟨other, value⟩ := entry
      by_cases same : other = key
      · simp [find?, same]
      · simpa [find?, same] using ih

/-- Where no key stands twice, every entry is found under its key. -/
theorem find?_of_mem {key : Key} {value : Value} {table : Table Key Value}
    (unique : table.keys.Nodup) (member : (key, value) ∈ table) :
    find? key table = some value := by
  induction table with
  | nil => cases member
  | cons entry rest ih =>
      obtain ⟨first, old⟩ := entry
      obtain ⟨fresh, unique⟩ := List.nodup_cons.mp unique
      rcases List.mem_cons.mp member with here | there
      · cases here
        simp [find?]
      · have other : first ≠ key := by
          rintro rfl
          exact fresh (List.mem_map.mpr ⟨_, there, rfl⟩)
        simpa [find?, other] using ih unique there

/-- A key that gets the value it has. -/
theorem insert_of_find? {key : Key} {value : Value} {table : Table Key Value}
    (found : find? key table = some value) : insert key value table = table := by
  induction table with
  | nil => cases found
  | cons entry rest ih =>
      obtain ⟨other, old⟩ := entry
      by_cases same : other = key
      · simp only [find?, same, ↓reduceIte, Option.some.injEq] at found
        simp [insert, same, found]
      · simp only [find?, same, ↓reduceIte] at found
        simp [insert, same, ih found]

@[simp] theorem insert_insert (key : Key) (first second : Value) (table : Table Key Value) :
    insert key second (insert key first table) = insert key second table := by
  induction table with
  | nil => simp [insert]
  | cons entry rest ih =>
      obtain ⟨other, old⟩ := entry
      by_cases same : other = key
      · simp [insert, same]
      · simp [insert, same, ih]

@[simp] theorem erase_insert (key : Key) (value : Value) (table : Table Key Value) :
    erase key (insert key value table) = erase key table := by
  induction table with
  | nil => simp [insert, erase]
  | cons entry rest ih =>
      obtain ⟨other, old⟩ := entry
      unfold erase at ih ⊢
      by_cases same : other = key
      · simp [insert, same]
      · simpa [insert, same] using ih

theorem mem_of_find? {key : Key} {value : Value} {table : Table Key Value}
    (found : find? key table = some value) : (key, value) ∈ table := by
  induction table with
  | nil => cases found
  | cons entry rest ih =>
      obtain ⟨first, old⟩ := entry
      by_cases same : first = key
      · simp only [find?, same, ↓reduceIte, Option.some.injEq] at found
        simp [same, found]
      · simp only [find?, same, ↓reduceIte] at found
        exact List.mem_cons_of_mem _ (ih found)

theorem erase_of_find?_none {key : Key} {table : Table Key Value}
    (absent : find? key table = none) : erase key table = table := by
  have fresh := (find?_eq_none_iff key table).mp absent
  refine List.filter_eq_self.mpr fun entry member => ?_
  simp only [ne_eq, decide_not, Bool.not_eq_true', decide_eq_false_iff_not]
  rintro rfl
  exact fresh (List.mem_map_of_mem member)

theorem insert_of_find?_none {key : Key} {table : Table Key Value} (absent : find? key table = none)
    (value : Value) : insert key value table = table ++ [(key, value)] := by
  induction table with
  | nil => rfl
  | cons entry rest ih =>
      obtain ⟨other, old⟩ := entry
      by_cases same : other = key
      · simp [find?, same] at absent
      · simp only [find?, same, ↓reduceIte] at absent
        simp only [insert, same, ↓reduceIte, ih absent, List.cons_append]

/-- Taking out a key and then others is taking out all of them. -/
theorem filter_erase (key : Key) (others : List Key) (table : Table Key Value) :
    (erase key table).filter (fun entry => entry.1 ∉ others) =
      table.filter fun entry => entry.1 ∉ key :: others := by
  rw [erase, List.filter_filter]
  refine List.filter_congr fun entry _ => ?_
  simp [Bool.and_comm]

theorem nodup_keys_erase (key : Key) {table : Table Key Value} (unique : table.keys.Nodup) :
    (erase key table).keys.Nodup :=
  unique.sublist (List.filter_sublist.map _)

/-- An entry that is found stands once before or after the others. -/
theorem perm_of_find? {key : Key} {value : Value} {table : Table Key Value}
    (unique : table.keys.Nodup) (found : find? key table = some value) :
    table.Perm ((key, value) :: erase key table) := by
  induction table with
  | nil => cases found
  | cons entry rest ih =>
      obtain ⟨first, old⟩ := entry
      obtain ⟨fresh, unique⟩ := List.nodup_cons.mp unique
      by_cases same : first = key
      · subst same
        have others := erase_of_find?_none ((find?_eq_none_iff first rest).mpr fresh)
        simp only [find?, ↓reduceIte, Option.some.injEq] at found
        subst found
        simp only [erase, ne_eq, not_true_eq_false, decide_false, Bool.false_eq_true,
          not_false_eq_true, List.filter_cons_of_neg] at others ⊢
        rw [others]
      · simp only [find?, same, ↓reduceIte] at found
        have kept : erase key ((first, old) :: rest) = (first, old) :: erase key rest :=
          List.filter_cons_of_pos (by simpa using same)
        rw [kept]
        exact ((ih unique found).cons _).trans (List.Perm.swap ..)

/-- A value that replaces another of the same image changes no image. -/
theorem map_insert_of_find? {key : Key} {old value : Value} {table : Table Key Value}
    (found : find? key table = some old) {image : Value → Other} (same : image value = image old) :
    (insert key value table).map (fun entry => image entry.2) =
      table.map fun entry => image entry.2 := by
  induction table with
  | nil => cases found
  | cons entry rest ih =>
      obtain ⟨first, previous⟩ := entry
      by_cases here : first = key
      · simp only [find?, here, ↓reduceIte, Option.some.injEq] at found
        simp [insert, here, same, found]
      · simp only [find?, here, ↓reduceIte] at found
        simp [insert, here, ih found]

end RemoteTree.Table
