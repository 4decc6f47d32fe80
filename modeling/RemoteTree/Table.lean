/-!
# Tables

Finite maps as lists of entries in the order in which their keys came. A key keeps its place when
its value changes.
-/

set_option autoImplicit false

namespace RemoteTree

/-- A finite map. -/
abbrev Table (Key Value : Type) := List (Key × Value)

namespace Table

variable {Key Value : Type} [DecidableEq Key]

def find? (key : Key) : Table Key Value → Option Value
  | [] => none
  | (other, value) :: rest => if other = key then some value else find? key rest

/-- Gives a key a value, in its place if it has one already and else at the end. -/
def insert (key : Key) (value : Value) : Table Key Value → Table Key Value
  | [] => [(key, value)]
  | (other, old) :: rest =>
      if other = key then (key, value) :: rest else (other, old) :: insert key value rest

def erase (key : Key) (table : Table Key Value) : Table Key Value :=
  table.filter fun entry => entry.1 ≠ key

def keys (table : Table Key Value) : List Key := table.map (·.1)

@[simp] theorem find?_nil (key : Key) : find? key ([] : Table Key Value) = none := rfl

theorem find?_insert (key wanted : Key) (value : Value) (table : Table Key Value) :
    find? wanted (insert key value table) =
      if key = wanted then some value else find? wanted table := by
  induction table with
  | nil => simp [insert, find?]
  | cons entry rest ih =>
      obtain ⟨other, old⟩ := entry
      by_cases same : other = key
      · subst same
        by_cases found : other = wanted <;> simp [insert, find?, found]
      · by_cases found : other = wanted
        · subst found
          simp [insert, find?, same, Ne.symm same]
        · simp [insert, find?, same, found, ih]

theorem find?_erase (key wanted : Key) (table : Table Key Value) :
    find? wanted (erase key table) = if key = wanted then none else find? wanted table := by
  induction table with
  | nil => simp [erase, find?]
  | cons entry rest ih =>
      obtain ⟨other, old⟩ := entry
      unfold erase at ih ⊢
      by_cases same : other = key
      · subst same
        by_cases found : other = wanted <;> simp_all [find?]
      · by_cases found : other = wanted
        · subst found
          simp [find?, same, Ne.symm same]
        · simp_all [find?]

theorem find?_eq_none_iff (key : Key) (table : Table Key Value) :
    find? key table = none ↔ key ∉ table.keys := by
  induction table with
  | nil => simp [find?, keys]
  | cons entry rest ih =>
      obtain ⟨other, old⟩ := entry
      by_cases same : other = key
      · simp [find?, keys, same]
      · simp [find?, keys, same, Ne.symm same] at ih ⊢
        exact ih

end Table

end RemoteTree
