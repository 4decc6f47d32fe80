import RemoteTree.Proofs.Stat.Wire
import RemoteTree.Proofs.Tree.Packing

/-!
# Listings of stat records

A directory lists stat records back to back. A read of them delivers whole records, and at least one
while there are any, if every record fits into its buffer.
-/

set_option autoImplicit false

namespace RemoteTree

namespace Stat

def encodeAll (stats : List Stat) : Bytes := stats.flatMap encode

@[simp] theorem encodeAll_nil : encodeAll [] = [] := rfl

@[simp] theorem encodeAll_cons (stat : Stat) (rest : List Stat) :
    encodeAll (stat :: rest) = stat.encode ++ encodeAll rest := rfl

@[simp] theorem encodeAll_append (first rest : List Stat) :
    encodeAll (first ++ rest) = encodeAll first ++ encodeAll rest := List.flatMap_append

/-- A record that can be read back, in a buffer of the given size. -/
def FitsIn (stat : Stat) (room : Nat) : Prop :=
  stat.encodeBody.length ≤ largestSize ∧ stat.encode.length ≤ room

theorem encode_ne_nil (stat : Stat) : stat.encode ≠ [] := by
  simp [encode, Bytes.littleEndian]

theorem encodeAll_eq_flatten (stats : List Stat) :
    encodeAll stats = (stats.map encode).flatten := List.flatMap_def ..

/-- The first two bytes of a record say how many follow. -/
theorem framed_encode {stat : Stat} (fits : stat.encodeBody.length ≤ largestSize) :
    Bytes.Framed stat.encode := by
  refine ⟨_, _, stat.encodeBody, rfl, ?_⟩
  have said := Bytes.toNumber_littleEndian 2 (min stat.encodeBody.length largestSize)
  simp only [Bytes.littleEndian] at said
  rw [said, Nat.min_eq_left fits, Nat.mod_eq_of_lt]
  unfold largestSize at fits
  omega

theorem framed_of_mem_map_encode {stats : List Stat}
    (fit : ∀ stat ∈ stats, stat.encodeBody.length ≤ largestSize) :
    ∀ record ∈ stats.map encode, Bytes.Framed record := by
  intro record member
  obtain ⟨stat, listed, rfl⟩ := List.mem_map.mp member
  exact framed_encode (fit stat listed)

end Stat

namespace Tree

section

variable {room : Nat} {stat : Stat} {rest : List Stat}

/-- A read has no room for a record that is longer than its buffer. -/
theorem packRecords_short (limit : Option Nat)
    (fits : stat.encodeBody.length ≤ Stat.largestSize) (short : room < stat.encode.length) :
    packRecords (Stat.encodeAll (stat :: rest)) room limit = .error .roomTooSmall :=
  packRecords_refuses (Stat.framed_encode fits) short limit (Stat.encodeAll rest)

/-- While there are records and room for the first, a read delivers at least that, and nothing but
whole records. -/
theorem packRecords_first (limit : Option Nat)
    (fit : ∀ other ∈ stat :: rest, other.encodeBody.length ≤ Stat.largestSize)
    (first : stat.encode.length ≤ room) :
    ∃ now later, rest = now ++ later ∧
      packRecords (Stat.encodeAll (stat :: rest)) room limit =
        .ok (Stat.encodeAll (stat :: now)).length := by
  obtain ⟨count, ⟨may, -⟩, packed⟩ :=
    packRecords_greatest (Stat.framed_of_mem_map_encode fit) first limit
  obtain ⟨count, rfl⟩ := Nat.exists_eq_add_of_le' may.some
  refine ⟨rest.take count, rest.drop count, (List.take_append_drop count rest).symm, ?_⟩
  rw [Stat.encodeAll_eq_flatten, Stat.encodeAll_eq_flatten, ← List.take_succ_cons, List.map_take]
  exact packed

end

/-- While there are records a read delivers at least the first, if all of them fit. -/
theorem packRecords_encodeAll {room : Nat} (limit : Option Nat) {stat : Stat} {rest : List Stat}
    (fit : ∀ other ∈ stat :: rest, other.FitsIn room) :
    ∃ now later, rest = now ++ later ∧
      packRecords (Stat.encodeAll (stat :: rest)) room limit =
        .ok (Stat.encodeAll (stat :: now)).length :=
  packRecords_first limit (fun other member => (fit other member).1)
    (fit stat List.mem_cons_self).2

end Tree

end RemoteTree
