import Mathlib.Order.Bounds.Defs
import RemoteTree.Tree.Service

/-!
# Records packed into reads

A listing is records back to back, each behind the number of its bytes. One read takes as many of
the records at the front as go into its buffer. It takes the first of them whatever the limit of a
read is, and others only within the limit.
-/

set_option autoImplicit false

namespace RemoteTree

namespace Bytes

/-- A size in two bytes and as many bytes as it says. -/
def Framed (record : Bytes) : Prop :=
  ∃ low high body, record = low :: high :: body ∧ toNumber [low, high] = body.length

theorem Framed.length_pos {record : Bytes} (framed : Framed record) : 0 < record.length := by
  obtain ⟨low, high, body, rfl, -⟩ := framed
  exact Nat.succ_pos _

/-- The bytes of so many records at the front. -/
def sizeOfFirst (records : List Bytes) (count : Nat) : Nat := (records.take count).flatten.length

@[simp] theorem sizeOfFirst_zero (records : List Bytes) : sizeOfFirst records 0 = 0 := rfl

@[simp] theorem sizeOfFirst_cons (record : Bytes) (rest : List Bytes) (count : Nat) :
    sizeOfFirst (record :: rest) (count + 1) = record.length + sizeOfFirst rest count := by
  simp [sizeOfFirst]

private theorem length_le_flatten {records : List Bytes}
    (framed : ∀ record ∈ records, Framed record) : records.length ≤ records.flatten.length := by
  induction records with
  | nil => exact Nat.le_refl _
  | cons record rest ih =>
    obtain ⟨first, others⟩ := List.forall_mem_cons.mp framed
    have some := first.length_pos
    have more := ih others
    rw [List.length_cons, List.flatten_cons, List.length_append]
    omega

end Bytes

namespace Tree

open Bytes (Framed sizeOfFirst)

variable {records : List Bytes} {room : Nat} {limit : Option Nat}

/-- May one read take so many records? It may take one that goes into its buffer, and more if they
are within the limit too. -/
structure Admissible (records : List Bytes) (room : Nat) (limit : Option Nat) (count : Nat) :
    Prop where
  some : 1 ≤ count
  there : count ≤ records.length
  fits : sizeOfFirst records count ≤ room
  allowed : 2 ≤ count → ∀ most, limit = .some most → sizeOfFirst records count ≤ most

/-- Do so many bytes go into the buffer, and into what one read may take? -/
def Within (room : Nat) (limit : Option Nat) (size : Nat) : Prop :=
  size ≤ room ∧ exceeds limit size = false

/-- Behind bytes that are packed already, may so many records be packed? -/
structure Extends (records : List Bytes) (room : Nat) (limit : Option Nat) (packed count : Nat) :
    Prop where
  there : count ≤ records.length
  within : 1 ≤ count → Within room limit (packed + sizeOfFirst records count)

private theorem exceeds_eq_false_iff {count : Nat} :
    exceeds limit count = false ↔ ∀ most, limit = some most → count ≤ most := by
  cases limit with
  | none => simp [exceeds]
  | some most => simp [exceeds]

private theorem Within.mono {size larger : Nat} (within : Within room limit larger)
    (less : size ≤ larger) : Within room limit size := by
  obtain ⟨fits, allowed⟩ := within
  rw [exceeds_eq_false_iff] at allowed
  refine ⟨Nat.le_trans less fits, exceeds_eq_false_iff.mpr ?_⟩
  intro most same
  exact Nat.le_trans less (allowed most same)

private theorem countRecords_nil (room : Nat) (limit : Option Nat) (fuel packed : Nat) :
    countRecords room limit fuel packed [] = packed := by
  cases fuel <;> rfl

private theorem countRecords_framed {record : Bytes} (framed : Framed record) (room : Nat)
    (limit : Option Nat) (fuel packed : Nat) (rest : Bytes) :
    countRecords room limit (fuel + 1) packed (record ++ rest) =
      if room < packed + record.length then packed
      else if 0 < packed && exceeds limit (packed + record.length) then packed
      else countRecords room limit fuel (packed + record.length) rest := by
  obtain ⟨low, high, body, rfl, counted⟩ := framed
  have size : 2 + Bytes.toNumber [low, high] = (low :: high :: body).length := by
    rw [counted, List.length_cons, List.length_cons]
    omega
  have left : (low :: high :: body ++ rest).drop (low :: high :: body).length = rest :=
    List.drop_left
  simp only [List.cons_append] at left ⊢
  rw [countRecords, size, left]

private theorem countRecords_within {record : Bytes} (framed : Framed record) {packed : Nat}
    (within : Within room limit (packed + record.length)) (fuel : Nat) (rest : Bytes) :
    countRecords room limit (fuel + 1) packed (record ++ rest) =
      countRecords room limit fuel (packed + record.length) rest := by
  obtain ⟨fits, allowed⟩ := within
  simp [countRecords_framed framed, Nat.not_lt.mpr fits, allowed]

private theorem countRecords_beyond {record : Bytes} (framed : Framed record) {packed : Nat}
    (some : 0 < packed) (beyond : ¬ Within room limit (packed + record.length)) (fuel : Nat)
    (rest : Bytes) : countRecords room limit (fuel + 1) packed (record ++ rest) = packed := by
  rw [countRecords_framed framed]
  split
  · rfl
  · next fits =>
    have passed : exceeds limit (packed + record.length) = true := by
      simpa [Within, Nat.le_of_not_lt fits] using beyond
    simp [some, passed]

theorem le_countRecords (room : Nat) (limit : Option Nat) (fuel packed : Nat) (listing : Bytes) :
    packed ≤ countRecords room limit fuel packed listing := by
  fun_induction countRecords room limit fuel packed listing with
  | case1 => exact Nat.le_refl _
  | case2 => exact Nat.le_refl _
  | case3 _ _ _ _ _ _ _ _ ih => exact Nat.le_trans (Nat.le_add_right ..) ih
  | case4 => exact Nat.le_refl _

private theorem countRecords_le (room : Nat) (limit : Option Nat) (records packed : Nat)
    (listing : Bytes) (within : packed ≤ room) :
    countRecords room limit records packed listing ≤ room := by
  fun_induction countRecords room limit records packed listing with
  | case1 => exact within
  | case2 => exact within
  | case3 _ _ _ _ _ _ _ _ ih => exact ih (by omega)
  | case4 => exact within

namespace Extends

variable {record : Bytes} {rest : List Bytes} {packed count : Nat}

private theorem nothing (records : List Bytes) (room : Nat) (limit : Option Nat) (packed : Nat) :
    Extends records room limit packed 0 := by
  refine ⟨Nat.zero_le _, ?_⟩
  intro some
  cases some

private theorem cons_iff :
    Extends (record :: rest) room limit packed (count + 1) ↔
      Within room limit (packed + record.length) ∧
        Extends rest room limit (packed + record.length) count := by
  have size : packed + sizeOfFirst (record :: rest) (count + 1) =
      packed + record.length + sizeOfFirst rest count := by
    rw [Bytes.sizeOfFirst_cons, Nat.add_assoc]
  constructor
  · rintro ⟨there, within⟩
    rw [size] at within
    have within := within (Nat.succ_pos count)
    refine ⟨within.mono (Nat.le_add_right ..), Nat.le_of_succ_le_succ there, ?_⟩
    intro _
    exact within
  · rintro ⟨first, there, within⟩
    refine ⟨Nat.succ_le_succ there, ?_⟩
    intro _
    rw [size]
    rcases Nat.eq_zero_or_pos count with rfl | some
    · exact first
    · exact within some

end Extends

private theorem isGreatest_succ {may later : Nat → Prop} {count : Nat}
    (succ_iff : ∀ count, may (count + 1) ↔ later count)
    (greatest : IsGreatest {count | later count} count) :
    IsGreatest {count | may count} (count + 1) := by
  refine ⟨(succ_iff count).mpr greatest.1, ?_⟩
  intro other admitted
  cases other with
  | zero => exact Nat.zero_le _
  | succ other => exact Nat.succ_le_succ (greatest.2 ((succ_iff other).mp admitted))

/-- Where something is packed, as many records are counted as may be packed behind it. -/
theorem countRecords_greatest (framed : ∀ record ∈ records, Framed record) (room : Nat)
    (limit : Option Nat) {fuel packed : Nat} (enough : records.length ≤ fuel)
    (some : 0 < packed) :
    ∃ count, IsGreatest {count | Extends records room limit packed count} count ∧
      countRecords room limit fuel packed records.flatten =
        packed + sizeOfFirst records count := by
  induction records generalizing packed fuel with
  | nil =>
    refine ⟨0, ⟨.nothing _ _ _ _, ?_⟩, countRecords_nil _ _ _ _⟩
    intro count more
    exact more.there
  | cons record rest ih =>
    obtain ⟨first, others⟩ := List.forall_mem_cons.mp framed
    obtain ⟨fuel, rfl⟩ := Nat.exists_eq_add_of_le' (Nat.lt_of_lt_of_le (Nat.succ_pos _) enough)
    rw [List.flatten_cons]
    by_cases within : Within room limit (packed + record.length)
    · obtain ⟨count, greatest, counted⟩ :=
        ih others (Nat.le_of_succ_le_succ enough) (Nat.lt_of_lt_of_le some (Nat.le_add_right _ _))
      refine ⟨count + 1, isGreatest_succ ?_ greatest, ?_⟩
      · intro count
        exact Extends.cons_iff.trans (and_iff_right within)
      · rw [countRecords_within first within, counted, Bytes.sizeOfFirst_cons, Nat.add_assoc]
    · refine ⟨0, ⟨.nothing _ _ _ _, ?_⟩, countRecords_beyond first some within fuel _⟩
      intro count more
      cases count with
      | zero => exact Nat.le_refl 0
      | succ count => exact absurd (Extends.cons_iff.mp more).1 within

/-! ## One read -/

theorem packRecords_nil (room : Nat) (limit : Option Nat) : packRecords [] room limit = .ok 0 := rfl

section

variable {record : Bytes} {rest : List Bytes}

theorem admissible_succ_iff {count : Nat} :
    Admissible (record :: rest) room limit (count + 1) ↔
      record.length ≤ room ∧ Extends rest room limit record.length count := by
  have size := Bytes.sizeOfFirst_cons record rest count
  constructor
  · rintro ⟨-, there, fits, allowed⟩
    rw [size] at fits allowed
    refine ⟨Nat.le_trans (Nat.le_add_right ..) fits, Nat.le_of_succ_le_succ there, ?_⟩
    intro some
    exact ⟨fits, exceeds_eq_false_iff.mpr (allowed (Nat.succ_le_succ some))⟩
  · rintro ⟨first, there, within⟩
    refine ⟨Nat.succ_pos count, Nat.succ_le_succ there, ?_, ?_⟩
    · rw [size]
      rcases Nat.eq_zero_or_pos count with rfl | some
      · exact first
      · exact (within some).1
    · intro more
      rw [size]
      exact exceeds_eq_false_iff.mp (within (Nat.le_of_succ_le_succ more)).2

/-- A read has no room for a record that is longer than its buffer. Otherwise it takes the first
record, and goes on behind it. -/
theorem packRecords_append (first : Framed record) (room : Nat) (limit : Option Nat)
    (rest : Bytes) :
    ∃ fuel, rest.length ≤ fuel ∧ packRecords (record ++ rest) room limit =
      if room < record.length then .error .roomTooSmall
      else .ok (countRecords room limit fuel record.length rest) := by
  have some := first.length_pos
  obtain ⟨fuel, size⟩ := Nat.exists_eq_add_of_le' some
  have whole : (record ++ rest).length = fuel + rest.length + 1 := by
    rw [List.length_append, size]
    omega
  have nonempty : (record ++ rest).isEmpty = false :=
    List.isEmpty_eq_false_iff.mpr (List.ne_nil_of_length_eq_add_one whole)
  have taken : countRecords room limit (record ++ rest).length 0 (record ++ rest) =
      if room < record.length then 0
      else countRecords room limit (fuel + rest.length) record.length rest := by
    rw [whole, countRecords_framed first, Nat.zero_add]
    simp only [Nat.lt_irrefl, decide_false, Bool.false_and, Bool.false_eq_true, ↓reduceIte]
  refine ⟨fuel + rest.length, Nat.le_add_left .., ?_⟩
  simp only [packRecords, nonempty, taken]
  split
  · rfl
  · have more := le_countRecords room limit (fuel + rest.length) record.length rest
    have positive : countRecords room limit (fuel + rest.length) record.length rest ≠ 0 := by omega
    rw [decide_eq_false positive]
    rfl

theorem packRecords_le {listing : Bytes} {room count : Nat} {limit : Option Nat}
    (packed : packRecords listing room limit = .ok count) : count ≤ room := by
  simp only [packRecords] at packed
  split at packed
  · cases packed
  · cases packed
    exact countRecords_le room _ _ 0 _ (Nat.zero_le _)

theorem packRecords_refuses (first : Framed record) (short : room < record.length)
    (limit : Option Nat) (rest : Bytes) :
    packRecords (record ++ rest) room limit = .error .roomTooSmall := by
  obtain ⟨fuel, -, packed⟩ := packRecords_append first room limit rest
  rw [packed, if_pos short]

/-- A read that has room for the first record takes as many as it may. -/
theorem packRecords_greatest (framed : ∀ other ∈ record :: rest, Framed other)
    (fits : record.length ≤ room) (limit : Option Nat) :
    ∃ count, IsGreatest {count | Admissible (record :: rest) room limit count} count ∧
      packRecords (record :: rest).flatten room limit =
        .ok (sizeOfFirst (record :: rest) count) := by
  obtain ⟨first, others⟩ := List.forall_mem_cons.mp framed
  obtain ⟨fuel, enough, packed⟩ := packRecords_append first room limit rest.flatten
  obtain ⟨count, greatest, counted⟩ := countRecords_greatest others room limit
    (Nat.le_trans (Bytes.length_le_flatten others) enough) first.length_pos
  refine ⟨count + 1, isGreatest_succ ?_ greatest, ?_⟩
  · intro count
    exact admissible_succ_iff.trans (and_iff_right fits)
  · rw [List.flatten_cons, packed, if_neg (Nat.not_lt.mpr fits), counted, Bytes.sizeOfFirst_cons]

end

end Tree

end RemoteTree
