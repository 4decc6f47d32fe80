import Mathlib
import RemoteTree.Proofs.Table
import RemoteTree.Proofs.Tape.Answers
import RemoteTree.Tape.Player

/-!
# What a player still holds

A player holds a list of interactions when every queue of it is the part of the list that was
recorded for the queue's pair of service and method. It starts with the whole tape, the next call
of a pair takes the first interaction of that pair, and as many are left as the list has.
-/

set_option autoImplicit false

namespace RemoteTree

/-- The service and the method of an interaction. -/
def Interaction.pair (interaction : Interaction) : String × String :=
  (interaction.service, interaction.method)

namespace Player

/-- The interactions that were recorded for a pair, in order. -/
def recordedFor (pair : String × String) (interactions : List Interaction) : List Interaction :=
  interactions.filter fun interaction => interaction.pair = pair

/-- The queue of a pair on an untouched tape. There is none for a pair without interactions. -/
def queueOf (interactions : List Interaction) (pair : String × String) : Option Queue :=
  (recordedFor pair interactions).getLast?.map fun last =>
    ⟨(recordedFor pair interactions).length, last.seq, recordedFor pair interactions⟩

/-- The interactions of a pair that have not been played yet. -/
def pendingOf (player : Player) (pair : String × String) : List Interaction :=
  match Table.find? pair player.queues with
  | some queue => queue.pending
  | none => []

/-- A player that has yet to play the interactions of a list, each for its own pair. -/
structure Holds (player : Player) (interactions : List Interaction) : Prop where
  unique : player.queues.keys.Nodup
  pending : ∀ pair, player.pendingOf pair = recordedFor pair interactions

theorem addQueue_eq (interactions : List Interaction) (queues : Table (String × String) Queue)
    (pair : String × String) :
    addQueue interactions queues pair =
      match queueOf interactions pair with
      | some queue => Table.insert pair queue queues
      | none => queues := by
  have same : (interactions.filter fun other => decide ((other.service, other.method) = pair)) =
      recordedFor pair interactions := rfl
  simp only [addQueue, queueOf, same]
  cases (recordedFor pair interactions).getLast? <;> rfl

private theorem find?_addQueue (interactions : List Interaction)
    (queues : Table (String × String) Queue) (pair wanted : String × String) :
    Table.find? wanted (addQueue interactions queues pair) =
      if pair = wanted then (queueOf interactions pair).or (Table.find? wanted queues)
      else Table.find? wanted queues := by
  rw [addQueue_eq]
  cases queueOf interactions pair with
  | none => simp
  | some queue => simp [Table.find?_insert]

private theorem find?_foldl_addQueue (interactions : List Interaction)
    (pairs : List (String × String))
    (queues : Table (String × String) Queue) (wanted : String × String) :
    Table.find? wanted (pairs.foldl (addQueue interactions) queues) =
      if wanted ∈ pairs then (queueOf interactions wanted).or (Table.find? wanted queues)
      else Table.find? wanted queues := by
  induction pairs generalizing queues with
  | nil => simp
  | cons pair rest ih =>
      rw [List.foldl_cons, ih, find?_addQueue]
      by_cases here : pair = wanted
      · subst here
        by_cases again : pair ∈ rest
        · cases queueOf interactions pair <;> simp [again]
        · simp [again]
      · simp [here, Ne.symm here]

/-- Every pair starts with the queue of what was recorded for it. -/
theorem find?_ofInteractions (wording : Wording) (interactions : List Interaction) (pair : String × String) :
    Table.find? pair (ofInteractions wording interactions).queues = queueOf interactions pair := by
  rw [ofInteractions, find?_foldl_addQueue]
  by_cases known : pair ∈ pairsOf interactions
  · simp [known]
  · have none : recordedFor pair interactions = [] := by
      rw [recordedFor, List.filter_eq_nil_iff]
      intro interaction member same
      apply known
      simp only [pairsOf, List.mem_eraseDups, List.mem_map]
      exact ⟨interaction, member, of_decide_eq_true same⟩
    simp [known, queueOf, none]

private theorem nodup_ofInteractions (wording : Wording) (interactions : List Interaction) :
    (ofInteractions wording interactions).queues.keys.Nodup := by
  suffices kept : ∀ (pairs : List (String × String)) (queues : Table (String × String) Queue),
      queues.keys.Nodup →
      (pairs.foldl (addQueue interactions) queues).keys.Nodup from
    kept _ [] List.nodup_nil
  intro pairs
  induction pairs with
  | nil => exact fun _ unique => unique
  | cons pair rest ih =>
      intro queues unique
      apply ih
      rw [addQueue_eq]
      cases queueOf interactions pair with
      | none => exact unique
      | some queue => exact Table.nodup_keys_insert pair queue unique

/-- A player starts with the whole tape. -/
theorem holds_ofInteractions (wording : Wording) (interactions : List Interaction) :
    (ofInteractions wording interactions).Holds interactions := by
  refine ⟨nodup_ofInteractions wording interactions, fun pair => ?_⟩
  rw [pendingOf, find?_ofInteractions, queueOf]
  cases last : (recordedFor pair interactions).getLast? with
  | none => exact (List.getLast?_eq_none_iff.mp last).symm
  | some _ => rfl

/-- The first interaction of a list is played by a call of its pair, which leaves the others. -/
theorem Holds.play {player : Player} {interaction : Interaction} {rest : List Interaction}
    (holds : player.Holds (interaction :: rest)) {service method : String}
    (called : interaction.pair = (service, method)) :
    ∃ next, player.play service method = (.ok interaction, next) ∧ next.Holds rest := by
  have pending := holds.pending (service, method)
  have first : recordedFor (service, method) (interaction :: rest) =
      interaction :: recordedFor (service, method) rest := by
    simp [recordedFor, called]
  rw [first, pendingOf] at pending
  cases found : Table.find? (service, method) player.queues with
  | none => simp [found] at pending
  | some queue =>
      simp only [found] at pending
      refine ⟨⟨player.wording, Table.insert (service, method)
        { queue with pending := recordedFor (service, method) rest } player.queues⟩,
        by simp only [Player.play, found, pending], ?_⟩
      refine ⟨Table.nodup_keys_insert _ _ holds.unique, fun pair => ?_⟩
      simp only [pendingOf, Table.find?_insert]
      by_cases here : (service, method) = pair
      · subst here
        simp
      · have other := holds.pending pair
        rw [recordedFor, List.filter_cons_of_neg (by simpa [called] using here)] at other
        simpa [here, pendingOf, recordedFor] using other

private theorem sum_indicator (keys : List (String × String)) (key : String × String) :
    (keys.map fun other => if key = other then 1 else 0).sum = keys.count key := by
  induction keys with
  | nil => rfl
  | cons first rest ih =>
      rw [List.map_cons, List.sum_cons, ih, List.count_cons]
      by_cases same : key = first
      · simp [same, add_comm]
      · simp [same, Ne.symm same]

private theorem sum_recordedFor (pairs : List (String × String)) (unique : pairs.Nodup)
    (interactions : List Interaction)
    (known : ∀ interaction ∈ interactions, interaction.pair ∈ pairs) :
    (pairs.map fun pair => (recordedFor pair interactions).length).sum = interactions.length := by
  induction interactions with
  | nil => simp [recordedFor]
  | cons interaction rest ih =>
      have split : ∀ pair, (recordedFor pair (interaction :: rest)).length =
          (if interaction.pair = pair then 1 else 0) + (recordedFor pair rest).length := by
        intro pair
        by_cases here : interaction.pair = pair
        · simp [recordedFor, here, add_comm]
        · simp [recordedFor, here]
      have once : pairs.count interaction.pair = 1 :=
        List.count_eq_one_of_mem unique (known interaction List.mem_cons_self)
      rw [List.map_congr_left fun pair _ => split pair, List.sum_map_add, sum_indicator, once,
        ih fun other member => known other (List.mem_cons_of_mem _ member), List.length_cons,
        add_comm]

/-- As many calls are left to play as the list of them is long. -/
theorem Holds.remaining {player : Player} {interactions : List Interaction}
    (holds : player.Holds interactions) : player.remaining = interactions.length := by
  have counts : player.remaining =
      (player.queues.keys.map fun pair => (recordedFor pair interactions).length).sum := by
    rw [Table.keys, List.map_map, Player.remaining, List.sum_eq_foldr, List.foldr_map]
    apply List.foldr_ext
    rintro ⟨pair, queue⟩ member count
    have found := Table.find?_of_mem holds.unique member
    have pending := holds.pending pair
    rw [pendingOf, found] at pending
    simp only [Function.comp_apply, ← pending]
  rw [counts]
  refine sum_recordedFor _ holds.unique _ fun interaction member => ?_
  by_contra absent
  have pending := holds.pending interaction.pair
  rw [pendingOf, (Table.find?_eq_none_iff _ _).mpr absent] at pending
  have here : interaction ∈ recordedFor interaction.pair interactions := by
    simp [recordedFor, member]
  rw [← pending] at here
  cases here

end Player

end RemoteTree
