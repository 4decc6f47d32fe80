import RemoteTree.Proofs.Tape.Player
import RemoteTree.Proofs.Tree.Listing

/-!
# The order in which a tape is played

The calls of a pair get the interactions that were recorded for it one after the other, whatever
is called in between. What a player holds after some calls is the tape without the first
interactions of every pair, as many as there were calls of it.
-/

set_option autoImplicit false

namespace RemoteTree

private theorem Unplayable.message_unrecorded (service method : String)
    (recorded : List (String × String)) :
    ∃ texts : List String, texts.Perm (recorded.map pairText) ∧
      texts.Pairwise (fun before after => Utf8.ordered before after = true) ∧
      (unrecorded service method recorded).message =
        "cassette exhausted: no interactions recorded for " ++ pairText (service, method) ++
          "; recorded pairs: [" ++ String.intercalate ", " texts ++ "]" := by
  refine ⟨(recorded.map pairText).mergeSort Utf8.ordered, ?_, ?_, ?_⟩
  · exact List.mergeSort_perm _ _
  · exact List.pairwise_mergeSort Utf8.ordered_trans Utf8.ordered_total _
  · rfl

namespace Player

/-- The answers to calls that are made one after the other, and the player they leave. -/
def playAll (player : Player) :
    List (String × String) → List (Except Unplayable Interaction) × Player
  | [] => ([], player)
  | (service, method) :: rest =>
      let (answer, next) := player.play service method
      let (answers, final) := next.playAll rest
      (answer :: answers, final)

/-- The interactions that a list of answers serves. -/
def served (answers : List (Except Unplayable Interaction)) : List Interaction :=
  answers.filterMap Except.toOption

/-- What a tape answers to a call of a pair, by the number of earlier calls of the pair. -/
def answerAt (interactions : List Interaction) (service method : String) (earlier : Nat) :
    Except Unplayable Interaction :=
  let recorded := recordedFor (service, method) interactions
  match recorded[earlier]?, recorded.getLast? with
  | some interaction, _ => .ok interaction
  | none, some last => .error (.exhausted service method recorded.length last.seq)
  | none, none => .error (.unrecorded service method (pairsOf interactions))

/-- An answer to a call of a pair that has been called a number of times before. -/
structure Due (interactions : List Interaction) (service method : String) (earlier : Nat)
    (answer : Except Unplayable Interaction) : Prop where
  recorded : ∀ interaction,
    (recordedFor (service, method) interactions)[earlier]? = some interaction →
    answer = .ok interaction
  exhausted : ∀ last, (recordedFor (service, method) interactions).getLast? = some last →
    (recordedFor (service, method) interactions).length ≤ earlier →
    answer = .error (.exhausted service method
      (recordedFor (service, method) interactions).length last.seq)
  unrecorded : recordedFor (service, method) interactions = [] →
    ∃ (pairs : List (String × String)) (texts : List String),
      answer = .error (.unrecorded service method pairs) ∧ pairs.Nodup ∧
      (∀ pair, pair ∈ pairs ↔ ∃ interaction ∈ interactions, interaction.pair = pair) ∧
      texts.Perm (pairs.map Unplayable.pairText) ∧
      texts.Pairwise (fun before after => Utf8.ordered before after = true) ∧
      (Unplayable.unrecorded service method pairs).message =
        "cassette exhausted: no interactions recorded for " ++
          Unplayable.pairText (service, method) ++ "; recorded pairs: [" ++
          String.intercalate ", " texts ++ "]"

section Pairs

private theorem mem_pairsOf (interactions : List Interaction) (pair : String × String) :
    pair ∈ pairsOf interactions ↔ ∃ interaction ∈ interactions, interaction.pair = pair := by
  simp [pairsOf, Interaction.pair]

theorem eraseDups_concat {Value : Type} [BEq Value] [LawfulBEq Value] (values : List Value)
    (last : Value) :
    (values ++ [last]).eraseDups =
      if values.contains last then values.eraseDups else values.eraseDups ++ [last] := by
  rw [List.eraseDups_append]
  by_cases known : last ∈ values
  · simp [List.removeAll, known]
  · simp [List.removeAll, known, List.eraseDups_cons]

theorem nodup_pairsOf (interactions : List Interaction) : (pairsOf interactions).Nodup := by
  unfold pairsOf
  generalize interactions.map (fun interaction => (interaction.service, interaction.method)) = pairs
  induction pairs using List.reverseRecOn with
  | nil => simp
  | append_singleton pairs last ih =>
      rw [eraseDups_concat]
      by_cases known : pairs.contains last
      · rwa [if_pos known]
      · rw [if_neg known]
        refine List.nodup_append.mpr ⟨ih, List.nodup_singleton last, ?_⟩
        intro value member other here
        rw [List.mem_eraseDups] at member
        rw [List.contains_iff_mem] at known
        rintro rfl
        exact known (List.mem_singleton.mp here ▸ member)

private theorem queueOf_eq_none_iff (interactions : List Interaction) (pair : String × String) :
    queueOf interactions pair = none ↔ recordedFor pair interactions = [] := by
  simp [queueOf]

private theorem recordedFor_eq_nil_iff (interactions : List Interaction) (pair : String × String) :
    recordedFor pair interactions = [] ↔ pair ∉ pairsOf interactions := by
  simp [recordedFor, mem_pairsOf]

/-- The queues of a tape stand in the order in which their pairs come first on it. -/
theorem keys_ofInteractions (wording : Wording) (interactions : List Interaction) :
    (ofInteractions wording interactions).queues.keys = pairsOf interactions := by
  suffices extended : ∀ (pairs : List (String × String)) (queues : Table (String × String) Queue),
      pairs.Nodup → (∀ pair ∈ pairs, pair ∈ pairsOf interactions ∧ pair ∉ queues.keys) →
      (pairs.foldl (addQueue interactions) queues).keys = queues.keys ++ pairs from
    extended _ [] (nodup_pairsOf interactions) fun pair known => ⟨known, List.not_mem_nil⟩
  intro pairs
  induction pairs with
  | nil => simp
  | cons pair rest ih =>
      intro queues unique known
      obtain ⟨fresh, unique⟩ := List.nodup_cons.mp unique
      obtain ⟨onTape, absent⟩ := known pair List.mem_cons_self
      cases start : queueOf interactions pair with
      | none =>
          rw [queueOf_eq_none_iff, recordedFor_eq_nil_iff] at start
          exact absurd onTape start
      | some queue =>
          have added : (addQueue interactions queues pair).keys = queues.keys ++ [pair] := by
            rw [addQueue_eq, start, Table.keys_insert, if_neg absent]
          rw [List.foldl_cons, ih _ unique, added, List.append_assoc, List.singleton_append]
          intro other member
          obtain ⟨onTape, absent⟩ := known other (List.mem_cons_of_mem _ member)
          refine ⟨onTape, ?_⟩
          rw [added, List.mem_append, List.mem_singleton, not_or]
          exact ⟨absent, fun same => fresh (same ▸ member)⟩

end Pairs

theorem due_answerAt (interactions : List Interaction) (service method : String)
    (earlier : Nat) :
    Due interactions service method earlier
      (answerAt interactions service method earlier) := by
  constructor
  · intro interaction found
    simp only [answerAt, found]
  · intro last final ended
    simp only [answerAt, List.getElem?_eq_none ended, final]
  · intro none
    obtain ⟨texts, listed, sorted, message⟩ :=
      Unplayable.message_unrecorded service method (pairsOf interactions)
    refine ⟨pairsOf interactions, texts, ?_, nodup_pairsOf interactions, mem_pairsOf interactions,
      listed, sorted, message⟩
    simp only [answerAt, none, List.getElem?_nil, List.getLast?_nil]

/-- The player of a tape after some calls. -/
structure Played (interactions : List Interaction) (calls : List (String × String))
    (player : Player) : Prop where
  keys : player.queues.keys = pairsOf interactions
  found : ∀ pair, Table.find? pair player.queues = (queueOf interactions pair).map fun queue =>
    { queue with pending := (recordedFor pair interactions).drop (calls.count pair) }

variable {interactions : List Interaction} {calls : List (String × String)} {player : Player}

theorem played_ofInteractions (wording : Wording) (interactions : List Interaction) :
    Played interactions [] (ofInteractions wording interactions) := by
  constructor
  · exact keys_ofInteractions wording interactions
  · intro pair
    rw [find?_ofInteractions, queueOf]
    cases (recordedFor pair interactions).getLast? with
    | none => rfl
    | some last => rfl

theorem Played.unique (played : Played interactions calls player) :
    player.queues.keys.Nodup := by
  rw [played.keys]
  exact nodup_pairsOf interactions

/-- One more call of a pair that has nothing left changes nothing. -/
theorem Played.again (played : Played interactions calls player) (pair : String × String)
    (ended : (recordedFor pair interactions).length ≤ calls.count pair) :
    Played interactions (calls ++ [pair]) player := by
  constructor
  · exact played.keys
  · intro other
    rw [played.found, List.count_append]
    by_cases same : pair = other
    · subst same
      have longer := ended.trans (Nat.le_add_right _ ([pair].count pair))
      rw [List.drop_of_length_le ended, List.drop_of_length_le longer]
    · rw [List.count_singleton, if_neg (by simpa using same), Nat.add_zero]

theorem of_drop_eq_cons {Value : Type} {values rest : List Value} {place : Nat} {value : Value}
    (left : values.drop place = value :: rest) :
    values[place]? = some value ∧ values.drop (place + 1) = rest := by
  constructor
  · rw [← List.head?_drop, left, List.head?_cons]
  · rw [← List.tail_drop, left, List.tail_cons]

/-- A call takes the next interaction of its pair, and nothing from the other pairs. -/
theorem Played.play (played : Played interactions calls player) (service method : String) :
    ∃ next,
      player.play service method =
        (answerAt interactions service method (calls.count (service, method)), next) ∧
      Played interactions (calls ++ [(service, method)]) next := by
  have found := played.found (service, method)
  have again := played.again (service, method)
  rw [queueOf] at found
  unfold Player.play answerAt
  generalize recordedFor_is : recordedFor (service, method) interactions = recorded
    at found again ⊢
  cases final : recorded.getLast? with
  | none =>
      obtain rfl := List.getLast?_eq_none_iff.mp final
      refine ⟨player, ?_, again (Nat.zero_le _)⟩
      simp [found, played.keys]
  | some last =>
      rw [final, Option.map_some, Option.map_some] at found
      cases pending : recorded.drop (calls.count (service, method)) with
      | nil =>
          have ended := List.drop_eq_nil_iff.mp pending
          refine ⟨player, ?_, again ended⟩
          simp only [found, pending, List.getElem?_eq_none ended, final]
      | cons interaction rest =>
          obtain ⟨next, left⟩ := of_drop_eq_cons pending
          refine ⟨⟨player.wording, Table.insert (service, method) ⟨recorded.length, last.seq, rest⟩
            player.queues⟩, ?_, ?_, ?_⟩
          · simp only [found, pending, next]
          · have known : (service, method) ∈ player.queues.keys :=
              List.mem_map_of_mem (Table.mem_of_find? found)
            rw [Table.keys_insert, if_pos known, played.keys]
          · intro pair
            rw [Table.find?_insert, List.count_append, List.count_singleton]
            by_cases same : (service, method) = pair
            · subst same
              simp [queueOf, recordedFor_is, final, left]
            · rw [if_neg same, played.found, if_neg (by simpa using same), Nat.add_zero]

variable {service method : String} {answer : Except Unplayable Interaction} {next : Player}

private theorem toOption_answerAt (interactions : List Interaction) (service method : String)
    (earlier : Nat) :
    (answerAt interactions service method earlier).toOption =
      (recordedFor (service, method) interactions)[earlier]? := by
  simp only [answerAt]
  split
  · next found => rw [found]; rfl
  · next found _ => rw [found]; rfl
  · next found _ => rw [found]; rfl

private theorem served_cons (answer : Except Unplayable Interaction)
    (answers : List (Except Unplayable Interaction)) :
    served (answer :: answers) = answer.toOption.toList ++ served answers := by
  cases answer <;> rfl

theorem recordedFor_append (pair : String × String) (earlier later : List Interaction) :
    recordedFor pair (earlier ++ later) = recordedFor pair earlier ++ recordedFor pair later :=
  List.filter_append ..

private theorem take_drop_succ {Value : Type} (values : List Value) (place count : Nat) :
    (values.drop place).take (count + 1) =
      values[place]?.toList ++ (values.drop (place + 1)).take count := by
  rw [List.drop_eq_getElem?_toList_append]
  cases found : values[place]? with
  | none =>
      have ended := List.getElem?_eq_none_iff.mp found
      rw [List.drop_of_length_le (ended.trans (Nat.le_succ _))]
      simp
  | some value => rfl

/-- What is recorded for one pair is recorded for no other. -/
theorem recordedFor_getElem? (interactions : List Interaction) (called pair : String × String)
    (place : Nat) :
    recordedFor pair ((recordedFor called interactions)[place]?.toList) =
      if called = pair then (recordedFor called interactions)[place]?.toList else [] := by
  cases found : (recordedFor called interactions)[place]? with
  | none => simp [recordedFor]
  | some interaction =>
      have here : interaction.pair = called :=
        of_decide_eq_true (List.mem_filter.mp (List.mem_of_getElem? found)).2
      by_cases same : called = pair
      · simp [recordedFor, here, same]
      · simp [recordedFor, here, same]

theorem play_error {unplayable : Unplayable}
    (refused : player.play service method = (.error unplayable, next)) : next = player := by
  unfold Player.play at refused
  split at refused
  · exact (Prod.mk.inj refused).2.symm
  · split at refused
    · exact (Prod.mk.inj refused).2.symm
    · cases refused

private theorem remaining_eq (player : Player) :
    player.remaining = (player.queues.map fun entry => entry.2.pending.length).sum := by
  rw [remaining, List.sum_eq_foldr, List.foldr_map]

theorem remaining_eq_sum_keys (unique : player.queues.keys.Nodup) :
    player.remaining = (player.queues.keys.map fun pair => (player.pendingOf pair).length).sum := by
  rw [remaining_eq, Table.keys, List.map_map]
  congr 1
  apply List.map_congr_left
  rintro ⟨pair, queue⟩ member
  simp only [Function.comp_apply, pendingOf, Table.find?_of_mem unique member]

/-- Every interaction that a call serves is one less to play. -/
theorem remaining_play (unique : player.queues.keys.Nodup)
    (played : player.play service method = (answer, next)) :
    next.remaining + answer.toOption.toList.length = player.remaining := by
  unfold Player.play at played
  split at played
  · cases played
    rfl
  · next queue found =>
      split at played
      · cases played
        rfl
      · next interaction rest pending =>
          cases played
          have before := Table.perm_of_find? unique found
          have after := Table.perm_of_find? (Table.nodup_keys_insert (service, method)
            { queue with pending := rest } unique) (by rw [Table.find?_insert, if_pos rfl])
          rw [Table.erase_insert] at after
          rw [remaining_eq, remaining_eq, (after.map _).sum_eq, (before.map _).sum_eq]
          simp only [Except.toOption, Option.toList_some, List.map_cons, List.sum_cons, pending,
            List.length_cons, List.length_nil]
          omega

private theorem playAll_cons (played : player.play service method = (answer, next))
    (rest : List (String × String)) :
    player.playAll ((service, method) :: rest) =
      (answer :: (next.playAll rest).1, (next.playAll rest).2) := by
  simp only [playAll, played]

/-- Every call of a run gets the interaction that its number among the calls of its pair says. -/
theorem Played.playAll (played : Played interactions calls player)
    (later : List (String × String)) :
    Played interactions (calls ++ later) (player.playAll later).2 ∧
      ∀ (place : Nat) (service method : String), later[place]? = some (service, method) →
        (player.playAll later).1[place]? = some (answerAt interactions service method
          ((calls ++ later.take place).count (service, method))) := by
  induction later generalizing calls player with
  | nil =>
      refine ⟨by simpa [Player.playAll] using played, ?_⟩
      intro place service method called
      cases called
  | cons call rest ih =>
      obtain ⟨service, method⟩ := call
      obtain ⟨next, answered, played⟩ := played.play service method
      obtain ⟨final, answers⟩ := ih played
      rw [playAll_cons answered]
      refine ⟨by simpa using final, ?_⟩
      intro place otherService otherMethod called
      cases place with
      | zero =>
          cases called
          simp
      | succ place => simpa using answers place otherService otherMethod called

/-- A run serves the interactions of a pair from where the earlier calls of it have come to. -/
theorem Played.served (played : Played interactions calls player)
    (later : List (String × String)) (pair : String × String) :
    recordedFor pair (Player.served (player.playAll later).1) =
      ((recordedFor pair interactions).drop (calls.count pair)).take (later.count pair) := by
  induction later generalizing calls player with
  | nil => rfl
  | cons call rest ih =>
      obtain ⟨service, method⟩ := call
      obtain ⟨next, answered, played⟩ := played.play service method
      have others := ih played
      rw [playAll_cons answered, served_cons, toOption_answerAt, recordedFor_append, others,
        recordedFor_getElem?, List.count_append, List.count_singleton, List.count_cons]
      by_cases same : (service, method) = pair
      · subst same
        rw [if_pos rfl, if_pos BEq.rfl, take_drop_succ]
      · rw [if_neg same, if_neg (by simpa using same), List.nil_append, Nat.add_zero,
          Nat.add_zero]

theorem Played.remaining (played : Played interactions calls player)
    (later : List (String × String)) :
    (player.playAll later).2.remaining + (Player.served (player.playAll later).1).length =
      player.remaining := by
  induction later generalizing calls player with
  | nil => rfl
  | cons call rest ih =>
      obtain ⟨service, method⟩ := call
      obtain ⟨next, answered, left⟩ := played.play service method
      have first := remaining_play played.unique answered
      have others := ih left
      simp only [playAll_cons answered, served_cons, List.length_append]
      omega

end Player

end RemoteTree
