import RemoteTree.Proofs.Client.Custody

/-!
# Loops of turns

A loop without a bound takes turns until one of them ends it. On a server it is a relation between
the stage that it starts in and what it ends with. A loop ends wherever a rank gets smaller with
every turn that asks for another one.
-/

set_option autoImplicit false

namespace RemoteTree.Client

/-- What one turn of a loop comes to. -/
inductive Turned (Stage Result : Type) where
  | again (stage : Stage)
  | ended (result : Result)

/-- What follows a turn, where a program takes the turns that are asked for. -/
def Turned.follow {Stage Result : Type} (program : Stage → Client Result) :
    Turned Stage Result → Client Result
  | .again stage => program stage
  | .ended result => .done result

/-- The runs of a loop on a server, from a stage of the loop and a state of the server to a result
and the state that is left, with the exchanges of all turns. -/
inductive Loops {State Stage Result : Type} (server : Server State)
    (turn : Stage → Client (Turned Stage Result)) :
    Stage → State → List Exchange → Result → State → Prop where
  | ended {stage : Stage} {state after : State} {result : Result}
      (ran : (turn stage).run server state = (.ended result, after)) :
      Loops server turn stage state ((turn stage).exchanges server state) result after
  | again {stage next : Stage} {state middle after : State} {log : List Exchange}
      {result : Result} (ran : (turn stage).run server state = (.again next, middle))
      (rest : Loops server turn next middle log result after) :
      Loops server turn stage state ((turn stage).exchanges server state ++ log) result after

namespace Loops

variable {State Stage Result : Type} {server : Server State}
  {turn : Stage → Client (Turned Stage Result)} {stage : Stage} {state after : State}
  {log : List Exchange} {result : Result}

/-- A loop has one run at most. -/
theorem unique (run : Loops server turn stage state log result after) {otherLog : List Exchange}
    {other : Result} {otherAfter : State}
    (otherRun : Loops server turn stage state otherLog other otherAfter) :
    otherLog = log ∧ other = result ∧ otherAfter = after := by
  induction run generalizing otherLog with
  | ended ran =>
      cases otherRun with
      | ended otherRan =>
          cases ran.symm.trans otherRan
          exact ⟨rfl, rfl, rfl⟩
      | again otherRan => cases ran.symm.trans otherRan
  | again ran rest ih =>
      cases otherRun with
      | ended otherRan => cases ran.symm.trans otherRan
      | again otherRan otherRest =>
          cases ran.symm.trans otherRan
          obtain ⟨rfl, same⟩ := ih otherRest
          exact ⟨rfl, same⟩

theorem of_done (done : turn stage = .done (.ended result)) (state : State) :
    Loops server turn stage state [] result state := by
  have run : Loops server turn stage state ((turn stage).exchanges server state) result state :=
    .ended (by rw [done]; rfl)
  rwa [done] at run

/-- A program that takes a number of turns at most is a loop, if it never runs out of turns. -/
theorem of_fuel (program : Nat → Stage → Client Result) (ready : Nat → Stage → State → Prop)
    (unfolds : ∀ fuel stage,
      program (fuel + 1) stage = (turn stage).andThen (Turned.follow (program fuel)))
    (stops : ∀ stage state, ready 0 stage state →
      ∃ result, program 0 stage = .done result ∧ turn stage = .done (.ended result))
    (goesOn : ∀ fuel stage state next after, ready (fuel + 1) stage state →
      (turn stage).run server state = (.again next, after) → ready fuel next after)
    {fuel : Nat} {stage : Stage} {state : State} (start : ready fuel stage state) :
    Loops server turn stage state ((program fuel stage).exchanges server state)
      ((program fuel stage).run server state).1 ((program fuel stage).run server state).2 := by
  induction fuel generalizing stage state with
  | zero =>
      obtain ⟨result, runsOut, done⟩ := stops stage state start
      rw [runsOut]
      exact of_done done state
  | succ fuel ih =>
      rw [unfolds, exchanges_andThen, run_andThen]
      cases ran : (turn stage).run server state with
      | mk turned after =>
        cases turned with
        | again next => exact .again ran (ih (goesOn fuel stage state next after start ran))
        | ended result =>
            rw [Turned.follow, show exchanges server (.done result) after = [] from rfl,
              List.append_nil]
            exact .ended ran

/-- A loop ends if every turn that asks for another one lowers a rank. -/
theorem exists_of_descends {Rank : Type} [Preorder Rank] [WellFoundedLT Rank]
    {rank : Stage → State → Rank}
    (descends : ∀ stage state next after,
      (turn stage).run server state = (.again next, after) → rank next after < rank stage state)
    (stage : Stage) (state : State) :
    ∃ log result after, Loops server turn stage state log result after := by
  induction size : rank stage state using WellFoundedLT.induction generalizing stage state with
  | ind _ ih =>
    subst size
    cases ran : (turn stage).run server state with
    | mk turned middle =>
      cases turned with
      | ended result => exact ⟨_, result, middle, .ended ran⟩
      | again next =>
          obtain ⟨log, result, after, rest⟩ :=
            ih _ (descends stage state next middle ran) next middle rfl
          exact ⟨_, result, after, .again ran rest⟩

end Loops

/-! ## Taking items until there is none -/

variable {State Reader Item : Type} {server : Server State}
  {next : Reader → Client (Option Item × Reader)}

/-- A turn of a loop that takes items from a reader until there is none. -/
def takeOnce (next : Reader → Client (Option Item × Reader)) (taken : List Item × Reader) :
    Client (Turned (List Item × Reader) (List Item × Reader)) :=
  (next taken.2).andThen fun (item, reader) =>
    match item with
    | some item => .done (.again (taken.1 ++ [item], reader))
    | none => .done (.ended (taken.1, reader))

theorem run_takeOnce_some {reader later : Reader} {state after : State} {item : Item}
    (ran : (next reader).run server state = ((some item, later), after)) (taken : List Item) :
    (takeOnce next (taken, reader)).run server state = (.again (taken ++ [item], later), after) := by
  rw [takeOnce, run_andThen, ran]
  rfl

theorem run_takeOnce_none {reader later : Reader} {state after : State}
    (ran : (next reader).run server state = ((none, later), after)) (taken : List Item) :
    (takeOnce next (taken, reader)).run server state = (.ended (taken, later), after) := by
  rw [takeOnce, run_andThen, ran]
  rfl

/-- If each step of a reader takes the first of the items that are left, all of them are taken. -/
theorem takes_of_left {left : Reader → State → List Item → Prop}
    (step : ∀ reader state items, left reader state items → ∃ later after,
      (next reader).run server state = ((items.head?, later), after) ∧ left later after items.tail)
    {reader : Reader} {state : State} {items : List Item} (start : left reader state items)
    (taken : List Item) :
    ∃ log later after,
      Loops server (takeOnce next) (taken, reader) state log (taken ++ items, later) after := by
  induction items generalizing reader state taken with
  | nil =>
      obtain ⟨later, after, ran, -⟩ := step reader state [] start
      rw [List.append_nil]
      exact ⟨_, later, after, .ended (run_takeOnce_none ran taken)⟩
  | cons item items ih =>
      obtain ⟨later, after, ran, kept⟩ := step reader state (item :: items) start
      obtain ⟨log, last, final, rest⟩ := ih kept (taken ++ [item])
      rw [List.append_assoc, List.singleton_append] at rest
      exact ⟨_, last, final, .again (run_takeOnce_some ran taken) rest⟩

end RemoteTree.Client
