import RemoteTree.Proofs.Client.Unbounded

/-!
# Paying for exchanges

A program is paid for by a fund if what is in the fund covers every exchange and what is to be left
in it afterwards. Programs that follow each other share a fund, and a loop ends wherever its turns
are paid for.
-/

set_option autoImplicit false

namespace RemoteTree.Client

variable {State First Second Stage Result : Type} {server : Server State}

def Pays (server : Server State) (program : Client Result) (before : State → Nat)
    (after : Result → State → Nat) : Prop :=
  ∀ state, (program.exchanges server state).length +
    after (program.run server state).1 (program.run server state).2 ≤ before state

namespace Pays

theorem covers {program : Client Result} {before : State → Nat} {after : Result → State → Nat}
    (pays : Pays server program before after) {state later : State} {result : Result}
    (ran : program.run server state = (result, later)) :
    (program.exchanges server state).length + after result later ≤ before state := by
  have paid := pays state
  rwa [ran] at paid

theorem done {result : Result} {before : State → Nat} {after : Result → State → Nat}
    (enough : ∀ state, after result state ≤ before state) :
    Pays server (.done result) before after := by
  intro state
  rw [exchanges, run, List.length_nil, Nat.zero_add]
  exact enough state

theorem ask {request : Request} {next : request.Reply → Client Result} {before : State → Nat}
    {after : Result → State → Nat} (middle : request.Reply → State → Nat)
    (enough : ∀ state reply later, server.answer request state = (reply, later) →
      middle reply later + 1 ≤ before state)
    (rest : ∀ reply, Pays server (next reply) (middle reply) after) :
    Pays server (.ask request next) before after := by
  intro state
  rcases answered : server.answer request state with ⟨reply, later⟩
  have first := enough state reply later answered
  have second := rest reply later
  simp only [exchanges, run, answered, List.length_cons]
  omega

theorem andThen {program : Client First} {next : First → Client Second} {before : State → Nat}
    {middle : First → State → Nat} {after : Second → State → Nat}
    (first : Pays server program before middle)
    (rest : ∀ result, Pays server (next result) (middle result) after) :
    Pays server (program.andThen next) before after := by
  intro state
  rcases ran : program.run server state with ⟨result, later⟩
  have paid := first.covers ran
  have second := rest result later
  simp only [exchanges_andThen, run_andThen, ran, List.length_append]
  omega

/-- What a program does not need stays in the fund. -/
theorem spare {program : Client Result} {before : State → Nat} {after : Result → State → Nat}
    (pays : Pays server program before after) (more : Nat) :
    Pays server program (fun state => before state + more)
      (fun result state => after result state + more) := by
  intro state
  have paid := pays state
  dsimp only
  omega

end Pays

/-- What has to be in the fund behind a turn: enough for the next turn, or what is left. -/
def Turned.fund (budget : Stage → State → Nat) (left : Result → State → Nat) :
    Turned Stage Result → State → Nat
  | .again stage => budget stage
  | .ended result => left result

namespace Loops

variable {turn : Stage → Client (Turned Stage Result)} {stage : Stage} {state after : State}
  {log : List Exchange} {result : Result} {budget : Stage → State → Nat}
  {left : Result → State → Nat}

theorem length_le
    (pays : ∀ stage, Pays server (turn stage) (budget stage) (Turned.fund budget left))
    (run : Loops server turn stage state log result after) :
    log.length + left result after ≤ budget stage state := by
  induction run with
  | ended ran => exact (pays _).covers ran
  | again ran _ ih =>
      have paid := (pays _).covers ran
      rw [Turned.fund] at paid
      rw [List.length_append]
      omega

/-- A loop ends if its turns are paid for and none asks for another one without an exchange. -/
theorem exists_of_pays
    (pays : ∀ stage, Pays server (turn stage) (budget stage) (Turned.fund budget left))
    (busy : ∀ stage state next after, (turn stage).run server state = (.again next, after) →
      (turn stage).exchanges server state ≠ []) (stage : Stage) (state : State) :
    ∃ log result after, Loops server turn stage state log result after ∧
      log.length + left result after ≤ budget stage state := by
  have descends : ∀ stage state next after,
      (turn stage).run server state = (.again next, after) →
      budget next after < budget stage state := by
    intro stage state next after ran
    have paid := (pays stage).covers ran
    have some := List.length_pos_of_ne_nil (busy stage state next after ran)
    rw [Turned.fund] at paid
    omega
  obtain ⟨log, result, after, run⟩ := exists_of_descends descends stage state
  exact ⟨log, result, after, run, length_le pays run⟩

end Loops

end Client

/-! ## Funds -/

/-- What a read takes out of a fund. A read that is refused takes nothing. -/
def Delivery.price (delivery : Delivery) : Nat :=
  match delivery.claimed with
  | .error (.failed _ _) => 0
  | _ => 1

namespace Client

/-- A fund that no request adds to and that every read takes from, unless it is refused. -/
structure PaysReads {State : Type} (server : Server State) (fund : State → Nat) : Prop where
  saves : ∀ request state, fund (server.answer request state).2 ≤ fund state
  reads : ∀ handle buffer wait state delivery after,
    server.answer (.readFrom handle buffer wait) state = (delivery, after) →
      fund after + delivery.price ≤ fund state

/-- A fund that no request adds to and that every accepted write takes from. -/
structure PaysWrites {State : Type} (server : Server State) (fund : State → Nat) : Prop where
  saves : ∀ request state, fund (server.answer request state).2 ≤ fund state
  writes : ∀ handle data state count after,
    server.answer (.writeTo handle data) state = (.ok count, after) → fund after + 1 ≤ fund state

/-- A fund for reads and writes. -/
structure PaysTransfers {State : Type} (server : Server State) (fund : State → Nat) : Prop
    extends PaysReads server fund, PaysWrites server fund

/-- One more than the fund pays for a read, with what the read takes left for what follows. -/
theorem PaysReads.ask {State Result : Type} {server : Server State} {fund : State → Nat}
    (paid : PaysReads server fund) {handle : Handle} {buffer : Bytes} {wait : Option Duration}
    {next : Delivery → Client Result} {after : Result → State → Nat}
    (rest : ∀ delivery : Delivery,
      Pays server (next delivery) (fun state => fund state + delivery.price) after) :
    Pays server (.ask (.readFrom handle buffer wait) next) (fun state => fund state + 1) after := by
  refine Pays.ask (fun (delivery : Delivery) state => fund state + delivery.price) ?_ rest
  intro state delivery later answered
  exact Nat.succ_le_succ (paid.reads _ _ _ state delivery later answered)

end Client

open Client (Pays PaysReads)

variable {State : Type} {server : Server State} {fund : State → Nat}

namespace LineReader

private theorem price_of_arrival {size : Nat} {delivery : Delivery}
    (arrives : arrival? size delivery ≠ some .nothing) : delivery.price = 1 := by
  obtain ⟨received, claimed⟩ := delivery
  rcases claimed with (_ | _) | count
  · exact absurd rfl arrives
  · rfl
  · rfl

/-- What is left of a fund behind a step: what a further read would take, if there may be one. -/
def left (fund : State → Nat) (result : Option LineEvent × LineReader × Nat) (state : State) :
    Nat :=
  fund state + result.1.isSome.toNat

private theorem left_le (fund : State → Nat) (result : Option LineEvent × LineReader × Nat)
    (state : State) : left fund result state ≤ fund state + 1 :=
  Nat.add_le_add_left (Bool.toNat_le _) _

/-- One more than the fund is enough for a turn, and for all turns behind it. -/
theorem attemptOnce_pays (paid : PaysReads server fund) (extension : Option (Nat → Duration))
    (attempt : Attempt) :
    Pays server (attemptOnce extension attempt) (fun state => fund state + 1)
      (Client.Turned.fund (fun _ state => fund state + 1) (left fund)) := by
  unfold attemptOnce
  split
  · exact .done fun state => Nat.le_succ (fund state)
  · split
    · exact .done fun state => Nat.le_refl (fund state + 1)
    · refine paid.ask fun delivery => .done fun state => ?_
      unfold judge
      dsimp only
      cases arrives : arrival? attempt.reader.buffer.length delivery with
      | none =>
          rw [price_of_arrival (by rw [arrives]; exact nofun)]
          dsimp only
          split
          · exact left_le fund _ state
          · split
            · exact left_le fund _ state
            · exact Nat.le_refl _
      | some arrival =>
          by_cases none : arrival = .nothing
          · subst none
            exact Nat.le_add_right _ _
          · rw [price_of_arrival (by rw [arrives]; simpa using none)]
            exact left_le fund _ state

theorem advance_pays (paid : PaysReads server fund) (reader : LineReader)
    (deadline : Option Deadline) :
    Pays server (reader.advance deadline) (fun state => fund state + 1) (left fund) :=
  fun state => Client.Loops.length_le (attemptOnce_pays paid _)
    (steps_advance server reader deadline state)

theorem next_pays (paid : PaysReads server fund) (reader : LineReader) :
    Pays server reader.next (fun state => fund state + 1)
      (fun result state => fund state + result.1.isSome.toNat) := by
  refine (advance_pays paid reader none).andThen fun (event, later, asked) => ?_
  rcases event with _ | (_ | _)
  · exact .done fun state => Nat.le_refl _
  · exact .done fun state => Nat.le_refl _
  · exact .done fun state => Nat.le_succ _

theorem take_pays (paid : PaysReads server fund) (count : Nat) (lines : List String)
    (reader : LineReader) :
    Pays server (take.loop count lines reader) (fun state => fund state + 1)
      (fun _ state => fund state) := by
  induction count generalizing lines reader with
  | zero => exact .done fun state => Nat.le_succ _
  | succ count ih =>
      refine (next_pays paid reader).andThen fun (line, later) => ?_
      cases line with
      | none => exact .done fun state => Nat.le_refl _
      | some line => exact ih _ later

end LineReader

namespace DirectoryReader

theorem next_pays (paid : PaysReads server fund) (reader : DirectoryReader) :
    Pays server reader.next (fun state => fund state + 1)
      (fun result state => fund state + result.1.isSome.toNat) := by
  unfold next
  split
  · exact .done fun state => Nat.le_succ _
  · split
    · exact .done fun state => Nat.le_refl _
    · refine paid.ask fun delivery => ?_
      obtain ⟨received, claimed⟩ := delivery
      rcases claimed with source | _ | count
      · exact .done fun state => Nat.le_add_right _ _
      · exact .done fun state => Nat.le_add_right _ _
      · show Pays server (if _ then _ else _) _ _
        split
        · exact .done fun state => Nat.le_refl _
        · exact .done fun state => Nat.le_refl _

theorem take_pays (paid : PaysReads server fund) (count : Nat)
    (entries : List (Except ClientError Stat)) (reader : DirectoryReader) :
    Pays server (take.loop count entries reader) (fun state => fund state + 1)
      (fun _ state => fund state) := by
  induction count generalizing entries reader with
  | zero => exact .done fun state => Nat.le_succ _
  | succ count ih =>
      refine (next_pays paid reader).andThen fun (entry, later) => ?_
      cases entry with
      | none => exact .done fun state => Nat.le_refl _
      | some entry => exact ih _ later

end DirectoryReader

namespace Client

/-- A program that takes turns is paid for by what pays for each of them. -/
theorem Pays.follow {Stage Result : Type} {turn : Client (Turned Stage Result)}
    {program : Stage → Client Result}
    (pays : Pays server turn (fun state => fund state + 1)
      (Turned.fund (fun _ state => fund state + 1) (fun _ state => fund state)))
    (rest : ∀ stage, Pays server (program stage) (fun state => fund state + 1)
      (fun _ state => fund state)) :
    Pays server (turn.andThen (Turned.follow program)) (fun state => fund state + 1)
      (fun _ state => fund state) := by
  refine pays.andThen fun turned => ?_
  cases turned with
  | again stage => exact rest stage
  | ended result => exact .done fun state => Nat.le_refl _

theorem collectOnce_pays (paid : PaysReads server fund) (handle : Handle) (path : String)
    (limit : Option Nat) (stage : Bytes × Bytes) :
    Pays server (collectOnce handle path limit stage) (fun state => fund state + 1)
      (Turned.fund (fun _ state => fund state + 1) (fun _ state => fund state)) := by
  refine paid.ask fun delivery => ?_
  obtain ⟨received, claimed⟩ := delivery
  rcases claimed with source | _ | count
  · exact .done fun state => Nat.le_add_right _ _
  · exact .done fun state => Nat.le_add_right _ _
  · show Pays server (if _ then _ else _) _ _
    split
    · exact .done fun state => Nat.le_succ _
    · dsimp only
      split
      · exact .done fun state => Nat.le_refl _
      · split
        · exact .done fun state => Nat.le_succ _
        · split
          · exact .done fun state => Nat.le_refl _
          · exact .done fun state => Nat.le_succ _

theorem collect_pays (paid : PaysReads server fund) (handle : Handle) (path : String)
    (limit : Option Nat) (reads : Nat) (held tail : Bytes) :
    Pays server (collect handle path limit reads held tail) (fun state => fund state + 1)
      (fun _ state => fund state) := by
  induction reads generalizing held tail with
  | zero => exact .done fun state => Nat.le_succ _
  | succ reads ih =>
      rw [collect_succ]
      exact .follow (collectOnce_pays paid handle path limit (held, tail)) fun next => ih _ _

theorem offerOnce_pays (paid : PaysWrites server fund) (handle : Handle) (path : String)
    (remaining : Bytes) :
    Pays server (offerOnce handle path remaining) (fun state => fund state + 1)
      (Turned.fund (fun _ state => fund state + 1) (fun _ state => fund state)) := by
  cases remaining with
  | nil => exact .done fun state => Nat.le_succ _
  | cons byte rest =>
      refine .ask (fun (reply : Except Refusal Nat) state => fund state + reply.isOk.toNat)
        ?_ fun reply => ?_
      · intro state reply later answered
        cases reply with
        | error source =>
            have kept := paid.saves (.writeTo handle (byte :: rest)) state
            rw [answered] at kept
            exact Nat.succ_le_succ kept
        | ok count => exact Nat.succ_le_succ (paid.writes _ _ state count later answered)
      · cases reply with
        | error source => exact .done fun state => Nat.le_refl _
        | ok count =>
            dsimp only
            split
            · exact .done fun state => Nat.le_succ _
            · split
              · exact .done fun state => Nat.le_succ _
              · exact .done fun state => Nat.le_refl _

theorem offer_pays (paid : PaysWrites server fund) (handle : Handle) (path : String)
    (writes : Nat) (remaining : Bytes) :
    Pays server (offer handle path writes remaining) (fun state => fund state + 1)
      (fun _ state => fund state) := by
  induction writes generalizing remaining with
  | zero =>
      cases remaining with
      | nil => exact .done fun state => Nat.le_succ _
      | cons byte rest => exact .done fun state => Nat.le_succ _
  | succ writes ih =>
      rw [offer_succ]
      exact .follow (offerOnce_pays paid handle path remaining) ih

end Client

end RemoteTree
