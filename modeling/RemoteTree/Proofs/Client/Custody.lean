import Mathlib.Data.Multiset.AddSub
import RemoteTree.Client.Connection
import RemoteTree.Proofs.Client.Lines
import RemoteTree.Proofs.Server.Exchange

/-!
# Custody of open files

What a client has opened and not closed yet, followed along the requests it makes and the answers
it gets. A program is guarded when, whatever the answers are, it reads, writes and closes only
what it holds and unmounts only when it holds nothing. Being guarded is a property of the program
alone; on every server it says how opening, using and closing follow each other.
-/

set_option autoImplicit false

namespace RemoteTree

namespace Client

variable {First Second State : Type}

/-- The exchanges of a run in order. -/
def exchanges (server : Server State) : Client First → State → List Exchange
  | .done _, _ => []
  | .ask request next, state =>
      let answered := server.answer request state
      ⟨request, answered.1⟩ :: (next answered.1).exchanges server answered.2

theorem exchanges_andThen (server : Server State) (program : Client First)
    (next : First → Client Second) (state : State) :
    (program.andThen next).exchanges server state =
      program.exchanges server state ++
        (next (program.run server state).1).exchanges server (program.run server state).2 := by
  induction program generalizing state with
  | done => rfl
  | ask request rest ih => simp only [andThen, run, exchanges, ih, List.cons_append]

end Client

/-- What is open, each handle as often as it was brought and not given back, and whether the tree
is still mounted. -/
@[ext] structure Custody where
  held : Multiset Handle
  mounted : Bool

namespace Custody

/-- The custody with one more file open. -/
def taking (custody : Custody) (handle : Handle) : Custody :=
  { custody with held := handle ::ₘ custody.held }

def Holds (custody : Custody) (handle : Handle) : Prop :=
  custody.mounted = true ∧ handle ∈ custody.held

def Allows (custody : Custody) (request : Request) : Prop :=
  custody.mounted = true ∧ (∀ handle, request.handle? = some handle → handle ∈ custody.held) ∧
    (request = .unmount → custody.held = 0)

def after (custody : Custody) : Exchange → Custody
  | ⟨.openFile _ _, .ok handle⟩ => custody.taking handle
  | ⟨.createFile _ _ _, .ok handle⟩ => custody.taking handle
  | ⟨.closeFile handle, _⟩ => { custody with held := custody.held.erase handle }
  | ⟨.unmount, _⟩ => { custody with mounted := false }
  | _ => custody

def afterAll (custody : Custody) (exchanges : List Exchange) : Custody :=
  exchanges.foldl after custody

/-- May the exchanges take place, one after the other? -/
def Permits : Custody → List Exchange → Prop
  | _, [] => True
  | custody, exchange :: rest =>
      custody.Allows exchange.request ∧ (custody.after exchange).Permits rest

variable {custody : Custody}

theorem holds_taking (mounted : custody.mounted = true) (handle : Handle) :
    (custody.taking handle).Holds handle :=
  ⟨mounted, Multiset.mem_cons_self handle custody.held⟩

/-- A request that names no file is allowed while the tree is mounted. -/
theorem allows_of_mounted (mounted : custody.mounted = true) {request : Request}
    (unnamed : request.handle? = none) (further : request ≠ .unmount) : custody.Allows request :=
  ⟨mounted, by simp [unnamed], fun unmounts => (further unmounts).elim⟩

theorem Holds.allows {handle : Handle} (holds : custody.Holds handle) {request : Request}
    (named : request.handle? = some handle) : custody.Allows request := by
  refine ⟨holds.1, fun other same => ?_, fun unmounts => ?_⟩
  · cases named.symm.trans same
    exact holds.2
  · subst unmounts
    cases named

@[simp] theorem after_close (handle : Handle) (reply : Unit) :
    (custody.taking handle).after ⟨.closeFile handle, reply⟩ = custody := by
  simp [after, taking]

private theorem mounted_after {exchange : Exchange} (further : exchange.request ≠ .unmount) :
    (custody.after exchange).mounted = custody.mounted := by
  unfold after
  split
  · rfl
  · rfl
  · rfl
  · exact (further rfl).elim
  · rfl

theorem Permits.append {first second : List Exchange} :
    custody.Permits (first ++ second) ↔
      custody.Permits first ∧ (custody.afterAll first).Permits second := by
  induction first generalizing custody with
  | nil => simp [Permits, afterAll]
  | cons exchange rest ih =>
      simp only [List.cons_append, Permits, ih, afterAll, List.foldl_cons, and_assoc]

/-- One exchange: what is brought is added to what is held, what is given back leaves it. -/
theorem Allows.balance {exchange : Exchange} (allowed : custody.Allows exchange.request) :
    custody.held + exchange.opened?.toList =
      exchange.closed?.toList + (custody.after exchange).held := by
  obtain ⟨request, reply⟩ := exchange
  cases request with
  | openFile =>
      cases reply <;> simp [Exchange.opened?, Exchange.closed?, after, taking,
        ← Multiset.singleton_add, Multiset.add_comm custody.held]
  | createFile =>
      cases reply <;> simp [Exchange.opened?, Exchange.closed?, after, taking,
        ← Multiset.singleton_add, Multiset.add_comm custody.held]
  | closeFile handle =>
      have held : handle ∈ custody.held := allowed.2.1 handle rfl
      simpa [Exchange.opened?, Exchange.closed?, after] using (Multiset.cons_erase held).symm
  | _ => simp [Exchange.opened?, Exchange.closed?, after]

/-- What was held and what was brought is what was given back and what is held. -/
theorem Permits.balance {exchanges : List Exchange} (permitted : custody.Permits exchanges) :
    custody.held + opened exchanges = closed exchanges + (custody.afterAll exchanges).held := by
  induction exchanges generalizing custody with
  | nil => simp [afterAll]
  | cons exchange rest ih =>
      obtain ⟨allowed, permitted⟩ := permitted
      rw [opened_cons, closed_cons, ← Multiset.coe_add, ← Multiset.coe_add, ← Multiset.add_assoc,
        allowed.balance, Multiset.add_assoc, ih permitted, ← Multiset.add_assoc]
      rfl

/-- An exchange that names a handle takes place while the handle has been brought more often than
given back. -/
theorem Permits.orderly {before after : List Exchange} {exchange : Exchange} {handle : Handle}
    (permitted : Permits ⟨0, true⟩ (before ++ exchange :: after))
    (named : exchange.request.handle? = some handle) :
    (closed before).count handle < (opened before).count handle := by
  obtain ⟨first, allowed, _⟩ := Permits.append.mp permitted
  have held := Multiset.one_le_count_iff_mem.mpr (allowed.2.1 handle named)
  have balance := congrArg (Multiset.count handle) first.balance
  simp only [Multiset.zero_add, Multiset.count_add, Multiset.coe_count] at balance
  omega

/-- The tree stays mounted up to the one request that unmounts it, and that one is the last. -/
theorem Permits.unmounts {exchanges : List Exchange} (permitted : custody.Permits exchanges)
    (mounted : custody.mounted = true) :
    if (custody.afterAll exchanges).mounted then StaysMounted exchanges
    else EndsUnmounted exchanges := by
  induction exchanges generalizing custody with
  | nil => simp [afterAll, mounted, StaysMounted]
  | cons exchange rest ih =>
      obtain ⟨_, permitted⟩ := permitted
      by_cases last : exchange.request = .unmount
      · obtain ⟨request, reply⟩ := exchange
        cases last
        cases rest with
        | nil => exact ⟨[], reply, rfl, nofun⟩
        -- After an unmount no request is allowed, so there is none.
        | cons => cases permitted.1.1
      · have still : (custody.after exchange).mounted = true := by
          rw [mounted_after last, mounted]
        have later := ih permitted still
        rw [show custody.afterAll (exchange :: rest) =
          (custody.after exchange).afterAll rest from rfl]
        split at later
        · next on =>
          rw [if_pos on]
          exact List.forall_mem_cons.mpr ⟨last, later⟩
        · next off =>
          rw [if_neg off]
          obtain ⟨before, reply, split, none⟩ := later
          exact ⟨exchange :: before, reply, by rw [split]; rfl,
            List.forall_mem_cons.mpr ⟨last, none⟩⟩

end Custody

namespace Client

variable {First Second State : Type} {custody : Custody}

/-- Whatever the answers are, every request may be made when it is made, and the result and the
custody at the end are as wanted. -/
def Guarded : Client First → Custody → (First → Custody → Prop) → Prop
  | .done result, custody, wanted => wanted result custody
  | .ask request next, custody, wanted =>
      custody.Allows request ∧
        ∀ reply, (next reply).Guarded (custody.after ⟨request, reply⟩) wanted

/-- The program is guarded and holds at its end what it held at its start. -/
def Keeps (program : Client First) (custody : Custody) : Prop :=
  program.Guarded custody fun _ last => last = custody

theorem Guarded.andThen {wanted : First → Custody → Prop} {further : Second → Custody → Prop}
    {program : Client First} (guarded : program.Guarded custody wanted)
    {next : First → Client Second}
    (rest : ∀ result custody, wanted result custody → (next result).Guarded custody further) :
    (program.andThen next).Guarded custody further := by
  induction program generalizing custody with
  | done result => exact rest result custody guarded
  | ask request program ih => exact ⟨guarded.1, fun reply => ih reply (guarded.2 reply)⟩

theorem Guarded.mono {wanted further : First → Custody → Prop} {program : Client First}
    (guarded : program.Guarded custody wanted)
    (weaker : ∀ result custody, wanted result custody → further result custody) :
    program.Guarded custody further := by
  induction program generalizing custody with
  | done result => exact weaker result custody guarded
  | ask request program ih => exact ⟨guarded.1, fun reply => ih reply (guarded.2 reply)⟩

theorem Keeps.andThen {further : Second → Custody → Prop} {program : Client First}
    (keeps : program.Keeps custody) {next : First → Client Second}
    (rest : ∀ result, (next result).Guarded custody further) :
    (program.andThen next).Guarded custody further :=
  Guarded.andThen keeps fun result _ same => same ▸ rest result

/-- On every server, the exchanges of a guarded program are permitted and lead to what is
wanted. -/
theorem Guarded.permits {wanted : First → Custody → Prop} {program : Client First}
    (guarded : program.Guarded custody wanted) (server : Server State) (state : State) :
    custody.Permits (program.exchanges server state) ∧
      wanted (program.run server state).1 (custody.afterAll (program.exchanges server state)) := by
  induction program generalizing custody state with
  | done result => exact ⟨trivial, guarded⟩
  | ask request program ih =>
      obtain ⟨permitted, ends⟩ := ih (server.answer request state).1
        (guarded.2 (server.answer request state).1) (server.answer request state).2
      exact ⟨⟨guarded.1, permitted⟩, ends⟩

/-! ## Whole transfers -/

section Transfer

variable {handle : Handle}

private theorem collect_keeps (holds : custody.Holds handle) (path : String) (limit : Option Nat)
    (reads : Nat) (collected tail : Bytes) :
    (collect handle path limit reads collected tail).Keeps custody := by
  induction reads generalizing collected tail with
  | zero => rfl
  | succ reads ih =>
      refine ⟨holds.allows rfl, fun delivery => ?_⟩
      dsimp only
      split
      · rfl
      · rfl
      · split
        · rfl
        · split
          · exact ih _ _
          · split
            · rfl
            · split
              · exact ih _ _
              · rfl

private theorem readCapped_keeps (holds : custody.Holds handle) (path : String)
    (limit : Option Nat) : (readCapped handle path limit).Keeps custody := by
  unfold readCapped
  dsimp only
  split
  · exact collect_keeps holds path limit _ _ _
  · rfl

private theorem offer_keeps (holds : custody.Holds handle) (path : String) (writes : Nat)
    (data : Bytes) : (offer handle path writes data).Keeps custody := by
  induction writes generalizing data with
  | zero => cases data <;> rfl
  | succ writes ih =>
      cases data with
      | nil => rfl
      | cons byte rest =>
          refine ⟨holds.allows rfl, fun reply => ?_⟩
          dsimp only
          split
          · rfl
          · split
            · rfl
            · split
              · rfl
              · exact ih _

end Transfer

end Client

namespace Connection

open Client (Guarded Keeps)

variable {Result : Type} {custody : Custody}

private theorem withOpened_guarded {wanted : Except ClientError Result → Custody → Prop}
    (mounted : custody.mounted = true) (path : String) (mode : OpenMode)
    {next : Handle → Client (Except ClientError Result)}
    (refused : ∀ error, wanted (.error error) custody)
    (rest : ∀ handle, (next handle).Guarded (custody.taking handle) wanted) :
    (withOpened path mode next).Guarded custody wanted := by
  refine ⟨Custody.allows_of_mounted mounted rfl nofun, fun reply => ?_⟩
  cases reply with
  | error source => exact refused _
  | ok handle => exact rest handle

/-- A program that keeps an open file open is rounded off by closing it. -/
theorem closing_guarded {wanted : Result → Custody → Prop} {handle : Handle}
    (mounted : custody.mounted = true) {program : Client Result}
    (keeps : program.Keeps (custody.taking handle)) (ends : ∀ result, wanted result custody) :
    (closing handle program).Guarded (custody.taking handle) wanted := by
  refine keeps.andThen fun result =>
    ⟨(Custody.holds_taking mounted handle).allows rfl, fun reply => ?_⟩
  rw [Custody.after_close]
  exact ends result

theorem read_keeps (mounted : custody.mounted = true) (connection : Connection) (path : String) :
    (connection.read path).Keeps custody :=
  withOpened_guarded mounted path .read (fun _ => rfl) fun handle =>
    closing_guarded mounted
      (Client.readCapped_keeps (Custody.holds_taking mounted handle) path _) fun _ => rfl

theorem write_keeps (mounted : custody.mounted = true) (connection : Connection) (path : String)
    (data : Bytes) : (connection.write path data).Keeps custody :=
  withOpened_guarded mounted path .write (fun _ => rfl) fun handle =>
    closing_guarded mounted
      (Client.offer_keeps (Custody.holds_taking mounted handle) path _ data) fun _ => rfl

theorem create_keeps (mounted : custody.mounted = true) (connection : Connection) (path : String)
    (data : Option Bytes) : (connection.create path data).Keeps custody := by
  refine ⟨Custody.allows_of_mounted mounted rfl nofun, fun reply => ?_⟩
  cases reply with
  | error source => rfl
  | ok handle =>
      refine closing_guarded mounted ?_ fun _ => rfl
      split
      · rfl
      · exact Client.offer_keeps (Custody.holds_taking mounted handle) path _ _

theorem remove_keeps (mounted : custody.mounted = true) (connection : Connection)
    (path : String) : (connection.remove path).Keeps custody :=
  ⟨Custody.allows_of_mounted mounted rfl nofun, fun _ => rfl⟩

theorem stat_keeps (mounted : custody.mounted = true) (connection : Connection) (path : String) :
    (connection.stat path).Keeps custody := by
  refine ⟨Custody.allows_of_mounted mounted rfl nofun, fun reply => ?_⟩
  cases reply <;> rfl

/-- A reader that is opened holds the one file that is open since; one that is not leaves none. -/
theorem openReader_guarded {Reader : Type} (mounted : custody.mounted = true)
    (connection : Connection) (path : String) (start : Handle → String → Reader) :
    (connection.openReader path start).Guarded custody fun opened last =>
      (∃ error, opened = .error error ∧ last = custody) ∨
        ∃ handle, opened = .ok (start handle path) ∧ last = custody.taking handle := by
  refine withOpened_guarded mounted path .read (fun error => .inl ⟨error, rfl, rfl⟩)
    fun handle => ?_
  split
  · exact .inr ⟨handle, rfl, rfl⟩
  · refine ⟨(Custody.holds_taking mounted handle).allows rfl, fun reply => ?_⟩
    rw [Custody.after_close]
    exact .inl ⟨_, rfl, rfl⟩

end Connection

/-! ## Readers -/

namespace LineReader

variable {custody : Custody}

open Client (Guarded Keeps)

private theorem await_keeps {handle : Handle} (holds : custody.Holds handle) (buffer : Bytes)
    (wait : Option Duration) (asked : Nat) (extensions : List Duration) :
    (await handle buffer wait asked extensions).Keeps custody := by
  induction extensions generalizing buffer wait asked with
  | nil =>
      refine ⟨holds.allows rfl, fun delivery => ?_⟩
      dsimp only
      split <;> rfl
  | cons extension rest ih =>
      refine ⟨holds.allows rfl, fun delivery => ?_⟩
      dsimp only
      split
      · rfl
      · split
        · rfl
        · exact ih _ _ _

private theorem awaitWith_keeps {handle : Handle} (holds : custody.Holds handle) (buffer : Bytes)
    (wait : Option Duration) (extensions : Option (List Duration)) :
    (awaitWith handle buffer wait extensions).Keeps custody := by
  cases extensions with
  | none => exact (await_keeps holds buffer wait 0 []).andThen fun _ => rfl
  | some extensions => exact await_keeps holds buffer wait 0 extensions

@[simp] theorem handle_takeLine (reader : LineReader) :
    reader.takeLine.2.handle = reader.handle := by
  simp only [takeLine]
  split <;> rfl

@[simp] theorem handle_arrive (reader : LineReader) (arrived : Arrival × Bytes × Nat) :
    (reader.arrive arrived).2.1.handle = reader.handle := by
  obtain ⟨arrival, buffer, asked⟩ := arrived
  cases arrival <;> simp [arrive]

theorem advance_guarded {reader : LineReader} (holds : custody.Holds reader.handle)
    (deadline : Option Deadline) :
    (reader.advance deadline).Guarded custody fun result last =>
      result.2.1.handle = reader.handle ∧ last = custody := by
  cases finished : reader.finished with
  | true =>
      rw [advance_of_finished reader finished]
      exact ⟨rfl, rfl⟩
  | false =>
      by_cases pending : reader.pending = []
      · rw [advance_of_empty reader finished pending]
        exact (awaitWith_keeps holds _ _ _).andThen fun arrived =>
          ⟨handle_arrive reader arrived, rfl⟩
      · rw [advance_of_pending reader finished pending]
        exact ⟨handle_takeLine reader, rfl⟩

theorem next_guarded {reader : LineReader} (holds : custody.Holds reader.handle) :
    reader.next.Guarded custody fun result last =>
      result.2.handle = reader.handle ∧ last = custody := by
  refine (advance_guarded holds none).andThen fun result last ends => ?_
  obtain ⟨event, next, asked⟩ := result
  rcases event with _ | (_ | _) <;> exact ends

theorem take_guarded {reader : LineReader} (holds : custody.Holds reader.handle) (count : Nat) :
    (reader.take count).Guarded custody fun result last =>
      result.2.handle = reader.handle ∧ last = custody := by
  unfold take
  generalize ([] : List String) = lines
  induction count generalizing reader lines with
  | zero => exact ⟨rfl, rfl⟩
  | succ count ih =>
      refine (next_guarded holds).andThen fun result last ends => ?_
      obtain ⟨line, next⟩ := result
      obtain ⟨same, rfl⟩ := ends
      dsimp only at same ⊢
      cases line with
      | none => exact ⟨same, rfl⟩
      | some line => exact same ▸ ih (same ▸ holds) (line :: lines)

end LineReader

namespace DirectoryReader

variable {custody : Custody}

open Client (Guarded Keeps)

@[simp] theorem handle_decodePending (reader : DirectoryReader) :
    reader.decodePending.2.handle = reader.handle := by
  unfold decodePending
  split <;> rfl

theorem next_guarded {reader : DirectoryReader} (holds : custody.Holds reader.handle) :
    reader.next.Guarded custody fun result last =>
      result.2.handle = reader.handle ∧ last = custody := by
  unfold next
  split
  · exact ⟨rfl, rfl⟩
  · split
    · exact ⟨handle_decodePending reader, rfl⟩
    · refine ⟨holds.allows rfl, fun delivery => ?_⟩
      dsimp only
      split
      · exact ⟨rfl, rfl⟩
      · exact ⟨rfl, rfl⟩
      · split
        · exact ⟨rfl, rfl⟩
        · exact ⟨handle_decodePending _, rfl⟩

theorem take_guarded {reader : DirectoryReader} (holds : custody.Holds reader.handle)
    (count : Nat) :
    (reader.take count).Guarded custody fun result last =>
      result.2.handle = reader.handle ∧ last = custody := by
  unfold take
  generalize ([] : List (Except ClientError Stat)) = entries
  induction count generalizing reader entries with
  | zero => exact ⟨rfl, rfl⟩
  | succ count ih =>
      refine (next_guarded holds).andThen fun result last ends => ?_
      obtain ⟨entry, next⟩ := result
      obtain ⟨same, rfl⟩ := ends
      dsimp only at same ⊢
      cases entry with
      | none => exact ⟨same, rfl⟩
      | some entry => exact same ▸ ih (same ▸ holds) (entry :: entries)

end DirectoryReader

end RemoteTree
