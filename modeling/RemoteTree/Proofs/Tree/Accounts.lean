import RemoteTree.Proofs.Tape.Answers
import RemoteTree.Proofs.Tape.Transparent
import RemoteTree.Proofs.Tree.Building
import RemoteTree.Proofs.Tree.Deliveries
import RemoteTree.Proofs.Tree.OpenFiles

/-!
# What the books of a tree add up to

The files that are open in a tree are those that its clients were given and have not given back, as
long as the numbers of open files do not run out: no number is given out twice, the counts of the
ledger balance, and a number that its client gave back is good for nothing any more. A recorder that
all clients share comes to the same open files by what it hears of requests and answers.
-/

set_option autoImplicit false

namespace RemoteTree

/-- Exchanges bring a file, and a later one of them gives it back. -/
def Released (fid : UInt32) (exchanges : List Exchange) : Prop :=
  ∃ earlier exchange later, exchanges = earlier ++ exchange :: later ∧ fid ∈ issued earlier ∧
    exchange.closed?.map (·.fid) = some fid

private theorem Released.issued {fid : UInt32} {exchanges : List Exchange}
    (released : Released fid exchanges) : fid ∈ issued exchanges := by
  obtain ⟨earlier, exchange, later, rfl, brought, -⟩ := released
  rw [issued_append]
  exact List.mem_append_left _ brought

private theorem released_concat {fid : UInt32} {exchanges : List Exchange} {exchange : Exchange}
    (released : Released fid (exchanges ++ [exchange])) :
    Released fid exchanges ∨
      fid ∈ issued exchanges ∧ exchange.closed?.map (·.fid) = some fid := by
  obtain ⟨earlier, given, later, same, brought, gave⟩ := released
  cases later using List.reverseRecOn with
  | nil =>
      obtain ⟨rfl, last⟩ := List.append_inj' same rfl
      cases last
      exact .inr ⟨brought, gave⟩
  | append_singleton later last =>
      rw [← List.cons_append, ← List.append_assoc] at same
      obtain ⟨rfl, -⟩ := List.append_inj' same rfl
      exact .inl ⟨earlier, given, later, rfl, brought, gave⟩

namespace Tree

/-- The trees that are built and have served nobody yet. -/
inductive Built : Tree → Prop where
  | empty (limits : Limits) (now : UInt32) : Built (Tree.empty limits now)
  | build {tree : Tree} {change : Change} (unasked : ∀ asked, change ≠ .request asked) :
      Built tree → Built (change.apply tree)

private theorem Built.books {tree : Tree} (built : tree.Built) : tree.books = ⟨[], 1, 0, 0⟩ := by
  induction built with
  | empty limits now => exact insert_books _ .root _ _
  | @build tree change unasked _ ih =>
      have silent : change.exchange? tree = none := by
        cases change with
        | request asked => exact absurd rfl (unasked asked)
        | _ => rfl
      have deals := change_deals change tree
      rw [silent] at deals
      exact deals.unasked.trans ih

private theorem Built.after {tree : Tree} (built : tree.Built) {changes : List Change}
    (build : ∀ change ∈ changes, change.builds = true) : (tree.after changes).Built := by
  induction changes generalizing tree with
  | nil => exact built
  | cons change rest ih =>
      obtain ⟨first, others⟩ := List.forall_mem_cons.mp build
      have unasked (asked : Request) : change ≠ .request asked := by
        rintro rfl
        cases first
      exact ih (.build unasked built) others

end Tree

/-- Every fixture describes a tree that is built. -/
theorem Fixture.tree_built (fixture : Fixture) (clock : UInt32) : (fixture.tree clock).Built := by
  rw [fixture.tree_eq]
  apply Tree.Built.after
  · exact @Tree.Built.build _ (.setOwner (fixture.owner.getD "none")) nofun (.empty _ _)
  · intro change member
    exact Fixture.builds_of_mem_changes member

namespace Tree

/-! ## The balance of the books -/

/-- Books that are right about the exchanges so far. -/
structure Balanced (books : Books) (past : List Exchange) : Prop where
  opens : books.opens = (opened past).length
  next : books.nextFid.toNat = books.opens + 1
  open_count : books.opens = books.closes + books.openFiles.length
  ascending : (issued past).Pairwise (· < ·)
  below : ∀ fid ∈ issued past, fid < books.nextFid
  within : books.openFiles.keys.Sublist (issued past)
  released : ∀ fid, Released fid past → fid ∉ books.openFiles.keys

namespace Balanced

variable {books before after : Books} {past : List Exchange}

private theorem start : Balanced ⟨[], 1, 0, 0⟩ [] where
  opens := rfl
  next := rfl
  open_count := rfl
  ascending := .nil
  below := by simp
  within := .slnil
  released := by simp [Table.keys]

private theorem keys_ascending (balanced : Balanced books past) :
    books.openFiles.keys.Pairwise (· < ·) := balanced.ascending.sublist balanced.within

private theorem keys_nodup (balanced : Balanced books past) : books.openFiles.keys.Nodup :=
  balanced.keys_ascending.imp fun less => UInt32.ne_of_lt less

private theorem keys_below (balanced : Balanced books past) {fid : UInt32}
    (member : fid ∈ books.openFiles.keys) : fid < books.nextFid :=
  balanced.below fid (balanced.within.subset member)

private theorem nextFid_unknown (balanced : Balanced books past) :
    Table.find? books.nextFid books.openFiles = none := by
  rw [Table.find?_eq_none_iff]
  intro member
  exact UInt32.lt_irrefl _ (balanced.keys_below member)

private theorem length_erase (balanced : Balanced books past) {fid : UInt32} {file : OpenFile}
    (found : Table.find? fid books.openFiles = some file) :
    books.openFiles.length = (Table.erase fid books.openFiles).length + 1 :=
  (Table.perm_of_find? balanced.keys_nodup found).length_eq

/-- An exchange that brings no file leaves what was issued, and all but the open files. -/
theorem keep (balanced : Balanced books past) {exchange : Exchange}
    {openFiles : Table UInt32 OpenFile} {closes : Nat} (brings : exchange.opened? = none)
    (open_count : books.opens = closes + openFiles.length)
    (within : openFiles.keys.Sublist books.openFiles.keys)
    (taken : ∀ handle, exchange.closed? = some handle → handle.fid ∉ openFiles.keys) :
    Balanced { books with openFiles := openFiles, closes := closes } (past ++ [exchange]) := by
  have same : issued (past ++ [exchange]) = issued past := by
    rw [issued_concat, brings]
    exact List.append_nil _
  constructor
  · simp [opened, brings, balanced.opens]
  · exact balanced.next
  · exact open_count
  · rw [same]
    exact balanced.ascending
  · rw [same]
    exact balanced.below
  · rw [same]
    exact within.trans balanced.within
  · intro fid released member
    cases released_concat released with
    | inl earlier => exact balanced.released fid earlier (within.subset member)
    | inr now =>
        obtain ⟨-, gave⟩ := now
        obtain ⟨handle, closes, rfl⟩ := Option.map_eq_some_iff.mp gave
        exact taken handle closes member

private theorem keys_issue (balanced : Balanced books past) (file : OpenFile) :
    (Table.insert books.nextFid file books.openFiles).keys =
      books.openFiles.keys ++ [books.nextFid] := by
  rw [Table.insert_of_find?_none balanced.nextFid_unknown]
  exact List.map_append

private theorem toNat_next (balanced : Balanced books past)
    (few : books.opens + 1 < UInt32.size - 1) : (books.nextFid + 1).toNat = books.opens + 2 := by
  have size : UInt32.size = 4294967296 := rfl
  have one : (1 : UInt32).toNat = 1 := rfl
  rw [UInt32.toNat_add, balanced.next, one]
  omega

private theorem issue (balanced : Balanced books past) {exchange : Exchange} {handle : Handle}
    (brings : exchange.opened? = some handle) (number : handle.fid = books.nextFid)
    (file : OpenFile) (few : books.opens + 1 < UInt32.size - 1) :
    Balanced
      { books with
        openFiles := Table.insert books.nextFid file books.openFiles
        nextFid := books.nextFid + 1
        opens := books.opens + 1 }
      (past ++ [exchange]) := by
  have grown : issued (past ++ [exchange]) = issued past ++ [books.nextFid] := by
    rw [issued_concat, brings, ← number]
    rfl
  have next := balanced.toNat_next few
  constructor
  · simp [opened, brings, balanced.opens]
  · exact next
  · rw [Table.insert_of_find?_none balanced.nextFid_unknown]
    simp [balanced.open_count, Nat.add_assoc]
  · rw [grown, List.pairwise_append]
    refine ⟨balanced.ascending, List.pairwise_singleton _ _, ?_⟩
    intro fid member other same
    cases List.mem_singleton.mp same
    exact balanced.below fid member
  · intro fid member
    have last := balanced.next
    rw [grown, List.mem_append, List.mem_singleton] at member
    rw [UInt32.lt_iff_toNat_lt, next]
    cases member with
    | inl earlier =>
        have less := UInt32.lt_iff_toNat_lt.mp (balanced.below fid earlier)
        omega
    | inr same =>
        rw [same]
        omega
  · rw [balanced.keys_issue, grown]
    exact balanced.within.append (List.Sublist.refl _)
  · intro fid released member
    rw [balanced.keys_issue, List.mem_append, List.mem_singleton] at member
    have earlier : Released fid past := by
      cases released_concat released with
      | inl earlier => exact earlier
      | inr now =>
          rw [Exchange.closed?_of_opened? brings] at now
          cases now.2
    cases member with
    | inl still => exact balanced.released fid earlier still
    | inr same =>
        have less := balanced.below fid earlier.issued
        rw [same] at less
        exact UInt32.lt_irrefl _ less

private theorem keys_seek {fid : UInt32} {file : OpenFile}
    (found : Table.find? fid books.openFiles = some file) (moved : OpenFile) :
    (Table.insert fid moved books.openFiles).keys = books.openFiles.keys := by
  have member : fid ∈ books.openFiles.keys := by
    by_contra absent
    rw [(Table.find?_eq_none_iff ..).mpr absent] at found
    cases found
  rw [Table.keys_insert, if_pos member]

private theorem deal (balanced : Balanced before past) {exchange : Exchange}
    (deals : Deals before (some exchange) after)
    (few : (opened (past ++ [exchange])).length < UInt32.size - 1) :
    Balanced after (past ++ [exchange]) := by
  cases deals with
  | still brings takes =>
      apply balanced.keep brings balanced.open_count (List.Sublist.refl _)
      intro handle closes
      exact (Table.find?_eq_none_iff ..).mp (takes handle closes)
  | @seek exchange handle file offset brings takes named found =>
      have keys := keys_seek found { file with offset := offset }
      apply balanced.keep brings
      · have length := congrArg List.length keys
        simp only [Table.keys, List.length_map] at length
        rw [length]
        exact balanced.open_count
      · rw [keys]
      · intro closed closes
        rw [takes] at closes
        cases closes
  | @issue exchange handle file brings number =>
      have count : (opened (past ++ [exchange])).length = before.opens + 1 := by
        simp [opened, brings, balanced.opens]
      rw [number]
      exact balanced.issue brings number file (count ▸ few)
  | @release exchange handle file takes found =>
      apply balanced.keep (Exchange.opened?_of_closed? takes)
      · rw [balanced.open_count, balanced.length_erase found]
        omega
      · exact List.filter_sublist.map _
      · intro closed closes
        cases takes.symm.trans closes
        rw [← Table.find?_eq_none_iff, Table.find?_erase, if_pos rfl]

end Balanced

end Tree

/-! ## What a recorder hears -/

namespace Recorder

private theorem addFid_of_lt {fid : Nat} {fids : List Nat} (largest : ∀ other ∈ fids, other < fid) :
    addFid fid fids = fids ++ [fid] := by
  induction fids with
  | nil => rfl
  | cons other rest ih =>
      obtain ⟨less, others⟩ := List.forall_mem_cons.mp largest
      unfold addFid
      rw [if_neg (by omega), if_neg (by omega), ih others, List.cons_append]

private theorem toNat?_fid (fid : UInt32) :
    (Json.ofNat fid.toNat).toNat? UInt64.size = some fid.toNat := by
  apply Json.toNat?_ofNat
  exact Nat.lt_trans fid.toNat_lt (by decide)

private theorem openedFid?_answer (answer : Except Refusal Handle) :
    openedFid? (answerToJson Handle.toJson answer) =
      answer.toOption.map fun handle => handle.fid.toNat := by
  cases answer with
  | error refusal => rfl
  | ok handle => exact toNat?_fid handle.fid

private theorem openFids_note {recorder next : Recorder} {exchange : Exchange}
    (noted : recorder.note exchange.request exchange.reply = some next) :
    next.openFids =
      match exchange.opened? with
      | some handle => addFid handle.fid.toNat recorder.openFids
      | none =>
          match exchange.closed? with
          | some handle => recorder.openFids.filter (· != handle.fid.toNat)
          | none => recorder.openFids := by
  obtain ⟨request, reply⟩ := exchange
  obtain ⟨output, written, rfl⟩ := Option.map_eq_some_iff.mp noted
  cases request with
  | openFile path mode =>
      cases written
      cases reply with
      | error refusal => rfl
      | ok handle =>
          simp [record, openFidsAfter, Request.method, openedFid?_answer, Exchange.opened?,
            Except.toOption]
  | createFile path permissions mode =>
      cases written
      cases reply with
      | error refusal => rfl
      | ok handle =>
          simp [record, openFidsAfter, Request.method, openedFid?_answer, Exchange.opened?,
            Except.toOption]
  | closeFile handle =>
      have closed : closedFid? (Request.closeFile handle).input = some handle.fid.toNat :=
        toNat?_fid handle.fid
      simp [record, openFidsAfter, Request.method, closed, Exchange.opened?, Exchange.closed?]
  | _ => rfl

/-- The recorder holds the numbers of the files that are open in a tree's books. -/
def Agrees (recorder : Recorder) (books : Tree.Books) : Prop :=
  recorder.openFids = books.openFiles.keys.map UInt32.toNat

private theorem Agrees.deal {recorder next : Recorder} {before after : Tree.Books}
    {past : List Exchange}
    (agrees : recorder.Agrees before) (balanced : Tree.Balanced before past) {exchange : Exchange}
    (deals : Tree.Deals before (some exchange) after)
    (noted : recorder.note exchange.request exchange.reply = some next) : next.Agrees after := by
  have heard := openFids_note noted
  unfold Agrees at agrees ⊢
  rw [heard, agrees]
  cases deals with
  | still brings takes =>
      replace brings : exchange.opened? = none := brings
      rw [brings]
      cases closes : exchange.closed? with
      | none => rfl
      | some handle =>
          have absent := (Table.find?_eq_none_iff ..).mp (takes handle closes)
          rw [List.filter_eq_self]
          intro number member
          obtain ⟨fid, there, rfl⟩ := List.mem_map.mp member
          rw [bne_iff_ne, ne_eq, UInt32.toNat_inj]
          rintro rfl
          exact absent there
  | @seek exchange handle file offset brings takes named found =>
      rw [brings, takes, Tree.Balanced.keys_seek found]
  | @issue exchange handle file brings number =>
      rw [brings, number, balanced.keys_issue, List.map_append]
      dsimp only
      rw [number]
      apply addFid_of_lt
      intro other member
      obtain ⟨fid, there, rfl⟩ := List.mem_map.mp member
      exact UInt32.lt_iff_toNat_lt.mp (balanced.keys_below there)
  | @release exchange handle file takes found =>
      rw [Exchange.opened?_of_closed? takes, takes]
      simp only [Table.keys, Table.erase, List.filter_map, List.map_map]
      congr 1
      apply List.filter_congr
      intro entry member
      rw [Bool.eq_iff_iff]
      simp [UInt32.toNat_inj]

end Recorder

/-! ## Histories -/

namespace Tree

/-- Is a change answered if it is a request? Only a read that breaks off is not. -/
def Change.isAnswered (tree : Tree) : Change → Bool
  | .request asked => (tree.reply? asked).isSome
  | _ => true

/-- Does no read of a history break off? -/
def unbroken : Tree → List Change → Bool
  | _, [] => true
  | tree, change :: rest => change.isAnswered tree && (change.apply tree).unbroken rest

/-- Changes of a tree where one recorder hears of all requests: the tree and the recorder in the
end. There is neither if a read breaks off on the way or if an answer cannot be recorded. -/
def recording : Tree → Recorder → List Change → Option (Tree × Recorder)
  | tree, recorder, [] => some (tree, recorder)
  | tree, recorder, .request asked :: rest =>
      (tree.reply? asked).bind fun reply =>
        (recorder.note asked reply).bind fun recorder =>
          ((Change.request asked).apply tree).recording recorder rest
  | tree, recorder, change :: rest => (change.apply tree).recording recorder rest

variable {tree : Tree} {change : Change}

private theorem recording_unasked (unasked : ∀ asked, change ≠ .request asked) (recorder : Recorder)
    (rest : List Change) :
    tree.recording recorder (change :: rest) = (change.apply tree).recording recorder rest := by
  cases change with
  | request asked => exact absurd rfl (unasked asked)
  | _ => rfl

/-- What a tree answers can be recorded. -/
theorem recording_asked {exchange : Exchange} (asked : change.exchange? tree = some exchange)
    (recorder : Recorder) (rest : List Change) :
    ∃ next, recorder.note exchange.request exchange.reply = some next ∧
      tree.recording recorder (change :: rest) = (change.apply tree).recording next rest := by
  cases change with
  | request request =>
      obtain ⟨reply, answered, rfl⟩ := Option.map_eq_some_iff.mp asked
      cases noted : recorder.note request reply with
      | none =>
          have overclaims := (recorder.note_eq_none_iff ⟨request, reply⟩).mp noted
          cases request with
          | readFrom handle buffer wait =>
              obtain ⟨count, claimed, excess⟩ := overclaims
              exact absurd excess (Nat.not_lt.mpr (fits_readFrom answered count claimed))
          | _ => cases overclaims
      | some next =>
          refine ⟨next, rfl, ?_⟩
          simp only [recording, answered, noted, Option.bind_some]
  | _ => cases asked

/-- A read that breaks off is not recorded, and ends the recording. -/
theorem recording_broken {changes : List Change} (broken : tree.unbroken changes = false)
    (recorder : Recorder) : tree.recording recorder changes = none := by
  induction changes generalizing tree recorder with
  | nil => cases broken
  | cons change rest ih =>
      rw [unbroken, Bool.and_eq_false_iff] at broken
      cases change with
      | request asked =>
          cases answered : tree.reply? asked with
          | none => simp only [recording, answered, Option.bind_none]
          | some reply =>
              have later := broken.resolve_left (by simp [Change.isAnswered, answered])
              cases noted : recorder.note asked reply with
              | none => simp only [recording, answered, noted, Option.bind_some, Option.bind_none]
              | some next =>
                  simp only [recording, answered, noted, Option.bind_some]
                  exact ih later next
      | _ => exact ih (broken.resolve_left (by simp [Change.isAnswered])) recorder

private theorem recording_balanced {past : List Exchange} {recorder : Recorder}
    {changes : List Change}
    (balanced : Balanced tree.books past) (agrees : recorder.Agrees tree.books)
    (few : (opened (past ++ tree.exchanges changes)).length < UInt32.size - 1) :
    Balanced (tree.after changes).books (past ++ tree.exchanges changes) ∧
      (tree.unbroken changes = true →
        ∃ recorded, tree.recording recorder changes = some (tree.after changes, recorded) ∧
          recorded.Agrees (tree.after changes).books) := by
  induction changes generalizing tree past recorder with
  | nil =>
      rw [exchanges, List.append_nil]
      exact ⟨balanced, fun _ => ⟨recorder, rfl, agrees⟩⟩
  | cons change rest ih =>
      have deals := change_deals change tree
      have after : tree.after (change :: rest) = (change.apply tree).after rest := rfl
      rw [after, unbroken, Bool.and_eq_true]
      cases asked : change.exchange? tree with
      | none =>
          rw [asked] at deals
          have same := deals.unasked
          rw [exchanges, asked] at few ⊢
          obtain ⟨last, recorded⟩ := ih (same ▸ balanced) (same ▸ agrees) few
          refine ⟨last, fun unbroken => ?_⟩
          obtain ⟨answered, others⟩ := unbroken
          -- A request without an exchange is a read that has broken off.
          have unasked (request : Request) : change ≠ .request request := by
            rintro rfl
            obtain ⟨reply, answers⟩ := Option.isSome_iff_exists.mp answered
            simp [Change.exchange?, answers] at asked
          rw [recording_unasked unasked]
          exact recorded others
      | some exchange =>
          rw [asked] at deals
          obtain ⟨next, noted, going⟩ := recording_asked asked recorder rest
          rw [going]
          rw [exchanges, asked, Option.toList_some, ← List.append_assoc] at few ⊢
          have first : (opened (past ++ [exchange])).length < UInt32.size - 1 := by
            rw [opened_append, List.length_append] at few
            omega
          obtain ⟨last, recorded⟩ :=
            ih (balanced.deal deals first) (agrees.deal balanced deals noted) few
          exact ⟨last, fun unbroken => recorded unbroken.2⟩

private theorem readFrom_unknown {fid : UInt32} (unknown : Table.find? fid tree.openFiles = none)
    (room : Nat) (wait : Option Duration) :
    (tree.readFrom fid room wait).1 =
      some (refusedRead (if exceeds tree.limits.failAfterReads (tree.ledger.reads + 1) then .faulty
        else .unknownHandle)) := by
  have missing : Table.find? fid tree.countRead.openFiles = none := unknown
  have fails : exceeds tree.countRead.limits.failAfterReads tree.countRead.ledger.reads =
      exceeds tree.limits.failAfterReads (tree.ledger.reads + 1) := rfl
  simp only [readFrom, missing, fails]
  split <;> rfl

private theorem writeTo_unknown {fid : UInt32} (unknown : Table.find? fid tree.openFiles = none)
    (data : Bytes) :
    (tree.writeTo fid data).1 =
      .error (if exceeds tree.limits.failAfterWrites (tree.ledger.writes + 1) then .faulty
        else .unknownHandle) := by
  have missing : Table.find? fid tree.countWrite.openFiles = none := unknown
  have fails : exceeds tree.countWrite.limits.failAfterWrites tree.countWrite.ledger.writes =
      exceeds tree.limits.failAfterWrites (tree.ledger.writes + 1) := rfl
  simp only [writeTo, missing, fails]
  split <;> rfl

/-- Whatever clients ask of a tree that was built for them, in any order, as long as they do not run
out of numbers for open files: the files that are open are those that were opened less those that
were closed, every number is a new one, and a number that was not given out or was given back is
refused, unless the tree fails already. A recorder that hears of all requests holds at every point
the numbers of the open files, until a read breaks off: that read is not recorded, and the run ends
with it. -/
theorem accounts_balance {tree : Tree} (built : tree.Built) {changes : List Change}
    (few : (opened (tree.exchanges changes)).length < UInt32.size - 1) :
    let past := tree.exchanges changes
    let after := tree.after changes
    after.ledger.opens = after.ledger.closes + after.openCount ∧
    (∀ fid ∈ after.openFiles.keys, fid < after.nextFid) ∧
    (issued past).Nodup ∧
    (∀ handle : Handle, handle.fid ∉ issued past ∨ Released handle.fid past →
      (∀ buffer wait, ∃ refusal,
        after.reply? (.readFrom handle buffer wait) = some (refusedRead refusal) ∧
        refusal.code =
          some (if exceeds after.limits.failAfterReads (after.ledger.reads + 1) then 5 else 9)) ∧
      ∀ data, ∃ refusal,
        after.reply? (.writeTo handle data) = some (.error refusal) ∧
        refusal.code =
          some (if exceeds after.limits.failAfterWrites (after.ledger.writes + 1) then 5 else 9)) ∧
    ∀ name earlier later, changes = earlier ++ later →
      (tree.unbroken earlier = true → ∃ recorder,
        tree.recording { name := name } earlier = some (tree.after earlier, recorder) ∧
        recorder.openFids = (tree.after earlier).openFiles.keys.map UInt32.toNat) ∧
      (tree.unbroken earlier = false → tree.recording { name := name } earlier = none) := by
  intro past after
  have balanced : Balanced tree.books [] := by
    rw [built.books]
    exact .start
  have agrees (name : String) : Recorder.Agrees { name := name } tree.books := by
    rw [built.books]
    rfl
  have balanced_after : Balanced after.books past :=
    (recording_balanced balanced (agrees "") few).1
  have code (fails : Bool) :
      (if fails then Refusal.faulty else .unknownHandle).code = some (if fails then 5 else 9) := by
    cases fails with
    | true => rfl
    | false => rfl
  refine ⟨balanced_after.open_count, ?_, ?_, ?_, ?_⟩
  · intro fid member
    exact balanced_after.keys_below member
  · exact balanced_after.ascending.imp fun less => UInt32.ne_of_lt less
  · intro handle gone
    have unknown : Table.find? handle.fid after.openFiles = none := by
      rw [Table.find?_eq_none_iff]
      cases gone with
      | inl unissued => exact fun member => unissued (balanced_after.within.subset member)
      | inr released => exact balanced_after.released handle.fid released
    constructor
    · intro buffer wait
      exact ⟨_, readFrom_unknown unknown _ wait, code _⟩
    · intro data
      exact ⟨_, congrArg some (writeTo_unknown unknown data), code _⟩
  · intro name earlier later split
    have fewer : (opened ([] ++ tree.exchanges earlier)).length < UInt32.size - 1 := by
      rw [split, exchanges_append, opened_append, List.length_append] at few
      rw [List.nil_append]
      omega
    exact ⟨(recording_balanced balanced (agrees name) fewer).2,
      fun broken => recording_broken broken _⟩

/-- A file is opened and closed twice, another is made and kept, an open fails and a number is closed
that nobody was given. In the end the file that was made gives way to a directory, so that the next
read through it breaks off. -/
theorem accounts_balance_of_double_close :
    let tree := (Tree.empty { failAfterWrites := some 1 } 1).after [.addFile "/f" [7]]
    let first : Handle := ⟨1, tree.limits.iounit, 0⟩
    let second : Handle := ⟨2, tree.limits.iounit, 0⟩
    let start : List Change :=
      [.request (.openFile "/f" .read), .request (.createFile "/g" 0 .readWrite),
        .request (.openFile "/h" .read)]
    let between : List Change :=
      [.request (.closeFile first), .request (.closeFile ⟨9, 0, 0⟩),
        .request (.openFile "f" .readWrite)]
    let earlier : List Change := start ++ .request (.closeFile first) :: between
    let later : List Change :=
      [.request (.writeTo second [3]), .request (.removeFile "/g"), .addDirectory "/g",
        .request (.readFrom second [0] none)]
    let changes := earlier ++ later
    tree.Built ∧ (opened (tree.exchanges changes)).length = 3 ∧
      Released first.fid (tree.exchanges changes) ∧
      3 = (tree.after changes).ledger.closes + (tree.after changes).openCount ∧
      (∃ refusal,
        (tree.after changes).reply? (.readFrom first [0] none) = some (refusedRead refusal) ∧
        refusal.code = some 9) ∧
      (∃ refusal,
        (tree.after changes).reply? (.writeTo first [0]) = some (.error refusal) ∧
        refusal.code = some 5) ∧
      (∃ recorder, tree.recording { name := "t" } earlier = some (tree.after earlier, recorder) ∧
        recorder.openFids = [2, 3]) ∧
      tree.recording { name := "t" } changes = none := by
  intro tree first second start between earlier later changes
  have built : tree.Built := by
    apply Built.after (.empty _ _)
    intro change member
    cases List.mem_singleton.mp member
    rfl
  have count : (opened (tree.exchanges changes)).length = 3 := by decide +kernel
  have released : Released first.fid (tree.exchanges changes) := by
    refine ⟨tree.exchanges start, ⟨.closeFile first, ()⟩,
      (tree.after (start ++ [.request (.closeFile first)])).exchanges (between ++ later), ?_, ?_, rfl⟩
    · exact tree.exchanges_append start (.request (.closeFile first) :: (between ++ later))
    · decide +kernel
  have few : (opened (tree.exchanges changes)).length < UInt32.size - 1 := by
    rw [count]
    decide
  obtain ⟨balance, -, -, refused, recorded⟩ := accounts_balance built few
  obtain ⟨reads, writes⟩ := refused first (.inr released)
  have opens : (tree.after changes).ledger.opens = 3 := by decide +kernel
  have keys : (tree.after earlier).openFiles.keys.map UInt32.toNat = [2, 3] := by decide +kernel
  refine ⟨built, count, released, ?_, ?_, ?_, ?_, ?_⟩
  · exact opens.symm.trans balance
  · obtain ⟨refusal, answered, code⟩ := reads [0] none
    refine ⟨refusal, answered, ?_⟩
    rw [code]
    decide +kernel
  · obtain ⟨refusal, answered, code⟩ := writes [0]
    refine ⟨refusal, answered, ?_⟩
    rw [code]
    decide +kernel
  · obtain ⟨recorder, ran, hears⟩ := (recorded "t" earlier later rfl).1 (by decide +kernel)
    exact ⟨recorder, ran, hears.trans keys⟩
  · exact (recorded "t" changes [] (List.append_nil _).symm).2 (by decide +kernel)

end Tree

end RemoteTree
