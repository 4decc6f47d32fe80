import RemoteTree.Proofs.Tree.History

/-!
# The books of open files

A tree keeps its open files under numbers, with the number to give out next and a count of what was
opened and closed. A change of a tree alters these books in one of three ways, or not at all, and
its answer tells its client which file it brought or took.
-/

set_option autoImplicit false

namespace RemoteTree

/-- The numbers of the files that exchanges brought, in the order in which they came. -/
def issued (exchanges : List Exchange) : List UInt32 := (opened exchanges).map (·.fid)

@[simp] theorem issued_nil : issued [] = [] := rfl

theorem opened_append (first second : List Exchange) :
    opened (first ++ second) = opened first ++ opened second := List.filterMap_append

theorem issued_append (first second : List Exchange) :
    issued (first ++ second) = issued first ++ issued second := by
  rw [issued, opened_append, List.map_append]
  rfl

theorem issued_concat (exchanges : List Exchange) (exchange : Exchange) :
    issued (exchanges ++ [exchange]) =
      issued exchanges ++ (exchange.opened?.map (·.fid)).toList := by
  rw [issued_append]
  cases brought : exchange.opened? with
  | none => simp [issued, opened, brought]
  | some handle => simp [issued, opened, brought]

namespace Exchange

variable {exchange : Exchange} {handle : Handle}

theorem closed?_of_opened? (brought : exchange.opened? = some handle) :
    exchange.closed? = none := by
  obtain ⟨request, reply⟩ := exchange
  cases request with
  | closeFile handle => cases brought
  | _ => rfl

theorem opened?_of_closed? (gave : exchange.closed? = some handle) : exchange.opened? = none := by
  obtain ⟨request, reply⟩ := exchange
  cases request with
  | closeFile handle => rfl
  | _ => cases gave

private theorem handle?_of_closed? (gave : exchange.closed? = some handle) :
    exchange.request.handle? = some handle := by
  obtain ⟨request, reply⟩ := exchange
  cases request with
  | closeFile closed => exact gave
  | _ => cases gave

end Exchange

namespace Tree

structure Books where
  openFiles : Table UInt32 OpenFile
  nextFid : UInt32
  opens : Nat
  closes : Nat

def books (tree : Tree) : Books :=
  ⟨tree.openFiles, tree.nextFid, tree.ledger.opens, tree.ledger.closes⟩

/-- What a change asks of a tree and is answered, if it is a request and does not break off. -/
def Change.exchange? (tree : Tree) : Change → Option Exchange
  | .request asked => (tree.reply? asked).map fun reply => ⟨asked, reply⟩
  | _ => none

/-- What is asked in the course of some changes, and answered. -/
def exchanges : Tree → List Change → List Exchange
  | _, [] => []
  | tree, change :: rest => (change.exchange? tree).toList ++ exchanges (change.apply tree) rest

theorem exchanges_append (tree : Tree) (earlier later : List Change) :
    tree.exchanges (earlier ++ later) =
      tree.exchanges earlier ++ (tree.after earlier).exchanges later := by
  induction earlier generalizing tree with
  | nil => rfl
  | cons change rest ih =>
      rw [List.cons_append, exchanges, exchanges, ih, List.append_assoc]
      rfl

/-- The books of a tree before and after an exchange, or after a change that is no request or is not
answered. -/
inductive Deals (books : Books) : Option Exchange → Books → Prop where
  | still {exchange : Option Exchange} :
      exchange.bind Exchange.opened? = none →
      (∀ handle, exchange.bind Exchange.closed? = some handle →
        Table.find? handle.fid books.openFiles = none) →
      Deals books exchange books
  | seek {exchange : Exchange} {handle : Handle} {file : OpenFile} (offset : Nat) :
      exchange.opened? = none → exchange.closed? = none →
      exchange.request.handle? = some handle →
      Table.find? handle.fid books.openFiles = some file →
      Deals books (some exchange)
        { books with
          openFiles :=
            Table.insert handle.fid { file with offset := offset } books.openFiles }
  | issue {exchange : Exchange} {handle : Handle} (file : OpenFile) :
      exchange.opened? = some handle → handle.fid = books.nextFid →
      Deals books (some exchange)
        { books with
          openFiles := Table.insert handle.fid file books.openFiles
          nextFid := handle.fid + 1
          opens := books.opens + 1 }
  | release {exchange : Exchange} {handle : Handle} {file : OpenFile} :
      exchange.closed? = some handle →
      Table.find? handle.fid books.openFiles = some file →
      Deals books (some exchange)
        { books with
          openFiles := Table.erase handle.fid books.openFiles
          closes := books.closes + 1 }

private theorem Deals.quiet (books : Books) {exchange : Option Exchange}
    (brings : exchange.bind Exchange.opened? = none)
    (takes : exchange.bind Exchange.closed? = none) : Deals books exchange books := by
  apply Deals.still brings
  intro handle closes
  rw [takes] at closes
  cases closes

/-! ## What each request does to the books -/

theorem insert_books (tree : Tree) (path : Path) (mode : UInt32) (content : Content) :
    (tree.insert path mode content).books = tree.books := by
  have placed (tree : Tree) (path : Path) (mode : UInt32) (content : Content) :
      (tree.place path mode content).books = tree.books := by
    obtain ⟨node, identity, same⟩ := place_apart tree path mode content
    rw [same]
    rfl
  induction path generalizing tree mode content with
  | root => exact placed tree .root mode content
  | child parent name ih =>
      unfold insert
      dsimp only
      rw [placed]
      split
      · rfl
      · exact ih tree _ _

private theorem push_books (tree : Tree) (path : String) (chunk : Chunk) :
    (tree.push path chunk).2.books = tree.books := by
  unfold push
  split
  · split
    · rfl
    · rfl
  · rfl

private theorem issue_deals {tree : Tree} {path : Path} {mode : OpenMode} {exchange : Exchange}
    (brings : exchange.opened? = some (tree.issue path mode).1) :
    Deals tree.books (some exchange) (tree.issue path mode).2.books := .issue _ brings rfl

private theorem openAt_deals (tree : Tree) (text : String) (mode : OpenMode) :
    Deals tree.books (some ⟨.openFile text mode, (tree.openAt (.ofText text) mode).1⟩)
      (tree.openAt (.ofText text) mode).2.books := by
  unfold openAt
  split
  · exact .quiet _ rfl rfl
  · split
    · exact .quiet _ rfl rfl
    · exact issue_deals rfl

private theorem createAt_deals (tree : Tree) (text : String) (permissions : UInt32)
    (mode : OpenMode) : Deals tree.books
      (some ⟨.createFile text permissions mode, (tree.createAt (.ofText text) permissions mode).1⟩)
      (tree.createAt (.ofText text) permissions mode).2.books := by
  unfold createAt
  split
  · exact .quiet _ rfl rfl
  · split
    · exact .quiet _ rfl rfl
    · split
      · exact .quiet _ rfl rfl
      · split
        · -- The new node is made first, which the books do not show.
          have made (made : Tree) (same : made.books = tree.books) :
              Deals tree.books
                (some ⟨.createFile text permissions mode, .ok (made.issue (.ofText text) mode).1⟩)
                (made.issue (.ofText text) mode).2.books := by
            rw [← same]
            exact issue_deals rfl
          dsimp only
          split
          · exact made _ (insert_books tree _ _ _)
          · exact made _ (insert_books tree _ _ _)
        · exact .quiet _ rfl rfl

private theorem readNode_deals {tree : Tree} {handle : Handle} {file : OpenFile}
    (found : Table.find? handle.fid tree.openFiles = some file) (node : Node) (buffer : Bytes)
    (wait : Option Duration) :
    Deals tree.books
      ((tree.readNode handle.fid file node buffer.length wait).1.map fun reply =>
        ⟨.readFrom handle buffer wait, reply⟩)
      (tree.readNode handle.fid file node buffer.length wait).2.books := by
  unfold readNode
  split
  · split
    · exact .quiet _ rfl rfl
    · split
      · exact .quiet _ rfl rfl
      · split
        · exact .quiet _ rfl rfl
        · exact .seek _ rfl rfl rfl found
  · exact .seek _ rfl rfl rfl found
  · exact .quiet _ rfl rfl

private theorem readFrom_deals (tree : Tree) (handle : Handle) (buffer : Bytes)
    (wait : Option Duration) : Deals tree.books
      ((tree.readFrom handle.fid buffer.length wait).1.map fun reply =>
        ⟨.readFrom handle buffer wait, reply⟩)
      (tree.readFrom handle.fid buffer.length wait).2.books := by
  unfold readFrom
  dsimp only
  split
  · exact .quiet _ rfl rfl
  · split
    · exact .quiet _ rfl rfl
    · next file found =>
      split
      · split
        · exact .quiet _ rfl rfl
        · next node there =>
          have known : Table.find? handle.fid tree.countRead.openFiles = some file := found
          exact readNode_deals known node buffer wait
      · exact .quiet _ rfl rfl

private theorem writeTo_deals (tree : Tree) (handle : Handle) (data : Bytes)
    (reply : Except Refusal Nat) : Deals tree.books (some ⟨.writeTo handle data, reply⟩)
      (tree.writeTo handle.fid data).2.books := by
  unfold writeTo
  dsimp only
  split
  · exact .quiet _ rfl rfl
  · split
    · exact .quiet _ rfl rfl
    · next file found =>
      split
      · split
        · exact .quiet _ rfl rfl
        · split
          · exact .quiet _ rfl rfl
          · exact .seek _ rfl rfl rfl found
          · exact .quiet _ rfl rfl
      · exact .quiet _ rfl rfl

private theorem removeAt_books (tree : Tree) (path : Path) :
    (tree.removeAt path).2.books = tree.books := by
  unfold removeAt
  split
  · rfl
  · split
    · rfl
    · split
      · rfl
      · rfl

private theorem closeFid_deals (tree : Tree) (handle : Handle) :
    Deals tree.books (some ⟨.closeFile handle, ()⟩) (tree.closeFid handle.fid).books := by
  unfold closeFid
  split
  · next unknown =>
    apply Deals.still rfl
    intro closed same
    cases same
    exact unknown
  · next file found => exact .release rfl found

private theorem answer_deals (tree : Tree) (request : Request) :
    Deals tree.books ((tree.reply? request).map fun reply => ⟨request, reply⟩)
      (server.answer request tree).2.books := by
  cases request with
  | openFile text mode => exact openAt_deals tree text mode
  | createFile text permissions mode => exact createAt_deals tree text permissions mode
  | readFrom handle buffer wait => exact readFrom_deals tree handle buffer wait
  | writeTo handle data => exact writeTo_deals tree handle data _
  | removeFile text =>
      have same : (server.answer (.removeFile text) tree).2.books = tree.books :=
        removeAt_books tree _
      rw [same]
      exact .quiet _ rfl rfl
  | statFile text =>
      have same : (server.answer (.statFile text) tree).2.books = tree.books := by
        simp only [server]
        split
        · rfl
        · rfl
      rw [same]
      exact .quiet _ rfl rfl
  | closeFile handle => exact closeFid_deals tree handle
  | unmount => exact .quiet _ rfl rfl

theorem change_deals (change : Change) (tree : Tree) :
    Deals tree.books (change.exchange? tree) (change.apply tree).books := by
  have quiet {after : Tree} (same : after.books = tree.books) :
      Deals tree.books none after.books := by
    rw [same]
    exact .quiet _ rfl rfl
  cases change with
  | request request => exact answer_deals tree request
  | addDirectory path => exact quiet (insert_books tree _ _ _)
  | addFile path contents => exact quiet (insert_books tree _ _ _)
  | addStream path queue => exact quiet (insert_books tree _ _ _)
  | push path chunk => exact quiet (push_books tree path chunk)
  | _ => exact quiet rfl

/-- What no request asks for leaves the books as they are. -/
theorem Deals.unasked {before after : Books} (deals : Deals before none after) :
    after = before := by
  cases deals with
  | still brings takes => rfl

/-! ## What becomes of an open file -/

variable {tree : Tree} {fid : UInt32} {file : OpenFile}

/-- An open file is left alone by exchanges that do not name it, unless its number comes again. -/
theorem Deals.spares {before after : Books} {exchange : Option Exchange}
    (deals : Deals before exchange after) {fid : UInt32}
    (unnamed : ∀ handle, exchange.bind (·.request.handle?) = some handle → handle.fid ≠ fid)
    (unissued : ∀ handle, exchange.bind Exchange.opened? = some handle → handle.fid ≠ fid) :
    Table.find? fid after.openFiles = Table.find? fid before.openFiles := by
  cases deals with
  | still brings takes => rfl
  | @seek exchange handle file offset brings takes named found =>
      exact (Table.find?_insert ..).trans (if_neg (unnamed handle named))
  | @issue exchange handle file brings number =>
      exact (Table.find?_insert ..).trans (if_neg (unissued handle brings))
  | @release exchange handle file takes found =>
      have named := Exchange.handle?_of_closed? takes
      exact (Table.find?_erase ..).trans (if_neg (unnamed handle named))

/-- A request that brings a handle ends with handing it out. -/
theorem exists_issue_of_opened {opened : Tree} {request : Request} {reply : request.Reply}
    {handle : Handle} (answered : server.answer request tree = (reply, opened))
    (brought : Exchange.opened? ⟨request, reply⟩ = some handle) :
    ∃ (made : Tree) (path : Path) (mode : OpenMode), made.issue path mode = (handle, opened) := by
  cases request with
  | openFile text mode =>
      replace answered : tree.openAt (.ofText text) mode = (reply, opened) := answered
      unfold openAt at answered
      split at answered
      · cases answered
        cases brought
      · split at answered
        · cases answered
          cases brought
        · cases answered
          cases brought
          exact ⟨tree, .ofText text, mode, rfl⟩
  | createFile text permissions mode =>
      replace answered : tree.createAt (.ofText text) permissions mode = (reply, opened) := answered
      unfold createAt at answered
      split at answered
      · cases answered
        cases brought
      · split at answered
        · cases answered
          cases brought
        · split at answered
          · cases answered
            cases brought
          · split at answered
            · dsimp only at answered
              split at answered
              · cases answered
                cases brought
                exact ⟨_, .ofText text, mode, rfl⟩
              · cases answered
                cases brought
                exact ⟨_, .ofText text, mode, rfl⟩
            · cases answered
              cases brought
  | _ => cases brought

/-- What an open puts down: the file is at its start, with what is in a directory now. -/
theorem find?_of_opened {opened : Tree} {request : Request} {reply : request.Reply}
    {handle : Handle} (answered : server.answer request tree = (reply, opened))
    (brought : Exchange.opened? ⟨request, reply⟩ = some handle) :
    ∃ file, Table.find? handle.fid opened.openFiles = some file ∧
      (opened.hasDirectory file.path = true → file.listing = opened.listing file.path) := by
  obtain ⟨made, path, mode, issued⟩ := exists_issue_of_opened answered brought
  cases issued
  refine ⟨_, (Table.find?_insert ..).trans (if_pos rfl), ?_⟩
  intro directory
  exact if_pos directory

/-- An open file keeps everything but its offset. -/
theorem Deals.keeps {before after : Books} {exchange : Option Exchange}
    (deals : Deals before exchange after)
    (unissued : ∀ handle, exchange.bind Exchange.opened? = some handle → handle.fid ≠ fid)
    (found : Table.find? fid after.openFiles = some file) :
    ∃ earlier, Table.find? fid before.openFiles = some earlier ∧
      file = { earlier with offset := file.offset } := by
  cases deals with
  | still brings takes => exact ⟨file, found, rfl⟩
  | @seek exchange handle earlier offset brings takes named there =>
      rw [Table.find?_insert] at found
      split at found
      · next same =>
        cases found
        exact ⟨earlier, same ▸ there, rfl⟩
      · exact ⟨file, found, rfl⟩
  | @issue exchange handle other brings number =>
      rw [Table.find?_insert, if_neg (unissued handle brings)] at found
      exact ⟨file, found, rfl⟩
  | @release exchange handle other takes there =>
      rw [Table.find?_erase] at found
      split at found
      · cases found
      · exact ⟨file, found, rfl⟩

theorem after_keeps {changes : List Change} (unissued : fid ∉ issued (tree.exchanges changes))
    (found : Table.find? fid (tree.after changes).openFiles = some file) :
    ∃ earlier, Table.find? fid tree.openFiles = some earlier ∧
      file = { earlier with offset := file.offset } := by
  induction changes generalizing tree with
  | nil => exact ⟨file, found, rfl⟩
  | cons change rest ih =>
      rw [exchanges, issued_append, List.mem_append, not_or] at unissued
      obtain ⟨middle, there, same⟩ := ih unissued.2 found
      have others (handle : Handle)
          (brought : (change.exchange? tree).bind Exchange.opened? = some handle) :
          handle.fid ≠ fid := by
        rintro rfl
        apply unissued.1
        obtain ⟨exchange, asked, brings⟩ := Option.bind_eq_some_iff.mp brought
        simp [issued, opened, asked, brings]
      obtain ⟨earlier, first, kept⟩ := (change_deals change tree).keeps others there
      refine ⟨earlier, first, ?_⟩
      rw [same, kept]

end Tree

end RemoteTree
