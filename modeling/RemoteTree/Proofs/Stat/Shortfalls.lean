import RemoteTree.Proofs.Stat.Layout

/-!
# Where records lack bytes

A reading fails at the first part of a record that is not all there: its size, its body, or a
number, a length or a text of the body. What is reported of the size and the body is their place in
the message. Inside a body places are counted from its start, so they lie as many bytes too low as
the message has in front of the body.
-/

set_option autoImplicit false

namespace RemoteTree

namespace Stat

/-! ## Parts -/

/-- Some bytes of a message that are read at once: where they start and how many they are. -/
structure Part where
  start : Nat
  size : Nat
  deriving DecidableEq, Repr

namespace Part

/-- What a part lacks if the bytes it has to lie in end at a limit. -/
def shortfall (part : Part) (limit : Nat) : Shortfall :=
  ⟨part.start, part.size, limit - part.start⟩

def Exceeds (limit : Nat) (part : Part) : Prop := limit < part.start + part.size

instance (limit : Nat) : DecidablePred (Exceeds limit) :=
  fun part => inferInstanceAs (Decidable (limit < part.start + part.size))

/-- The same part where some bytes stand in front of it. -/
def behind (part : Part) (before : Nat) : Part := ⟨before + part.start, part.size⟩

end Part

inductive Field where
  | number (width : Nat)
  | text

/-- The fields of a body in their order. -/
def fields : List Field :=
  [.number 2, .number 4, .number 1, .number 4, .number 8, .number 4, .number 4, .number 4,
    .number 8, .text, .text, .text, .text]

/-- The parts of fields that start at a place. A text is a length and as many bytes. -/
def partsFrom (body : Bytes) : Nat → List Field → List Part
  | _, [] => []
  | start, .number width :: rest => ⟨start, width⟩ :: partsFrom body (start + width) rest
  | start, .text :: rest =>
      let length := Bytes.toNumber ((body.drop start).take 2)
      ⟨start, 2⟩ :: ⟨start + 2, length⟩ :: partsFrom body (start + 2 + length) rest

/-- The first of some parts that is not all there. -/
def firstLacking? (body : Bytes) (parts : List Part) : Option Part :=
  parts.find? fun part => part.Exceeds body.length

/-- The size that stands at an offset of a message. -/
def sizeAt (message : Bytes) (offset : Nat) : Nat :=
  Bytes.toNumber ((message.drop offset).take 2)

def bodyAt (message : Bytes) (offset : Nat) : Bytes :=
  (message.drop (offset + 2)).take (sizeAt message offset)

/-- What a place is counted from when it is reported. -/
inductive Origin where
  | message
  | body
  deriving DecidableEq, Repr

/-- The number of bytes in front of an origin, for a record at an offset. -/
def Origin.base (offset : Nat) : Origin → Nat
  | message => 0
  | body => offset + 2

/-- The part at which the record at an offset lacks bytes, by its place in the message, and the end
of the bytes in which it has to lie: of the message for the size and the body, and of the record for
what stands in the body. -/
inductive Lacks (message : Bytes) (offset : Nat) : Origin → Part → Nat → Prop where
  | size : message.length < offset + 2 → Lacks message offset .message ⟨offset, 2⟩ message.length
  | body : offset + 2 ≤ message.length → message.length < offset + 2 + sizeAt message offset →
      Lacks message offset .message ⟨offset + 2, sizeAt message offset⟩ message.length
  | field {part : Part} : offset + 2 + sizeAt message offset ≤ message.length →
      firstLacking? (bodyAt message offset) (partsFrom (bodyAt message offset) 0 fields) =
        some part →
      Lacks message offset .body (part.behind (offset + 2)) (offset + 2 + sizeAt message offset)

/-! ## Readings that fail -/

/-- What a reading lacks, if it fails. -/
def shortfall? {Result : Type} : Except Shortfall Result → Option Shortfall
  | .ok _ => none
  | .error shortfall => some shortfall

private theorem shortfall?_eq_some {Result : Type} {reading : Except Shortfall Result}
    {shortfall : Shortfall} :
    shortfall? reading = some shortfall ↔ reading = .error shortfall := by
  cases reading with
  | ok result => exact iff_of_false nofun nofun
  | error lacking => simp [shortfall?]

private theorem take_at (bytes : Bytes) (start count : Nat) :
    (Cursor.mk start (bytes.drop start)).take count =
      if bytes.length - start < count then
        .error ((Part.mk start count).shortfall bytes.length)
      else .ok ((bytes.drop start).take count, ⟨start + count, bytes.drop (start + count)⟩) := by
  simp only [Cursor.take, List.length_drop, List.drop_drop, Part.shortfall]

private theorem number_at (bytes : Bytes) (start width : Nat) :
    (Cursor.mk start (bytes.drop start)).number width =
      if bytes.length - start < width then
        .error ((Part.mk start width).shortfall bytes.length)
      else .ok (Bytes.toNumber ((bytes.drop start).take width),
        ⟨start + width, bytes.drop (start + width)⟩) := by
  rw [Cursor.number, take_at]
  by_cases short : bytes.length - start < width
  · rw [if_pos short, if_pos short]
  · rw [if_neg short, if_neg short]

/-- Does a reading of some parts fail at the first that is not all there, and only then? -/
def FailsAt {Result : Type} (body : Bytes) (parts : List Part)
    (reading : Except Shortfall Result) : Prop :=
  shortfall? reading = (firstLacking? body parts).map (·.shortfall body.length)

namespace FailsAt

variable {Result : Type} {body : Bytes} {parts : List Part} {start : Nat}

private theorem ok (result : Result) : FailsAt body [] (.ok result) := rfl

private theorem short {part : Part} (exceeds : part.Exceeds body.length) :
    FailsAt body (part :: parts)
      (.error (part.shortfall body.length) : Except Shortfall Result) := by
  unfold FailsAt firstLacking?
  rw [List.find?_cons_of_pos (by simpa using exceeds)]
  rfl

private theorem cons {part : Part} (within : part.start + part.size ≤ body.length)
    {reading : Except Shortfall Result} (rest : FailsAt body parts reading) :
    FailsAt body (part :: parts) reading := by
  have fits : ¬ part.Exceeds body.length := Nat.not_lt.mpr within
  unfold FailsAt firstLacking? at rest ⊢
  rw [List.find?_cons_of_neg (by simpa using fits)]
  exact rest

private theorem number {width : Nat} (some : 0 < width)
    {next : Nat × Cursor → Except Shortfall Result} (rest : start + width ≤ body.length → ∀ value,
      FailsAt body parts (next (value, ⟨start + width, body.drop (start + width)⟩))) :
    FailsAt body (⟨start, width⟩ :: parts)
      ((Cursor.mk start (body.drop start)).number width >>= next) := by
  rw [number_at]
  by_cases lacking : body.length - start < width
  · rw [if_pos lacking]
    apply short
    unfold Part.Exceeds
    dsimp only
    omega
  · have within : start + width ≤ body.length := by omega
    rw [if_neg lacking]
    exact cons within (rest within _)

private theorem text {fields : List Field} {next : String × Cursor → Except Shortfall Result}
    (rest : ∀ stop, stop ≤ body.length → ∀ value,
      FailsAt body (partsFrom body stop fields) (next (value, ⟨stop, body.drop stop⟩))) :
    FailsAt body (partsFrom body start (.text :: fields))
      ((Cursor.mk start (body.drop start)).text >>= next) := by
  rw [Cursor.text, number_at, partsFrom]
  by_cases lacking : body.length - start < 2
  · rw [if_pos lacking]
    apply short
    unfold Part.Exceeds
    dsimp only
    omega
  · have within : start + 2 ≤ body.length := by omega
    rw [if_neg lacking]
    apply cons within
    dsimp only
    rw [take_at]
    -- The length is there, so the text starts within the body.
    generalize Bytes.toNumber ((body.drop start).take 2) = length
    by_cases beyond : body.length - (start + 2) < length
    · rw [if_pos beyond]
      apply short
      unfold Part.Exceeds
      dsimp only
      omega
    · have whole : start + 2 + length ≤ body.length := by omega
      rw [if_neg beyond]
      exact cons whole (rest _ whole _)

end FailsAt

/-- A body is read up to the first of its parts that is not all there. -/
theorem decodeBody_failsAt (body : Bytes) :
    FailsAt body (partsFrom body 0 fields) (decodeBody body) := by
  change FailsAt body _ ((Cursor.mk 0 (body.drop 0)).number 2 >>= _)
  refine FailsAt.number (by decide) fun _ type => ?_
  refine FailsAt.number (by decide) fun _ device => ?_
  refine FailsAt.number (by decide) fun _ kind => ?_
  refine FailsAt.number (by decide) fun _ version => ?_
  refine FailsAt.number (by decide) fun _ path => ?_
  refine FailsAt.number (by decide) fun _ mode => ?_
  refine FailsAt.number (by decide) fun _ accessTime => ?_
  refine FailsAt.number (by decide) fun _ changeTime => ?_
  refine FailsAt.number (by decide) fun _ length => ?_
  refine FailsAt.text fun _ _ name => ?_
  refine FailsAt.text fun _ _ owner => ?_
  refine FailsAt.text fun _ _ group => ?_
  exact FailsAt.text fun _ _ changedBy => .ok _

private theorem decodeBody_eq_error_iff (body : Bytes) (shortfall : Shortfall) :
    decodeBody body = .error shortfall ↔
      ∃ part, firstLacking? body (partsFrom body 0 fields) = some part ∧
        shortfall = part.shortfall body.length := by
  rw [← shortfall?_eq_some, decodeBody_failsAt body, Option.map_eq_some_iff]
  simp only [eq_comm]

/-! ## Records that lack bytes -/

private theorem decodeAt_eq (message : Bytes) (offset : Nat) :
    decodeAt message offset =
      if message.length < offset + 2 then
        .error ((Part.mk offset 2).shortfall message.length)
      else if message.length < offset + 2 + sizeAt message offset then
        .error ((Part.mk (offset + 2) (sizeAt message offset)).shortfall message.length)
      else (decodeBody (bodyAt message offset)).map fun stat =>
        (stat, offset + 2 + sizeAt message offset) := by
  unfold decodeAt decodeNext Cursor.at? bodyAt sizeAt
  have read := number_at message offset 2
  by_cases short : message.length < offset + 2
  · rw [if_pos (by omega)] at read
    rw [if_pos short, read]
    rfl
  · rw [if_neg (by omega)] at read
    rw [if_neg short, read]
    generalize Bytes.toNumber ((message.drop offset).take 2) = size
    have taken := take_at message (offset + 2) size
    by_cases cut : message.length < offset + 2 + size
    · rw [if_pos (by omega)] at taken
      rw [if_pos cut]
      simp only [bind, Except.bind, taken]
    · rw [if_neg (by omega)] at taken
      rw [if_neg cut]
      simp only [bind, Except.bind, taken]
      cases decodeBody ((message.drop (offset + 2)).take size) with
      | ok stat => rfl
      | error shortfall => rfl

private theorem length_bodyAt {message : Bytes} {offset : Nat}
    (whole : offset + 2 + sizeAt message offset ≤ message.length) :
    (bodyAt message offset).length = sizeAt message offset := by
  rw [bodyAt, List.length_take, List.length_drop]
  omega

private theorem firstLacking?_cons {body : Bytes} {part lacking : Part} {parts : List Part}
    (found : firstLacking? body (part :: parts) = some lacking) :
    body.length < part.start + part.size ∧ part = lacking ∨
      part.start + part.size ≤ body.length ∧ firstLacking? body parts = some lacking := by
  cases List.find?_cons_eq_some.mp found with
  | inl here => exact .inl ⟨of_decide_eq_true here.1, here.2⟩
  | inr later =>
    have fits : ¬ part.Exceeds body.length := by simpa using later.1
    exact .inr ⟨Nat.not_lt.mp fits, later.2⟩

/-- Where bytes are lacking, the parts in front are all there. -/
theorem start_of_firstLacking? {body : Bytes} {lacking : Part} (fields : List Field) :
    ∀ start, start ≤ body.length →
      firstLacking? body (partsFrom body start fields) = some lacking →
      lacking.start ≤ body.length ∧ body.length < lacking.start + lacking.size := by
  induction fields with
  | nil => intro start _ found; cases found
  | cons field rest ih =>
    intro start within found
    cases field with
    | number width =>
      obtain ⟨exceeds, rfl⟩ | ⟨fits, later⟩ := firstLacking?_cons found
      · exact ⟨within, exceeds⟩
      · exact ih _ fits later
    | text =>
      obtain ⟨exceeds, rfl⟩ | ⟨lengthFits, afterLength⟩ := firstLacking?_cons found
      · exact ⟨within, exceeds⟩
      obtain ⟨exceeds, rfl⟩ | ⟨fits, later⟩ := firstLacking?_cons afterLength
      · exact ⟨lengthFits, exceeds⟩
      · exact ih _ fits later

namespace Lacks

variable {message : Bytes} {offset : Nat} {origin : Origin} {part : Part} {limit : Nat}

private theorem bounds (lacks : Lacks message offset origin part limit) :
    offset ≤ part.start ∧ limit - part.start < part.size ∧
      (offset ≤ message.length → part.start ≤ limit) := by
  cases lacks with
  | size short => exact ⟨Nat.le_refl _, by dsimp only; omega, id⟩
  | body _ short => exact ⟨Nat.le_add_right _ _, by dsimp only; omega, fun _ => by assumption⟩
  | field whole found =>
    obtain ⟨within, beyond⟩ := start_of_firstLacking? fields 0 (Nat.zero_le _) found
    rw [length_bodyAt whole] at within beyond
    unfold Part.behind
    dsimp only
    omega

private theorem base_le (lacks : Lacks message offset origin part limit) :
    origin.base offset ≤ part.start := by
  cases lacks with
  | size => exact Nat.zero_le _
  | body => exact Nat.zero_le _
  | field => exact Nat.le_add_right _ _

/-- What lacks bytes is reported, by its place behind the origin. -/
theorem reported (lacks : Lacks message offset origin part limit) :
    decodeAt message offset =
      .error ⟨part.start - origin.base offset, part.size, limit - part.start⟩ := by
  rw [decodeAt_eq]
  cases lacks with
  | size short => rw [if_pos short]; rfl
  | body there short =>
    rw [if_neg (Nat.not_lt.mpr there), if_pos short]
    rfl
  | @field part whole found =>
    rw [if_neg (by omega), if_neg (Nat.not_lt.mpr whole),
      (decodeBody_eq_error_iff _ _).mpr ⟨part, found, rfl⟩]
    unfold Part.shortfall Part.behind Origin.base
    rw [length_bodyAt whole]
    simp only [Except.map, Nat.add_sub_cancel_left, Nat.add_sub_add_left]

end Lacks

/-- A reading fails only where bytes are lacking. -/
theorem lacks_of_decodeAt {message : Bytes} {offset : Nat} {shortfall : Shortfall}
    (failed : decodeAt message offset = .error shortfall) :
    ∃ origin part limit, Lacks message offset origin part limit := by
  by_cases noSize : message.length < offset + 2
  · exact ⟨_, _, _, .size noSize⟩
  by_cases noBody : message.length < offset + 2 + sizeAt message offset
  · exact ⟨_, _, _, .body (Nat.not_lt.mp noSize) noBody⟩
  rw [decodeAt_eq, if_neg noSize, if_neg noBody] at failed
  cases decoded : decodeBody (bodyAt message offset) with
  | ok stat => rw [decoded] at failed; cases failed
  | error lacking =>
    obtain ⟨part, found, _⟩ := (decodeBody_eq_error_iff _ _).mp decoded
    exact ⟨_, _, _, .field (Nat.not_lt.mp noBody) found⟩

/-- A reading fails exactly if the size, the body or a field of the record is not all there, and
reports the number of bytes it needs and the smaller number that is left for them. The place it
reports is that in the message for the size and the body, and only for them. -/
theorem decodeAt_fails_at_part (message : Bytes) (offset : Nat) :
    (∀ shortfall, decodeAt message offset = .error shortfall ↔
      ∃ origin part limit, Lacks message offset origin part limit ∧
        shortfall = ⟨part.start - origin.base offset, part.size, limit - part.start⟩) ∧
    ∀ origin part limit, Lacks message offset origin part limit →
      offset ≤ part.start ∧ limit - part.start < part.size ∧
      (offset ≤ message.length → part.start ≤ limit) ∧
      (decodeAt message offset = .error (part.shortfall limit) ↔ origin = .message) := by
  refine ⟨fun shortfall => ⟨fun failed => ?_, ?_⟩, fun origin part limit lacks => ?_⟩
  · obtain ⟨origin, part, limit, lacks⟩ := lacks_of_decodeAt failed
    refine ⟨origin, part, limit, lacks, ?_⟩
    rw [lacks.reported] at failed
    injection failed with same
    exact same.symm
  · rintro ⟨origin, part, limit, lacks, rfl⟩
    exact lacks.reported
  · obtain ⟨behind, needed, within⟩ := lacks.bounds
    refine ⟨behind, needed, within, ?_⟩
    have base := lacks.base_le
    rw [lacks.reported, Part.shortfall]
    cases origin with
    | message => simp [Origin.base]
    | body =>
      simp only [Origin.base] at base ⊢
      simp only [Except.error.injEq, Shortfall.mk.injEq, and_true, reduceCtorEq, iff_false]
      omega

theorem decodeAt_fails_in_body :
    let message : Bytes := [9, 9, 9, 1, 0, 0]
    Lacks message 3 .body ⟨5, 2⟩ 6 ∧ decodeAt message 3 = .error ⟨0, 2, 1⟩ ∧
      decodeAt message 3 ≠ .error ((Part.mk 5 2).shortfall 6) := by
  have lacks : Lacks [9, 9, 9, 1, 0, 0] 3 .body ((Part.mk 0 2).behind 5) 6 :=
    .field (by decide) (by decide)
  exact ⟨lacks, by decide, by decide⟩

end Stat

end RemoteTree
