/-
This file models the reading of a reply as it arrives, `_streamed_result` and
`_failure_body`, and says exactly which replies it reads.

Under a 200 the reply is an object whose members the reader takes one by one: it keeps
those of the envelope, hands the stream to the caller's walk at `result`, and skips the
others. What the loop comes to over the members of an object is one relation, and the
two halves of the file meet at it: a run that succeeds read an object that the relation
holds of, and an object the relation holds of is read. The walk is a parameter of both,
with what it has to be known for.
-/

import BitcoinCoreRpc.StreamMethods

namespace BitcoinCoreRpc

open JsonText Steps

/-! ### The reader -/

/-- `_STREAM_ENVELOPE` -/
def streamEnvelope : List Str :=
  [str "jsonrpc", str "id", str "error"]

/-- The loop of `_failure_body`: a round that goes on has read an octet more. -/
def failureLoop : Nat → Bytes → List Arrival → Except Exc Bytes
  | 0, body, _ => .ok body
  | fuel + 1, body, source =>
    if maxErrorBodySize ≤ body.length then .ok body
    else
      match read1 (maxErrorBodySize - body.length) source with
      | (.error e, _) => if e.isFetchError then .ok [] else .error e
      | (.ok [], _) => .ok body
      | (.ok chunk, rest) => failureLoop fuel (body ++ chunk) rest

/-- `_failure_body` -/
def failureBody (source : List Arrival) : Except Exc Bytes :=
  failureLoop maxErrorBodySize [] source

/-- `kept` of `_streamed_result`, with what the walk answered beside it: under `result` stands
`None` for the answer, which `_discriminate` returns and never looks at. -/
structure Kept (α : Type) where
  members : Dict
  answer : Option α

section Reader

variable {α : Type} (py : Interpreter) (where_ : Str) (walk : StreamStep α) (maxBodySize : Int)

/-- `read(0)` -/
def readNothing : StreamStep Unit := fun stream =>
  match read1 0 stream.source with
  | (.error e, rest) => (.error e, { stream with source := rest })
  | (.ok _, rest) => (.ok (), { stream with source := rest })

/-- The `result` member: the walk reads it, and has to have read the whole of it. -/
def walked : StreamStep α := do
  let _ ← peek where_
  let start ← read
  let answer ← walk
  readNothing
  let stopped ← read
  if stopped.open_ ≠ start.open_ ∨ stopped.position = start.position then
    fail (refusal where_ (str "the walk did not read the whole result"))
  else return answer

/-- A member of the reply, past its name. -/
def member (found : Option Str) (kept : Kept α) : StreamStep (Kept α) :=
  match found with
  | none => do
    skip py where_
    return kept
  | some name =>
    if kept.members.has name then
      fail (refusal where_ (str "a reply with " ++ py.repr (.string name) ++ str " given twice"))
    else if name = str "result" then do
      let answer ← walked where_ walk
      return { members := kept.members.set name .null, answer := some answer }
    else if streamEnvelope.contains name then do
      let json ← value py where_ maxBodySize
      return { kept with members := kept.members.set name json }
    else do
      skip py where_
      return kept

/-- The loop of `_streamed_result`: a round that goes on consumed a comma. -/
def memberLoop : Nat → Option (Option Str) → Kept α → StreamStep (Kept α)
  | _, none, kept => return kept
  | 0, some _, _ => fail outOfRounds
  | fuel + 1, some found, kept => do
    let kept ← member py where_ walk maxBodySize found kept
    memberLoop fuel (← resume py where_ .object) kept

/-- A reply, read to its end. -/
def readReply : StreamStep (Kept α) := do
  let first ← enter py where_ .object
  let kept ← memberLoop py where_ walk maxBodySize (← read).rounds first ⟨[], none⟩
  end_ where_
  return kept

/-- What `_discriminate` says of the members kept, the walk's answer standing for `result`. -/
def concluded (requestId : Str) (kept : Kept α) : Except Exc α := do
  let _ ← discriminate py where_ requestId 200 kept.members
  match kept.answer with
  | some answer => return answer
  | none => .error (.keyError (str "result"))

/-- `_streamed_result`. What it returns is the walk's answer; under a status other than 200 it would
be what `_discriminate` returned. -/
def streamedResult (requestId : Str) (status : Nat) (source : List Arrival) :
    Except Exc (Json ⊕ α) :=
  if status ≠ 200 then do
    let body ← failureBody source
    let reply ← replyObject (loads py) where_ status body
    let answer ← discriminate py where_ requestId status reply
    return .inl answer
  else
    match readReply py where_ walk maxBodySize (Stream.new source) with
    | (.error e, _) => .error e
    | (.ok kept, _) => (concluded py where_ requestId kept).map .inr

end Reader

/-! ### What the loop comes to -/

section Collecting

variable {α : Type} (py : Interpreter) (maxBodySize : Int) (reads : Value → α → Prop)

/-- A value `skip` consumes. -/
def Skipped (value : Value) : Prop :=
  value.Numbers (Streams py) ∧ value.depth ≤ maxStreamDepth

/-- A value `value` answers under a limit. -/
def KeptAs (limit : Int) (value : Value) (json : Json) : Prop :=
  Skipped py value ∧ (value.text.length : Int) ≤ limit ∧ keptValue py value.text = .ok json

/-- The members of an object, one after another, take what the reader kept to what it keeps. -/
inductive Collects : Kept α → List (Head .object × Value) → Kept α → Prop
  | nil (kept : Kept α) : Collects kept [] kept
  | result {kept final : Kept α} {head : Head .object} {value : Value} {answer : α}
    {slots : List (Head .object × Value)} (named : NameIs py head.pieces (some (str "result")))
    (fresh : kept.members.has (str "result") = false) (read : reads value answer)
    (rest : Collects ⟨kept.members.set (str "result") .null, some answer⟩ slots final) :
    Collects kept ((head, value) :: slots) final
  | envelope {kept final : Kept α} {head : Head .object} {value : Value} {name : Str} {json : Json}
    {slots : List (Head .object × Value)} (named : NameIs py head.pieces (some name))
    (member : name ∈ streamEnvelope) (fresh : kept.members.has name = false)
    (kept_ : KeptAs py maxBodySize value json)
    (rest : Collects ⟨kept.members.set name json, kept.answer⟩ slots final) :
    Collects kept ((head, value) :: slots) final
  | other {kept final : Kept α} {head : Head .object} {value : Value} {found : Option Str}
    {slots : List (Head .object × Value)} (named : NameIs py head.pieces found)
    (unasked : ∀ name ∈ found, kept.members.has name = false ∧ name ≠ str "result" ∧
      name ∉ streamEnvelope) (skipped : Skipped py value) (rest : Collects kept slots final) :
    Collects kept ((head, value) :: slots) final

end Collecting

section Reading

variable {α : Type} {py : Interpreter} {where_ : Str} {walk : StreamStep α} {maxBodySize : Int}
  {reads : Value → α → Prop} {stream after : Stream}

/-! ### A reply that was read -/

/-- Everything there was to read was consumed. -/
def Exhausts (stream after : Stream) : Prop :=
  ∃ text, Stream.Passes stream text after ∧ after.unread = []

/-- A walk that answers, and leaves the stream as far into the containers of the reply as it found
it and elsewhere, read a value, and maybe white space behind it, or all there was to read. -/
def WalkReads (walk : StreamStep α) (reads : Value → α → Prop) : Prop :=
  ∀ ⦃start after : Stream⦄ ⦃answer : α⦄, start.Sane → start.kept = none → NoBlank start.unread →
    walk start = (.ok answer, after) → after.open_ = start.open_ →
    after.position ≠ start.position → Exhausts start after ∨ ∃ (value : Value) (trail : Blank),
      Stream.Passes start (value.text ++ trail.codes) after ∧ reads value answer

/-- A read of nothing leaves a stream where it was. -/
theorem readNothing_still (ran : readNothing stream = (.ok (), after)) :
    after.position = stream.position ∧ after.open_ = stream.open_ ∧ after.unread = stream.unread := by
  unfold readNothing at ran
  split at ran
  · cases ran
  · next chunk rest received =>
    obtain ⟨front, size, _⟩ := read1_eq_octets received
    obtain rfl := List.length_eq_zero_iff.mp (Nat.le_zero.mp size)
    cases ran
    refine ⟨rfl, rfl, ?_⟩
    rw [Stream.unread, Stream.unread, front]
    rfl

theorem readNothing_eq_ok (sane : stream.Sane) (ran : readNothing stream = (.ok (), after)) :
    Stream.Passes stream [] after := by
  have still := readNothing_still ran
  unfold readNothing at ran
  split at ran
  · cases ran
  · next chunk rest received =>
    obtain ⟨front, size, complete⟩ := read1_eq_octets received
    obtain rfl := List.length_eq_zero_iff.mp (Nat.le_zero.mp size)
    cases ran
    have refl := Stream.Consumes.refl sane
    have same : contents stream.source = contents rest := front
    refine ⟨⟨still.2.2.symm, rfl, refl.kept, fun _ => ⟨rfl, rfl⟩, refl.room,
      ⟨fun ended => ?_, sane.kept⟩, by rw [same], complete, by rw [same]⟩, rfl⟩
    obtain ⟨nothing, start⟩ := sane.ended ended
    rw [nothing] at received
    cases received
    exact ⟨rfl, start⟩

/-- A walk that passed the check behind it read the whole of a value. -/
theorem walked_eq_ok (spec : WalkReads walk reads) {answer : α} (sane : stream.Sane)
    (unkept : stream.kept = none) (ran : walked where_ walk stream = (.ok answer, after)) :
    Exhausts stream after ∨ ∃ (lead trail : Blank) (value : Value),
      Stream.Passes stream (lead.codes ++ value.text ++ trail.codes) after ∧ reads value answer := by
  obtain ⟨octet, start, peeks, ran⟩ := seq_eq_ok ran
  obtain ⟨lead, rest, blank, here, solid⟩ := nextOctet_eq_ok sane peeks
  obtain ⟨_, _, ⟨⟩, ran⟩ := seq_eq_ok ran
  obtain ⟨answered, stopped, walks, ran⟩ := seq_eq_ok ran
  obtain ⟨_, last, nothing, ran⟩ := seq_eq_ok ran
  obtain ⟨_, _, ⟨⟩, ran⟩ := seq_eq_ok ran
  split_ifs at ran with left
  · cases ran
  cases ran
  obtain ⟨position, open_, unread⟩ := readNothing_still nothing
  rw [not_or, not_not, open_, position] at left
  have begins : NoBlank start.unread := by
    rw [Stream.unread, here]
    exact noBlank_cons solid
  rcases spec blank.sane (blank.kept_none unkept) begins walks left.1 left.2 with
    ⟨text, consumed, nothing_left⟩ | ⟨value, trail, consumed, isRead⟩
  · have all := (blank.trans consumed).trans (readNothing_eq_ok consumed.sane nothing)
    exact .inl ⟨_, all, unread.trans nothing_left⟩
  · have all := (blank.trans consumed).trans (readNothing_eq_ok consumed.sane nothing)
    rw [List.append_nil, ← List.append_assoc] at all
    exact .inr ⟨lead, trail, value, all, isRead⟩

/-- One round of the loop: a value was consumed, and what the reader kept is one member on. -/
def Round (py : Interpreter) (maxBodySize : Int) (reads : Value → α → Prop) (found : Option Str)
    (kept kept' : Kept α) (stream after : Stream) : Prop :=
  ∃ (lead trail : Blank) (value : Value),
    Stream.Passes stream (lead.codes ++ value.text ++ trail.codes) after ∧
    ∀ (head : Head .object) (slots : List (Head .object × Value)) (final : Kept α),
      NameIs py head.pieces found → Collects py maxBodySize reads kept' slots final →
        Collects py maxBodySize reads kept ((head, value) :: slots) final

theorem round_of_skip {found : Option Str} {kept kept' : Kept α} (sane : stream.Sane)
    (unasked : ∀ name ∈ found, kept.members.has name = false ∧ name ≠ str "result" ∧
      name ∉ streamEnvelope)
    (ran : (do skip py where_; return kept : StreamStep (Kept α)) stream = (.ok kept', after)) :
    Round py maxBodySize reads found kept kept' stream after := by
  obtain ⟨_, skipped, skips, done⟩ := seq_eq_ok ran
  cases done
  obtain ⟨lead, value, consumed, numbers, shallow⟩ := skip_eq_ok sane skips
  refine ⟨lead, .none, value, by simpa [Blank.none] using consumed, ?_⟩
  exact fun _ _ _ named rest => .other named unasked ⟨numbers, shallow⟩ rest

theorem member_eq_ok (spec : WalkReads walk reads) {found : Option Str} {kept kept' : Kept α}
    (sane : stream.Sane) (unkept : stream.kept = none)
    (ran : member py where_ walk maxBodySize found kept stream = (.ok kept', after)) :
    Exhausts stream after ∨ Round py maxBodySize reads found kept kept' stream after := by
  cases found with
  | none => exact .inr (round_of_skip sane nofun ran)
  | some name =>
    rw [member] at ran
    split_ifs at ran with twice isResult isEnvelope
    · cases ran
    · subst isResult
      obtain ⟨answer, last, walks, ran⟩ := seq_eq_ok ran
      cases ran
      rcases walked_eq_ok spec sane unkept walks with exhausts | ⟨lead, trail, value, consumed, read⟩
      · exact .inl exhausts
      · exact .inr ⟨lead, trail, value, consumed,
          fun _ _ _ named rest => .result named (by simpa using twice) read rest⟩
    · obtain ⟨json, last, values, ran⟩ := seq_eq_ok ran
      cases ran
      obtain ⟨lead, value, consumed, numbers, shallow, fits, built⟩ := value_eq_ok sane unkept values
      refine .inr ⟨lead, .none, value, by simpa [Blank.none] using consumed, ?_⟩
      exact fun _ _ _ named rest => .envelope named (List.contains_iff_mem.mp isEnvelope)
        (by simpa using twice) ⟨⟨numbers, shallow⟩, fits, built⟩ rest
    · refine .inr (round_of_skip sane ?_ ran)
      rintro _ ⟨⟩
      exact ⟨by simpa using twice, isResult, isEnvelope ∘ List.contains_iff_mem.mpr⟩

/-- The loop consumed the rest of an object, from behind a name of it to behind its end. -/
theorem memberLoop_eq_ok (spec : WalkReads walk reads) {fuel : Nat} {found : Option Str}
    {kept final : Kept α} (sane : stream.Sane) (unkept : stream.kept = none)
    (ran : memberLoop py where_ walk maxBodySize fuel (some found) kept stream =
      (.ok final, after)) :
    ∃ (lead : Blank) (value : Value) (tail : Tail .object),
      Stream.Consumes stream (lead.codes ++ value.text ++ tail.text) after ∧
      ∀ head : Head .object, NameIs py head.pieces found →
        Collects py maxBodySize reads kept ((head, value) :: tail.slots) final := by
  induction fuel generalizing stream found kept with
  | zero => cases ran
  | succ fuel inductionHypothesis =>
    obtain ⟨kept', between, members, ran⟩ := seq_eq_ok ran
    obtain ⟨next, resumed, resumes, ran⟩ := seq_eq_ok ran
    rcases member_eq_ok spec sane unkept members with ⟨_, exhausted, nothing⟩ |
      ⟨lead, trail, value, consumed, collects⟩
    · rcases resume_eq_ok exhausted.sane (exhausted.kept_none unkept) resumes with
        ⟨_, pad, left, _⟩ | ⟨_, pad, taken, _, goes, _⟩
      · simpa [nothing] using left.unread
      · simpa [nothing] using goes.unread
    · have unkept' := consumed.kept_none unkept
      rcases resume_eq_ok consumed.sane unkept' resumes with
        ⟨rfl, pad, left, _⟩ | ⟨yielded, pad, taken, rfl, goes, yields⟩
      · cases fuel <;> cases ran <;>
          refine ⟨lead, value, .close (trail.append pad), ?_, fun head named =>
            collects head [] _ named (.nil _)⟩ <;>
          · have all := consumed.toConsumes.trans left
            simpa [Tail.text, Blank.append] using all
      · obtain ⟨lead', value', tail, rest, collected⟩ :=
          inductionHypothesis goes.sane (goes.kept_none unkept') ran
        cases taken with | member front pieces gap =>
        refine ⟨lead, value, .more (trail.append pad) (.member front pieces gap lead') value' tail, ?_,
          fun head named => collects head _ _ named (collected _ yields)⟩
        have all := (consumed.toConsumes.trans goes.toConsumes).trans rest
        simpa [Tail.text, Head.text, Entry.text, Blank.append] using all

/-- A reply that was read is an object, UTF-8, whose members collect to what the reader kept. -/
theorem readReply_eq_ok (spec : WalkReads walk reads) {final : Kept α} (sane : stream.Sane)
    (unkept : stream.kept = none)
    (ran : readReply py where_ walk maxBodySize stream = (.ok final, after)) :
    ∃ (lead trail : Blank) (object : Value),
      stream.unread = lead.codes ++ object.text ++ trail.codes ∧ object.IsObject ∧
      Collects py maxBodySize reads ⟨[], none⟩ object.members final ∧
        Utf8.Accepts stream.utf8 (contents stream.source) := by
  obtain ⟨first, entered, enters, ran⟩ := seq_eq_ok ran
  obtain ⟨_, _, ⟨⟩, ran⟩ := seq_eq_ok ran
  obtain ⟨kept, looped, loops, ran⟩ := seq_eq_ok ran
  obtain ⟨_, last, ends, ran⟩ := seq_eq_ok ran
  cases ran
  have body (text : Bytes) (consumed : Stream.Consumes stream text looped) :
      ∃ trail : Blank, stream.unread = text ++ trail.codes ∧
        Utf8.Accepts stream.utf8 (contents stream.source) := by
    obtain ⟨trail, blank, nothing, source, start⟩ := end_eq_ok consumed.sane ends
    refine ⟨trail, ?_, ?_⟩
    · rw [consumed.unread, blank.unread, nothing, List.append_nil]
    · rw [consumed.accepts, blank.accepts, source, start]
      exact Utf8.accepts_nil.mpr rfl
  rcases enter_eq_ok sane unkept enters with
    ⟨rfl, lead, inner, empty⟩ | ⟨yielded, lead, inner, taken, rfl, opened, _, yields⟩
  · have same : final = ⟨[], none⟩ ∧ entered = looped := by
      unfold memberLoop at loops
      cases loops
      exact ⟨rfl, rfl⟩
    obtain ⟨rfl, rfl⟩ := same
    obtain ⟨trail, whole, accepts⟩ := body _ empty.toConsumes
    exact ⟨lead, trail, .empty .object inner, whole, trivial, .nil _, accepts⟩
  · obtain ⟨lead', value, tail, rest, collects⟩ :=
      memberLoop_eq_ok spec opened.sane (opened.kept_none unkept) loops
    obtain ⟨trail, whole, accepts⟩ := body _ (opened.trans rest)
    cases taken with | member front pieces gap =>
    refine ⟨lead, trail, .full .object (.member (inner.append front) pieces gap lead') value tail, ?_,
      trivial, collects _ yields, accepts⟩
    simpa [Value.text, Head.text, Entry.text, Blank.append] using whole

/-! ### A reply that can be read -/

/-- A walk that stands before a value answers it, and is behind it then. -/
def WalkAnswers (walk : StreamStep α) (reads : Value → α → Prop) : Prop :=
  ∀ ⦃start : Stream⦄ ⦃value : Value⦄ ⦃answer : α⦄ ⦃rest : Bytes⦄, start.Stands value.text rest →
    start.kept = none → Delimits rest → reads value answer →
      ∃ after, walk start = (.ok answer, after) ∧ Stream.Passes start value.text after

theorem readNothing_isOk (complete : Complete stream.source) :
    ∃ after, readNothing stream = (.ok (), after) := by
  unfold readNothing
  split
  · next failed => exact absurd failed (complete_not_error complete)
  · exact ⟨_, rfl⟩

theorem nameIs_unique {pieces : List Piece} {first second : Option Str}
    (named : NameIs py pieces first) (other : NameIs py pieces second) : first = second := by
  have same := (keptName_eq_ok.mpr named).symm.trans (keptName_eq_ok.mpr other)
  exact Except.ok.inj same

theorem walked_of_stands (spec : WalkAnswers walk reads) {lead : Blank} {value : Value} {answer : α}
    {rest : Bytes} (stands : stream.Stands (lead.codes ++ value.text) rest)
    (unkept : stream.kept = none) (delimits : Delimits rest) (isRead : reads value answer) :
    ∃ after, walked where_ walk stream = (.ok answer, after) ∧
      Stream.Passes stream (lead.codes ++ value.text) after := by
  obtain ⟨code, more, text, begins⟩ := value.text_eq_cons
  obtain ⟨start, _, peeks, blank, _⟩ := @nextOctet_of_stands where_ stream lead code (more ++ rest)
    (by simpa [text] using stands.front) begins.ne.1
  obtain ⟨stopped, walks, consumed⟩ :=
    spec (blank.stands stands) (blank.kept_none unkept) delimits isRead
  have fed := (consumed.stands (show start.Stands (value.text ++ []) rest by
    simpa using blank.stands stands)).fed
  obtain ⟨last, nothing⟩ := readNothing_isOk fed.complete
  have still := readNothing_eq_ok consumed.sane nothing
  have all := (blank.trans consumed).trans still
  rw [List.append_nil] at all
  refine ⟨last, ?_, all⟩
  rw [walked, peek, seq_of_ok peeks, seq_read, seq_of_ok walks, seq_of_ok nothing, seq_read]
  refine branch_of_not ?_
  rw [still.open_, consumed.open_, still.position, consumed.position]
  have positive := value.text_pos
  simp only [List.length_nil]
  omega

/-- The loop takes the member it is at, as the members collect. -/
theorem member_of_stands (spec : WalkAnswers walk reads) {lead : Blank} {head : Head .object}
    {value : Value} {slots : List (Head .object × Value)} {found : Option Str} {kept final : Kept α}
    {rest : Bytes} (stands : stream.Stands (lead.codes ++ value.text) rest)
    (unkept : stream.kept = none) (delimits : Delimits rest) (named : NameIs py head.pieces found)
    (collects : Collects py maxBodySize reads kept ((head, value) :: slots) final) :
    ∃ kept' after, member py where_ walk maxBodySize found kept stream = (.ok kept', after) ∧
      Stream.Passes stream (lead.codes ++ value.text) after ∧
        Collects py maxBodySize reads kept' slots final := by
  cases collects with
  | result named' fresh isRead others =>
    obtain rfl := nameIs_unique named named'
    obtain ⟨after, walks, consumed⟩ := walked_of_stands spec stands unkept delimits isRead
    refine ⟨_, after, ?_, consumed, others⟩
    rw [member, fresh, if_neg Bool.false_ne_true, if_pos rfl, seq_of_ok walks]
    rfl
  | @envelope _ _ _ _ name json _ named' isEnvelope fresh isKept others =>
    obtain rfl := nameIs_unique named named'
    obtain ⟨⟨numbers, shallow⟩, fits, built⟩ := isKept
    obtain ⟨after, values, consumed⟩ :=
      @value_of_stands py where_ stream maxBodySize lead value json rest stands unkept numbers
        delimits shallow fits built
    have other : name ≠ str "result" := by
      rintro rfl
      exact absurd isEnvelope (by decide)
    refine ⟨_, after, ?_, consumed, others⟩
    rw [member, fresh, if_neg Bool.false_ne_true, if_neg other,
      if_pos (List.contains_iff_mem.mpr isEnvelope), seq_of_ok values]
    rfl
  | other named' unasked skipped others =>
    obtain rfl := nameIs_unique named named'
    obtain ⟨after, skips, consumed⟩ :=
      @skip_of_stands py where_ stream lead value rest stands skipped.1
        (value.longest_of_delimits delimits) skipped.2
    refine ⟨kept, after, ?_, consumed, others⟩
    cases found with
    | none =>
      rw [member, seq_of_ok skips]
      rfl
    | some name =>
      obtain ⟨fresh, notResult, notEnvelope⟩ := unasked name rfl
      rw [member, fresh, if_neg Bool.false_ne_true, if_neg notResult,
        if_neg (notEnvelope ∘ List.contains_iff_mem.mp), seq_of_ok skips]
      rfl

theorem Collects.exists_name {head : Head .object} {value : Value}
    {slots : List (Head .object × Value)} {kept final : Kept α}
    (collects : Collects py maxBodySize reads kept ((head, value) :: slots) final) :
    ∃ found, NameIs py head.pieces found := by
  cases collects with
  | result named _ _ _ => exact ⟨_, named⟩
  | envelope named _ _ _ _ => exact ⟨_, named⟩
  | other named _ _ _ => exact ⟨_, named⟩

/-- The loop reads the members of an object, as they collect. -/
theorem memberLoop_of_stands (spec : WalkAnswers walk reads) : (tail : Tail .object) →
    ∀ {stream : Stream} {lead : Blank} {head : Head .object} {value : Value} {found : Option Str}
      {kept final : Kept α} {fuel : Nat} {rest : Bytes},
      stream.Stands (lead.codes ++ value.text ++ tail.text) rest → stream.kept = none →
      NameIs py head.pieces found →
      Collects py maxBodySize reads kept ((head, value) :: tail.slots) final →
      tail.text.length ≤ fuel →
      ∃ after, memberLoop py where_ walk maxBodySize fuel (some found) kept stream =
          (.ok final, after) ∧
        Stream.Consumes stream (lead.codes ++ value.text ++ tail.text) after
  | .close pad, stream, lead, head, value, found, kept, final, fuel, rest, stands, unkept, named,
    collects, enough => by
    obtain ⟨fuel, rfl⟩ : ∃ rounds, fuel = rounds + 1 :=
      Nat.exists_eq_succ_of_ne_zero (by simp [Tail.text] at enough; omega)
    obtain ⟨kept', between, members, consumed, others⟩ := member_of_stands spec stands.front unkept
      (delimits_tail (.close pad) rest) named collects
    obtain ⟨after, resumes, closed⟩ := @resume_of_close py where_ between .object pad rest
      (consumed.stands stands)
    cases others
    refine ⟨after, ?_, consumed.toConsumes.trans closed⟩
    rw [memberLoop, seq_of_ok members, seq_of_ok resumes]
    cases fuel <;> rfl
  | .more pad (.member front pieces gap lead') value' tail, stream, lead, head, value, found, kept,
    final, fuel, rest, stands, unkept, named, collects, enough => by
    obtain ⟨fuel, rfl⟩ : ∃ rounds, fuel = rounds + 1 :=
      Nat.exists_eq_succ_of_ne_zero (by simp [Tail.text] at enough; omega)
    obtain ⟨kept', between, members, consumed, others⟩ := member_of_stands spec stands.front unkept
      (delimits_tail (.more pad (.member front pieces gap lead') value' tail) rest) named collects
    obtain ⟨found', named'⟩ := others.exists_name
    have texts : (Tail.more pad (.member front pieces gap lead') value' tail).text =
        pad.codes ++ 0x2C :: (Entry.member front pieces gap).text ++
          (lead'.codes ++ value'.text ++ tail.text) := by
      simp [Tail.text, Head.text, Entry.text]
    rw [texts] at stands ⊢
    have stands' := consumed.stands stands
    have unkept' := consumed.kept_none unkept
    obtain ⟨resumed, resumes, goes⟩ := @resume_of_more py where_ between .object pad
      (.member front pieces gap) found' _ unkept' named' stands'.front
    have shorter := congrArg List.length texts
    simp only [List.length_append, List.length_cons] at shorter
    obtain ⟨after, loops, others_⟩ := memberLoop_of_stands spec tail (goes.stands stands')
      (goes.kept_none unkept') named' others (show tail.text.length ≤ fuel by omega)
    refine ⟨after, ?_, consumed.toConsumes.trans (goes.toConsumes.trans others_)⟩
    rw [memberLoop, seq_of_ok members, seq_of_ok resumes]
    exact loops

/-- An object whose members collect is read. -/
theorem readReply_of_collects (spec : WalkAnswers walk reads) {lead trail : Blank} {object : Value}
    {final : Kept α} (sane : stream.Sane) (fed : stream.Fed) (unkept : stream.kept = none)
    (unread : stream.unread = lead.codes ++ object.text ++ trail.codes) (isObject : object.IsObject)
    (collects : Collects py maxBodySize reads ⟨[], none⟩ object.members final) :
    ∃ after, readReply py where_ walk maxBodySize stream = (.ok final, after) := by
  have stands := Stream.stands_of_unkept sane fed unkept unread
  have ends {last : Stream} (consumed : Stream.Consumes stream (lead.codes ++ object.text) last) :
      ∃ after, end_ where_ last = (.ok (), after) :=
    end_of_blank consumed.sane (consumed.fed fed) (consumed.kept_none unkept)
      (List.append_cancel_left (consumed.unread.symm.trans unread))
  match object, isObject with
  | .empty .object inner, _ =>
    obtain ⟨entered, enters, empty⟩ := @enter_of_empty py where_ stream .object lead inner _ stands
    obtain ⟨after, ended⟩ := ends empty.toConsumes
    cases collects
    refine ⟨after, ?_⟩
    have loops : memberLoop py where_ walk maxBodySize entered.rounds none ⟨[], none⟩ entered =
        (.ok ⟨[], none⟩, entered) := by
      unfold memberLoop
      rfl
    rw [readReply, seq_of_ok enters, seq_read, seq_of_ok loops, seq_of_ok ended]
    rfl
  | .full .object (.member front pieces gap lead') value tail, _ =>
    obtain ⟨found, named⟩ := collects.exists_name
    have texts : lead.codes ++ (Value.full .object (.member front pieces gap lead') value tail).text =
        lead.codes ++ Kind.object.opener :: (Blank.none.codes ++ (Entry.member front pieces gap).text) ++
          (lead'.codes ++ value.text ++ tail.text) := by
      simp [Value.text, Head.text, Entry.text, Blank.none]
    rw [texts] at stands
    obtain ⟨entered, enters, opened, _⟩ := @enter_of_object py where_ stream lead .none
      (.member front pieces gap) found _ unkept named stands.front
    have stands' := opened.stands stands
    have enough : tail.text.length ≤ entered.rounds := by
      have := congrArg List.length stands'.unread
      simp only [List.length_append] at this
      unfold Stream.rounds
      omega
    obtain ⟨looped, loops, rest⟩ := memberLoop_of_stands spec tail stands' (opened.kept_none unkept)
      named collects enough
    obtain ⟨after, ended⟩ := ends (texts ▸ opened.trans rest)
    refine ⟨after, ?_⟩
    rw [readReply, seq_of_ok enters, seq_read, seq_of_ok loops, seq_of_ok ended]
    rfl

end Reading

end BitcoinCoreRpc
