/-
This file says what the steps of a stream consume, up to one string and one number.

A step that answers took a text off the front of what the stream had not consumed, and
left everything else a stream holds in step with it: the position, the value kept, the
verdict of the decoder over what is still to be read. That is one relation, closed
under doing two steps in a row, and each step is given two lemmas over it: what it
consumed when it answered, and that it answers where the text it is after is there.
Where the chunks were cut appears in neither.
-/

import BitcoinCoreRpc.Partial
import BitcoinCoreRpc.Stream

namespace BitcoinCoreRpc

open JsonText Steps

/-! ### Consuming a text -/

namespace Stream

/-- A text more fits the value being kept under a hard limit. -/
def Room (stream : Stream) (text : Bytes) : Prop :=
  ∀ kept, stream.kept = some kept → stream.keptSoft = false →
    (kept ++ text).length ≤ stream.keptLimit

/-- What is kept once a text more is consumed. -/
def keptAfter (stream : Stream) (text : Bytes) : Option Bytes :=
  match stream.kept with
  | none => none
  | some kept => if (kept ++ text).length ≤ stream.keptLimit then some (kept ++ text) else none

/-- What holds of a stream between two steps. -/
structure Sane (stream : Stream) : Prop where
  ended : stream.ended = true → stream.source = [] ∧ stream.utf8 = .start
  kept : ∀ kept, stream.kept = some kept → kept.length ≤ stream.keptLimit

/-- The octets still to be read arrive without error and finish what the decoder was fed. -/
structure Fed (stream : Stream) : Prop where
  complete : Complete stream.source
  accepts : Utf8.Accepts stream.utf8 (contents stream.source)

/-- A stream before and after it consumed a text. -/
structure Consumes (before : Stream) (text : Bytes) (after : Stream) : Prop where
  unread : before.unread = text ++ after.unread
  position : after.position = before.position + text.length
  kept : after.kept = before.keptAfter text
  limits : after.kept ≠ none →
    after.keptLimit = before.keptLimit ∧ after.keptSoft = before.keptSoft
  room : before.Room text
  sane : after.Sane
  accepts : Utf8.Accepts before.utf8 (contents before.source) ↔
    Utf8.Accepts after.utf8 (contents after.source)
  complete : Complete before.source → Complete after.source
  fewer : (contents after.source).length ≤ (contents before.source).length

/-- It entered and left no container meanwhile. -/
structure Passes (before : Stream) (text : Bytes) (after : Stream) : Prop extends
    Consumes before text after where
  open_ : after.open_ = before.open_

variable {stream before between after : Stream} {text more : Bytes}

theorem Room.of_append (room : stream.Room (text ++ more)) : stream.Room text := by
  intro kept here hard
  have fits := room kept here hard
  simp only [List.length_append] at fits ⊢
  omega

theorem Room.of_none (unkept : stream.kept = none) : stream.Room text := by
  intro kept here
  rw [unkept] at here
  cases here

theorem Consumes.fed (consumes : Consumes before text after) (fed : before.Fed) : after.Fed :=
  ⟨consumes.complete fed.complete, consumes.accepts.mp fed.accepts⟩

theorem Consumes.refl (sane : stream.Sane) : Consumes stream [] stream where
  unread := rfl
  position := rfl
  kept := by
    unfold keptAfter
    cases here : stream.kept with
    | none => rfl
    | some kept => simp [sane.kept kept here]
  limits _ := ⟨rfl, rfl⟩
  room kept here _ := by simpa using sane.kept kept here
  sane := sane
  accepts := Iff.rfl
  complete := id
  fewer := le_rfl

theorem Consumes.trans (first : Consumes before text between)
    (second : Consumes between more after) : Consumes before (text ++ more) after := by
  have early : between.kept = before.keptAfter text := first.kept
  have late : after.kept = between.keptAfter more := second.kept
  have limits (here : between.kept ≠ none) := first.limits here
  refine ⟨?_, ?_, ?_, ?_, ?_, second.sane, first.accepts.trans second.accepts,
    second.complete ∘ first.complete, second.fewer.trans first.fewer⟩
  · rw [first.unread, second.unread, List.append_assoc]
  · rw [second.position, first.position, List.length_append, Nat.add_assoc]
  · rw [late]
    unfold keptAfter at early ⊢
    cases here : before.kept with
    | none =>
      simp only [here] at early
      simp only [early]
    | some kept =>
      simp only [here] at early
      split_ifs at early with fits
      · simp only [early, (limits (by rw [early]; nofun)).1, List.append_assoc]
      · simp only [early]
        rw [if_neg]
        simp only [List.length_append] at fits ⊢
        omega
  · intro here
    have still : between.kept ≠ none := by
      intro lost
      rw [late, keptAfter, lost] at here
      exact here rfl
    have := second.limits here
    have := limits still
    exact ⟨by omega, by simp_all⟩
  · intro kept here hard
    have fits := first.room kept here hard
    have held : between.kept = some (kept ++ text) := by
      rw [early, keptAfter, here]
      exact if_pos fits
    have same := limits (by rw [held]; nofun)
    have := second.room (kept ++ text) held (same.2.trans hard)
    rw [← List.append_assoc, ← same.1]
    exact this

theorem Passes.refl (sane : stream.Sane) : Passes stream [] stream :=
  ⟨.refl sane, rfl⟩

theorem Passes.trans (first : Passes before text between) (second : Passes between more after) :
    Passes before (text ++ more) after :=
  ⟨first.toConsumes.trans second.toConsumes, second.open_.trans first.open_⟩

/-- Room for two texts in a row is room for the second where the first was consumed. -/
theorem Room.later (room : before.Room (text ++ more)) (consumes : Consumes before text between) :
    between.Room more := by
  intro kept here hard
  have same := consumes.limits (by rw [here]; nofun)
  have was := consumes.kept
  rw [here, keptAfter] at was
  split at was
  · cases was
  · next whole held =>
    split_ifs at was
    cases was
    rw [same.1, List.append_assoc]
    exact room whole held (same.2 ▸ hard)

/-- A stream stands before a text: it is there to be read, the rest of the document behind it, and
a value being kept has room for it. -/
structure Stands (stream : Stream) (text rest : Bytes) : Prop where
  sane : stream.Sane
  fed : stream.Fed
  unread : stream.unread = text ++ rest
  room : stream.Room text

theorem Stands.front {rest : Bytes} (stands : stream.Stands (text ++ more) rest) :
    stream.Stands text (more ++ rest) :=
  ⟨stands.sane, stands.fed, by rw [stands.unread, List.append_assoc], stands.room.of_append⟩

/-- A stream that consumed the first of two texts stands before the second. -/
theorem Consumes.stands {rest : Bytes} (consumes : Consumes before text after)
    (stands : before.Stands (text ++ more) rest) : after.Stands more rest where
  sane := consumes.sane
  fed := consumes.fed stands.fed
  unread := by
    have same := consumes.unread.symm.trans stands.unread
    rw [List.append_assoc] at same
    exact List.append_cancel_left same
  room := stands.room.later consumes

/-- A stream that only read on stands where it stood. -/
theorem Consumes.still {rest : Bytes} (consumes : Consumes before [] after)
    (stands : before.Stands text rest) : after.Stands text rest :=
  consumes.stands stands

end Stream

section Reading

variable {where_ : Str} {stream after : Stream}

/-! ### Filling and advancing -/

/-- A fill moves octets from what is to be read behind what was, and nothing else. -/
theorem fill_eq_ok (sane : stream.Sane) {more : Bool}
    (ran : fill where_ stream = (.ok more, after)) :
    Stream.Passes stream [] after ∧ ∃ chunk, after.here = stream.here ++ chunk ∧
      contents stream.source = chunk ++ contents after.source ∧ (more = true → chunk ≠ []) ∧
      (more = false → chunk = [] ∧ after.source = [] ∧ after.utf8 = .start) := by
  unfold fill at ran
  split_ifs at ran with ended
  · cases ran
    exact ⟨.refl sane, [], (List.append_nil _).symm, rfl, nofun, fun _ => ⟨rfl, sane.ended ended⟩⟩
  split at ran
  · cases ran
  · next chunk rest received =>
    obtain ⟨front, _, complete⟩ := read1_eq_octets received
    split at ran
    · cases ran
    · next utf8 fed =>
      unfold feed at fed
      split_ifs at ran with none_left
      · cases ran
        subst none_left
        obtain ⟨empty, rfl⟩ := read1_eq_end (by decide) received
        rw [if_pos rfl] at fed
        split_ifs at fed with finished
        cases fed
        have accepts : Utf8.Accepts stream.utf8 (contents stream.source) ↔
            Utf8.Accepts .start (contents []) := by rw [finished, empty]
        refine ⟨⟨⟨?_, rfl, (Stream.Consumes.refl sane).kept, fun _ => ⟨rfl, rfl⟩,
          (Stream.Consumes.refl sane).room, ⟨fun _ => ⟨rfl, rfl⟩, sane.kept⟩, accepts, complete,
          Nat.zero_le _⟩, rfl⟩, [], (List.append_nil _).symm, front, nofun, fun _ => ⟨rfl, rfl, rfl⟩⟩
        rw [List.nil_append, Stream.unread, front]
        rfl
      · cases ran
        rw [if_neg none_left] at fed
        obtain ⟨⟨state, codes⟩, decoded, rfl⟩ := Option.map_eq_some_iff.mp fed
        refine ⟨⟨⟨?_, ?_, (Stream.Consumes.refl sane).kept, fun _ => ⟨rfl, rfl⟩,
          (Stream.Consumes.refl sane).room, ⟨fun done => absurd done ended, sane.kept⟩, ?_, complete,
          ?_⟩, rfl⟩, chunk, rfl, front, fun _ => none_left, nofun⟩
        · rw [List.nil_append, Stream.unread, front, ← List.append_assoc]
          rfl
        · rfl
        · rw [front]
          exact Utf8.accepts_append decoded
        · rw [front, List.length_append]
          exact Nat.le_add_left _ _

/-- A fill answers where what is to be read arrives and finishes what the decoder was fed. -/
theorem fill_isOk (fed : stream.Fed) : ∃ more after, fill where_ stream = (.ok more, after) := by
  unfold fill
  split_ifs with ended
  · exact ⟨_, _, rfl⟩
  split
  · next e rest failed => exact absurd failed (complete_not_error fed.complete)
  · next chunk rest received =>
    obtain ⟨front, _, _⟩ := read1_eq_octets received
    have decodes : ∃ utf8, feed stream.utf8 chunk = some utf8 := by
      have accepts := fed.accepts
      unfold feed
      split_ifs with none_left finished
      · exact ⟨_, rfl⟩
      · subst none_left
        rw [(read1_eq_end (by decide) received).1] at accepts
        exact absurd (Utf8.accepts_nil.mp accepts) finished
      · rw [front] at accepts
        obtain ⟨state, codes, decoded⟩ := accepts.run_prefix
        exact ⟨state, by rw [decoded]; rfl⟩
    obtain ⟨utf8, decoded⟩ := decodes
    rw [decoded]
    dsimp only
    split_ifs <;> exact ⟨_, _, rfl⟩

/-- Octets that were read are consumed where the value being kept has room for them. -/
theorem advance_of_room (sane : stream.Sane) {text rest : Bytes} (split : stream.here = text ++ rest)
    (room : stream.Room text) :
    ∃ after, advance where_ text.length stream = (.ok (), after) ∧
      Stream.Passes stream text after ∧ after.here = rest ∧ after.source = stream.source := by
  have unread : stream.unread = text ++ (rest ++ contents stream.source) := by
    rw [Stream.unread, split, List.append_assoc]
  have left : stream.buffer.drop (stream.pos + text.length) = rest := by
    rw [← List.drop_drop]
    show stream.here.drop text.length = rest
    rw [split, List.drop_left]
  have taken : stream.here.take text.length = text := by rw [split, List.take_left]
  unfold advance
  rw [taken]
  cases held : stream.kept with
  | none =>
    refine ⟨_, rfl, ⟨⟨?_, (Nat.add_assoc _ _ _).symm, ?_, fun here => absurd rfl here, room,
      ⟨sane.ended, nofun⟩, Iff.rfl, id, le_rfl⟩, rfl⟩, left, rfl⟩
    · rw [unread, ← left]
      rfl
    · rw [Stream.keptAfter, held]
  | some kept =>
    dsimp only
    split_ifs with long soft
    · refine ⟨_, rfl, ⟨⟨?_, (Nat.add_assoc _ _ _).symm, ?_, fun here => absurd rfl here, room,
        ⟨sane.ended, nofun⟩, Iff.rfl, id, le_rfl⟩, rfl⟩, left, rfl⟩
      · rw [unread, ← left]
        rfl
      · rw [Stream.keptAfter, held]
        exact (if_neg (not_le.mpr long)).symm
    · have fits := room kept held (by simpa using soft)
      exact absurd fits (not_le.mpr long)
    · refine ⟨_, rfl, ⟨⟨?_, (Nat.add_assoc _ _ _).symm, ?_, fun _ => ⟨rfl, rfl⟩, room,
        ⟨sane.ended, ?_⟩, Iff.rfl, id, le_rfl⟩, rfl⟩, left, rfl⟩
      · rw [unread, ← left]
        rfl
      · rw [Stream.keptAfter, held]
        exact (if_pos (not_lt.mp long)).symm
      · rintro _ ⟨⟩
        exact not_lt.mp long

/-- An advance that answers found room. -/
theorem room_of_advance {size : Nat} (ran : advance where_ size stream = (.ok (), after)) :
    stream.Room (stream.here.take size) := by
  intro kept held hard
  rw [advance, held] at ran
  dsimp only at ran
  split_ifs at ran with long soft
  · rw [hard] at soft
    cases soft
  · cases ran
  · exact not_lt.mp long

theorem advance_eq_ok (sane : stream.Sane) {text rest : Bytes} (split : stream.here = text ++ rest)
    (ran : advance where_ text.length stream = (.ok (), after)) :
    Stream.Passes stream text after ∧ after.here = rest ∧ after.source = stream.source := by
  have room := room_of_advance ran
  rw [split, List.take_left] at room
  obtain ⟨other, ran', passes⟩ := @advance_of_room where_ stream sane text rest split room
  rw [ran] at ran'
  cases ran'
  exact passes

/-! ### White space -/

theorem takeBlank_eq (stream : Stream) : takeBlank where_ stream =
    if (blankPrefix stream.here).codes ≠ [] then
      advance where_ (blankPrefix stream.here).codes.length stream
    else (.ok (), stream) := by
  show (if (blankPrefix stream.here).codes ≠ [] then
    advance where_ (blankPrefix stream.here).codes.length else pure ()) stream = _
  split_ifs <;> rfl

theorem takeBlank_eq_ok (sane : stream.Sane) (ran : takeBlank where_ stream = (.ok (), after)) :
    Stream.Passes stream (blankPrefix stream.here).codes after ∧
      after.here = dropBlank stream.here ∧ after.source = stream.source := by
  have split := (blankPrefix_append stream.here).symm
  rw [takeBlank_eq] at ran
  split_ifs at ran with some_blank
  · exact advance_eq_ok sane split ran
  · cases ran
    rw [not_not] at some_blank
    rw [some_blank, List.nil_append] at split
    rw [some_blank]
    exact ⟨.refl sane, split, rfl⟩

theorem takeBlank_of_room (sane : stream.Sane) (room : stream.Room (blankPrefix stream.here).codes) :
    ∃ after, takeBlank where_ stream = (.ok (), after) := by
  rw [takeBlank_eq]
  split_ifs
  · obtain ⟨after, ran, _⟩ :=
      @advance_of_room where_ stream sane _ _ (blankPrefix_append stream.here).symm room
    exact ⟨after, ran⟩
  · exact ⟨_, rfl⟩

/-- What is left past the white space is at the end of the stream, or it is something that was
read. -/
theorem atEndLoop_eq_ok {fuel : Nat} {ended : Bool} (sane : stream.Sane)
    (ran : atEndLoop where_ fuel stream = (.ok ended, after)) :
    ∃ pad : Blank, Stream.Passes stream pad.codes after ∧
      (ended = false → ∃ octet rest, after.here = octet :: rest ∧ isBlank octet = false) ∧
      (ended = true → after.unread = [] ∧ after.source = [] ∧ after.utf8 = .start) := by
  induction fuel generalizing stream with
  | zero => cases ran
  | succ fuel inductionHypothesis =>
    rw [atEndLoop] at ran
    obtain ⟨_, taken, takes, ran⟩ := seq_eq_ok ran
    obtain ⟨passes, here, source⟩ := takeBlank_eq_ok sane takes
    obtain ⟨_, _, ⟨⟩, ran⟩ := seq_eq_ok ran
    split_ifs at ran with something
    · cases ran
      obtain ⟨octet, rest, split⟩ := List.exists_cons_of_ne_nil something
      refine ⟨_, passes, fun _ => ⟨octet, rest, split, ?_⟩, nofun⟩
      have solid := noBlank_dropBlank stream.here
      rw [← here, split] at solid
      exact solid octet rfl
    · obtain ⟨more, filled, fills, ran⟩ := seq_eq_ok ran
      obtain ⟨fill, chunk, grown, moved, _, done⟩ := fill_eq_ok passes.sane fills
      have both := passes.trans fill
      rw [List.append_nil] at both
      split_ifs at ran with goes_on
      · obtain ⟨pad, rest, solid, end_⟩ := inductionHypothesis fill.sane ran
        exact ⟨Blank.append _ pad, both.trans rest, solid, end_⟩
      · cases ran
        obtain ⟨rfl, none_left, start⟩ := done (by simpa using goes_on)
        refine ⟨_, both, nofun, fun _ => ⟨?_, none_left, start⟩⟩
        rw [Stream.unread, grown, not_not.mp something, none_left]
        rfl

/-- The white space a text begins with, when the text is in two parts. -/
theorem blankPrefix_two (first second : Bytes) :
    (blankPrefix (first ++ second)).codes = (blankPrefix first).codes ++
      if dropBlank first = [] then (blankPrefix second).codes else [] := by
  have split := blankPrefix_append first
  show (first ++ second).takeWhile isBlank = first.takeWhile isBlank ++ _
  rw [List.takeWhile_append]
  by_cases all : dropBlank first = []
  · have whole : first.takeWhile isBlank = first := by
      rw [all, List.append_nil] at split
      exact split
    rw [if_pos all, if_pos (congrArg List.length whole), whole]
    rfl
  · rw [if_neg all, if_neg, List.append_nil]
    intro same
    have length := congrArg List.length split
    rw [List.length_append] at length
    exact all (List.length_eq_zero_iff.mp (by
      have : (blankPrefix first).codes.length = first.length := same
      omega))

theorem atEndLoop_isOk {fuel : Nat} (sane : stream.Sane) (fed : stream.Fed)
    (enough : (contents stream.source).length < fuel)
    (room : stream.Room (blankPrefix stream.unread).codes) :
    ∃ ended after, atEndLoop where_ fuel stream = (.ok ended, after) := by
  induction fuel generalizing stream with
  | zero => cases enough
  | succ fuel inductionHypothesis =>
    rw [Stream.unread, blankPrefix_two] at room
    obtain ⟨taken, takes⟩ := @takeBlank_of_room where_ stream sane room.of_append
    obtain ⟨passes, here, source⟩ := takeBlank_eq_ok sane takes
    rw [atEndLoop, seq_of_ok takes]
    show ∃ ended after, (if taken.here ≠ [] then (pure false : StreamStep Bool) else _) taken =
      (.ok ended, after)
    split_ifs with something
    · exact ⟨_, _, rfl⟩
    obtain ⟨more, filled, fills⟩ := @fill_isOk where_ taken (passes.fed fed)
    obtain ⟨fill, chunk, grown, moved, longer, _⟩ := fill_eq_ok passes.sane fills
    rw [seq_of_ok fills]
    cases more with
    | false => exact ⟨_, _, rfl⟩
    | true =>
      have nothing : taken.here = [] := not_not.mp something
      have all : dropBlank stream.here = [] := here ▸ nothing
      rw [if_pos all] at room
      have left : filled.unread = contents stream.source := by
        rw [Stream.unread, grown, nothing, ← source, moved]
        rfl
      have room' : filled.Room (blankPrefix filled.unread).codes := by
        rw [left]
        exact (room.later passes.toConsumes).later fill.toConsumes
      have fewer : (contents filled.source).length < fuel := by
        have lengths := congrArg List.length moved
        rw [source, List.length_append] at lengths
        have := List.length_pos_iff.mpr (longer rfl)
        omega
      exact inductionHypothesis fill.sane (fill.fed (passes.fed fed)) fewer room'

/-- `_at_end` consumes the white space the stream is at, and says whether the stream ends there. -/
theorem atEnd_eq_ok {ended : Bool} (sane : stream.Sane)
    (ran : atEnd where_ stream = (.ok ended, after)) :
    ∃ pad : Blank, Stream.Passes stream pad.codes after ∧
      (ended = false → ∃ octet rest, after.here = octet :: rest ∧ isBlank octet = false) ∧
      (ended = true → after.unread = [] ∧ after.source = [] ∧ after.utf8 = .start) :=
  atEndLoop_eq_ok sane ran

theorem atEnd_isOk (sane : stream.Sane) (fed : stream.Fed)
    (room : stream.Room (blankPrefix stream.unread).codes) :
    ∃ ended after, atEnd where_ stream = (.ok ended, after) :=
  atEndLoop_isOk sane fed (Nat.lt_succ_self _) room

theorem nextOctet_eq_ok {octet : Nat} (sane : stream.Sane)
    (ran : nextOctet where_ stream = (.ok octet, after)) :
    ∃ (pad : Blank) (rest : Bytes), Stream.Passes stream pad.codes after ∧
      after.here = octet :: rest ∧ isBlank octet = false := by
  obtain ⟨ended, between, ends, ran⟩ := seq_eq_ok ran
  obtain ⟨pad, passes, solid, _⟩ := atEnd_eq_ok sane ends
  cases ended with
  | true => cases ran
  | false =>
    obtain ⟨first, rest, here, notBlank⟩ := solid rfl
    cases ran
    refine ⟨pad, rest, passes, ?_, ?_⟩
    · rw [here]
      rfl
    · rw [here]
      exact notBlank

/-- Where no white space is at the position the octet there is found, and nothing else happens. -/
theorem nextOctet_here {octet : Nat} {rest : Bytes} (here : stream.here = octet :: rest)
    (solid : isBlank octet = false) : nextOctet where_ stream = (.ok octet, stream) := by
  have blank : takeBlank where_ stream = (.ok (), stream) := by
    have none_ : (blankPrefix stream.here).codes = [] := by
      rw [here]
      simp [blankPrefix, solid]
    rw [takeBlank_eq, if_neg (not_not.mpr none_)]
  have ends : atEnd where_ stream = (.ok false, stream) := by
    rw [atEnd, atEndLoop, seq_of_ok blank, seq_read, if_pos (by rw [here]; exact List.cons_ne_nil _ _)]
    rfl
  rw [nextOctet, seq_of_ok ends]
  show (Except.ok (stream.here.headD 0), stream) = _
  rw [here]
  rfl

/-- `_next_octet` finds the octet past the white space. -/
theorem nextOctet_of_stands {pad : Blank} {octet : Nat} {rest : Bytes}
    (stands : stream.Stands pad.codes (octet :: rest)) (solid : isBlank octet = false) :
    ∃ after more, nextOctet where_ stream = (.ok octet, after) ∧
      Stream.Passes stream pad.codes after ∧ after.here = octet :: more := by
  have blank : (blankPrefix stream.unread).codes = pad.codes :=
    (blank_unique (noBlank_dropBlank stream.unread) (noBlank_cons solid)
      ((blankPrefix_append stream.unread).trans stands.unread)).1
  obtain ⟨ended, after, ends⟩ :=
    @atEnd_isOk where_ stream stands.sane stands.fed (blank ▸ stands.room)
  obtain ⟨pad', passes, found, nothing⟩ := atEnd_eq_ok stands.sane ends
  have both : pad.codes ++ octet :: rest = pad'.codes ++ after.unread :=
    stands.unread.symm.trans passes.unread
  cases ended with
  | true =>
    rw [(nothing rfl).1, List.append_nil] at both
    have white := pad'.blank octet (by rw [← both]; simp)
    rw [solid] at white
    cases white
  | false =>
    obtain ⟨first, more, here, notBlank⟩ := found rfl
    rw [Stream.unread, here, List.cons_append] at both
    obtain ⟨same, rests⟩ := blank_unique (noBlank_cons solid) (noBlank_cons notBlank) both
    obtain ⟨rfl, _⟩ := List.cons.inj rests
    refine ⟨after, more, ?_, same ▸ passes, here⟩
    rw [nextOctet, seq_of_ok ends]
    show octetHere after = _
    show (Except.ok (after.here.headD 0), after) = _
    rw [here]
    rfl

/-! ### One octet -/

theorem expect_eq_ok {octet : Nat} (sane : stream.Sane)
    (ran : expect where_ octet stream = (.ok (), after)) :
    ∃ pad : Blank, Stream.Passes stream (pad.codes ++ [octet]) after := by
  obtain ⟨found, between, finds, takes⟩ := seq_eq_ok ran
  obtain ⟨pad, rest, passes, here, _⟩ := nextOctet_eq_ok sane finds
  split_ifs at takes with other
  · cases takes
  · obtain rfl := not_not.mp other
    exact ⟨pad, passes.trans (@advance_eq_ok where_ between after passes.sane [found] rest here takes).1⟩

theorem expect_of_stands {pad : Blank} {octet : Nat} {rest : Bytes}
    (stands : stream.Stands (pad.codes ++ [octet]) rest) (solid : isBlank octet = false) :
    ∃ after, expect where_ octet stream = (.ok (), after) ∧
      Stream.Passes stream (pad.codes ++ [octet]) after := by
  obtain ⟨between, more, finds, passes, here⟩ :=
    @nextOctet_of_stands where_ stream pad octet rest stands.front solid
  obtain ⟨after, ran, takes, _⟩ := @advance_of_room where_ between passes.sane [octet] more here
    (passes.stands stands).room
  refine ⟨after, ?_, passes.trans takes⟩
  rw [expect, seq_of_ok finds]
  exact (branch_of_not (not_not.mpr rfl)).trans ran

/-! ### Looking ahead -/

theorem ensureLoop_eq_ok {fuel size found : Nat} (sane : stream.Sane)
    (enough : size ≤ fuel + stream.here.length)
    (ran : ensureLoop where_ fuel size stream = (.ok found, after)) :
    Stream.Passes stream [] after ∧ found = after.here.length ∧
      (∃ chunk, after.here = stream.here ++ chunk) ∧
      (found < size → contents after.source = []) := by
  induction fuel generalizing stream with
  | zero =>
    cases ran
    exact ⟨.refl sane, rfl, ⟨[], (List.append_nil _).symm⟩, fun short => absurd short (by omega)⟩
  | succ fuel inductionHypothesis =>
    rw [ensureLoop] at ran
    obtain ⟨_, _, ⟨⟩, ran⟩ := seq_eq_ok ran
    split_ifs at ran with short
    · obtain ⟨more, filled, fills, ran⟩ := seq_eq_ok ran
      obtain ⟨fill, chunk, grown, _, longer, done⟩ := fill_eq_ok sane fills
      split_ifs at ran with goes_on
      · have some_more := List.length_pos_iff.mpr (longer goes_on)
        obtain ⟨rest, same, ⟨later, whole⟩, ended⟩ := inductionHypothesis fill.sane
          (by rw [grown, List.length_append]; omega) ran
        exact ⟨fill.trans rest, same, ⟨chunk ++ later, by rw [whole, grown, List.append_assoc]⟩, ended⟩
      · cases ran
        obtain ⟨_, none_left, _⟩ := done (by simpa using goes_on)
        exact ⟨fill, rfl, ⟨chunk, grown⟩, fun _ => by rw [none_left]; rfl⟩
    · cases ran
      exact ⟨.refl sane, rfl, ⟨[], (List.append_nil _).symm⟩, fun short' => absurd short' short⟩

/-- `_ensure` leaves as many octets read as were asked for, or all there are. -/
theorem ensure_eq_ok {size found : Nat} (sane : stream.Sane)
    (ran : ensure where_ size stream = (.ok found, after)) :
    Stream.Passes stream [] after ∧ found = after.here.length ∧
      (∃ chunk, after.here = stream.here ++ chunk) ∧
      (found < size → contents after.source = []) :=
  ensureLoop_eq_ok sane (Nat.le_add_right _ _) ran

theorem ensureLoop_isOk {fuel size : Nat} (sane : stream.Sane) (fed : stream.Fed) :
    ∃ found after, ensureLoop where_ fuel size stream = (.ok found, after) := by
  induction fuel generalizing stream with
  | zero => exact ⟨_, _, rfl⟩
  | succ fuel inductionHypothesis =>
    show ∃ found after, (if stream.here.length < size then _ else _ : StreamStep Nat) stream = _
    split_ifs
    · obtain ⟨more, filled, fills⟩ := @fill_isOk where_ stream fed
      obtain ⟨fill, _⟩ := fill_eq_ok sane fills
      rw [seq_of_ok fills]
      cases more with
      | true => exact inductionHypothesis fill.sane (fill.fed fed)
      | false => exact ⟨_, _, rfl⟩
    · exact ⟨_, _, rfl⟩

/-- `_ensure` finds what is there to be read. -/
theorem ensure_of_unread {size : Nat} {text rest : Bytes} (sane : stream.Sane) (fed : stream.Fed)
    (unread : stream.unread = text ++ rest) (fits : text.length ≤ size) :
    ∃ found after more, ensure where_ size stream = (.ok found, after) ∧
      Stream.Passes stream [] after ∧ text.length ≤ found ∧ after.here = text ++ more ∧
      (found < size → contents after.source = []) := by
  obtain ⟨found, after, ran⟩ := @ensureLoop_isOk where_ stream size size sane fed
  obtain ⟨passes, same, _, ended⟩ := ensure_eq_ok sane ran
  have whole : after.here ++ contents after.source = text ++ rest := by
    rw [← unread, passes.unread]
    rfl
  have long : text.length ≤ after.here.length := by
    by_contra short
    have none_left := ended (by omega)
    rw [none_left, List.append_nil] at whole
    have := congrArg List.length whole
    rw [List.length_append] at this
    omega
  obtain ⟨more, split⟩ := List.prefix_of_prefix_length_le
    (List.prefix_append text rest) (whole ▸ List.prefix_append _ _) long
  exact ⟨found, after, more, ran, passes, same ▸ long, split.symm, ended⟩

/-! ### Strings -/

/-- Four octets that are hexadecimal digits, with what is behind them. -/
theorem exists_hex {text : Bytes} (long : 4 ≤ text.length) (hex : (text.take 4).all isHex = true) :
    ∃ first second third fourth rest,
      text = first :: second :: third :: fourth :: rest ∧ isHex first = true ∧
        isHex second = true ∧ isHex third = true ∧ isHex fourth = true := by
  match text, long, hex with
  | first :: second :: third :: fourth :: rest, _, hex =>
    simp only [List.take, List.all_cons, List.all_nil, Bool.and_true, Bool.and_eq_true] at hex
    exact ⟨first, second, third, fourth, rest, rfl, hex⟩

/-- `_escape` consumes one escape. -/
theorem escape_eq_ok {rest : Bytes} (sane : stream.Sane) (here : stream.here = 0x5C :: rest)
    (ran : escape where_ stream = (.ok (), after)) :
    ∃ piece : Piece, Stream.Passes stream piece.text after := by
  obtain ⟨found, between, ensures, ran⟩ := seq_eq_ok ran
  obtain ⟨passes, rfl, ⟨chunk, grown⟩, _⟩ := ensure_eq_ok sane ensures
  rw [here, List.cons_append] at grown
  split_ifs at ran with short
  · cases ran
  obtain ⟨code, more, split⟩ : ∃ code more, rest ++ chunk = code :: more := by
    refine List.exists_cons_of_ne_nil fun empty => short ?_
    rw [grown, empty]
    decide
  rw [split] at grown
  obtain ⟨_, _, ⟨⟩, ran⟩ := seq_eq_ok ran
  rw [grown] at ran
  change (if isEscape code then advance where_ 2 else _ : StreamStep Unit) between = _ at ran
  split_ifs at ran with simple unicode
  · exact ⟨.escape code simple,
      passes.trans (@advance_eq_ok where_ between after passes.sane [0x5C, code] more grown ran).1⟩
  · subst unicode
    obtain ⟨found, later, ensures, ran⟩ := seq_eq_ok ran
    obtain ⟨passes', rfl, ⟨chunk', grown'⟩, _⟩ := ensure_eq_ok passes.sane ensures
    rw [grown, List.cons_append, List.cons_append] at grown'
    split_ifs at ran with cut
    · cases ran
    obtain ⟨_, _, ⟨⟩, ran⟩ := seq_eq_ok ran
    rw [grown'] at ran cut
    split_ifs at ran with bad
    · cases ran
    · simp only [List.length_cons] at cut
      obtain ⟨first, second, third, fourth, tail, whole, ok⟩ :=
        @exists_hex (more ++ chunk') (by omega) (by simpa using bad)
      rw [whole] at grown'
      exact ⟨.hex first second third fourth ok, (passes.trans passes').trans
        (@advance_eq_ok where_ later after passes'.sane
          [0x5C, 0x75, first, second, third, fourth] tail grown' ran).1⟩
  · cases ran

/-- `_escape` consumes the escape it is at. -/
theorem escape_of_stands {piece : Piece} {rest : Bytes} (stands : stream.Stands piece.text rest)
    (escaped : piece.text.head? = some 0x5C) :
    ∃ after, escape where_ stream = (.ok (), after) ∧ Stream.Passes stream piece.text after := by
  cases piece with
  | plain code ok =>
    cases escaped
    cases ok
  | escape code ok =>
    obtain ⟨found, between, more, ensures, passes, long, here, _⟩ :=
      @ensure_of_unread where_ stream 2 [0x5C, code] rest stands.sane stands.fed stands.unread le_rfl
    obtain ⟨after, ran, takes, _⟩ :=
      @advance_of_room where_ between passes.sane [0x5C, code] more here
        (passes.still stands).room
    refine ⟨after, ?_, passes.trans takes⟩
    rw [escape, seq_of_ok ensures]
    refine (branch_of_not (not_lt.mpr long)).trans ?_
    show (if isEscape ((between.here.drop 1).headD 0) then advance where_ 2 else _ :
      StreamStep Unit) between = _
    rw [here]
    exact (branch_of ok).trans ran
  | hex first second third fourth ok =>
    obtain ⟨found, between, more, ensures, passes, long, here, _⟩ :=
      @ensure_of_unread where_ stream 2 [0x5C, 0x75] ([first, second, third, fourth] ++ rest)
        stands.sane stands.fed stands.unread le_rfl
    have stands' := passes.still stands
    obtain ⟨found', later, more', ensures', passes', long', here', _⟩ :=
      @ensure_of_unread where_ between 6 _ rest stands'.sane stands'.fed stands'.unread le_rfl
    obtain ⟨after, ran, takes, _⟩ :=
      @advance_of_room where_ later passes'.sane [0x5C, 0x75, first, second, third, fourth] more'
        here' (passes'.still stands').room
    refine ⟨after, ?_, (passes.trans passes').trans takes⟩
    rw [escape, seq_of_ok ensures]
    refine (branch_of_not (not_lt.mpr long)).trans ?_
    show (if isEscape ((between.here.drop 1).headD 0) then advance where_ 2 else
      if (between.here.drop 1).headD 0 = 0x75 then _ else _ : StreamStep Unit) between = _
    rw [here]
    show (ensure where_ 6 >>= _) between = _
    rw [seq_of_ok ensures']
    refine (branch_of_not (not_lt.mpr long')).trans ?_
    show (if !(((later.here.drop 2).take 4).all isHex) then _ else advance where_ 6 :
      StreamStep Unit) later = _
    rw [here']
    have hex : ¬(!((([0x5C, 0x75, first, second, third, fourth] ++ more').drop 2).take 4).all isHex) =
        true := by simp [ok]
    exact (branch_of_not hex).trans ran

/-- The rest of a string is consumed up to its closing quotation mark. -/
theorem stringLoop_eq_ok {fuel : Nat} (sane : stream.Sane)
    (ran : stringLoop where_ fuel stream = (.ok (), after)) :
    ∃ pieces, Stream.Passes stream (content pieces ++ [0x22]) after := by
  induction fuel generalizing stream with
  | zero => cases ran
  | succ fuel inductionHypothesis =>
    rw [stringLoop] at ran
    obtain ⟨_, _, ⟨⟩, ran⟩ := seq_eq_ok ran
    obtain ⟨_, taken, takes, ran⟩ := seq_eq_ok ran
    obtain ⟨plain, isContent⟩ := @exists_plain (stream.here.takeWhile isPlain)
      fun _ member => List.mem_takeWhile_imp member
    rw [← isContent] at takes ran
    have front : content plain <+: stream.here := isContent ▸ List.takeWhile_prefix isPlain
    have split := (List.prefix_iff_eq_append.mp front).symm
    generalize stream.here.drop (content plain).length = left at split ran
    obtain ⟨passes, here, _⟩ := advance_eq_ok sane split takes
    cases left with
    | nil =>
      obtain ⟨more, filled, fills, ran⟩ := seq_eq_ok ran
      split_ifs at ran with goes_on
      · obtain ⟨fill, _⟩ := fill_eq_ok passes.sane fills
        obtain ⟨pieces, rest⟩ := inductionHypothesis fill.sane ran
        refine ⟨plain ++ pieces, ?_⟩
        rw [content_append, List.append_assoc]
        exact passes.trans (fill.trans rest)
      · cases ran
    | cons octet rest =>
      change (if octet = 0x22 then advance where_ 1 else if octet ≠ 0x5C then _ else _ :
        StreamStep Unit) taken = _ at ran
      split_ifs at ran with quote other
      · subst quote
        exact ⟨plain, passes.trans
          (@advance_eq_ok where_ taken after passes.sane [0x22] rest here ran).1⟩
      · cases ran
      · rw [not_not] at other
        subst other
        obtain ⟨_, escaped, escapes, ran⟩ := seq_eq_ok ran
        obtain ⟨piece, one⟩ := escape_eq_ok passes.sane here escapes
        obtain ⟨pieces, rest⟩ := inductionHypothesis one.sane ran
        refine ⟨plain ++ piece :: pieces, ?_⟩
        rw [content_append, content_cons, List.append_assoc, List.append_assoc]
        exact passes.trans (one.trans rest)

/-- The rest of a string is consumed where it is there to be read. A round consumes an escape or
reads another chunk, so what is left to do them in shrinks with each. -/
theorem stringLoop_of_stands {fuel : Nat} {pieces : List Piece} {rest : Bytes}
    (stands : stream.Stands (content pieces ++ [0x22]) rest)
    (enough : stream.unread.length + (contents stream.source).length < fuel) :
    ∃ after, stringLoop where_ fuel stream = (.ok (), after) := by
  induction fuel generalizing stream pieces with
  | zero => cases enough
  | succ fuel inductionHypothesis =>
    have plain : ∀ code ∈ stream.here.takeWhile isPlain, isPlain code = true :=
      fun _ member => List.mem_takeWhile_imp member
    have split := (List.prefix_iff_eq_append.mp (@List.takeWhile_prefix _ stream.here isPlain)).symm
    have stops : ∀ code ∈ (stream.here.drop (stream.here.takeWhile isPlain).length).head?,
        isPlain code = false := by
      have dropped : stream.here.drop (stream.here.takeWhile isPlain).length =
          stream.here.dropWhile isPlain :=
        List.append_cancel_left (split.symm.trans List.takeWhile_append_dropWhile.symm)
      rw [dropped]
      intro code first
      have := List.head?_dropWhile_not isPlain stream.here
      rw [Option.mem_def.mp first] at this
      simpa using this
    rw [stringLoop, seq_read]
    show ∃ after, (advance where_ (stream.here.takeWhile isPlain).length >>= _) stream = _
    generalize stream.here.takeWhile isPlain = front at plain split stops ⊢
    generalize stream.here.drop front.length = left at split stops ⊢
    have whole : content pieces ++ 0x22 :: rest = front ++ (left ++ contents stream.source) := by
      rw [← List.append_assoc, ← split]
      exact (stands.unread.trans (List.append_assoc _ _ _)).symm
    obtain ⟨later, contents_split, _⟩ := content_split plain whole
    rw [contents_split, List.append_assoc] at stands
    obtain ⟨taken, takes, passes, here, source⟩ :=
      @advance_of_room where_ stream stands.sane front left split stands.room.of_append
    have stands' := passes.stands stands
    have lengths := congrArg List.length passes.unread
    rw [List.length_append] at lengths
    rw [seq_of_ok takes]
    cases left with
    | nil =>
      obtain ⟨more, filled, fills⟩ := @fill_isOk where_ taken stands'.fed
      obtain ⟨refill, chunk, grown, moved, longer, done⟩ := fill_eq_ok stands'.sane fills
      show ∃ after, (fill where_ >>= _) taken = _
      rw [seq_of_ok fills]
      cases more with
      | false =>
        obtain ⟨rfl, none_left, _⟩ := done rfl
        have nothing := stands'.unread
        rw [Stream.unread, here, moved, none_left] at nothing
        exact absurd nothing.symm (by simp [contents])
      | true =>
        have some_more := List.length_pos_iff.mpr (longer rfl)
        have moved_lengths := congrArg List.length moved
        have same := congrArg List.length refill.unread
        rw [List.length_append] at moved_lengths same
        rw [source] at moved_lengths
        exact inductionHypothesis (refill.still stands')
          (by simp only [List.length_nil] at same; omega)
    | cons octet left =>
      have begins : content later ++ 0x22 :: rest = octet :: (left ++ contents taken.source) := by
        have same := stands'.unread
        rw [Stream.unread, here, List.append_assoc] at same
        exact same.symm
      show ∃ after, (if octet = 0x22 then advance where_ 1 else if octet ≠ 0x5C then _ else _ :
        StreamStep Unit) taken = _
      cases later with
      | nil =>
        obtain ⟨rfl, _⟩ := List.cons.inj begins
        obtain ⟨after, ran, _⟩ :=
          @advance_of_room where_ taken passes.sane [0x22] left here stands'.room
        exact ⟨after, (branch_of rfl).trans ran⟩
      | cons piece later =>
        have escaped : octet = 0x5C ∧ piece.text.head? = some 0x5C := by
          cases piece with
          | plain code ok =>
            obtain ⟨rfl, _⟩ := List.cons.inj begins
            have first := stops code rfl
            rw [ok] at first
            cases first
          | escape code ok => exact ⟨(List.cons.inj begins).1.symm, rfl⟩
          | hex _ _ _ _ ok => exact ⟨(List.cons.inj begins).1.symm, rfl⟩
        obtain ⟨rfl, marked⟩ := escaped
        rw [content_cons, List.append_assoc] at stands'
        obtain ⟨between, escapes, one⟩ :=
          @escape_of_stands where_ taken piece _ stands'.front marked
        have shorter := congrArg List.length one.unread
        have positive : 0 < piece.text.length := by
          cases piece <;> simp [Piece.text]
        rw [List.length_append] at shorter
        have fewer := one.fewer
        rw [source] at fewer
        obtain ⟨after, ran⟩ := inductionHypothesis (one.stands stands') (by omega)
        refine ⟨after, (branch_of_not (by decide)).trans ((branch_of_not (by decide)).trans ?_)⟩
        rw [seq_of_ok escapes]
        exact ran

/-- `_string` consumes a string, and the white space before it. -/
theorem string_eq_ok (sane : stream.Sane) (ran : string where_ stream = (.ok (), after)) :
    ∃ (pad : Blank) (pieces : List Piece),
      Stream.Passes stream (pad.codes ++ quoted pieces) after := by
  obtain ⟨_, between, takes, ran⟩ := seq_eq_ok ran
  obtain ⟨pad, quote⟩ := expect_eq_ok sane takes
  obtain ⟨_, _, ⟨⟩, ran⟩ := seq_eq_ok ran
  obtain ⟨pieces, rest⟩ := stringLoop_eq_ok quote.sane ran
  have both := quote.trans rest
  rw [List.append_assoc] at both
  exact ⟨pad, pieces, both⟩

theorem string_of_stands {pad : Blank} {pieces : List Piece} {rest : Bytes}
    (stands : stream.Stands (pad.codes ++ quoted pieces) rest) :
    ∃ after, string where_ stream = (.ok (), after) ∧
      Stream.Passes stream (pad.codes ++ quoted pieces) after := by
  have split : pad.codes ++ quoted pieces = pad.codes ++ [0x22] ++ (content pieces ++ [0x22]) := by
    simp [quoted]
  rw [split] at stands
  obtain ⟨between, takes, quote⟩ := @expect_of_stands where_ stream pad 0x22 _ stands.front rfl
  have stands' := quote.stands stands
  obtain ⟨after, ran⟩ := @stringLoop_of_stands where_ between between.rounds _ _ stands'
    (Nat.lt_succ_self _)
  obtain ⟨found, consumes⟩ := stringLoop_eq_ok quote.sane ran
  have same : content found ++ 0x22 :: after.unread = content pieces ++ 0x22 :: rest := by
    have both := consumes.unread.symm.trans stands'.unread
    simpa using both
  have found_same := matchPieces_append found after.unread
  rw [same, matchPieces_append] at found_same
  cases found_same
  refine ⟨after, ?_, split ▸ quote.trans consumes⟩
  rw [string, seq_of_ok takes, seq_read]
  exact ran

end Reading

end BitcoinCoreRpc
