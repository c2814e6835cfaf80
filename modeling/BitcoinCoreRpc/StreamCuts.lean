/-
This file says when the outcome of `skip` does not depend on how a document is cut.

A value is consumed as the document has it, with the white space before it and nothing
else, wherever the reads of the document end, but for one kind of number. `_scalar` looks
1025 octets ahead and matches the number it finds there. A longer number is refused where
the match is longer than 1024 octets, and what is ahead of a number broken off behind its
decimal point, its exponent's letter or the sign of that is a match of 1024 or 1023. A
read that ends there leaves the rest of the number to whoever reads on, and a read that
does not has the number refused.
-/

import BitcoinCoreRpc.StreamKeeps

namespace BitcoinCoreRpc

open JsonText Steps

variable {py : Interpreter} {where_ : Str} {stream between after : Stream} {document : Bytes}

/-! ### What `skip` is to consume -/

/-- A text begins with white space and a value `skip` is to consume: its containers nest no deeper
than they may, and its numbers, as long as the text has them, are no longer than they may be and
are built. -/
structure Skippable (py : Interpreter) (text : Bytes) (pad : Blank) (value : Value) (rest : Bytes) :
    Prop where
  whole : text = pad.codes ++ (value.text ++ rest)
  longest : value.Longest rest
  numbers : value.Numbers (Streams py)
  shallow : value.depth ≤ maxStreamDepth

/-- `skip` consumes the value the stream is at, where there is one, and is refused with a
FetchError where there is none. -/
def SkipsOne (py : Interpreter) (where_ : Str) (stream : Stream) : Prop :=
  (∀ pad value rest, Skippable py stream.unread pad value rest →
    ∃ after, skip py where_ stream = (.ok (), after) ∧
      Stream.Passes stream (pad.codes ++ value.text) after ∧ after.unread = rest) ∧
  ((¬∃ pad value rest, Skippable py stream.unread pad value rest) →
    ∃ message after, skip py where_ stream = (.error (.fetchError message), after))

/-- A number longer than a stream takes is due, and the octets looked ahead hold a shorter one that
it takes. -/
def Straddles (py : Interpreter) (text : Bytes) : Prop :=
  ∃ number rest short left, matchNumber (dropBlank text) = some (number, rest) ∧
    maxStreamNumber < number.text.length ∧
    matchNumber ((dropBlank text).take (maxStreamNumber + 1)) = some (short, left) ∧
    Streams py short

/-- A value that is no number begins with nothing a number begins with. -/
theorem matchNumber_other {value : Value} (other : ∀ number, value ≠ .number number)
    (rest : Bytes) : matchNumber (value.text ++ rest) = none := by
  cases value with
  | literal which => cases which <;> exact matchNumber_none (by decide) rfl
  | number number => exact absurd rfl (other number)
  | string pieces => exact matchNumber_none (by decide) rfl
  | empty kind lead => cases kind <;> exact matchNumber_none (by decide) rfl
  | full kind head value tail => cases kind <;> exact matchNumber_none (by decide) rfl

/-- A number that straddles what is looked ahead is no value `skip` is to consume. -/
theorem Straddles.not_skippable {text : Bytes} (straddles : Straddles py text) :
    ¬∃ pad value rest, Skippable py text pad value rest := by
  rintro ⟨pad, value, rest, rfl, longest, numbers, _⟩
  obtain ⟨number, _, _, _, found, long, _⟩ := straddles
  rw [dropBlank_append pad (noBlank_value value rest)] at found
  by_cases isNumber : ∃ number, value = .number number
  · obtain ⟨due, rfl⟩ := isNumber
    have same : matchNumber ((Value.number due).text ++ rest) = some (due, rest) := longest
    rw [same] at found
    obtain ⟨rfl, _⟩ := Prod.mk.inj (Option.some.inj found)
    exact absurd numbers.2 (not_le.mpr long)
  · rw [matchNumber_other (not_exists.mp isNumber)] at found
    cases found

/-! ### A number due -/

theorem matchLiteral_seen {number : Number} {seen more rest : Bytes}
    (split : number.text ++ rest = seen ++ more) : matchLiteral seen = none := by
  cases seen with
  | nil => rfl
  | cons code seen =>
    obtain ⟨first, later, text, shape⟩ := number.text_eq_cons
    rw [text] at split
    obtain ⟨rfl, _⟩ := List.cons.inj split
    refine matchLiteral_none ?_
    rcases shape with rfl | digit
    · decide
    · simp only [isDigit, Bool.and_eq_true, decide_eq_true_eq] at digit
      omega

/-- Where a number is due `skip` is `_scalar` past the white space. -/
theorem skip_at_number {octet : Nat} {pad : Blank} {number : Number} {rest : Bytes}
    (sane : stream.Sane) (unread : stream.unread = pad.codes ++ (number.text ++ rest))
    (finds : nextOctet where_ stream = (.ok octet, between)) :
    Stream.Passes stream pad.codes between ∧ between.unread = number.text ++ rest ∧
      skip py where_ stream = scalar py where_ between := by
  obtain ⟨pad', more, passes, here, solid⟩ := nextOctet_eq_ok sane finds
  have split : pad.codes ++ (number.text ++ rest) = pad'.codes ++ between.unread :=
    unread.symm.trans passes.unread
  have noBlank : NoBlank between.unread := by
    rw [Stream.unread, here]
    exact noBlank_cons solid
  obtain ⟨same, left⟩ := blank_unique (noBlank_value (.number number) rest) noBlank split
  refine ⟨same ▸ passes, left.symm, ?_⟩
  obtain ⟨code, later, text, _, noKind, quote⟩ := @flat_head (.number number) rfl
  have first : octet = code := by
    have heads := congrArg List.head? left
    rw [text, Stream.unread, here] at heads
    exact (Option.some.inj heads).symm
  subst first
  refine (skip_leaf finds noKind).trans (branch_of_not fun isQuote => ?_)
  obtain ⟨_, other⟩ := quote.mp isQuote
  cases other

/-- What `_scalar` comes to with the number it finds in the octets it looked ahead. -/
theorem scalar_at_number {found : Nat} {ahead : Stream} {number short : Number}
    {rest more left : Bytes} (split : number.text ++ rest = ahead.here ++ more)
    (ensures : ensure where_ (maxStreamNumber + 1) stream = (.ok found, ahead))
    (matched : matchNumber ahead.here = some (short, left)) (streams : Streams py short) :
    scalar py where_ stream = advance where_ short.text.length ahead := by
  rw [scalar, seq_of_ok ensures, seq_read]
  simp only [matchLiteral_seen split, matched]
  refine (branch_of_not (not_lt.mpr streams.2)).trans ?_
  have builds : lift (assertJsonNumber py where_ short) ahead = (.ok (), ahead) := by
    rw [lift, assertJsonNumber_eq_ok.mpr streams.1]
  rw [seq_of_ok builds]

/-- Where `skip` consumed a number, what it looked at holds that number and no longer one. -/
theorem skip_sees {pad : Blank} {number : Number} {rest : Bytes} (sane : stream.Sane)
    (unread : stream.unread = pad.codes ++ (number.text ++ rest))
    (skips : skip py where_ stream = (.ok (), after)) :
    ∃ (seen more : Bytes) (short : Number) (left : Bytes), number.text ++ rest = seen ++ more ∧
      (seen.length ≤ maxStreamNumber → more = []) ∧ matchNumber seen = some (short, left) ∧
      Streams py short ∧ Stream.Passes stream (pad.codes ++ short.text) after := by
  obtain ⟨_, _, heads, _⟩ := seq_eq_ok skips
  obtain ⟨octet, between, finds, _⟩ := seq_eq_ok heads
  obtain ⟨passes, due, same⟩ := skip_at_number sane unread finds
  rw [same] at skips
  obtain ⟨found, ahead, ensures, scans⟩ := seq_eq_ok skips
  obtain ⟨looks, size, _, enough⟩ := ensure_eq_ok passes.sane ensures
  have split : number.text ++ rest = ahead.here ++ contents ahead.source :=
    due.symm.trans looks.unread
  rw [seq_read] at scans
  simp only [matchLiteral_seen split] at scans
  cases matched : matchNumber ahead.here with
  | none =>
    rw [matched] at scans
    cases scans
  | some pair =>
    obtain ⟨short, left⟩ := pair
    rw [matched] at scans
    change (if maxStreamNumber < short.text.length then _ else _ : StreamStep Unit) ahead = _ at scans
    split_ifs at scans with long
    · cases scans
    · obtain ⟨_, _, builds, takes⟩ := seq_eq_ok scans
      obtain ⟨built, rfl⟩ := Prod.mk.inj builds
      have taken := (advance_eq_ok looks.sane (matchNumber_sound matched) takes).1
      exact ⟨ahead.here, _, short, left, split, fun few => enough (by omega), matched,
        ⟨assertJsonNumber_eq_ok.mp built, not_lt.mp long⟩, passes.trans (looks.trans taken)⟩

/-- A number is consumed as the document has it, or it straddles what is looked ahead. -/
theorem straddles_of_seen {number short : Number} {rest seen more left : Bytes} {text : Bytes}
    (due : dropBlank text = number.text ++ rest) (split : number.text ++ rest = seen ++ more)
    (whole : matchNumber (number.text ++ rest) = some (number, rest))
    (enough : seen.length ≤ maxStreamNumber → more = [])
    (matched : matchNumber seen = some (short, left)) (streams : Streams py short) :
    short = number ∨ Straddles py text := by
  by_cases long : maxStreamNumber < number.text.length
  · -- what was looked ahead reaches past the most a number may have
    have reaches : maxStreamNumber < seen.length := by
      by_contra few
      have all := congrArg List.length split
      rw [enough (not_lt.mp few), List.append_nil, List.length_append] at all
      omega
    have ahead : (dropBlank text).take (maxStreamNumber + 1) =
        short.text ++ left.take (maxStreamNumber + 1 - short.text.length) := by
      rw [due, split, List.take_append_of_le_length reaches, matchNumber_sound matched,
        List.take_append, List.take_of_length_le (streams.2.trans (Nat.le_succ _))]
    rw [matchNumber_sound matched,
      ← List.take_append_drop (maxStreamNumber + 1 - short.text.length) left] at matched
    have found := matchNumber_cut matched
    rw [← ahead] at found
    exact .inr ⟨number, rest, short, _, due ▸ whole, long, found, streams⟩
  · -- the number is within what was looked ahead, and found there
    left
    obtain ⟨later, rfl, rfl⟩ : ∃ later, seen = number.text ++ later ∧ rest = later ++ more := by
      by_cases few : seen.length ≤ maxStreamNumber
      · rw [enough few, List.append_nil] at split
        exact ⟨rest, split.symm, by rw [enough few, List.append_nil]⟩
      · obtain ⟨later, rfl⟩ := List.prefix_of_prefix_length_le (List.prefix_append number.text rest)
          (split ▸ List.prefix_append seen more) (by omega)
        rw [List.append_assoc] at split
        exact ⟨later, rfl, List.append_cancel_left split⟩
    rw [matchNumber_cut whole] at matched
    exact (Prod.mk.inj (Option.some.inj matched)).1.symm

/-- Where no number straddles what is looked ahead, `skip` consumes the value the document has. -/
theorem skipsOne_of_not_straddles (ready : stream.Ready document) (fed : stream.Fed)
    (unkept : stream.kept = none) (clear : ¬Straddles py stream.unread) :
    SkipsOne py where_ stream := by
  constructor
  · rintro pad value rest ⟨whole, longest, numbers, shallow⟩
    have stands : stream.Stands (pad.codes ++ value.text) rest :=
      ⟨ready.sane, fed, by rw [whole, List.append_assoc], .of_none unkept⟩
    obtain ⟨after, skips, consumed⟩ := @skip_of_stands py where_ _ _ _ _ stands numbers longest shallow
    exact ⟨after, skips, consumed,
      List.append_cancel_left (consumed.unread.symm.trans stands.unread)⟩
  · intro nothing
    rcases skips : skip py where_ stream with ⟨e | ⟨⟩, after⟩
    · obtain ⟨message, rfl⟩ := skip_fetchError ready skips
      exact ⟨message, after, rfl⟩
    refine absurd ?_ nothing
    obtain ⟨pad, value, consumed, numbers, shallow⟩ := skip_eq_ok ready.sane skips
    have whole := consumed.unread
    rw [List.append_assoc] at whole
    refine ⟨pad, value, after.unread, whole, ?_, numbers, shallow⟩
    cases value with
    | number token =>
      obtain ⟨number, rest, found, _⟩ := matchNumber_longest token after.unread
      have split := matchNumber_sound found
      obtain ⟨seen, more, short, left, looked, enough, matched, streams, taken⟩ :=
        skip_sees ready.sane whole skips
      have due : dropBlank stream.unread = number.text ++ rest := by
        rw [whole, dropBlank_append pad (noBlank_value (.number token) _)]
        exact split
      have same : short = token := by
        have texts := taken.unread.symm.trans whole
        rw [List.append_assoc] at texts
        exact Number.text_injective (List.append_cancel_right (List.append_cancel_left texts))
      rcases straddles_of_seen due (split ▸ looked) (split ▸ found) enough matched streams with
        isWhole | straddles
      · obtain rfl : number = token := isWhole.symm.trans same
        have left := List.append_cancel_left split
        subst left
        exact found
      · exact absurd straddles clear
    | _ => trivial

/-! ### A document read octet by octet -/

/-- A text that arrives an octet at a time. -/
def octetwise (text : Bytes) : List Arrival :=
  text.map fun octet => .octets octet []

theorem contents_octetwise (text : Bytes) : contents (octetwise text) = text := by
  induction text with
  | nil => rfl
  | cons octet text inductionHypothesis => exact congrArg (octet :: ·) inductionHypothesis

theorem complete_octetwise (text : Bytes) : Complete (octetwise text) := by
  intro arrival member e
  obtain ⟨octet, _, rfl⟩ := List.mem_map.mp member
  nofun

theorem read1_octetwise (text : Bytes) :
    read1 readChunk (octetwise text) = (.ok (text.take 1), octetwise text.tail) := by
  cases text <;> rfl

/-- No more than some octets of a text that arrives an octet at a time were read and not
consumed. -/
def Stream.Ahead (most : Nat) (stream : Stream) : Prop :=
  (∃ text, stream.source = octetwise text) ∧ stream.here.length ≤ most

theorem fill_ahead {most : Nat} {more : Bool} (ahead : stream.Ahead most)
    (ran : fill where_ stream = (.ok more, after)) : after.Ahead (most + 1) := by
  obtain ⟨⟨text, source⟩, few⟩ := ahead
  unfold fill at ran
  split_ifs at ran with ended
  · cases ran
    exact ⟨⟨text, source⟩, few.trans (Nat.le_succ _)⟩
  rw [source, read1_octetwise] at ran
  dsimp only at ran
  cases fed : feed stream.utf8 (text.take 1) with
  | none =>
    rw [fed] at ran
    cases ran
  | some utf8 =>
    rw [fed] at ran
    dsimp only at ran
    split_ifs at ran with nothing
    · cases ran
      exact ⟨⟨text.tail, rfl⟩, few.trans (Nat.le_succ _)⟩
    · cases ran
      refine ⟨⟨text.tail, rfl⟩, ?_⟩
      show (stream.here ++ text.take 1).length ≤ most + 1
      have one := text.length_take_le 1
      rw [List.length_append]
      omega

theorem atEndLoop_ahead {fuel : Nat} {ended : Bool} (sane : stream.Sane) (ahead : stream.Ahead 1)
    (ran : atEndLoop where_ fuel stream = (.ok ended, after)) : after.Ahead 1 := by
  induction fuel generalizing stream with
  | zero => cases ran
  | succ fuel inductionHypothesis =>
    rw [atEndLoop] at ran
    obtain ⟨_, taken, takes, ran⟩ := seq_eq_ok ran
    obtain ⟨passes, here, source⟩ := takeBlank_eq_ok sane takes
    have taken_ahead : taken.Ahead 1 := by
      refine ⟨source ▸ ahead.1, ?_⟩
      rw [here]
      exact (List.dropWhile_suffix _).length_le.trans ahead.2
    obtain ⟨_, _, ⟨⟩, ran⟩ := seq_eq_ok ran
    split_ifs at ran with something
    · cases ran
      exact taken_ahead
    · obtain ⟨more, filled, fills, ran⟩ := seq_eq_ok ran
      have nothing : taken.Ahead 0 := ⟨taken_ahead.1, by rw [not_not.mp something]; rfl⟩
      have filled_ahead := fill_ahead nothing fills
      obtain ⟨fill, _⟩ := fill_eq_ok passes.sane fills
      split_ifs at ran with goes_on
      · exact inductionHypothesis fill.sane filled_ahead ran
      · cases ran
        exact filled_ahead

theorem nextOctet_ahead {octet : Nat} (sane : stream.Sane) (ahead : stream.Ahead 1)
    (ran : nextOctet where_ stream = (.ok octet, after)) : after.Ahead 1 := by
  obtain ⟨ended, between, ends, ran⟩ := seq_eq_ok ran
  have between_ahead := atEndLoop_ahead sane ahead ends
  cases ended with
  | true => cases ran
  | false =>
    cases ran
    exact between_ahead

theorem ensureLoop_ahead {fuel size found : Nat} (ahead : stream.Ahead size)
    (ran : ensureLoop where_ fuel size stream = (.ok found, after)) : after.Ahead size := by
  induction fuel generalizing stream with
  | zero =>
    cases ran
    exact ahead
  | succ fuel inductionHypothesis =>
    rw [ensureLoop] at ran
    obtain ⟨_, _, ⟨⟩, ran⟩ := seq_eq_ok ran
    split_ifs at ran with short
    · obtain ⟨more, filled, fills, ran⟩ := seq_eq_ok ran
      obtain ⟨size, rfl⟩ := Nat.exists_eq_succ_of_ne_zero (Nat.ne_zero_of_lt short)
      have filled_ahead := fill_ahead ⟨ahead.1, Nat.lt_succ_iff.mp short⟩ fills
      split_ifs at ran with goes_on
      · exact inductionHypothesis filled_ahead ran
      · cases ran
        exact filled_ahead
    · cases ran
      exact ahead

/-- A stream that consumed the front of a document and read no further, the rest to arrive an octet
at a time. -/
def Stream.octetwise (document : Bytes) (at_ : Nat) (utf8 : Utf8.State) : Stream :=
  { Stream.new (BitcoinCoreRpc.octetwise (document.drop at_)) with offset := at_, utf8 := utf8 }

/-- `skip` takes a number that straddles what is looked ahead for a shorter one, where the document
is read octet by octet. -/
theorem skip_straddled {number short : Number} {pad : Blank} {rest left : Bytes}
    (sane : stream.Sane) (fed : stream.Fed) (unkept : stream.kept = none) (ahead : stream.Ahead 1)
    (unread : stream.unread = pad.codes ++ (number.text ++ rest))
    (long : maxStreamNumber < number.text.length)
    (matched : matchNumber ((number.text ++ rest).take (maxStreamNumber + 1)) = some (short, left))
    (streams : Streams py short) :
    ∃ after, skip py where_ stream = (.ok (), after) ∧
      Stream.Passes stream (pad.codes ++ short.text) after := by
  obtain ⟨code, later, text, solid, _⟩ := @flat_head (.number number) rfl
  have stands : stream.Stands pad.codes (code :: (later ++ rest)) := by
    refine ⟨sane, fed, ?_, .of_none unkept⟩
    rw [unread, ← List.cons_append, ← text]
    rfl
  obtain ⟨between, _, finds, _, _⟩ := @nextOctet_of_stands where_ stream pad code _ stands solid
  obtain ⟨passes, due, same⟩ := skip_at_number sane unread finds
  have between_ahead := nextOctet_ahead sane ahead finds
  obtain ⟨found, looked, ensures⟩ :=
    @ensureLoop_isOk where_ between (maxStreamNumber + 1) (maxStreamNumber + 1) passes.sane
      (passes.fed fed)
  have looked_ahead := ensureLoop_ahead
    ⟨between_ahead.1, between_ahead.2.trans (Nat.le_add_left 1 maxStreamNumber)⟩ ensures
  obtain ⟨looks, size, _, enough⟩ := ensure_eq_ok passes.sane ensures
  have split : number.text ++ rest = looked.here ++ contents looked.source :=
    due.symm.trans looks.unread
  -- as many octets were read as were asked for, and no more
  have length : looked.here.length = maxStreamNumber + 1 := by
    refine le_antisymm looked_ahead.2 (not_lt.mp fun few => ?_)
    have all := congrArg List.length split
    rw [enough (size ▸ few), List.append_nil, List.length_append] at all
    omega
  rw [split, List.take_append_of_le_length length.ge, List.take_of_length_le length.le] at matched
  obtain ⟨after, takes, taken, _⟩ := @advance_of_room where_ looked looks.sane short.text left
    (matchNumber_sound matched) (.of_none ((passes.trans looks).kept_none unkept))
  refine ⟨after, ?_, passes.trans (looks.trans taken)⟩
  rw [same, scalar_at_number split ensures matched streams]
  exact takes

/-- A document read up to somewhere and no further is one to read on. -/
theorem Stream.ready_octetwise {at_ : Nat} {utf8 : Utf8.State} {codes : List Nat}
    (within : at_ ≤ document.length)
    (decoded : Utf8.run false .start (document.take at_) = some (utf8, codes)) :
    (Stream.octetwise document at_ utf8).Ready document where
  sane := ⟨nofun, nofun⟩
  complete := complete_octetwise _
  within := le_rfl
  held := by
    refine ⟨document.take at_, List.length_take_of_le within, ?_, codes, ?_⟩
    · show document = document.take at_ ++ contents (BitcoinCoreRpc.octetwise (document.drop at_))
      rw [contents_octetwise, List.take_append_drop]
    · show Utf8.run false .start (document.take at_ ++ []) = some (utf8, codes)
      rwa [List.append_nil]

/-- What a stream of a well-formed document is still to read finishes what its decoder was fed. -/
theorem Stream.Ready.fed (ready : stream.Ready document)
    (wellFormed : Utf8.Accepts .start document) : stream.Fed := by
  obtain ⟨consumed, _, whole, codes, decoded⟩ := ready.held
  rw [whole, Stream.unread, ← List.append_assoc] at wellFormed
  exact ⟨ready.complete, (Utf8.accepts_append decoded).mp wellFormed⟩

theorem Stream.Ready.unread_eq (ready : stream.Ready document) :
    stream.unread = document.drop stream.position := by
  obtain ⟨consumed, length, whole, _⟩ := ready.held
  rw [whole, ← length, List.drop_left]

/-- However a well-formed document is cut and whatever was read of it, `skip` consumes the value due
at a place or refuses what is no such value there, but where a number straddles what is looked
ahead. -/
theorem skip_consumes_iff (where_ : Str) (wellFormed : Utf8.Accepts .start document) (at_ : Nat) :
    (∀ stream : Stream, stream.Ready document → stream.position = at_ → stream.kept = none →
      SkipsOne py where_ stream) ↔ ¬Straddles py (document.drop at_) := by
  constructor
  · intro always straddles
    obtain ⟨number, rest, short, left, found, long, matched, streams⟩ := id straddles
    have within : at_ ≤ document.length := by
      by_contra past
      rw [List.drop_of_length_le (by omega)] at found
      cases found
    have cut := wellFormed
    rw [← List.take_append_drop at_ document] at cut
    obtain ⟨utf8, codes, decoded⟩ := cut.run_prefix
    have ready := Stream.ready_octetwise within decoded
    have rests : (Stream.octetwise document at_ utf8).unread = document.drop at_ :=
      contents_octetwise _
    have split := matchNumber_sound found
    have unread : (Stream.octetwise document at_ utf8).unread =
        (blankPrefix (document.drop at_)).codes ++ (number.text ++ rest) := by
      rw [rests, ← split, blankPrefix_append]
    obtain ⟨after, skips, _⟩ := @skip_straddled py where_ _ number short _ rest left ready.sane
      (ready.fed wellFormed) rfl ⟨⟨_, rfl⟩, Nat.zero_le _⟩ unread long (split ▸ matched) streams
    obtain ⟨message, stopped, fails⟩ :=
      (always _ ready rfl rfl).2 (rests ▸ straddles.not_skippable)
    cases skips.symm.trans fails
  · rintro clear stream ready rfl unkept
    exact skipsOne_of_not_straddles ready (ready.fed wellFormed) unkept
      (ready.unread_eq ▸ clear)

/-- A number of 1026 octets in two reads, the first of which ends behind its exponent's sign. -/
def brokenOff : List Arrival :=
  [.octets 0x31 (List.replicate 1022 0x31 ++ [0x65, 0x2B]), .octets 0x35 []]

theorem brokenOff_complete : Complete brokenOff := by
  intro arrival member e
  simp only [brokenOff, List.mem_cons, List.not_mem_nil, or_false] at member
  rcases member with rfl | rfl <;> nofun

theorem brokenOff_wellFormed : Utf8.Accepts .start (contents brokenOff) :=
  ⟨contents brokenOff, by decide +kernel⟩

theorem brokenOff_straddles : Straddles cpython (contents brokenOff) := by
  have due : (matchNumber (dropBlank (contents brokenOff))).any
      (fun found => maxStreamNumber < found.1.text.length) = true := by decide +kernel
  have ahead : (matchNumber ((dropBlank (contents brokenOff)).take (maxStreamNumber + 1))).any
      (fun found => assertJsonNumber cpython [] found.1 = .ok () ∧
        found.1.text.length ≤ maxStreamNumber) = true := by decide +kernel
  obtain ⟨⟨number, rest⟩, found, long⟩ := (Option.any_eq_true _ _).mp due
  obtain ⟨⟨short, left⟩, matched, fits⟩ := (Option.any_eq_true _ _).mp ahead
  have streams := of_decide_eq_true fits
  exact ⟨number, rest, short, left, found, of_decide_eq_true long, matched,
    assertJsonNumber_eq_ok.mp streams.1, streams.2⟩

/-- The same number in one read. -/
def unbroken : List Arrival :=
  [.octets 0x31 (List.replicate 1022 0x31 ++ [0x65, 0x2B, 0x35])]

theorem splitArray_clear : ¬Straddles cpython ((contents splitArray).drop 0) := by
  rintro ⟨number, rest, short, left, found, _⟩
  cases found

/-- An array is consumed however it is cut, and the number is refused in one read and not in every
other cut. -/
theorem skip_consumes_iff_brokenOff :
    (∀ stream : Stream, stream.Ready (contents splitArray) → stream.position = 0 →
      stream.kept = none → SkipsOne cpython [] stream) ∧
    contents unbroken = contents brokenOff ∧
    (skip cpython [] (Stream.new unbroken)).1 =
      .error (refusal [] (str "a number longer than 1024 octets")) ∧
    ¬∀ stream : Stream, stream.Ready (contents brokenOff) → stream.position = 0 →
      stream.kept = none → SkipsOne cpython [] stream :=
  ⟨(skip_consumes_iff [] (by decide +kernel) 0).mpr splitArray_clear, by decide +kernel,
    by decide +kernel,
    fun always => (skip_consumes_iff [] brokenOff_wellFormed 0).mp always brokenOff_straddles⟩

/-- A proper prefix of the number the document holds is consumed as the value. -/
theorem skip_consumes_prefix :
    (skip cpython [] (Stream.new brokenOff)).1 = .ok () ∧
      (skip cpython [] (Stream.new brokenOff)).2.position = 1023 ∧
      (skip cpython [] (Stream.new brokenOff)).2.unread = [0x65, 0x2B, 0x35] ∧
      ¬∀ stream : Stream, stream.Ready (contents brokenOff) → stream.position = 0 →
        stream.kept = none → SkipsOne cpython [] stream := by
  have skips : (skip cpython [] (Stream.new brokenOff)).1 = .ok () := by decide +kernel
  refine ⟨skips, by decide +kernel, by decide +kernel, fun always => ?_⟩
  obtain ⟨message, stopped, fails⟩ :=
    (always _ (.new brokenOff_complete) rfl rfl).2 brokenOff_straddles.not_skippable
  rw [fails] at skips
  cases skips

end BitcoinCoreRpc
