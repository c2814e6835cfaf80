/-
This file says what `skip` consumes, and what the methods of a stream that keep a value
or enter a container consume on top of it.

A run of `skip` that answers leads from before a value to behind it, the containers it
has open being the stack of the place: its loop is followed round by round, whatever it
meets. That it answers where a value is there to be read is by induction on that value.
The loop has consumed a value when it goes on as it does behind one, with the rounds it
has left.
-/

import BitcoinCoreRpc.StreamSteps
import BitcoinCoreRpc.Loads

namespace BitcoinCoreRpc

open JsonText Steps

/-- A number `_scalar` consumes. -/
def Streams (py : Interpreter) (number : Number) : Prop :=
  Builds py number ∧ number.text.length ≤ maxStreamNumber

variable {py : Interpreter} {where_ : Str} {stream after : Stream}

/-! ### Numbers and literals -/

theorem assertJsonNumber_eq_ok {number : Number} :
    assertJsonNumber py where_ number = .ok () ↔ Builds py number := by
  unfold assertJsonNumber Builds
  cases buildNumber py number with
  | ok value => simp
  | error e =>
    dsimp only
    split_ifs <;> simp

/-- `_scalar` consumes a number or a literal. -/
theorem scalar_eq_ok (sane : stream.Sane) (ran : scalar py where_ stream = (.ok (), after)) :
    ∃ value : Value, Stream.Passes stream value.text after ∧ value.depth = 0 ∧
      value.Numbers (Streams py) := by
  obtain ⟨_, ahead, ensures, ran⟩ := seq_eq_ok ran
  obtain ⟨passes, _⟩ := ensure_eq_ok sane ensures
  rw [seq_read] at ran
  cases literal : matchLiteral ahead.here with
  | some found =>
    obtain ⟨which, rest⟩ := found
    rw [literal] at ran
    exact ⟨.literal which, passes.trans
      (advance_eq_ok passes.sane (matchLiteral_sound literal) ran).1, rfl, trivial⟩
  | none =>
    rw [literal] at ran
    cases matched : matchNumber ahead.here with
    | none =>
      rw [matched] at ran
      cases ran
    | some found =>
      obtain ⟨number, rest⟩ := found
      rw [matched] at ran
      change (if maxStreamNumber < number.text.length then _ else _ : StreamStep Unit) ahead = _ at ran
      split_ifs at ran with long
      · cases ran
      · obtain ⟨_, _, builds, ran⟩ := seq_eq_ok ran
        obtain ⟨built, rfl⟩ := Prod.mk.inj builds
        exact ⟨.number number, passes.trans
          (advance_eq_ok passes.sane (matchNumber_sound matched) ran).1, rfl,
          assertJsonNumber_eq_ok.mp built, not_lt.mp long⟩

theorem literal_fits (which : Literal) : which.text.length ≤ maxStreamNumber + 1 := by
  cases which <;> decide

/-- `_scalar` consumes the number or the literal it is at. -/
theorem scalar_of_stands {value : Value} {rest : Bytes} (stands : stream.Stands value.text rest)
    (shape : (∃ which, value = .literal which) ∨ ∃ number, value = .number number)
    (numbers : value.Numbers (Streams py)) (longest : value.Longest rest) :
    ∃ after, scalar py where_ stream = (.ok (), after) ∧
      Stream.Passes stream value.text after := by
  have short : value.text.length ≤ maxStreamNumber + 1 := by
    rcases shape with ⟨which, rfl⟩ | ⟨number, rfl⟩
    · exact literal_fits which
    · exact numbers.2.trans (Nat.le_succ _)
  obtain ⟨found, ahead, more, ensures, passes, _, here, _⟩ :=
    @ensure_of_unread where_ stream (maxStreamNumber + 1) value.text rest stands.sane stands.fed
      stands.unread short
  obtain ⟨after, ran, takes, _⟩ := @advance_of_room where_ ahead passes.sane value.text more here
    (passes.still stands).room
  refine ⟨after, ?_, passes.trans takes⟩
  rw [scalar, seq_of_ok ensures, seq_read]
  rcases shape with ⟨which, rfl⟩ | ⟨number, rfl⟩
  · rw [Value.text] at here
    simp only [here, matchLiteral_append]
    exact ran
  · rw [Value.text] at here
    have left := passes.unread.symm.trans stands.unread
    rw [List.nil_append, Stream.unread, here, Value.text, List.append_assoc] at left
    rw [← List.append_cancel_left left] at longest
    have literal : matchLiteral (number.text ++ more) = none := matchLiteral_number number more
    simp only [here, literal, matchNumber_cut longest]
    refine (branch_of_not (not_lt.mpr numbers.2)).trans ?_
    have builds : lift (assertJsonNumber py where_ number) ahead = (.ok (), ahead) := by
      rw [lift, assertJsonNumber_eq_ok.mpr numbers.1]
    rw [seq_of_ok builds]
    exact ran

/-! ### Names -/

/-- A member's name and the colon after it are consumed. -/
theorem memberName_eq_ok (sane : stream.Sane) (ran : memberName where_ stream = (.ok (), after)) :
    ∃ slot : Entry .object, Stream.Passes stream slot.text after := by
  obtain ⟨_, named, names, ran⟩ := seq_eq_ok ran
  obtain ⟨pad, pieces, name⟩ := string_eq_ok sane names
  obtain ⟨gap, colon⟩ := expect_eq_ok name.sane ran
  exact ⟨.member pad pieces gap, name.trans colon⟩

theorem memberName_of_stands {slot : Entry .object} {rest : Bytes}
    (stands : stream.Stands slot.text rest) :
    ∃ after, memberName where_ stream = (.ok (), after) ∧
      Stream.Passes stream slot.text after := by
  cases slot with | member pad pieces gap =>
  obtain ⟨named, names, name⟩ := @string_of_stands where_ stream pad pieces _ stands.front
  obtain ⟨after, expects, colon⟩ :=
    @expect_of_stands where_ named gap 0x3A rest (name.stands stands) rfl
  refine ⟨after, ?_, name.trans colon⟩
  rw [memberName, seq_of_ok names]
  exact expects

/-! ### Skipping, soundly -/

/-- A text `skip` consumed takes it from one place to another. -/
abbrev Skips (py : Interpreter) : Place → Bytes → Place → Prop :=
  Leads (Streams py) (some maxStreamDepth) (· = [])

theorem allows_of_le {depth most : Nat} (le : depth ≤ most) : Allows (some most) depth := by
  rintro _ ⟨⟩
  exact le

/-- The slot a container goes on with is consumed ahead of its value. -/
theorem slotHead_eq_ok {kind : Kind} (sane : stream.Sane)
    (ran : slotHead where_ kind stream = (.ok (), after)) :
    ∃ slot : Entry kind, Stream.Passes stream slot.text after := by
  cases kind with
  | array =>
    cases ran
    exact ⟨.item, .refl sane⟩
  | object => exact memberName_eq_ok sane ran

/-- Where `_next_in` stops: behind the last container, or at the next value of the one left open. -/
def landing : Option (List Kind) → Place
  | none => ⟨[], false⟩
  | some entered => ⟨entered, true⟩

theorem nextIn_eq_ok {open_ : List Kind} {found : Option (List Kind)} (sane : stream.Sane)
    (few : open_.length ≤ maxStreamDepth) (ran : nextIn where_ open_ stream = (.ok found, after)) :
    (∀ entered ∈ found, entered.length ≤ maxStreamDepth) ∧
      ∃ text, Stream.Passes stream text after ∧ Skips py ⟨open_, false⟩ text (landing found) := by
  induction open_ generalizing stream with
  | nil =>
    cases ran
    exact ⟨nofun, [], .refl sane, .refl _⟩
  | cons kind rest inductionHypothesis =>
    rw [nextIn] at ran
    obtain ⟨octet, found', finds, ran⟩ := seq_eq_ok ran
    obtain ⟨pad, more, passes, here, _⟩ := nextOctet_eq_ok sane finds
    obtain ⟨_, moved, takes, onward⟩ := seq_eq_ok ran
    have one := (@advance_eq_ok where_ found' moved passes.sane [octet] more here takes).1
    split_ifs at onward with closes comma
    · subst closes
      have fits : rest.length + 1 ≤ maxStreamDepth := few
      obtain ⟨few', text, consumed, leads⟩ :=
        inductionHypothesis one.sane (Nat.le_of_succ_le fits) onward
      exact ⟨few', _, (passes.trans one).trans consumed,
        (Leads.trans (.gap pad) (.leave (allows_of_le fits))).trans leads⟩
    · cases onward
    · rw [not_not] at comma
      subst comma
      obtain ⟨_, named, names, done⟩ := seq_eq_ok onward
      obtain ⟨slot, name⟩ := slotHead_eq_ok one.sane names
      cases done
      refine ⟨?_, _, (passes.trans one).trans name, ?_⟩
      · rintro _ ⟨⟩
        exact few
      · rw [List.append_assoc]
        exact Leads.trans (.gap pad) (.next slot)

/-- Where `skip` is once it dealt with the value it is at. -/
def beyond (open_ : List Kind) : Option (List Kind) → Place
  | none => ⟨open_, false⟩
  | some entered => ⟨entered, true⟩

theorem skipHead_eq_ok {open_ : List Kind} {found : Option (List Kind)} (sane : stream.Sane)
    (few : open_.length ≤ maxStreamDepth)
    (ran : skipHead py where_ open_ stream = (.ok found, after)) :
    (∀ entered ∈ found, entered.length ≤ maxStreamDepth) ∧
      ∃ text, Stream.Passes stream text after ∧ 0 < text.length ∧
        Skips py ⟨open_, true⟩ text (beyond open_ found) := by
  obtain ⟨octet, found', finds, ran⟩ := seq_eq_ok ran
  obtain ⟨pad, more, passes, here, _⟩ := nextOctet_eq_ok sane finds
  cases container : kindOf octet with
  | some kind =>
    obtain rfl := kindOf_eq_some container
    rw [container] at ran
    change (if open_.length = maxStreamDepth then _ else _ : StreamStep (Option (List Kind))) found' =
      _ at ran
    split_ifs at ran with full
    · cases ran
    have room : open_.length + 1 ≤ maxStreamDepth := Nat.lt_of_le_of_ne few full
    obtain ⟨_, entered, enters, ran⟩ := seq_eq_ok ran
    have one := (@advance_eq_ok where_ found' entered passes.sane [_] more here enters).1
    obtain ⟨first, ahead, looks, onward⟩ := seq_eq_ok ran
    obtain ⟨lead, later, blank, behind, _⟩ := nextOctet_eq_ok one.sane looks
    have front := (passes.trans one).trans blank
    split_ifs at onward with another
    · obtain ⟨_, named, names, done⟩ := seq_eq_ok onward
      obtain ⟨slot, name⟩ := slotHead_eq_ok blank.sane names
      cases done
      refine ⟨?_, _, front.trans name, by simp, ?_⟩
      · rintro _ ⟨⟩
        exact room
      · have leads : Skips py ⟨open_, true⟩ _ _ := (Leads.pad pad).trans (.enter_pad lead slot)
        simpa [beyond] using leads
    · rw [not_not] at another
      subst another
      obtain ⟨_, left, leaves, done⟩ := seq_eq_ok onward
      have closes := (@advance_eq_ok where_ ahead left blank.sane [_] later behind leaves).1
      cases done
      refine ⟨nofun, _, front.trans closes, by simp, ?_⟩
      have empty : Skips py ⟨open_, true⟩ (Value.empty kind lead).text ⟨open_, false⟩ :=
        .value trivial (allows_of_le (by rw [Value.depth]; omega))
      have leads := (Leads.pad pad).trans empty
      simpa [Value.text, beyond] using leads
  | none =>
    rw [container] at ran
    change (leaf py where_ octet >>= _) found' = _ at ran
    obtain ⟨_, left, takes, done⟩ := seq_eq_ok ran
    cases done
    rw [leaf] at takes
    split_ifs at takes with quote
    · obtain ⟨gap, pieces, consumed⟩ := string_eq_ok passes.sane takes
      have string : Skips py ⟨open_, true⟩ (Value.string pieces).text ⟨open_, false⟩ :=
        .value trivial (allows_of_le (by rwa [Value.depth, Nat.zero_add]))
      exact ⟨nofun, _, passes.trans consumed, by simp [quoted],
        (Leads.pad pad).trans ((Leads.pad gap).trans string)⟩
    · obtain ⟨value, consumed, flat, numbers⟩ := scalar_eq_ok passes.sane takes
      have positive := value.text_pos
      exact ⟨nofun, _, passes.trans consumed, by rw [List.length_append]; omega,
        (Leads.pad pad).trans (.value numbers (allows_of_le (by rwa [flat, Nat.zero_add])))⟩

/-- What the loop of `skip` consumes ends every container it has open. -/
theorem skipLoop_eq_ok {fuel : Nat} {open_ : List Kind} (sane : stream.Sane)
    (few : open_.length ≤ maxStreamDepth)
    (ran : skipLoop py where_ fuel open_ stream = (.ok (), after)) :
    ∃ text, Stream.Passes stream text after ∧ Skips py ⟨open_, true⟩ text ⟨[], false⟩ := by
  induction fuel generalizing stream open_ with
  | zero => cases ran
  | succ fuel inductionHypothesis =>
    rw [skipLoop] at ran
    obtain ⟨found, headed, heads, ran⟩ := seq_eq_ok ran
    obtain ⟨fewer, text, consumed, _, leads⟩ := skipHead_eq_ok sane few heads
    cases found with
    | some entered =>
      obtain ⟨rest, consumed', leads'⟩ := inductionHypothesis consumed.sane (fewer _ rfl) ran
      exact ⟨_, consumed.trans consumed', leads.trans leads'⟩
    | none =>
      obtain ⟨found', stepped, steps, ran⟩ := seq_eq_ok ran
      obtain ⟨fewer', text', consumed', leads'⟩ := @nextIn_eq_ok py _ _ _ _ _ consumed.sane few steps
      cases found' with
      | some entered =>
        obtain ⟨rest, consumed'', leads''⟩ := inductionHypothesis consumed'.sane (fewer' _ rfl) ran
        exact ⟨_, (consumed.trans consumed').trans consumed'', (leads.trans leads').trans leads''⟩
      | none =>
        cases ran
        exact ⟨_, consumed.trans consumed', leads.trans leads'⟩

/-- `skip` consumes one value that nests no deeper than it may, whose numbers `call` builds. -/
theorem skip_eq_ok (sane : stream.Sane) (ran : skip py where_ stream = (.ok (), after)) :
    ∃ (pad : Blank) (value : Value), Stream.Passes stream (pad.codes ++ value.text) after ∧
      value.Numbers (Streams py) ∧ value.depth ≤ maxStreamDepth := by
  obtain ⟨text, consumed, leads⟩ := skipLoop_eq_ok sane (Nat.zero_le _) ran
  obtain ⟨pad, value, _, rfl, numbers, fits, rfl⟩ := @Leads.value_of _ _ (· = []) _ rfl leads
  rw [List.append_nil] at consumed
  exact ⟨pad, value, consumed, numbers, fits _ rfl⟩

/-! ### Skipping, completely -/

theorem slotHead_of_stands {kind : Kind} {slot : Entry kind} {rest : Bytes}
    (stands : stream.Stands slot.text rest) :
    ∃ after, slotHead where_ kind stream = (.ok (), after) ∧
      Stream.Passes stream slot.text after := by
  cases slot with
  | item => exact ⟨stream, rfl, .refl stands.sane⟩
  | member pad pieces gap => exact memberName_of_stands stands

/-- An octet past white space is consumed. -/
theorem take_of_stands {pad : Blank} {octet : Nat} {rest : Bytes}
    (stands : stream.Stands (pad.codes ++ [octet]) rest) (solid : isBlank octet = false) :
    ∃ between after, nextOctet where_ stream = (.ok octet, between) ∧
      advance where_ 1 between = (.ok (), after) ∧
        Stream.Passes stream (pad.codes ++ [octet]) after := by
  obtain ⟨between, more, finds, passes, here⟩ :=
    @nextOctet_of_stands where_ stream pad octet rest stands.front solid
  obtain ⟨after, ran, takes, _⟩ := @advance_of_room where_ between passes.sane [octet] more here
    (passes.stands stands).room
  exact ⟨between, after, finds, ran, passes.trans takes⟩

theorem opener_solid (kind : Kind) : isBlank kind.opener = false := by cases kind <;> rfl

theorem closer_solid (kind : Kind) : isBlank kind.closer = false := by cases kind <;> rfl

/-- The octet a value that is no container begins with. -/
theorem flat_head {value : Value} (flat : value.depth = 0) :
    ∃ code rest, value.text = code :: rest ∧ isBlank code = false ∧ kindOf code = none ∧
      (code = 0x22 ↔ ∃ pieces, value = .string pieces) := by
  cases value with
  | literal which => cases which <;> exact ⟨_, _, rfl, rfl, rfl, by simp⟩
  | number number =>
    obtain ⟨code, rest, text, first⟩ := number.text_eq_cons
    have begins := Begins.number code first
    refine ⟨code, rest, text, begins.ne.1, ?_, ?_⟩
    · unfold kindOf
      rcases first with rfl | digit
      · rfl
      · simp only [isDigit, Bool.and_eq_true, decide_eq_true_eq] at digit
        rw [if_neg (by omega), if_neg (by omega)]
    · rcases first with rfl | digit
      · simp
      · simp only [isDigit, Bool.and_eq_true, decide_eq_true_eq] at digit
        simp only [reduceCtorEq, exists_false, iff_false]
        omega
  | string pieces => exact ⟨_, _, rfl, rfl, rfl, by simp⟩
  | empty kind pad => cases flat
  | full kind head value tail => cases flat

/-- `skip` consumes a value with nothing in it at once. -/
theorem skipHead_of_flat {open_ : List Kind} {pad : Blank} {value : Value} {rest : Bytes}
    (stands : stream.Stands (pad.codes ++ value.text) rest) (flat : value.depth = 0)
    (numbers : value.Numbers (Streams py)) (longest : value.Longest rest) :
    ∃ after, skipHead py where_ open_ stream = (.ok none, after) ∧
      Stream.Passes stream (pad.codes ++ value.text) after := by
  obtain ⟨code, more, text, solid, noKind, quote⟩ := flat_head flat
  obtain ⟨between, _, finds, passes, _⟩ := @nextOctet_of_stands where_ stream pad code (more ++ rest)
    (by simpa [text] using stands.front) solid
  have stands' := passes.stands stands
  have leaves : ∃ after, leaf py where_ code between = (.ok (), after) ∧
      Stream.Passes between value.text after := by
    unfold leaf
    split_ifs with isQuote
    · obtain ⟨pieces, rfl⟩ := quote.mp isQuote
      exact @string_of_stands where_ between .none pieces rest stands'
    · refine scalar_of_stands stands' ?_ numbers longest
      cases value with
      | literal which => exact .inl ⟨which, rfl⟩
      | number number => exact .inr ⟨number, rfl⟩
      | string pieces => exact absurd (quote.mpr ⟨pieces, rfl⟩) isQuote
      | empty kind pad => cases flat
      | full kind head value tail => cases flat
  obtain ⟨after, ran, consumed⟩ := leaves
  refine ⟨after, ?_, passes.trans consumed⟩
  rw [skipHead, seq_of_ok finds, noKind]
  show (leaf py where_ code >>= _) between = _
  rw [seq_of_ok ran]
  rfl

/-- `skip` enters a container, up to the octet behind the white space in it. -/
theorem skipHead_opens {open_ : List Kind} {pad lead : Blank} {kind : Kind} {octet : Nat}
    {rest : Bytes} (stands : stream.Stands (pad.codes ++ kind.opener :: lead.codes) (octet :: rest))
    (solid : isBlank octet = false) (room : open_.length ≠ maxStreamDepth) :
    ∃ after more, Stream.Passes stream (pad.codes ++ kind.opener :: lead.codes) after ∧
      after.here = octet :: more ∧ skipHead py where_ open_ stream =
        (if octet ≠ kind.closer then do
          slotHead where_ kind
          return some (kind :: open_)
        else do
          advance where_ 1
          return none : StreamStep (Option (List Kind))) after := by
  have split : pad.codes ++ kind.opener :: lead.codes = pad.codes ++ [kind.opener] ++ lead.codes := by
    simp
  rw [split] at stands ⊢
  obtain ⟨between, entered, finds, takes, one⟩ :=
    @take_of_stands where_ stream pad kind.opener _ stands.front (opener_solid kind)
  obtain ⟨after, more, looks, blank, here⟩ :=
    @nextOctet_of_stands where_ entered lead octet rest (one.stands stands) solid
  refine ⟨after, more, one.trans blank, here, ?_⟩
  rw [skipHead, seq_of_ok finds, kindOf_opener]
  refine (branch_of_not room).trans ?_
  rw [seq_of_ok takes, seq_of_ok looks]

theorem skipHead_of_empty {open_ : List Kind} {pad lead : Blank} {kind : Kind} {rest : Bytes}
    (stands : stream.Stands (pad.codes ++ (Value.empty kind lead).text) rest)
    (room : open_.length ≠ maxStreamDepth) :
    ∃ after, skipHead py where_ open_ stream = (.ok none, after) ∧
      Stream.Passes stream (pad.codes ++ (Value.empty kind lead).text) after := by
  have split : pad.codes ++ (Value.empty kind lead).text =
      pad.codes ++ kind.opener :: lead.codes ++ [kind.closer] := by simp [Value.text]
  rw [split] at stands ⊢
  obtain ⟨between, more, opens, here, same⟩ := @skipHead_opens py where_ stream open_ pad lead kind
    kind.closer rest stands.front (closer_solid kind) room
  obtain ⟨after, ran, closes, _⟩ := @advance_of_room where_ between opens.sane [kind.closer] more here
    (opens.stands stands).room
  refine ⟨after, ?_, opens.trans closes⟩
  rw [same]
  exact (branch_of_not (not_not.mpr rfl)).trans (seq_of_ok ran)

/-- `skip` enters a container with a value in it, the white space before that value left or not. -/
theorem skipHead_of_full {open_ : List Kind} {pad lead : Blank} {kind : Kind} {slot : Entry kind}
    {value : Value} {rest : Bytes}
    (stands : stream.Stands (pad.codes ++ kind.opener :: (slot.text ++ lead.codes) ++ value.text)
      rest) (room : open_.length ≠ maxStreamDepth) :
    ∃ after consumed left, skipHead py where_ open_ stream = (.ok (some (kind :: open_)), after) ∧
      Stream.Passes stream (pad.codes ++ kind.opener :: consumed) after ∧
        slot.text ++ lead.codes = consumed ++ Blank.codes left := by
  cases slot with
  | item =>
    obtain ⟨code, later, text, begins⟩ := value.text_eq_cons
    obtain ⟨between, more, opens, here, same⟩ := @skipHead_opens py where_ stream open_ pad lead
      .array code (later ++ rest) (by simpa [text, Entry.text] using stands.front) begins.ne.1 room
    refine ⟨between, lead.codes, .none, ?_, opens, by simp [Entry.text, Blank.none]⟩
    rw [same]
    exact branch_of (begins.ne.2.1 .array)
  | member front pieces gap =>
    have split : pad.codes ++ Kind.object.opener :: ((Entry.member front pieces gap).text ++
        lead.codes) ++ value.text = pad.codes ++ Kind.object.opener :: front.codes ++
          (Entry.member .none pieces gap).text ++ (lead.codes ++ value.text) := by
      simp [Entry.text, Blank.none]
    rw [split] at stands
    obtain ⟨between, more, opens, here, same⟩ := @skipHead_opens py where_ stream open_ pad front
      .object 0x22 _ (by simpa [Entry.text, quoted, Blank.none] using stands.front.front) rfl room
    obtain ⟨after, names, name⟩ := @memberName_of_stands where_ between (.member .none pieces gap) _
      (opens.stands stands.front)
    refine ⟨after, (Entry.member front pieces gap).text, lead, ?_, ?_, rfl⟩
    · rw [same]
      refine (branch_of (by decide)).trans ?_
      show (memberName where_ >>= _) between = _
      rw [seq_of_ok names]
      rfl
    · have texts : pad.codes ++ Kind.object.opener :: (Entry.member front pieces gap).text =
          pad.codes ++ Kind.object.opener :: front.codes ++ (Entry.member .none pieces gap).text := by
        simp [Entry.text, Blank.none]
      rw [texts]
      exact opens.trans name

/-- What the loop of `skip` does behind a value. -/
def behind (where_ : Str) (py : Interpreter) (fuel : Nat) (open_ : List Kind) : StreamStep Unit := do
  match ← nextIn where_ open_ with
  | some entered => skipLoop py where_ fuel entered
  | none => return

theorem skipLoop_succ {fuel : Nat} {open_ : List Kind} :
    skipLoop py where_ (fuel + 1) open_ = (do
      match ← skipHead py where_ open_ with
      | some entered => skipLoop py where_ fuel entered
      | none => behind where_ py fuel open_) := rfl

theorem skipLoop_none {fuel : Nat} {open_ : List Kind}
    (heads : skipHead py where_ open_ stream = (.ok none, after)) :
    skipLoop py where_ (fuel + 1) open_ stream = behind where_ py fuel open_ after := by
  rw [skipLoop_succ, seq_of_ok heads]

theorem skipLoop_some {fuel : Nat} {open_ entered : List Kind}
    (heads : skipHead py where_ open_ stream = (.ok (some entered), after)) :
    skipLoop py where_ (fuel + 1) open_ stream = skipLoop py where_ fuel entered after := by
  rw [skipLoop_succ, seq_of_ok heads]

/-- Where the octet due opens no container `skip` is at a leaf. -/
theorem skip_leaf {octet : Nat} {between : Stream}
    (looks : nextOctet where_ stream = (.ok octet, between))
    (noKind : kindOf octet = none) : skip py where_ stream = leaf py where_ octet between := by
  have heads : skipHead py where_ [] stream =
      (leaf py where_ octet >>= fun _ => (return none : StreamStep (Option (List Kind)))) between := by
    rw [skipHead, seq_of_ok looks, noKind]
  rcases ran : leaf py where_ octet between with ⟨e | ⟨⟩, after⟩
  · exact seq_of_error (heads.trans (seq_of_error ran))
  · exact skipLoop_none (heads.trans (seq_of_ok ran))

/-- A closing bracket is dealt with in the round of the value it is behind. -/
theorem behind_close {fuel : Nat} {open_ : List Kind} {kind : Kind} {pad : Blank} {rest : Bytes}
    (stands : stream.Stands (pad.codes ++ [kind.closer]) rest) :
    ∃ after, behind where_ py fuel (kind :: open_) stream = behind where_ py fuel open_ after ∧
      Stream.Passes stream (pad.codes ++ [kind.closer]) after := by
  obtain ⟨between, after, finds, takes, consumed⟩ :=
    @take_of_stands where_ stream pad kind.closer rest stands (closer_solid kind)
  refine ⟨after, ?_, consumed⟩
  have step : nextIn where_ (kind :: open_) stream = nextIn where_ open_ after := by
    rw [nextIn, seq_of_ok finds, seq_of_ok takes]
    exact branch_of rfl
  cases outcome : nextIn where_ open_ after with
  | mk answer last =>
    rw [outcome] at step
    cases answer with
    | ok found => rw [behind, seq_of_ok step, behind, seq_of_ok outcome]
    | error e => rw [behind, seq_of_error step, behind, seq_of_error outcome]

theorem behind_more {fuel : Nat} {open_ : List Kind} {kind : Kind} {pad : Blank} {slot : Entry kind}
    {rest : Bytes} (stands : stream.Stands (pad.codes ++ 0x2C :: slot.text) rest) :
    ∃ after, behind where_ py fuel (kind :: open_) stream =
        skipLoop py where_ fuel (kind :: open_) after ∧
      Stream.Passes stream (pad.codes ++ 0x2C :: slot.text) after := by
  have split : pad.codes ++ 0x2C :: slot.text = pad.codes ++ [0x2C] ++ slot.text := by simp
  rw [split] at stands ⊢
  obtain ⟨between, moved, finds, takes, one⟩ :=
    @take_of_stands where_ stream pad 0x2C _ stands.front rfl
  obtain ⟨after, heads, name⟩ := @slotHead_of_stands where_ moved kind slot rest (one.stands stands)
  refine ⟨after, ?_, one.trans name⟩
  have step : nextIn where_ (kind :: open_) stream = (.ok (some (kind :: open_)), after) := by
    rw [nextIn, seq_of_ok finds, seq_of_ok takes]
    refine (branch_of_not (by cases kind <;> decide)).trans ?_
    refine (branch_of_not (not_not.mpr rfl)).trans ?_
    rw [seq_of_ok heads]
    rfl
  rw [behind, seq_of_ok step]

/-- A value dealt with in one round leaves the loop behind it. -/
theorem skipLoop_once {fuel : Nat} {open_ : List Kind} {pad : Blank} {value : Value}
    (enough : value.text.length ≤ fuel)
    (heads : ∃ after, skipHead py where_ open_ stream = (.ok none, after) ∧
      Stream.Passes stream (pad.codes ++ value.text) after) :
    ∃ fuel' after, skipLoop py where_ fuel open_ stream = behind where_ py fuel' open_ after ∧
      Stream.Passes stream (pad.codes ++ value.text) after ∧ fuel ≤ fuel' + value.text.length := by
  have positive := value.text_pos
  obtain ⟨after, heads, consumed⟩ := heads
  cases fuel with
  | zero => omega
  | succ fuel => exact ⟨fuel, after, skipLoop_none heads, consumed, by omega⟩

mutual
/-- The loop of `skip` at a value goes on as it does behind it. -/
theorem skipLoop_value {fuel : Nat} {stream : Stream} {pad : Blank} {rest : Bytes}
    (open_ : List Kind) : (value : Value) →
      stream.Stands (pad.codes ++ value.text) rest → value.Numbers (Streams py) →
      value.Longest rest →
      value.depth + open_.length ≤ maxStreamDepth → value.text.length ≤ fuel →
      ∃ fuel' after, skipLoop py where_ fuel open_ stream = behind where_ py fuel' open_ after ∧
        Stream.Passes stream (pad.codes ++ value.text) after ∧ fuel ≤ fuel' + value.text.length
  | .literal which, stands, numbers, longest, _, enough =>
    skipLoop_once enough (skipHead_of_flat stands rfl numbers longest)
  | .number number, stands, numbers, longest, _, enough =>
    skipLoop_once enough (skipHead_of_flat stands rfl numbers longest)
  | .string pieces, stands, numbers, longest, _, enough =>
    skipLoop_once enough (skipHead_of_flat stands rfl numbers longest)
  | .empty kind lead, stands, _, _, shallow, enough => by
    rw [Value.depth] at shallow
    exact skipLoop_once enough (skipHead_of_empty stands (by omega))
  | .full kind head value tail, stands, numbers, _, shallow, enough => by
    obtain ⟨slot, lead, split⟩ := Head.exists_entry head
    have texts : pad.codes ++ (Value.full kind head value tail).text =
        pad.codes ++ kind.opener :: (slot.text ++ lead.codes) ++ value.text ++ tail.text := by
      simp [Value.text, split]
    rw [texts] at stands
    simp only [Value.depth, Value.text, List.length_cons, List.length_append] at shallow enough
    obtain ⟨fuel, rfl⟩ : ∃ rounds, fuel = rounds + 1 := Nat.exists_eq_succ_of_ne_zero (by omega)
    obtain ⟨entered, consumed, left, heads, opened, same⟩ := @skipHead_of_full py where_
      _ open_ _ _ _ _ _ _ stands.front (by omega)
    rw [same, ← List.cons_append, ← List.append_assoc, List.append_assoc (_ ++ _) left.codes,
      List.append_assoc _ (left.codes ++ _)] at stands
    have stands' := opened.stands stands
    obtain ⟨fuel', valued, first, one, used⟩ := skipLoop_value (kind :: open_) value
      stands'.front numbers.1 (value.longest_of_delimits (delimits_tail tail rest))
      (by simp only [List.length_cons]; omega) (show value.text.length ≤ fuel by omega)
    obtain ⟨fuel'', after, others, more, used'⟩ := skipLoop_tail fuel' open_ tail
      (one.stands stands') numbers.2 (by omega) (by omega)
    refine ⟨fuel'', after, ?_, ?_, ?_⟩
    · rw [skipLoop_some heads, first, others]
    · rw [texts, same, ← List.cons_append, ← List.append_assoc, List.append_assoc (_ ++ _) left.codes,
        List.append_assoc _ (left.codes ++ _)]
      exact opened.trans (one.trans more)
    · simp only [Value.text, List.length_cons, List.length_append]
      omega

/-- The loop of `skip` behind a value in a container goes on as it does behind the container. -/
theorem skipLoop_tail {kind : Kind} {stream : Stream} {rest : Bytes} (fuel : Nat)
    (open_ : List Kind) : (tail : Tail kind) →
      stream.Stands tail.text rest → tail.Numbers (Streams py) →
      tail.depth + open_.length + 1 ≤ maxStreamDepth → tail.text.length ≤ fuel →
      ∃ fuel' after, behind where_ py fuel (kind :: open_) stream = behind where_ py fuel' open_ after ∧
        Stream.Passes stream tail.text after ∧ fuel ≤ fuel' + tail.text.length
  | .close pad, stands, _, _, _ => by
    obtain ⟨after, same, consumed⟩ := @behind_close py where_ _ fuel open_ _ _ _ stands
    exact ⟨fuel, after, same, consumed, by omega⟩
  | .more pad head value tail, stands, numbers, shallow, enough => by
    obtain ⟨slot, lead, split⟩ := Head.exists_entry head
    have texts : (Tail.more pad head value tail).text =
        pad.codes ++ 0x2C :: slot.text ++ (lead.codes ++ value.text ++ tail.text) := by
      simp [Tail.text, split]
    rw [texts] at stands
    simp only [Tail.depth, Tail.text, List.length_cons, List.length_append] at shallow enough
    obtain ⟨entered, heads, opened⟩ := @behind_more py where_ _ fuel open_ _ _ _ _
      stands.front
    have stands' := opened.stands stands
    obtain ⟨fuel', valued, first, one, used⟩ := skipLoop_value (kind :: open_) value
      stands'.front numbers.1 (value.longest_of_delimits (delimits_tail tail rest))
      (by simp only [List.length_cons]; omega) (show value.text.length ≤ fuel by omega)
    obtain ⟨fuel'', after, others, more, used'⟩ := skipLoop_tail fuel' open_ tail
      (one.stands stands') numbers.2 (by omega) (by omega)
    refine ⟨fuel'', after, ?_, ?_, ?_⟩
    · rw [heads, first, others]
    · rw [texts]
      exact opened.trans (one.trans more)
    · simp only [Tail.text, List.length_cons, List.length_append]
      omega
end

/-- `skip` consumes the value it is at. -/
theorem skip_of_stands {pad : Blank} {value : Value} {rest : Bytes}
    (stands : stream.Stands (pad.codes ++ value.text) rest) (numbers : value.Numbers (Streams py))
    (longest : value.Longest rest) (shallow : value.depth ≤ maxStreamDepth) :
    ∃ after, skip py where_ stream = (.ok (), after) ∧
      Stream.Passes stream (pad.codes ++ value.text) after := by
  have enough : value.text.length ≤ stream.rounds := by
    have := congrArg List.length stands.unread
    simp only [List.length_append] at this
    unfold Stream.rounds
    omega
  obtain ⟨fuel, after, same, consumed, _⟩ := @skipLoop_value py where_ _ _ _ _ [] value
    stands numbers longest shallow enough
  exact ⟨after, same, consumed⟩

end BitcoinCoreRpc
