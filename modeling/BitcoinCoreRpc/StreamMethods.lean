/-
This file says what the methods of a stream consume that a walk calls: those that keep a
value, enter a container, go on in it or leave it, and check that the document ended.

While a value is kept the stream is another one, with room for so many octets, and what
it consumed is the value's text once it is whole. Past that the stream is as if nothing
had been kept.
-/

import BitcoinCoreRpc.Encoded
import BitcoinCoreRpc.StreamValues

namespace BitcoinCoreRpc

open JsonText Steps

variable {py : Interpreter} {where_ : Str} {stream between after : Stream}

/-! ### Keeping -/

namespace Stream

/-- A stream that stands before a text and keeps no value. -/
theorem stands_of_unkept {text rest : Bytes} (sane : stream.Sane) (fed : stream.Fed)
    (unkept : stream.kept = none) (unread : stream.unread = text ++ rest) :
    stream.Stands text rest :=
  ⟨sane, fed, unread, .of_none unkept⟩

theorem Consumes.kept_none {text : Bytes} (consumes : Consumes stream text after)
    (unkept : stream.kept = none) : after.kept = none := by
  rw [consumes.kept, keptAfter, unkept]

/-- What was consumed while a value was kept was consumed. -/
theorem Passes.unkeep {limit : Nat} {soft : Bool} {text : Bytes} (unkept : stream.kept = none)
    (passes : Passes (stream.keeping limit soft) text after) : Passes stream text after.unkept where
  unread := passes.unread
  position := passes.position
  kept := by rw [keptAfter, unkept]; rfl
  limits kept := absurd rfl kept
  room := .of_none unkept
  sane := ⟨passes.sane.ended, nofun⟩
  accepts := passes.accepts
  complete := passes.complete
  fewer := passes.fewer
  open_ := passes.open_

theorem sane_keeping {limit : Nat} {soft : Bool} (sane : stream.Sane) :
    (stream.keeping limit soft).Sane where
  ended := sane.ended
  kept := by
    rintro _ ⟨⟩
    exact Nat.zero_le _

/-- A whole value is what is kept of it, where it fits. -/
theorem kept_of_keeping {limit : Nat} {soft : Bool} {text : Bytes}
    (consumes : Consumes (stream.keeping limit soft) text after) :
    after.kept = if text.length ≤ limit then some text else none :=
  consumes.kept

theorem length_of_keeping {limit : Nat} {text : Bytes}
    (consumes : Consumes (stream.keeping limit false) text after) : text.length ≤ limit :=
  consumes.room [] rfl rfl

theorem stands_keeping {limit : Nat} {soft : Bool} {text rest : Bytes}
    (stands : stream.Stands text rest) (fits : soft = false → text.length ≤ limit) :
    (stream.keeping limit soft).Stands text rest where
  sane := sane_keeping stands.sane
  fed := ⟨stands.fed.complete, stands.fed.accepts⟩
  unread := stands.unread
  room := by
    rintro _ ⟨⟩ hard
    exact fits hard

end Stream

theorem keep_eq_ok {limit : Nat} {soft : Bool} (sane : stream.Sane)
    (ran : keep where_ limit soft stream = (.ok (), after)) :
    ∃ (between : Stream) (pad : Blank), Stream.Passes stream pad.codes between ∧
      after = between.keeping limit soft ∧ NoBlank between.unread := by
  obtain ⟨octet, between, finds, changes⟩ := seq_eq_ok ran
  obtain ⟨pad, rest, passes, here, solid⟩ := nextOctet_eq_ok sane finds
  cases changes
  refine ⟨between, pad, passes, rfl, ?_⟩
  rw [Stream.unread, here]
  exact noBlank_cons solid

theorem keep_of_stands {limit : Nat} {soft : Bool} {pad : Blank} {octet : Nat} {rest : Bytes}
    (stands : stream.Stands pad.codes (octet :: rest)) (solid : isBlank octet = false) :
    ∃ between, keep where_ limit soft stream = (.ok (), between.keeping limit soft) ∧
      Stream.Passes stream pad.codes between := by
  obtain ⟨between, _, finds, passes, _⟩ :=
    @nextOctet_of_stands where_ stream pad octet rest stands solid
  refine ⟨between, ?_, passes⟩
  rw [keep, seq_of_ok finds]
  rfl

/-- A text that does not begin with white space has none at its front. -/
theorem no_pad {pad : Blank} {text rest : Bytes} (solid : NoBlank (pad.codes ++ text ++ rest)) :
    pad.codes = [] := by
  cases split : pad.codes with
  | nil => rfl
  | cons code more =>
    have white := pad.blank code (split ▸ List.mem_cons_self)
    rw [split] at solid
    rw [solid code rfl] at white
    cases white

/-- A value skipped while it is kept is what is kept. -/
theorem skip_keeping_eq_ok {limit : Nat} (sane : stream.Sane) (solid : NoBlank stream.unread)
    (ran : skip py where_ (stream.keeping limit false) = (.ok (), after)) :
    ∃ tree : Value, Stream.Passes (stream.keeping limit false) tree.text after ∧
      tree.Numbers (Streams py) ∧ tree.depth ≤ maxStreamDepth ∧ tree.text.length ≤ limit ∧
        after.kept = some tree.text := by
  obtain ⟨pad, tree, consumed, numbers, shallow⟩ := skip_eq_ok (Stream.sane_keeping sane) ran
  have whole : stream.unread = pad.codes ++ tree.text ++ after.unread := consumed.unread
  rw [no_pad (whole ▸ solid), List.nil_append] at consumed
  have fits := Stream.length_of_keeping consumed.toConsumes
  have text := Stream.kept_of_keeping consumed.toConsumes
  rw [if_pos fits] at text
  exact ⟨tree, consumed, numbers, shallow, fits, text⟩

/-- `value` consumes one value and answers what its text is decoded to. -/
theorem value_eq_ok {limit : Int} {answer : Json} (sane : stream.Sane) (unkept : stream.kept = none)
    (ran : value py where_ limit stream = (.ok answer, after)) :
    ∃ (pad : Blank) (tree : Value), Stream.Passes stream (pad.codes ++ tree.text) after ∧
      tree.Numbers (Streams py) ∧ tree.depth ≤ maxStreamDepth ∧ (tree.text.length : Int) ≤ limit ∧
        keptValue py tree.text = .ok answer := by
  rw [value] at ran
  split_ifs at ran with negative
  · cases ran
  obtain ⟨_, keeping, keeps, ran⟩ := seq_eq_ok ran
  obtain ⟨between, pad, passes, rfl, solid⟩ := keep_eq_ok sane keeps
  have unkept' := passes.kept_none unkept
  obtain ⟨kept, last, ensures, ran⟩ := seq_eq_ok ran
  obtain ⟨later, inner, rfl⟩ := ensuring_eq_ok ensures
  obtain ⟨_, skipped, skips, reads⟩ := seq_eq_ok inner
  cases reads
  obtain ⟨tree, consumed, numbers, shallow, fits, text⟩ :=
    skip_keeping_eq_ok passes.sane solid skips
  obtain ⟨built, rfl⟩ := Prod.mk.inj ran
  refine ⟨pad, tree, passes.trans (consumed.unkeep unkept'), numbers, shallow, by omega, ?_⟩
  rw [text] at built
  exact built

/-- `value` answers the value it is at, where it fits. -/
theorem value_of_stands {limit : Int} {pad : Blank} {tree : Value} {answer : Json} {rest : Bytes}
    (stands : stream.Stands (pad.codes ++ tree.text) rest) (unkept : stream.kept = none)
    (numbers : tree.Numbers (Streams py)) (delimits : Delimits rest)
    (shallow : tree.depth ≤ maxStreamDepth) (fits : (tree.text.length : Int) ≤ limit)
    (built : keptValue py tree.text = .ok answer) :
    ∃ after, value py where_ limit stream = (.ok answer, after) ∧
      Stream.Passes stream (pad.codes ++ tree.text) after := by
  obtain ⟨code, more, text, begins⟩ := tree.text_eq_cons
  obtain ⟨between, keeps, passes⟩ := @keep_of_stands where_ stream limit.toNat false pad code
    (more ++ rest) (by simpa [text] using stands.front) begins.ne.1
  have unkept' := passes.kept_none unkept
  have stands' := @Stream.stands_keeping _ limit.toNat false _ _ (passes.stands stands)
    (fun _ => by omega)
  obtain ⟨later, skips, consumed⟩ := @skip_of_stands py where_ _ .none tree _ stands' numbers
    (tree.longest_of_delimits delimits) shallow
  have text := Stream.kept_of_keeping consumed.toConsumes
  rw [if_pos (by simp [Blank.none]; omega)] at text
  refine ⟨later.unkept, ?_, passes.trans (consumed.unkeep unkept')⟩
  rw [value, if_neg (by omega), seq_of_ok keeps]
  have inner : (do skip py where_; return (← read).kept.getD [] : StreamStep Bytes)
      (between.keeping limit.toNat false) = (.ok tree.text, later) := by
    rw [seq_of_ok skips, seq_read, text]
    rfl
  rw [seq_of_ok (ensuring_of_ok inner), lift, built]

/-! ### Decoding what was kept -/

/-- What is kept of a value is parsed to what its tree builds, in code points. -/
theorem keptValue_text {tree : Value} {chars : Str}
    (decoded : Utf8.decode false tree.text = some chars) :
    ∃ codes, Encodes codes tree ∧ codes.text = chars ∧
      keptValue py tree.text = build py codes py.nesting := by
  obtain ⟨encoded, _⟩ := Utf8.decode_eq_some_iff.mp decoded
  obtain ⟨codes, later, encodes, split, nothing⟩ :=
    exists_value_codes tree (show Utf8.encode chars = tree.text ++ [] by simp [encoded])
  have whole : chars = codes.text := by
    rw [split, Utf8.encode_eq_nil.mp nothing, List.append_nil]
  refine ⟨codes, encodes, whole.symm, ?_⟩
  obtain ⟨code, rest, begins, first⟩ := codes.text_eq_cons
  have ascii := first.ascii
  have noMark : codes.text.head? ≠ some 0xFEFF := by
    rw [begins, List.head?_cons]
    rintro ⟨⟩
    omega
  rw [keptValue, decoded, whole]
  dsimp only
  rw [loadsText, if_neg noMark, ← decodeDocument_text py ⟨.none, codes, .none⟩]
  simp [Document.text, Blank.none]

/-- A value that was skipped is parsed, where the parser nests as deep. -/
theorem keptValue_isOk {tree : Value} {chars : Str}
    (decoded : Utf8.decode false tree.text = some chars) (numbers : tree.Numbers (Builds py))
    (shallow : tree.depth ≤ py.nesting) : ∃ answer, keptValue py tree.text = .ok answer := by
  obtain ⟨codes, encodes, _, same⟩ := @keptValue_text py tree chars decoded
  rw [same]
  exact (build_isOk py codes py.nesting).mpr ⟨encodes.depth ▸ shallow, encodes.numbers.mp numbers⟩

/-! ### Names -/

/-- What `_name` answers for a name: `none` for a long one, and else what it is decoded to. -/
def NameIs (py : Interpreter) (pieces : List Piece) : Option Str → Prop
  | none => maxStreamName < (quoted pieces).length
  | some text => (quoted pieces).length ≤ maxStreamName ∧
    keptValue py (quoted pieces) = .ok (.string text)

/-- What an iterator yields ahead of the value of a slot. -/
def Yields (py : Interpreter) {kind : Kind} : Entry kind → Option Str → Prop
  | .item, found => found = none
  | .member _ pieces _, found => NameIs py pieces found

theorem keptName_eq_ok {pieces : List Piece} {found : Option Str} :
    keptName py (if (quoted pieces).length ≤ maxStreamName then some (quoted pieces) else none) =
      .ok found ↔ NameIs py pieces found := by
  unfold NameIs
  split_ifs with fits
  · have short : ¬maxStreamName < (quoted pieces).length := not_lt.mpr fits
    cases built : keptValue py (quoted pieces) with
    | error e => cases found <;> simp [keptName, built, short]
    | ok answer =>
      cases answer <;> cases found <;> simp [keptName, built, short, fits]
  · have long : maxStreamName < (quoted pieces).length := not_le.mp fits
    cases found <;> simp [keptName, fits, long]

/-- A name that decodes is one. -/
theorem exists_nameIs {pieces : List Piece} {chars : Str}
    (decoded : Utf8.decode false (quoted pieces) = some chars) : ∃ found, NameIs py pieces found := by
  by_cases fits : (quoted pieces).length ≤ maxStreamName
  · obtain ⟨codes, encodes, _, same⟩ := @keptValue_text py (.string pieces) chars decoded
    cases encodes with | string spelled => exact ⟨some _, fits, same⟩
  · exact ⟨none, not_le.mp fits⟩

/-- A name read while it is kept is what is kept, unless it is long. -/
theorem string_keeping_eq_ok {limit : Nat} (sane : stream.Sane) (solid : NoBlank stream.unread)
    (ran : string where_ (stream.keeping limit true) = (.ok (), after)) :
    ∃ pieces : List Piece, Stream.Passes (stream.keeping limit true) (quoted pieces) after ∧
      after.kept = if (quoted pieces).length ≤ limit then some (quoted pieces) else none := by
  obtain ⟨pad, pieces, consumed⟩ := string_eq_ok (Stream.sane_keeping sane) ran
  have whole : stream.unread = pad.codes ++ quoted pieces ++ after.unread := consumed.unread
  rw [no_pad (whole ▸ solid), List.nil_append] at consumed
  exact ⟨pieces, consumed, Stream.kept_of_keeping consumed.toConsumes⟩

theorem name_eq_ok {found : Option Str} (sane : stream.Sane) (unkept : stream.kept = none)
    (ran : name py where_ stream = (.ok found, after)) :
    ∃ (pad : Blank) (pieces : List Piece), Stream.Passes stream (pad.codes ++ quoted pieces) after ∧
      NameIs py pieces found := by
  obtain ⟨_, keeping, keeps, ran⟩ := seq_eq_ok ran
  obtain ⟨between, pad, passes, rfl, solid⟩ := keep_eq_ok sane keeps
  have unkept' := passes.kept_none unkept
  obtain ⟨kept, last, ensures, ran⟩ := seq_eq_ok ran
  obtain ⟨later, inner, rfl⟩ := ensuring_eq_ok ensures
  obtain ⟨_, named, names, reads⟩ := seq_eq_ok inner
  cases reads
  obtain ⟨pieces, consumed, text⟩ := string_keeping_eq_ok passes.sane solid names
  obtain ⟨built, rfl⟩ := Prod.mk.inj ran
  rw [text] at built
  exact ⟨pad, pieces, passes.trans (consumed.unkeep unkept'), keptName_eq_ok.mp built⟩

theorem name_of_stands {pad : Blank} {pieces : List Piece} {found : Option Str} {rest : Bytes}
    (stands : stream.Stands (pad.codes ++ quoted pieces) rest) (unkept : stream.kept = none)
    (named : NameIs py pieces found) :
    ∃ after, name py where_ stream = (.ok found, after) ∧
      Stream.Passes stream (pad.codes ++ quoted pieces) after := by
  obtain ⟨between, keeps, passes⟩ := @keep_of_stands where_ stream maxStreamName true pad 0x22
    (content pieces ++ [0x22] ++ rest) (by simpa [quoted] using stands.front) rfl
  have unkept' := passes.kept_none unkept
  have stands' := @Stream.stands_keeping _ maxStreamName true _ _ (passes.stands stands)
    nofun
  obtain ⟨later, names, consumed⟩ := @string_of_stands where_ _ .none _ _ stands'
  have text : later.kept = if (quoted pieces).length ≤ maxStreamName then some (quoted pieces)
      else none := Stream.kept_of_keeping consumed.toConsumes
  refine ⟨later.unkept, ?_, passes.trans (consumed.unkeep unkept')⟩
  have inner : (do string where_; return (← read).kept : StreamStep (Option Bytes))
      (between.keeping maxStreamName true) = (.ok later.kept, later) := by
    rw [seq_of_ok names, seq_read]
    rfl
  rw [name, seq_of_ok keeps, seq_of_ok (ensuring_of_ok inner), lift, text,
    keptName_eq_ok.mpr named]

/-! ### Entering, going on, leaving -/

/-- A slot is consumed ahead of its value. -/
theorem slot_eq_ok {kind : Kind} {found : Option Str} (sane : stream.Sane)
    (unkept : stream.kept = none) (ran : slot py where_ kind stream = (.ok found, after)) :
    ∃ taken : Entry kind, Stream.Passes stream taken.text after ∧ Yields py taken found := by
  cases kind with
  | array =>
    cases ran
    exact ⟨.item, .refl sane, rfl⟩
  | object =>
    obtain ⟨found', named, names, ran⟩ := seq_eq_ok ran
    obtain ⟨pad, pieces, passes, isName⟩ := name_eq_ok sane unkept names
    obtain ⟨_, last, expects, ran⟩ := seq_eq_ok ran
    obtain ⟨gap, colon⟩ := expect_eq_ok passes.sane expects
    cases ran
    exact ⟨.member pad pieces gap, passes.trans colon, isName⟩

theorem slot_of_stands {kind : Kind} {taken : Entry kind} {found : Option Str} {rest : Bytes}
    (stands : stream.Stands taken.text rest) (unkept : stream.kept = none)
    (yields : Yields py taken found) :
    ∃ after, slot py where_ kind stream = (.ok found, after) ∧
      Stream.Passes stream taken.text after := by
  cases taken with
  | item =>
    cases yields
    exact ⟨stream, rfl, .refl stands.sane⟩
  | member pad pieces gap =>
    obtain ⟨named, names, passes⟩ :=
      @name_of_stands py where_ stream pad pieces found _ stands.front unkept yields
    obtain ⟨after, expects, colon⟩ :=
      @expect_of_stands where_ named gap 0x3A rest (passes.stands stands) rfl
    refine ⟨after, ?_, passes.trans colon⟩
    rw [slot, seq_of_ok names, seq_of_ok expects]
    rfl

theorem Stream.Consumes.moved {text : Bytes} {delta : Int}
    (consumes : Stream.Consumes stream text after) :
    Stream.Consumes stream text (after.moved delta) where
  unread := consumes.unread
  position := consumes.position
  kept := consumes.kept
  limits := consumes.limits
  room := consumes.room
  sane := ⟨consumes.sane.ended, consumes.sane.kept⟩
  accepts := consumes.accepts
  complete := consumes.complete
  fewer := consumes.fewer

/-- The first resumption of an iterator consumes an empty container, or enters one. -/
theorem enter_eq_ok {kind : Kind} {found : Option (Option Str)} (sane : stream.Sane)
    (unkept : stream.kept = none) (ran : enter py where_ kind stream = (.ok found, after)) :
    (found = none ∧ ∃ pad lead : Blank,
      Stream.Passes stream (pad.codes ++ (Value.empty kind lead).text) after) ∨
    ∃ (yielded : Option Str) (pad lead : Blank) (taken : Entry kind), found = some yielded ∧
      Stream.Consumes stream (pad.codes ++ kind.opener :: (lead.codes ++ taken.text)) after ∧
        after.open_ = stream.open_ + 1 ∧ Yields py taken yielded := by
  obtain ⟨_, entered, expects, ran⟩ := seq_eq_ok ran
  obtain ⟨pad, opens⟩ := expect_eq_ok sane expects
  obtain ⟨octet, ahead, looks, onward⟩ := seq_eq_ok ran
  obtain ⟨lead, rest, blank, here, _⟩ := nextOctet_eq_ok opens.sane looks
  have front := opens.trans blank
  split_ifs at onward with closes
  · subst closes
    obtain ⟨_, left, takes, done⟩ := seq_eq_ok onward
    have closer := (@advance_eq_ok where_ ahead left blank.sane [_] rest here takes).1
    cases done
    refine .inl ⟨rfl, pad, lead, ?_⟩
    have all := front.trans closer
    simpa [Value.text] using all
  · obtain ⟨_, _, changes, last⟩ := seq_eq_ok onward
    cases changes
    have counted : Stream.Consumes stream _ (ahead.moved 1) := front.toConsumes.moved
    obtain ⟨yielded, final, slots, done⟩ := seq_eq_ok last
    obtain ⟨taken, passes, yields⟩ := slot_eq_ok counted.sane (counted.kept_none unkept) slots
    cases done
    refine .inr ⟨yielded, pad, lead, taken, rfl, ?_, ?_, yields⟩
    · have all := counted.trans passes.toConsumes
      simpa using all
    · rw [passes.open_]
      show ahead.open_ + 1 = _
      rw [front.open_]

/-- A later resumption leaves the container, or goes on to its next slot. -/
theorem resume_eq_ok {kind : Kind} {found : Option (Option Str)} (sane : stream.Sane)
    (unkept : stream.kept = none) (ran : resume py where_ kind stream = (.ok found, after)) :
    (found = none ∧ ∃ pad : Blank, Stream.Consumes stream (pad.codes ++ [kind.closer]) after ∧
      after.open_ = stream.open_ - 1) ∨
    ∃ (yielded : Option Str) (pad : Blank) (taken : Entry kind), found = some yielded ∧
      Stream.Passes stream (pad.codes ++ 0x2C :: taken.text) after ∧ Yields py taken yielded := by
  obtain ⟨octet, ahead, looks, ran⟩ := seq_eq_ok ran
  obtain ⟨pad, rest, blank, here, _⟩ := nextOctet_eq_ok sane looks
  obtain ⟨_, left, takes, onward⟩ := seq_eq_ok ran
  have one := blank.trans (@advance_eq_ok where_ ahead left blank.sane [octet] rest here takes).1
  split_ifs at onward with closes comma
  · subst closes
    obtain ⟨_, _, changes, done⟩ := seq_eq_ok onward
    cases changes
    cases done
    refine .inl ⟨rfl, pad, @Stream.Consumes.moved _ _ _ (-1) one.toConsumes, ?_⟩
    show left.open_ - 1 = _
    rw [one.open_]
  · cases onward
  · rw [not_not] at comma
    subst comma
    obtain ⟨yielded, final, slots, done⟩ := seq_eq_ok onward
    obtain ⟨taken, passes, yields⟩ := slot_eq_ok one.sane (one.kept_none unkept) slots
    cases done
    refine .inr ⟨yielded, pad, taken, rfl, ?_, yields⟩
    have all := one.trans passes
    simpa using all

theorem enter_of_empty {kind : Kind} {pad lead : Blank} {rest : Bytes}
    (stands : stream.Stands (pad.codes ++ (Value.empty kind lead).text) rest) :
    ∃ after, enter py where_ kind stream = (.ok none, after) ∧
      Stream.Passes stream (pad.codes ++ (Value.empty kind lead).text) after := by
  have split : pad.codes ++ (Value.empty kind lead).text =
      pad.codes ++ [kind.opener] ++ (lead.codes ++ [kind.closer]) := by simp [Value.text]
  rw [split] at stands ⊢
  obtain ⟨entered, expects, opens⟩ :=
    @expect_of_stands where_ stream pad kind.opener _ stands.front (opener_solid kind)
  obtain ⟨ahead, after, finds, takes, closes⟩ :=
    @take_of_stands where_ entered lead kind.closer rest (opens.stands stands) (closer_solid kind)
  refine ⟨after, ?_, opens.trans closes⟩
  rw [enter, seq_of_ok expects, seq_of_ok finds]
  exact (branch_of rfl).trans (seq_of_ok takes)

/-- An object with members is entered, up to behind the name of the first. -/
theorem enter_of_object {pad front : Blank} {taken : Entry .object} {yielded : Option Str}
    {rest : Bytes} (unkept : stream.kept = none) (yields : Yields py taken yielded)
    (stands : stream.Stands (pad.codes ++ Kind.object.opener :: (front.codes ++ taken.text)) rest) :
    ∃ after, enter py where_ .object stream = (.ok (some yielded), after) ∧
      Stream.Consumes stream (pad.codes ++ Kind.object.opener :: (front.codes ++ taken.text)) after ∧
        after.open_ = stream.open_ + 1 := by
  cases taken with | member lead pieces gap =>
  have split : pad.codes ++ Kind.object.opener ::
      (front.codes ++ (Entry.member lead pieces gap).text) = pad.codes ++ [Kind.object.opener] ++
        (front.append lead).codes ++ (Entry.member .none pieces gap).text := by
    simp [Entry.text, Blank.append, Blank.none]
  rw [split] at stands ⊢
  obtain ⟨entered, expects, opens⟩ :=
    @expect_of_stands where_ stream pad Kind.object.opener _ stands.front.front rfl
  have stands' := (opens.stands stands.front)
  obtain ⟨ahead, _, looks, blank, _⟩ := @nextOctet_of_stands where_ entered (front.append lead) 0x22
    (content pieces ++ 0x22 :: (gap.codes ++ 0x3A :: rest))
    (by simpa [Entry.text, quoted, Blank.none] using stands') rfl
  have counted : Stream.Consumes stream _ (ahead.moved 1) := (opens.trans blank).toConsumes.moved
  obtain ⟨after, slots, named⟩ := @slot_of_stands py where_ (ahead.moved 1) .object
    (.member .none pieces gap) yielded rest (counted.stands stands)
    (counted.kept_none unkept) yields
  refine ⟨after, ?_, counted.trans named.toConsumes, ?_⟩
  · rw [enter, seq_of_ok expects, seq_of_ok looks]
    refine (branch_of_not (by decide)).trans ?_
    have changes : (change (Stream.moved 1) : StreamStep Unit) ahead = (.ok (), ahead.moved 1) := rfl
    rw [seq_of_ok changes, seq_of_ok slots]
    rfl
  · rw [named.open_]
    show ahead.open_ + 1 = _
    rw [blank.open_, opens.open_]

/-- A container is left at its closing bracket. -/
theorem resume_of_close {kind : Kind} {pad : Blank} {rest : Bytes}
    (stands : stream.Stands (pad.codes ++ [kind.closer]) rest) :
    ∃ after, resume py where_ kind stream = (.ok none, after) ∧
      Stream.Consumes stream (pad.codes ++ [kind.closer]) after := by
  obtain ⟨ahead, left, finds, takes, closes⟩ :=
    @take_of_stands where_ stream pad kind.closer rest stands (closer_solid kind)
  refine ⟨left.moved (-1), ?_, closes.toConsumes.moved⟩
  rw [resume, seq_of_ok finds, seq_of_ok takes]
  exact branch_of rfl

/-- Past a comma, an iterator goes on to the next slot. -/
theorem resume_of_more {kind : Kind} {pad : Blank} {taken : Entry kind} {yielded : Option Str}
    {rest : Bytes} (unkept : stream.kept = none) (yields : Yields py taken yielded)
    (stands : stream.Stands (pad.codes ++ 0x2C :: taken.text) rest) :
    ∃ after, resume py where_ kind stream = (.ok (some yielded), after) ∧
      Stream.Passes stream (pad.codes ++ 0x2C :: taken.text) after := by
  have split : pad.codes ++ 0x2C :: taken.text = pad.codes ++ [0x2C] ++ taken.text := by simp
  rw [split] at stands ⊢
  obtain ⟨ahead, moved, finds, takes, comma⟩ :=
    @take_of_stands where_ stream pad 0x2C _ stands.front rfl
  obtain ⟨after, slots, named⟩ := @slot_of_stands py where_ moved kind taken yielded rest
    (comma.stands stands) (comma.kept_none unkept) yields
  refine ⟨after, ?_, comma.trans named⟩
  rw [resume, seq_of_ok finds, seq_of_ok takes]
  refine (branch_of_not (by cases kind <;> decide)).trans ?_
  refine (branch_of_not (not_not.mpr rfl)).trans ?_
  rw [seq_of_ok slots]
  rfl

/-- `end` answers at the end of the document alone. -/
theorem end_eq_ok (sane : stream.Sane) (ran : end_ where_ stream = (.ok (), after)) :
    ∃ pad : Blank, Stream.Passes stream pad.codes after ∧ after.unread = [] ∧ after.source = [] ∧
      after.utf8 = .start := by
  obtain ⟨ended, last, ends, ran⟩ := seq_eq_ok ran
  obtain ⟨pad, passes, _, done⟩ := atEnd_eq_ok sane ends
  cases ended with
  | false => cases ran
  | true =>
    cases ran
    exact ⟨pad, passes, done rfl⟩

theorem end_of_blank {pad : Blank} (sane : stream.Sane) (fed : stream.Fed)
    (unkept : stream.kept = none) (unread : stream.unread = pad.codes) :
    ∃ after, end_ where_ stream = (.ok (), after) := by
  obtain ⟨ended, after, ends⟩ := @atEnd_isOk where_ stream sane fed (.of_none unkept)
  cases ended with
  | true =>
    refine ⟨after, ?_⟩
    rw [end_, seq_of_ok ends]
    rfl
  | false =>
    obtain ⟨blank, passes, found, _⟩ := atEnd_eq_ok sane ends
    obtain ⟨octet, rest, here, solid⟩ := found rfl
    have white := pad.blank octet (by
      rw [← unread, passes.unread, Stream.unread, here]
      simp)
    rw [solid] at white
    cases white

end BitcoinCoreRpc
