/-
This file says that keeping a value is skipping it, and decoding what was skipped.

A stream that keeps a value runs beside one that does not: each step comes to the same
and leaves the two streams the same but for what is kept, unless what it consumes takes
the value past a hard limit. That is stated of a step at once for every stream, and two
steps in a row have it where each does, so it holds of the whole scanner. What is left is
that the value kept decodes.
-/

import BitcoinCoreRpc.StreamMoves

namespace BitcoinCoreRpc

open JsonText Steps

/-! ### A stream beside one that keeps -/

/-- A stream that keeps what it is told it does. -/
def Stream.holding (limit : Nat) (soft : Bool) (kept : Option Bytes) (stream : Stream) : Stream :=
  { stream with kept := kept, keptLimit := limit, keptSoft := soft }

/-- What is kept grows by no more than what is consumed. -/
def Grows (stream : Stream) (kept : Option Bytes) (after : Stream) (kept' : Option Bytes) : Prop :=
  ∀ held', kept' = some held' → ∃ held, kept = some held ∧
    held'.length + stream.position ≤ held.length + after.position

/-- A step comes to the same while a value is kept, or what it consumes takes the value past its hard
limit, which it is refused for. -/
structure Mirrors {α : Type} (limit : Nat) (soft : Bool) (step : StreamStep α) : Prop where
  forward : ∀ stream : Stream, stream.position ≤ (step stream).2.position
  unkept : ∀ stream : Stream, stream.kept = none → (step stream).2.kept = none
  either : ∀ (stream : Stream) (kept : Option Bytes), stream.kept = none →
    (∃ kept', step (stream.holding limit soft kept) =
        ((step stream).1, (step stream).2.holding limit soft kept') ∧
      Grows stream kept (step stream).2 kept') ∨
    soft = false ∧ (∃ message after,
        step (stream.holding limit soft kept) = (.error (.fetchError message), after)) ∧
      ∃ held, kept = some held ∧ stream.position + limit < (step stream).2.position + held.length

section Rules

variable {α β : Type} {limit : Nat} {soft : Bool}

theorem Grows.refl (stream : Stream) (kept : Option Bytes) : Grows stream kept stream kept :=
  fun held same => ⟨held, same, le_rfl⟩

/-- A step that answers or refuses and leaves the stream as it is. -/
theorem Mirrors.still (outcome : Except Exc α) :
    Mirrors limit soft ((fun stream => (outcome, stream)) : StreamStep α) where
  forward _ := le_rfl
  unkept _ := id
  either stream kept _ := .inl ⟨kept, rfl, .refl stream kept⟩

theorem Mirrors.pure (answer : α) : Mirrors limit soft (Pure.pure answer : StreamStep α) :=
  .still (.ok answer)

theorem Mirrors.fail (e : Exc) : Mirrors limit soft (Steps.fail e : StreamStep α) :=
  .still (.error e)

theorem Mirrors.lift (outcome : Except Exc α) :
    Mirrors limit soft (Steps.lift outcome : StreamStep α) :=
  .still outcome

/-- What a step reads of the stream is not what is kept. -/
theorem Mirrors.read {rest : Stream → StreamStep β}
    (same : ∀ stream kept, rest (stream.holding limit soft kept) = rest stream)
    (each : ∀ stream, Mirrors limit soft (rest stream)) :
    Mirrors limit soft (Steps.read >>= rest) where
  forward stream := (each stream).forward stream
  unkept stream := (each stream).unkept stream
  either stream kept unkept := by
    show (∃ kept', rest (stream.holding limit soft kept) (stream.holding limit soft kept) = _ ∧ _) ∨
      soft = false ∧ (∃ message after,
        rest (stream.holding limit soft kept) (stream.holding limit soft kept) = _) ∧ _
    rw [same stream kept]
    exact (each stream).either stream kept unkept

/-- Two steps in a row mirror where each does. -/
theorem Mirrors.seq {step : StreamStep α} {rest : α → StreamStep β} (first : Mirrors limit soft step)
    (others : ∀ answer, Mirrors limit soft (rest answer)) :
    Mirrors limit soft (step >>= rest) where
  forward stream := by
    have early := first.forward stream
    rcases ran : step stream with ⟨e | answer, between⟩
    · rw [ran] at early
      rw [seq_of_error ran]
      exact early
    · rw [ran] at early
      rw [seq_of_ok ran]
      exact early.trans ((others answer).forward between)
  unkept stream none_ := by
    have early := first.unkept stream none_
    rcases ran : step stream with ⟨e | answer, between⟩
    · rw [ran] at early
      rw [seq_of_error ran]
      exact early
    · rw [ran] at early
      rw [seq_of_ok ran]
      exact (others answer).unkept between early
  either stream kept none_ := by
    have early := first.either stream kept none_
    have unkept := first.unkept stream none_
    rcases ran : step stream with ⟨e | answer, between⟩
    · rw [ran] at early
      rw [seq_of_error ran]
      rcases early with ⟨kept', mirrored, grows⟩ | ⟨hard, ⟨message, after, refused⟩, passed⟩
      · exact .inl ⟨kept', seq_of_error mirrored, grows⟩
      · exact .inr ⟨hard, ⟨message, after, seq_of_error refused⟩, passed⟩
    · rw [ran] at early unkept
      rw [seq_of_ok ran]
      rcases early with ⟨kept', mirrored, grows⟩ | ⟨hard, ⟨message, after, refused⟩, held, same, passed⟩
      · rw [seq_of_ok mirrored]
        rcases (others answer).either between kept' unkept with
          ⟨kept'', mirrored', grows'⟩ | ⟨hard, refused, held', same', passed⟩
        · refine .inl ⟨kept'', mirrored', fun held'' last => ?_⟩
          obtain ⟨held', middle, late⟩ := grows' held'' last
          obtain ⟨held, first, early⟩ := grows held' middle
          exact ⟨held, first, by dsimp only at early; omega⟩
        · obtain ⟨held, first, early⟩ := grows held' same'
          exact .inr ⟨hard, refused, held, first, by dsimp only at early; omega⟩
      · have later := (others answer).forward between
        exact .inr ⟨hard, ⟨message, after, seq_of_error refused⟩, held, same,
          by dsimp only at passed; omega⟩

theorem Mirrors.branch {condition : Prop} [Decidable condition] {taken other : StreamStep α}
    (first : Mirrors limit soft taken) (second : Mirrors limit soft other) :
    Mirrors limit soft (if condition then taken else other) := by
  split_ifs
  · exact first
  · exact second

end Rules

/-! ### Each step -/

section Steps

variable {py : Interpreter} {where_ : Str} {limit : Nat} {soft : Bool}

theorem fill_position (stream : Stream) : (fill where_ stream).2.position = stream.position := by
  unfold fill
  split_ifs
  · rfl
  split
  · rfl
  · split
    · rfl
    · split_ifs <;> rfl

theorem fill_holding (stream : Stream) (kept : Option Bytes) :
    fill where_ (stream.holding limit soft kept) =
      ((fill where_ stream).1, (fill where_ stream).2.holding limit soft kept) := by
  unfold fill
  show (if stream.ended then _ else _) = _
  split_ifs
  · rfl
  dsimp only [Stream.holding]
  rcases read1 readChunk stream.source with ⟨e | chunk, rest⟩
  · rfl
  dsimp only
  cases feed stream.utf8 chunk with
  | none => rfl
  | some utf8 =>
    dsimp only
    split_ifs <;> rfl

theorem mirrors_fill : Mirrors limit soft (fill where_) where
  forward stream := (fill_position stream).ge
  unkept stream none_ := fill_kept.trans none_
  either stream kept _ := by
    refine .inl ⟨kept, fill_holding stream kept, fun held same => ⟨held, same, ?_⟩⟩
    rw [fill_position]

/-- An advance while a value is kept. -/
theorem advance_holding (stream : Stream) (kept : Bytes) (size : Nat) :
    advance where_ size (stream.holding limit soft (some kept)) =
      if limit < (kept ++ stream.here.take size).length then
        if soft then
          (.ok (), ({ stream with pos := stream.pos + size } : Stream).holding limit soft none)
        else
          (.error (refusal where_ (str "a value longer than the " ++ natText limit ++
            str " octets asked for")),
            stream.holding limit soft (some (kept ++ stream.here.take size)))
      else
        (.ok (), ({ stream with pos := stream.pos + size } : Stream).holding limit soft
          (some (kept ++ stream.here.take size))) := rfl

theorem mirrors_advance (size : Nat) : Mirrors limit soft (advance where_ size) where
  forward stream := by
    unfold advance
    split
    · exact Nat.add_le_add_left (Nat.le_add_right _ _) _
    · dsimp only
      split_ifs
      · exact Nat.add_le_add_left (Nat.le_add_right _ _) _
      · exact le_rfl
      · exact Nat.add_le_add_left (Nat.le_add_right _ _) _
  unkept stream none_ := by
    unfold advance
    rw [none_]
  either stream kept none_ := by
    have same : advance where_ size stream = (.ok (), { stream with pos := stream.pos + size }) := by
      unfold advance
      rw [none_]
    have later : ({ stream with pos := stream.pos + size } : Stream).position =
        stream.position + size := (Nat.add_assoc _ _ _).symm
    rw [same]
    cases kept with
    | none => exact .inl ⟨none, rfl, nofun⟩
    | some kept =>
      have shorter : (stream.here.take size).length ≤ size := List.length_take_le _ _
      rw [List.length_take] at shorter
      rw [advance_holding]
      split_ifs with long soft
      · exact .inl ⟨none, rfl, nofun⟩
      · rw [List.length_append, List.length_take] at long
        exact .inr ⟨by simpa using soft, ⟨_, _, rfl⟩, kept, rfl, by dsimp only; omega⟩
      · refine .inl ⟨_, rfl, ?_⟩
        rintro _ ⟨⟩
        refine ⟨kept, rfl, ?_⟩
        rw [List.length_append, List.length_take]
        dsimp only
        omega

theorem mirrors_takeBlank : Mirrors limit soft (takeBlank where_) :=
  .read (fun _ _ => rfl) fun _ => .branch (mirrors_advance _) (.pure ())

theorem mirrors_atEndLoop (fuel : Nat) : Mirrors limit soft (atEndLoop where_ fuel) := by
  induction fuel with
  | zero => exact .fail _
  | succ fuel inductionHypothesis =>
    refine mirrors_takeBlank.seq fun _ => .read (fun _ _ => rfl) fun _ => .branch (.pure _) ?_
    exact mirrors_fill.seq fun _ => .branch inductionHypothesis (.pure _)

/-- A step that is given rounds for what is to be read. -/
theorem Mirrors.rounds {α : Type} {step : Nat → StreamStep α} {rounds : Stream → Nat}
    (same : ∀ stream kept, rounds (stream.holding limit soft kept) = rounds stream)
    (each : ∀ fuel, Mirrors limit soft (step fuel)) :
    Mirrors limit soft (fun stream => step (rounds stream) stream) :=
  .read (fun stream kept => congrArg step (same stream kept)) fun stream => each (rounds stream)

theorem mirrors_atEnd : Mirrors limit soft (atEnd where_) :=
  .rounds (fun _ _ => rfl) mirrors_atEndLoop

theorem mirrors_nextOctet : Mirrors limit soft (nextOctet where_) :=
  mirrors_atEnd.seq fun _ => .branch (.fail _) (.read (fun _ _ => rfl) fun _ => .pure _)

theorem mirrors_expect (octet : Nat) : Mirrors limit soft (expect where_ octet) :=
  mirrors_nextOctet.seq fun _ => .branch (.read (fun _ _ => rfl) fun _ => .fail _) (mirrors_advance 1)

theorem mirrors_ensureLoop (fuel size : Nat) : Mirrors limit soft (ensureLoop where_ fuel size) := by
  induction fuel with
  | zero => exact .read (fun _ _ => rfl) fun _ => .pure _
  | succ fuel inductionHypothesis =>
    refine .read (fun _ _ => rfl) fun _ => .branch ?_ (.read (fun _ _ => rfl) fun _ => .pure _)
    exact mirrors_fill.seq fun _ =>
      .branch inductionHypothesis (.read (fun _ _ => rfl) fun _ => .pure _)

theorem mirrors_ensure (size : Nat) : Mirrors limit soft (ensure where_ size) :=
  mirrors_ensureLoop size size

theorem mirrors_escape : Mirrors limit soft (escape where_) := by
  refine (mirrors_ensure 2).seq fun _ => .branch (.fail _) (.read (fun _ _ => rfl) fun _ => ?_)
  refine .branch (mirrors_advance 2) (.branch ((mirrors_ensure 6).seq fun _ => ?_) (.fail _))
  exact .branch (.fail _) (.read (fun _ _ => rfl) fun _ => .branch (.fail _) (mirrors_advance 6))

theorem mirrors_stringLoop (fuel : Nat) : Mirrors limit soft (stringLoop where_ fuel) := by
  induction fuel with
  | zero => exact .fail _
  | succ fuel inductionHypothesis =>
    refine .read (fun _ _ => rfl) fun stream => (mirrors_advance _).seq fun _ => ?_
    cases stream.here.drop (stream.here.takeWhile isPlain).length with
    | nil => exact mirrors_fill.seq fun _ => .branch inductionHypothesis (.fail _)
    | cons octet rest =>
      refine .branch (mirrors_advance 1) (.branch (.fail _) ?_)
      exact mirrors_escape.seq fun _ => inductionHypothesis

theorem mirrors_string : Mirrors limit soft (string where_) :=
  (mirrors_expect 0x22).seq fun _ => .read (fun _ _ => rfl) fun _ => mirrors_stringLoop _

theorem mirrors_scalar : Mirrors limit soft (scalar py where_) := by
  refine (mirrors_ensure _).seq fun _ => .read (fun _ _ => rfl) fun stream => ?_
  dsimp only
  cases matchLiteral stream.here with
  | some found => exact mirrors_advance _
  | none =>
    cases matchNumber stream.here with
    | none => exact .fail _
    | some found => exact .branch (.fail _) ((Mirrors.lift _).seq fun _ => mirrors_advance _)

theorem mirrors_memberName : Mirrors limit soft (memberName where_) :=
  mirrors_string.seq fun _ => mirrors_expect 0x3A

theorem mirrors_slotHead (kind : Kind) : Mirrors limit soft (slotHead where_ kind) := by
  cases kind with
  | array => exact .pure ()
  | object => exact mirrors_memberName

theorem mirrors_nextIn (open_ : List Kind) : Mirrors limit soft (nextIn where_ open_) := by
  induction open_ with
  | nil => exact .pure none
  | cons kind rest inductionHypothesis =>
    refine mirrors_nextOctet.seq fun octet => (mirrors_advance 1).seq fun _ => ?_
    refine .branch inductionHypothesis (.branch (.read (fun _ _ => rfl) fun _ => .fail _) ?_)
    exact (mirrors_slotHead kind).seq fun _ => .pure _

theorem mirrors_skipHead (open_ : List Kind) : Mirrors limit soft (skipHead py where_ open_) := by
  refine mirrors_nextOctet.seq fun octet => ?_
  cases kindOf octet with
  | some kind =>
    refine .branch (.fail _) ((mirrors_advance 1).seq fun _ => mirrors_nextOctet.seq fun first => ?_)
    exact .branch ((mirrors_slotHead kind).seq fun _ => .pure _)
      ((mirrors_advance 1).seq fun _ => .pure _)
  | none => exact (Mirrors.branch mirrors_string mirrors_scalar).seq fun _ => .pure _

theorem mirrors_skipLoop (fuel : Nat) (open_ : List Kind) :
    Mirrors limit soft (skipLoop py where_ fuel open_) := by
  induction fuel generalizing open_ with
  | zero => exact .fail _
  | succ fuel inductionHypothesis =>
    refine (mirrors_skipHead open_).seq fun found => ?_
    cases found with
    | some entered => exact inductionHypothesis entered
    | none =>
      refine (mirrors_nextIn open_).seq fun found => ?_
      cases found with
      | some entered => exact inductionHypothesis entered
      | none => exact .pure ()

theorem mirrors_skip : Mirrors limit soft (skip py where_) :=
  .rounds (fun _ _ => rfl) fun fuel => mirrors_skipLoop fuel []

end Steps

/-! ### Past white space -/

section Past

variable {py : Interpreter} {where_ : Str} {document : Bytes} {stream between after : Stream}

/-- Past white space the octet is found again. -/
theorem nextOctet_again {octet : Nat} (sane : stream.Sane)
    (ran : nextOctet where_ stream = (.ok octet, between)) :
    nextOctet where_ between = (.ok octet, between) := by
  obtain ⟨_, rest, _, here, solid⟩ := nextOctet_eq_ok sane ran
  exact nextOctet_here here solid

/-- More rounds than enough are as good. -/
theorem skipLoop_more {fuel more : Nat} {open_ : List Kind} (le : fuel ≤ more)
    (inTime : (skipLoop py where_ fuel open_ stream).1 ≠ .error outOfRounds) :
    skipLoop py where_ more open_ stream = skipLoop py where_ fuel open_ stream := by
  induction fuel generalizing more open_ stream with
  | zero => exact absurd rfl inTime
  | succ fuel inductionHypothesis =>
    obtain ⟨more, rfl⟩ : ∃ fewer, more = fewer + 1 := Nat.exists_eq_succ_of_ne_zero (by omega)
    have le' : fuel ≤ more := Nat.le_of_succ_le_succ le
    rcases heads : skipHead py where_ open_ stream with ⟨e | found, headed⟩
    · rw [skipLoop_succ, skipLoop_succ, seq_of_error heads, seq_of_error heads]
    cases found with
    | some entered =>
      rw [skipLoop_some heads] at inTime ⊢
      rw [skipLoop_some heads]
      exact inductionHypothesis le' inTime
    | none =>
      rw [skipLoop_none heads] at inTime ⊢
      rw [skipLoop_none heads]
      rcases steps : nextIn where_ open_ headed with ⟨e | found, stepped⟩
      · rw [behind, behind, seq_of_error steps, seq_of_error steps]
      · rw [behind, seq_of_ok steps] at inTime ⊢
        rw [behind, seq_of_ok steps]
        cases found with
        | some entered => exact inductionHypothesis le' inTime
        | none => rfl

theorem skip_inTime (ready : stream.Ready document) :
    (skip py where_ stream).1 ≠ .error outOfRounds := fun raised =>
  Refusal.inTime ((@skip_proper (Unfit py) py where_ document stream ready).refuses _ raised)

/-- `skip` goes on past white space as it would have from before it. -/
theorem skip_past {octet : Nat} (ready : stream.Ready document)
    (ran : nextOctet where_ stream = (.ok octet, between)) :
    skip py where_ stream = skip py where_ between := by
  have ready' := (@nextOctet_proper (Unfit py) where_ document stream ready).ready ready ran
  have heads : skipHead py where_ [] stream = skipHead py where_ [] between :=
    seq_congr (ran.trans (nextOctet_again ready.sane ran).symm)
  have loops (fuel : Nat) : skipLoop py where_ (fuel + 1) [] stream =
      skipLoop py where_ (fuel + 1) [] between := by
    rw [skipLoop_succ]
    exact seq_congr heads
  have rounds : stream.rounds ≤ stream.rounds + between.rounds := Nat.le_add_right _ _
  have rounds' : between.rounds ≤ stream.rounds + between.rounds := Nat.le_add_left _ _
  have first : skip py where_ stream = _ := (skipLoop_more rounds (skip_inTime ready)).symm
  have second : skip py where_ between = _ := (skipLoop_more rounds' (skip_inTime ready')).symm
  rw [first, second]
  exact loops _

theorem string_past {octet : Nat} (sane : stream.Sane)
    (ran : nextOctet where_ stream = (.ok octet, between)) :
    string where_ stream = string where_ between := by
  have expects : expect where_ 0x22 stream = expect where_ 0x22 between :=
    seq_congr (ran.trans (nextOctet_again sane ran).symm)
  exact seq_congr expects

/-! ### Keeping is skipping -/

/-- `value` where its `skip` answered. -/
theorem value_of_kept {octet limit : Nat} (ran : nextOctet where_ stream = (.ok octet, between))
    (skips : skip py where_ (between.keeping limit false) = (.ok (), after)) :
    value py where_ limit stream = (keptValue py (after.kept.getD []), after.unkept) := by
  have keeps : keep where_ limit false stream = (.ok (), between.keeping limit false) :=
    seq_of_ok ran
  have inner : (do skip py where_; return (← read).kept.getD [] : StreamStep Bytes)
      (between.keeping limit false) = (.ok (after.kept.getD []), after) := seq_of_ok skips
  rw [value, if_neg (by omega), Int.toNat_natCast, seq_of_ok keeps, seq_of_ok (ensuring_of_ok inner)]
  rfl

/-- `value` where its `skip` was refused. -/
theorem value_of_refused {octet limit : Nat} {e : Exc}
    (ran : nextOctet where_ stream = (.ok octet, between))
    (skips : skip py where_ (between.keeping limit false) = (.error e, after)) :
    value py where_ limit stream = (.error e, after.unkept) := by
  have keeps : keep where_ limit false stream = (.ok (), between.keeping limit false) :=
    seq_of_ok ran
  have inner : (do skip py where_; return (← read).kept.getD [] : StreamStep Bytes)
      (between.keeping limit false) = (.error e, after) := seq_of_error skips
  have ensures : ensuring (do skip py where_; return (← read).kept.getD [] : StreamStep Bytes)
      Stream.unkept (between.keeping limit false) = (.error e, after.unkept) := by
    rw [ensuring, inner]
  rw [value, if_neg (by omega), Int.toNat_natCast, seq_of_ok keeps, seq_of_error ensures]

/-- A value that `skip` consumed is answered where it fits its limit, and refused where it does not. -/
theorem value_of_skip (deep : maxStreamDepth ≤ py.nesting) (limit : Nat)
    (ready : stream.Ready document) (unkept : stream.kept = none)
    (skips : skip py where_ stream = (.ok (), after)) :
    ∃ (pad : Blank) (tree : Value) (answer : Json),
      Stream.Passes stream (pad.codes ++ tree.text) after ∧ keptValue py tree.text = .ok answer ∧
      (tree.text.length ≤ limit →
        value py where_ limit stream = (.ok answer, after.holding limit false none)) ∧
      (limit < tree.text.length → ∃ message stopped,
        value py where_ limit stream = (.error (.fetchError message), stopped)) := by
  rcases ran : nextOctet where_ stream with ⟨e | octet, between⟩
  · have failed : skip py where_ stream = (.error e, between) := by
      have heads : skipHead py where_ [] stream = (.error e, between) := seq_of_error ran
      exact seq_of_error heads
    cases failed.symm.trans skips
  obtain ⟨pad, _, blank, here, solid⟩ := nextOctet_eq_ok ready.sane ran
  have ready' := (@nextOctet_proper (Unfit py) where_ document stream ready).ready ready ran
  rw [skip_past ready ran] at skips
  have begins : NoBlank between.unread := by
    rw [Stream.unread, here]
    exact noBlank_cons solid
  have ready'' := (@skip_proper (Unfit py) py where_ document between ready').ready ready' skips
  obtain ⟨pad', tree, consumed, streams, shallow⟩ := skip_eq_ok ready'.sane skips
  have whole : between.unread = pad'.codes ++ tree.text ++ after.unread := consumed.unread
  rw [no_pad (whole ▸ begins), List.nil_append] at consumed whole
  obtain ⟨code, more, text, first⟩ := tree.text_eq_cons
  obtain ⟨chars, decoded⟩ := ready'.decode ready'' consumed.toConsumes
    (by rw [text]; rintro _ ⟨⟩; exact first.ascii) tree.endsAscii
  obtain ⟨answer, built⟩ := @keptValue_isOk py tree chars decoded
    (streams.mono fun _ found => found.1) (shallow.trans deep)
  refine ⟨pad, tree, answer, blank.trans consumed, built, ?_⟩
  have position : after.position = between.position + tree.text.length := consumed.position
  rcases mirrors_skip.either between (some []) (blank.kept_none unkept) with
    ⟨kept, mirrored, _⟩ | ⟨_, ⟨message, stopped, refused⟩, _, ⟨⟩, passed⟩
  · rw [skips] at mirrored
    obtain ⟨tree', kept', _, _, fits, text'⟩ :=
      @skip_keeping_eq_ok py where_ between _ limit ready'.sane begins mirrored
    have same : tree'.text = tree.text :=
      List.append_cancel_right (kept'.unread.symm.trans whole)
    rw [same] at fits text'
    refine ⟨fun _ => ?_, fun long => absurd fits (not_le.mpr long)⟩
    rw [value_of_kept ran mirrored, text', Option.getD_some, built]
    rfl
  · rw [skips] at passed
    refine ⟨fun fits => ?_, fun _ => ⟨message, _, value_of_refused ran refused⟩⟩
    dsimp only [List.length_nil] at passed
    omega

/-- What `skip` is refused with is a FetchError. -/
theorem skip_fetchError {e : Exc} (ready : stream.Ready document)
    (skips : skip py where_ stream = (.error e, after)) : ∃ message, e = .fetchError message := by
  have proper := @skip_proper (fun _ => False) py where_ document stream ready
  rw [skips] at proper
  cases proper.refuses _ rfl with
  | misplaced => exact ⟨_, rfl⟩
  | nameless => exact ⟨_, rfl⟩
  | other raised => exact raised.elim

/-- Where `skip` is refused so is `value`. -/
theorem value_of_unskipped {e : Exc} (limit : Nat) (ready : stream.Ready document)
    (unkept : stream.kept = none) (skips : skip py where_ stream = (.error e, after)) :
    ∃ message message' stopped, e = .fetchError message ∧
      value py where_ limit stream = (.error (.fetchError message'), stopped) := by
  obtain ⟨message, rfl⟩ := skip_fetchError ready skips
  rcases ran : nextOctet where_ stream with ⟨e | octet, between⟩
  · have heads : skipHead py where_ [] stream = (.error e, between) := seq_of_error ran
    have failed : skip py where_ stream = (.error e, between) := seq_of_error heads
    obtain ⟨raised, rfl⟩ := Prod.mk.inj (failed.symm.trans skips)
    obtain rfl := Except.error.inj raised
    have keeps : keep where_ limit false stream = (.error (.fetchError message), between) :=
      seq_of_error ran
    refine ⟨message, message, between, rfl, ?_⟩
    rw [value, if_neg (by omega), Int.toNat_natCast, seq_of_error keeps]
  · obtain ⟨_, _, blank, _⟩ := nextOctet_eq_ok ready.sane ran
    rw [skip_past ready ran] at skips
    rcases mirrors_skip.either between (some []) (blank.kept_none unkept) with
      ⟨kept, mirrored, _⟩ | ⟨_, ⟨message', stopped, refused⟩, _⟩
    · rw [skips] at mirrored
      exact ⟨message, message, _, rfl, value_of_refused ran mirrored⟩
    · exact ⟨message, message', _, rfl, value_of_refused ran refused⟩

/-- A name that `_string` consumed is answered by `_name`, or passed over for its length. -/
theorem name_of_string (ready : stream.Ready document) (unkept : stream.kept = none)
    (strings : string where_ stream = (.ok (), after)) :
    ∃ (pad : Blank) (pieces : List Piece) (text : Str),
      Stream.Passes stream (pad.codes ++ quoted pieces) after ∧
      keptValue py (quoted pieces) = .ok (.string text) ∧
      name py where_ stream =
        (.ok (if (quoted pieces).length ≤ maxStreamName then some text else none),
          after.holding maxStreamName true none) := by
  rcases ran : nextOctet where_ stream with ⟨e | octet, between⟩
  · have expects : expect where_ 0x22 stream = (.error e, between) := seq_of_error ran
    have failed : string where_ stream = (.error e, between) := seq_of_error expects
    cases failed.symm.trans strings
  obtain ⟨pad, _, blank, here, solid⟩ := nextOctet_eq_ok ready.sane ran
  have ready' := (@nextOctet_proper (Unfit py) where_ document stream ready).ready ready ran
  rw [string_past ready.sane ran] at strings
  have begins : NoBlank between.unread := by
    rw [Stream.unread, here]
    exact noBlank_cons solid
  have ready'' := (@string_proper (Unfit py) where_ document between ready').ready ready' strings
  obtain ⟨pad', pieces, consumed⟩ := string_eq_ok ready'.sane strings
  have whole : between.unread = pad'.codes ++ quoted pieces ++ after.unread := consumed.unread
  rw [no_pad (whole ▸ begins), List.nil_append] at consumed whole
  obtain ⟨chars, decoded⟩ := ready'.decode ready'' consumed.toConsumes (by rintro _ ⟨⟩; decide)
    (endsAscii_quoted pieces)
  obtain ⟨codes, encodes, _, built⟩ := @keptValue_text py (.string pieces) chars decoded
  cases encodes with | @string codes _ spelled =>
  refine ⟨pad, pieces, stringValue codes, blank.trans consumed, built, ?_⟩
  rcases (@mirrors_string where_ maxStreamName true).either between (some [])
    (blank.kept_none unkept) with ⟨kept, mirrored, _⟩ | ⟨⟨⟩, _⟩
  rw [strings] at mirrored
  obtain ⟨pieces', kept', text'⟩ :=
    @string_keeping_eq_ok where_ between _ maxStreamName ready'.sane begins mirrored
  have same : quoted pieces' = quoted pieces :=
    List.append_cancel_right (kept'.unread.symm.trans whole)
  rw [same] at text'
  have keeps : keep where_ maxStreamName true stream = (.ok (), between.keeping maxStreamName true) :=
    seq_of_ok ran
  have inner : (do string where_; return (← read).kept : StreamStep (Option Bytes))
      (between.keeping maxStreamName true) = (.ok _, after.holding maxStreamName true kept) :=
    seq_of_ok mirrored
  rw [name, seq_of_ok keeps, seq_of_ok (ensuring_of_ok inner), text', lift]
  have named : NameIs py pieces (if (quoted pieces).length ≤ maxStreamName then
      some (stringValue codes) else none) := by
    split_ifs with fits
    · exact ⟨fits, built⟩
    · exact not_le.mp fits
  rw [keptName_eq_ok.mpr named]
  rfl

/-- Keeping a value is skipping it and decoding it. From any place in any document, however the
document is cut, `value` answers where `skip` does and the value fits, with what json decodes the
value to, and stops where `skip` stops; where either is refused it is with a FetchError. A name is
answered likewise, or passed over where it is long. -/
theorem value_keeps (where_ : Str) (deep : maxStreamDepth ≤ py.nesting) (limit : Nat)
    (ready : stream.Ready document) (unkept : stream.kept = none) :
    (∀ after, skip py where_ stream = (.ok (), after) →
      ∃ (pad : Blank) (tree : Value) (answer : Json),
        Stream.Passes stream (pad.codes ++ tree.text) after ∧ keptValue py tree.text = .ok answer ∧
        (tree.text.length ≤ limit →
          value py where_ limit stream = (.ok answer, after.holding limit false none)) ∧
        (limit < tree.text.length → ∃ message stopped,
          value py where_ limit stream = (.error (.fetchError message), stopped))) ∧
    (∀ e after, skip py where_ stream = (.error e, after) →
      ∃ message message' stopped, e = .fetchError message ∧
        value py where_ limit stream = (.error (.fetchError message'), stopped)) ∧
    ∀ after, string where_ stream = (.ok (), after) →
      ∃ (pad : Blank) (pieces : List Piece) (text : Str),
        Stream.Passes stream (pad.codes ++ quoted pieces) after ∧
        keptValue py (quoted pieces) = .ok (.string text) ∧
        name py where_ stream =
          (.ok (if (quoted pieces).length ≤ maxStreamName then some text else none),
            after.holding maxStreamName true none) :=
  ⟨fun _ skips => value_of_skip deep limit ready unkept skips,
    fun _ _ skips => value_of_unskipped limit ready unkept skips,
    fun _ strings => name_of_string ready unkept strings⟩

/-- An array that arrives in two. -/
def splitArray : List Arrival := [.octets 0x5B [0x31], .octets 0x5D []]

theorem splitArray_complete : Complete splitArray := by
  intro arrival member e
  simp only [splitArray, List.mem_cons, List.not_mem_nil, or_false] at member
  rcases member with rfl | rfl <;> nofun

theorem splitArray_skips : skip cpython [] (Stream.new splitArray) =
    (.ok (), (skip cpython [] (Stream.new splitArray)).2) :=
  Prod.ext (by decide +kernel) rfl

theorem value_keeps_array :
    ∃ (pad : Blank) (tree : Value) (answer : Json),
      Stream.Passes (Stream.new splitArray) (pad.codes ++ tree.text)
          (skip cpython [] (Stream.new splitArray)).2 ∧
        keptValue cpython tree.text = .ok answer ∧
        (tree.text.length ≤ 3 → value cpython [] (3 : Nat) (Stream.new splitArray) =
          (.ok answer, (skip cpython [] (Stream.new splitArray)).2.holding 3 false none)) ∧
        (3 < tree.text.length → ∃ message stopped,
          value cpython [] (3 : Nat) (Stream.new splitArray) =
            (.error (.fetchError message), stopped)) :=
  (value_keeps [] (by decide) 3 (.new splitArray_complete) rfl).1 _ splitArray_skips

end Past

end BitcoinCoreRpc
