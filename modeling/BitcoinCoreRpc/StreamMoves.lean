/-
This file says what holds of a stream however a step of it ends.

A step that refuses leaves the stream somewhere, and a walk may catch the refusal and go
on from there. So each step is followed to its end, whichever it is: the octets it took
are the next of the document, none lost, the buffer stays within its bound, and an offset
a refusal names is that of the octet refused. The steps are put together by one rule for
two in a row, and the loops have rounds enough, which is that the operations terminate.
-/

import BitcoinCoreRpc.StreamMethods

namespace BitcoinCoreRpc

open JsonText Steps

/-- The refusal of octets that are not UTF-8, which are lost with it. -/
def notUtf8 (where_ : Str) : Exc :=
  refusal where_ (str "a reply that is not utf-8")

/-! ### Where a step leaves a stream -/

namespace Stream

/-- The decoder was fed what came before the position and what was read behind it. -/
def Decoded (consumed : Bytes) (stream : Stream) : Prop :=
  ∃ codes, Utf8.run false .start (consumed ++ stream.here) = some (stream.utf8, codes)

/-- A stream before and after a text of it was consumed, whatever became of a value kept. Octets
behind the text were lost only where the step is broken. -/
structure Follows (broken : Prop) (before : Stream) (text : Bytes) (after : Stream) : Prop where
  position : after.position = before.position + text.length
  decodes : ∀ consumed, before.Decoded consumed → after.Decoded (consumed ++ text)
  unread : ¬broken → before.unread = text ++ after.unread
  accepts : ¬broken → (Utf8.Accepts before.utf8 (contents before.source) ↔
    Utf8.Accepts after.utf8 (contents after.source))

/-- What holds of a stream and goes on to hold of it, whatever is done to it. -/
structure Keeps (before after : Stream) : Prop where
  forward : before.position ≤ after.position
  within : before.pos ≤ before.buffer.length → after.pos ≤ after.buffer.length
  bounded : before.buffer.length ≤ readChunk + maxStreamNumber →
    after.buffer.length ≤ readChunk + maxStreamNumber
  ended : (before.ended = true → before.source = [] ∧ before.utf8 = .start) →
    after.ended = true → after.source = [] ∧ after.utf8 = .start
  complete : Complete before.source → Complete after.source

end Stream

/-- One call of `_fill` or of `_advance`, whatever it comes to, or a change beside the octets. -/
inductive Move (where_ : Str) : Stream → Stream → Prop
  | fill {stream : Stream} (few : stream.here.length ≤ maxStreamNumber) :
    Move where_ stream (fill where_ stream).2
  | advance {stream : Stream} {size : Nat} (fits : size ≤ stream.here.length) :
    Move where_ stream (advance where_ size stream).2
  | aside {stream : Stream} (kept : Option Bytes) (limit : Nat) (soft : Bool) (open_ : Int) :
    Move where_ stream
      { stream with kept := kept, keptLimit := limit, keptSoft := soft, open_ := open_ }

namespace Stream

/-- A stream before and after a step. -/
structure Moves (where_ : Str) (broken : Prop) (before after : Stream) : Prop where
  chain : Relation.ReflTransGen (Move where_) before after
  follows : ∃ text, Follows broken before text after

/-- A stream of a document, all of which arrives, read up to its position. -/
structure Ready (document : Bytes) (stream : Stream) : Prop where
  sane : stream.Sane
  complete : Complete stream.source
  within : stream.pos ≤ stream.buffer.length
  held : ∃ consumed, consumed.length = stream.position ∧ document = consumed ++ stream.unread ∧
    stream.Decoded consumed

variable {where_ : Str} {broken : Prop} {stream before between after : Stream} {text more : Bytes}

theorem Follows.refl (stream : Stream) : Follows broken stream [] stream :=
  ⟨rfl, fun consumed decoded => by rwa [List.append_nil], fun _ => rfl, fun _ => Iff.rfl⟩

/-- What is kept of what is consumed, and how many containers are open, are beside the octets. -/
theorem Follows.aside (stream : Stream) (kept : Option Bytes) (limit : Nat) (soft : Bool)
    (open_ : Int) : Follows broken stream []
      { stream with kept := kept, keptLimit := limit, keptSoft := soft, open_ := open_ } :=
  ⟨rfl, fun consumed decoded => by rwa [List.append_nil], fun _ => rfl, fun _ => Iff.rfl⟩

theorem Follows.trans (first : Follows broken before text between)
    (second : Follows broken between more after) : Follows broken before (text ++ more) after where
  position := by rw [second.position, first.position, List.length_append, Nat.add_assoc]
  decodes consumed decoded := by
    rw [← List.append_assoc]
    exact second.decodes _ (first.decodes _ decoded)
  unread whole := by rw [first.unread whole, second.unread whole, List.append_assoc]
  accepts whole := (first.accepts whole).trans (second.accepts whole)

theorem Follows.mono {broken' : Prop} (follows : Follows broken before text after)
    (implies : broken → broken') : Follows broken' before text after :=
  ⟨follows.position, follows.decodes, fun whole => follows.unread (whole ∘ implies),
    fun whole => follows.accepts (whole ∘ implies)⟩

theorem Keeps.refl (stream : Stream) : Keeps stream stream :=
  ⟨le_rfl, id, id, id, id⟩

theorem Keeps.aside (stream : Stream) (kept : Option Bytes) (limit : Nat) (soft : Bool)
    (open_ : Int) : Keeps stream
      { stream with kept := kept, keptLimit := limit, keptSoft := soft, open_ := open_ } :=
  ⟨le_rfl, id, id, id, id⟩

theorem Keeps.trans (first : Keeps before between) (second : Keeps between after) :
    Keeps before after where
  forward := first.forward.trans second.forward
  within := second.within ∘ first.within
  bounded := second.bounded ∘ first.bounded
  ended := second.ended ∘ first.ended
  complete := second.complete ∘ first.complete

/-- Octets that were read are passed over, whatever is kept of them. -/
theorem length_here (stream : Stream) : stream.here.length = stream.buffer.length - stream.pos :=
  List.length_drop

theorem keeps_fill (few : stream.here.length ≤ maxStreamNumber) :
    Keeps stream (fill where_ stream).2 := by
  unfold fill
  split_ifs with ended
  · exact .refl stream
  rcases received : read1 readChunk stream.source with ⟨e | chunk, rest⟩
  · exact ⟨le_rfl, id, id, fun _ done => absurd done ended,
      fun complete => absurd received (complete_not_error complete)⟩
  obtain ⟨_, size, complete⟩ := read1_eq_octets received
  dsimp only
  split
  · exact ⟨le_rfl, id, id, fun _ done => absurd done ended, complete⟩
  · next utf8 fed =>
    split_ifs with nothing
    · subst nothing
      obtain ⟨_, rfl⟩ := read1_eq_end (by decide) received
      unfold feed at fed
      rw [if_pos rfl] at fed
      split_ifs at fed
      cases fed
      exact ⟨le_rfl, id, id, fun _ _ => ⟨rfl, rfl⟩, complete⟩
    · refine ⟨le_rfl, fun _ => Nat.zero_le _, fun _ => ?_, fun _ done => absurd done ended, complete⟩
      show (stream.here ++ chunk).length ≤ _
      rw [List.length_append]
      omega

theorem keeps_advance {size : Nat} (fits : size ≤ stream.here.length) :
    Keeps stream (advance where_ size stream).2 := by
  have passed (kept : Option Bytes) :
      Keeps stream { stream with kept := kept, pos := stream.pos + size } := by
    have length := stream.length_here
    refine ⟨Nat.add_le_add_left (Nat.le_add_right _ _) _, fun within => ?_, id, id, id⟩
    show stream.pos + size ≤ stream.buffer.length
    omega
  unfold advance
  split
  · exact passed _
  · dsimp only
    split_ifs
    · exact passed _
    · exact ⟨le_rfl, id, id, id, id⟩
    · exact passed _

/-- No single move breaks it, and so no run of them. -/
theorem keeps_move (move : Move where_ before after) : Keeps before after := by
  cases move with
  | fill few => exact keeps_fill few
  | advance fits => exact keeps_advance fits
  | aside => exact .aside before _ _ _ _

theorem keeps_chain (chain : Relation.ReflTransGen (Move where_) before after) :
    Keeps before after := by
  induction chain with
  | refl => exact .refl before
  | tail _ move inductionHypothesis => exact inductionHypothesis.trans (keeps_move move)

theorem Moves.refl (stream : Stream) : Moves where_ broken stream stream :=
  ⟨.refl, [], .refl stream⟩

theorem Moves.aside (stream : Stream) (kept : Option Bytes) (limit : Nat) (soft : Bool)
    (open_ : Int) : Moves where_ broken stream
      { stream with kept := kept, keptLimit := limit, keptSoft := soft, open_ := open_ } :=
  ⟨.single (.aside kept limit soft open_), [], .aside stream kept limit soft open_⟩

theorem Moves.trans (first : Moves where_ broken before between)
    (second : Moves where_ broken between after) : Moves where_ broken before after := by
  obtain ⟨chain, text, follows⟩ := first
  obtain ⟨chain', more, follows'⟩ := second
  exact ⟨chain.trans chain', text ++ more, follows.trans follows'⟩

theorem Moves.mono {broken' : Prop} (moves : Moves where_ broken before after)
    (implies : broken → broken') : Moves where_ broken' before after := by
  obtain ⟨chain, text, follows⟩ := moves
  exact ⟨chain, text, follows.mono implies⟩

/-- An octet that was read is one of the document. -/
theorem Ready.octet {document rest : Bytes} {found : Nat} (ready : stream.Ready document)
    (here : stream.here = found :: rest) : document[stream.position]? = some found := by
  obtain ⟨consumed, length, rfl, _⟩ := ready.held
  rw [← length, List.getElem?_append_right le_rfl, Nat.sub_self, Stream.unread, here]
  rfl

/-- A stream that was moved is one of the same document, or of what is left of it where octets were
lost. -/
theorem Ready.moved {document : Bytes} (ready : before.Ready document) (keeps : Keeps before after)
    (follows : Follows broken before text after) (sane : after.Sane) :
    ∃ document', after.Ready document' ∧ (¬broken → document' = document) := by
  obtain ⟨consumed, length, whole, decoded⟩ := ready.held
  refine ⟨consumed ++ text ++ after.unread, ⟨sane, keeps.complete ready.complete,
    keeps.within ready.within, consumed ++ text, ?_, rfl, follows.decodes _ decoded⟩, ?_⟩
  · rw [List.length_append, follows.position, length]
  · intro unbroken
    rw [whole, follows.unread unbroken, List.append_assoc]

theorem Ready.still {document : Bytes} (ready : before.Ready document) (keeps : Keeps before after)
    (follows : Follows False before text after) (sane : after.Sane) : after.Ready document := by
  obtain ⟨_, ready', same⟩ := ready.moved keeps follows sane
  rwa [same id] at ready'

end Stream

/-! ### How a step refuses -/

/-- A refusal by a stream of a document: one that names an octet by its offset, which is not the
octet asked for, or one that names none, or something beyond the stream's own. -/
inductive Refusal (beyond : Exc → Prop) (where_ : Str) (document : Bytes) (after : Stream) : Exc → Prop
  | misplaced {expected at_ found : Nat} (here : document[at_]? = some found)
    (other : found ≠ expected) (near : at_ ≤ after.position ∧ after.position ≤ at_ + 1) :
    Refusal beyond where_ document after (misplaced where_ expected at_)
  | nameless {what : Str} (other : what.take 5 ≠ str "not '") :
    Refusal beyond where_ document after (refusal where_ what)
  | other {e : Exc} (raised : beyond e) : Refusal beyond where_ document after e

/-- What `value` raises that is no refusal of the document: a limit that is no limit, and a value
that nests deeper than the parser may, where that is less than `skip` may. -/
inductive Unfit (py : Interpreter) : Exc → Prop
  | negative {limit : Int} (below : limit < 0) :
    Unfit py (.btcRpcValueError (str "negative json value limit: " ++ intText limit))
  | tooDeep (shallow : py.nesting < maxStreamDepth) : Unfit py tooDeep

/-- A step that came to an outcome and left the stream did so properly. -/
structure Proper {α : Type} (beyond : Exc → Prop) (where_ : Str) (document : Bytes) (before : Stream)
    (ran : Except Exc α × Stream) : Prop where
  moves : Stream.Moves where_ (ran.1 = .error (notUtf8 where_)) before ran.2
  sane : ∀ answer, ran.1 = .ok answer → ran.2.Sane
  unkept : before.kept = none → ran.2.kept = none
  refuses : ∀ e, ran.1 = .error e → Refusal beyond where_ document ran.2 e

section Rules

variable {α β : Type} {beyond : Exc → Prop} {where_ : Str} {document : Bytes} {stream : Stream}

theorem Proper.pure (answer : α) (ready : stream.Ready document) :
    Proper beyond where_ document stream ((.ok answer, stream) : Except Exc α × Stream) where
  moves := .refl stream
  sane _ _ := ready.sane
  unkept := id
  refuses := nofun

theorem Proper.fail {e : Exc} (refusal : Refusal beyond where_ document stream e) :
    Proper beyond where_ document stream ((.error e, stream) : Except Exc α × Stream) where
  moves := .refl stream
  sane := nofun
  unkept := id
  refuses := by
    rintro _ ⟨⟩
    exact refusal

theorem Proper.ready {step : StreamStep α} {answer : α} {after : Stream}
    (ready : stream.Ready document) (proper : Proper beyond where_ document stream (step stream))
    (ran : step stream = (.ok answer, after)) : after.Ready document := by
  rw [ran] at proper
  obtain ⟨text, follows⟩ := proper.moves.follows
  exact ready.still (Stream.keeps_chain proper.moves.chain) (follows.mono nofun) (proper.sane _ rfl)

/-- A refusal by the first of two steps is one by both. -/
theorem Proper.failed {e : Exc} {after : Stream}
    (proper : Proper beyond where_ document stream ((.error e, after) : Except Exc α × Stream)) :
    Proper beyond where_ document stream ((.error e, after) : Except Exc β × Stream) where
  moves := proper.moves.mono fun lost => by rw [Except.error.inj lost]
  sane := nofun
  unkept := proper.unkept
  refuses := by
    rintro _ ⟨⟩
    exact proper.refuses _ rfl

/-- Two steps in a row are proper where the second is from where the first leaves the stream. -/
theorem Proper.seq {step : StreamStep α} {rest : α → StreamStep β} (ready : stream.Ready document)
    (first : Proper beyond where_ document stream (step stream))
    (others : ∀ answer between, step stream = (.ok answer, between) → between.Ready document →
      Proper beyond where_ document between (rest answer between)) :
    Proper beyond where_ document stream ((step >>= rest) stream) := by
  rcases ran : step stream with ⟨e | answer, between⟩
  · rw [ran] at first
    rw [seq_of_error ran]
    exact first.failed
  · have second := others answer between ran (first.ready ready ran)
    rw [ran] at first
    rw [seq_of_ok ran]
    exact ⟨(first.moves.mono nofun).trans second.moves, second.sane, second.unkept ∘ first.unkept,
      second.refuses⟩

end Rules

/-! ### Filling and advancing -/

section Reading

variable {beyond : Exc → Prop} {py : Interpreter} {where_ : Str} {document : Bytes}
  {stream after : Stream}

/-- Octets refused as not UTF-8 are lost, and the stream is where it was. -/
theorem fill_eq_error {e : Exc} (complete : Complete stream.source)
    (ran : fill where_ stream = (.error e, after)) :
    e = notUtf8 where_ ∧ Stream.Follows True stream [] after := by
  unfold fill at ran
  split_ifs at ran
  · cases ran
  split at ran
  · next failed => exact absurd failed (complete_not_error complete)
  · split at ran
    · cases ran
      refine ⟨rfl, rfl, fun consumed decoded => ?_, fun whole => absurd trivial whole,
        fun whole => absurd trivial whole⟩
      rw [List.append_nil]
      exact decoded
    · split_ifs at ran <;> cases ran

theorem fill_decodes {more : Bool} {consumed : Bytes} (decoded : stream.Decoded consumed)
    (ran : fill where_ stream = (.ok more, after)) : after.Decoded consumed := by
  obtain ⟨codes, before⟩ := decoded
  unfold fill at ran
  split_ifs at ran
  · cases ran
    exact ⟨codes, before⟩
  rcases received : read1 readChunk stream.source with ⟨e | chunk, rest⟩
  · rw [received] at ran
    cases ran
  rw [received] at ran
  dsimp only at ran
  cases fed : feed stream.utf8 chunk with
  | none =>
    rw [fed] at ran
    cases ran
  | some utf8 =>
    rw [fed] at ran
    dsimp only at ran
    unfold feed at fed
    split_ifs at ran with nothing
    · rw [if_pos nothing] at fed
      split_ifs at fed with finished
      cases fed
      cases ran
      rw [finished] at before
      exact ⟨codes, before⟩
    · rw [if_neg nothing] at fed
      obtain ⟨⟨state, later⟩, decoded, rfl⟩ := Option.map_eq_some_iff.mp fed
      cases ran
      refine ⟨codes ++ later, ?_⟩
      show Utf8.run false .start (consumed ++ (stream.here ++ chunk)) = _
      rw [← List.append_assoc, Utf8.run_append, before, Option.bind_some]
      dsimp only
      rw [decoded]
      rfl

theorem fill_kept : (fill where_ stream).2.kept = stream.kept := by
  unfold fill
  split_ifs
  · rfl
  split
  · rfl
  · split
    · rfl
    · split_ifs <;> rfl

theorem fill_proper (ready : stream.Ready document) (few : stream.here.length ≤ maxStreamNumber) :
    Proper beyond where_ document stream (fill where_ stream) := by
  have chain : Relation.ReflTransGen (Move where_) stream (fill where_ stream).2 :=
    .single (.fill few)
  have kept := @fill_kept where_ stream
  rcases ran : fill where_ stream with ⟨e | more, after⟩
  · rw [ran] at chain kept
    obtain ⟨rfl, follows⟩ := fill_eq_error ready.complete ran
    refine ⟨⟨chain, [], follows.mono fun _ => rfl⟩, nofun, kept.trans, ?_⟩
    rintro _ ⟨⟩
    exact .nameless (by decide +kernel)
  · rw [ran] at chain kept
    obtain ⟨passes, _⟩ := fill_eq_ok ready.sane ran
    refine ⟨⟨chain, [], passes.position, ?_, fun _ => passes.unread, fun _ => passes.accepts⟩,
      fun _ _ => passes.sane, kept.trans, nofun⟩
    intro consumed decoded
    rw [List.append_nil]
    exact fill_decodes decoded ran

/-- The decoder is where it was. -/
theorem advance_utf8 (size : Nat) : (advance where_ size stream).2.utf8 = stream.utf8 := by
  unfold advance
  split
  · rfl
  · dsimp only
    split_ifs <;> rfl

/-- A value kept is within its limit once an advance returned. -/
theorem advance_kept {size : Nat} (ran : advance where_ size stream = (.ok (), after)) :
    ∀ kept, after.kept = some kept → kept.length ≤ after.keptLimit := by
  unfold advance at ran
  split at ran
  · next unkept =>
    cases ran
    intro kept held
    cases unkept.symm.trans held
  · dsimp only at ran
    split_ifs at ran with long soft
    · cases ran
      nofun
    · cases ran
    · cases ran
      rintro _ ⟨⟩
      exact not_lt.mp long

theorem advance_eq_error {size : Nat} {e : Exc} (ran : advance where_ size stream = (.error e, after)) :
    Refusal beyond where_ document after e ∧ (∀ broken, Stream.Follows broken stream [] after) ∧
      stream.kept ≠ none := by
  unfold advance at ran
  split at ran
  · cases ran
  · next kept held =>
    dsimp only at ran
    split_ifs at ran with long soft
    · cases ran
    · cases ran
      exact ⟨.nameless nofun, fun _ => .aside stream _ _ _ _, by rw [held]; nofun⟩
    · cases ran

theorem advance_proper {size : Nat} (ready : stream.Ready document)
    (fits : size ≤ stream.here.length) :
    Proper beyond where_ document stream (advance where_ size stream) := by
  have chain : Relation.ReflTransGen (Move where_) stream (advance where_ size stream).2 :=
    .single (.advance fits)
  have utf8 := @advance_utf8 where_ stream size
  rcases ran : advance where_ size stream with ⟨e | ⟨⟩, after⟩
  · rw [ran] at chain
    obtain ⟨refusal, follows, held⟩ := advance_eq_error ran
    refine ⟨⟨chain, [], follows _⟩, nofun, fun unkept => absurd unkept held, ?_⟩
    rintro _ ⟨⟩
    exact refusal
  · rw [ran] at chain utf8
    have split := (List.take_append_drop size stream.here).symm
    have taken : (stream.here.take size).length = size := List.length_take_of_le fits
    obtain ⟨passes, here, _⟩ := advance_eq_ok ready.sane split (by rw [taken]; exact ran)
    refine ⟨⟨chain, _, passes.position, ?_, fun _ => passes.unread, fun _ => passes.accepts⟩,
      fun _ _ => passes.sane, passes.kept_none, nofun⟩
    rintro consumed ⟨codes, decoded⟩
    refine ⟨codes, ?_⟩
    rw [here, utf8, List.append_assoc, ← split]
    exact decoded

/-! ### White space and single octets -/

theorem takeBlank_proper (ready : stream.Ready document) :
    Proper beyond where_ document stream (takeBlank where_ stream) := by
  rw [takeBlank_eq]
  split_ifs
  · refine advance_proper ready ?_
    exact (List.takeWhile_prefix (l := stream.here) isBlank).length_le
  · exact .pure _ ready

theorem atEndLoop_proper {fuel : Nat} (ready : stream.Ready document)
    (enough : (contents stream.source).length < fuel) :
    Proper beyond where_ document stream (atEndLoop where_ fuel stream) := by
  induction fuel generalizing stream with
  | zero => cases enough
  | succ fuel inductionHypothesis =>
    rw [atEndLoop]
    refine (takeBlank_proper ready).seq ready fun _ taken takes ready' => ?_
    obtain ⟨_, _, source⟩ := takeBlank_eq_ok ready.sane takes
    refine Proper.seq ready' (.pure _ ready') ?_
    rintro _ _ ⟨⟩ _
    split_ifs with something
    · exact .pure _ ready'
    · have empty : taken.here.length = 0 := by
        rw [not_not.mp something]
        rfl
      refine (fill_proper ready' (by omega)).seq ready' fun more filled fills ready'' => ?_
      obtain ⟨_, chunk, _, moved, longer, _⟩ := fill_eq_ok ready'.sane fills
      split_ifs with goes_on
      · refine inductionHypothesis ready'' ?_
        have lengths := congrArg List.length moved
        rw [source, List.length_append] at lengths
        have := List.length_pos_iff.mpr (longer goes_on)
        omega
      · exact .pure _ ready''

theorem atEnd_proper (ready : stream.Ready document) :
    Proper beyond where_ document stream (atEnd where_ stream) :=
  atEndLoop_proper ready (Nat.lt_succ_self _)

theorem nextOctet_proper (ready : stream.Ready document) :
    Proper beyond where_ document stream (nextOctet where_ stream) := by
  refine (atEnd_proper ready).seq ready fun ended between _ ready' => ?_
  cases ended with
  | true => exact .fail (.nameless (by decide +kernel))
  | false => exact .pure _ ready'

theorem expect_proper {octet : Nat} (ready : stream.Ready document) :
    Proper beyond where_ document stream (expect where_ octet stream) := by
  refine (nextOctet_proper ready).seq ready fun found between finds ready' => ?_
  obtain ⟨_, rest, _, here, _⟩ := nextOctet_eq_ok ready.sane finds
  split_ifs with other
  · refine Proper.seq ready' (.pure _ ready') ?_
    rintro _ _ ⟨⟩ _
    exact .fail (.misplaced (ready'.octet here) other ⟨le_rfl, Nat.le_succ _⟩)
  · exact advance_proper ready' (by rw [here]; exact Nat.succ_pos _)

/-! ### Looking ahead, and strings -/

theorem ensureLoop_proper {fuel size : Nat} (ready : stream.Ready document)
    (small : size ≤ maxStreamNumber + 1) :
    Proper beyond where_ document stream (ensureLoop where_ fuel size stream) := by
  induction fuel generalizing stream with
  | zero => exact .pure _ ready
  | succ fuel inductionHypothesis =>
    rw [ensureLoop]
    refine Proper.seq ready (.pure _ ready) ?_
    rintro _ _ ⟨⟩ _
    split_ifs with short
    · refine (fill_proper ready (by omega)).seq ready fun more filled _ ready' => ?_
      split_ifs
      · exact inductionHypothesis ready'
      · exact .pure _ ready'
    · exact .pure _ ready

theorem ensure_proper {size : Nat} (ready : stream.Ready document)
    (small : size ≤ maxStreamNumber + 1) :
    Proper beyond where_ document stream (ensure where_ size stream) :=
  ensureLoop_proper ready small

theorem escape_proper (ready : stream.Ready document) :
    Proper beyond where_ document stream (escape where_ stream) := by
  refine (ensure_proper ready (by decide)).seq ready fun found between ensures ready' => ?_
  obtain ⟨passes, length, _⟩ := ensure_eq_ok ready.sane ensures
  split_ifs with short
  · exact .fail (.nameless (by decide +kernel))
  refine Proper.seq ready' (.pure _ ready') ?_
  rintro _ _ ⟨⟩ _
  dsimp only
  split_ifs with simple unicode
  · exact advance_proper ready' (by omega)
  · refine (ensure_proper ready' (by decide)).seq ready' fun found' later ensures' ready'' => ?_
    obtain ⟨_, length', _⟩ := ensure_eq_ok ready'.sane ensures'
    split_ifs with cut
    · exact .fail (.nameless (by decide +kernel))
    refine Proper.seq ready'' (.pure _ ready'') ?_
    rintro _ _ ⟨⟩ _
    split_ifs with bad
    · exact .fail (.nameless (by decide +kernel))
    · exact advance_proper ready'' (by omega)
  · exact .fail (.nameless (by decide +kernel))

theorem stringLoop_proper {fuel : Nat} (ready : stream.Ready document)
    (enough : stream.unread.length + (contents stream.source).length < fuel) :
    Proper beyond where_ document stream (stringLoop where_ fuel stream) := by
  induction fuel generalizing stream with
  | zero => cases enough
  | succ fuel inductionHypothesis =>
    rw [stringLoop]
    refine Proper.seq ready (.pure _ ready) ?_
    rintro _ _ ⟨⟩ _
    have front : stream.here.takeWhile isPlain <+: stream.here := List.takeWhile_prefix isPlain
    have split := (List.prefix_iff_eq_append.mp front).symm
    have fits := front.length_le
    dsimp only
    generalize stream.here.drop (stream.here.takeWhile isPlain).length = left at split ⊢
    generalize stream.here.takeWhile isPlain = plain at split fits ⊢
    refine (advance_proper ready fits).seq ready fun _ taken takes ready' => ?_
    obtain ⟨passes, here, source⟩ := advance_eq_ok ready.sane split takes
    have lengths := congrArg List.length passes.unread
    rw [List.length_append] at lengths
    cases left with
    | nil =>
      have empty : taken.here.length = 0 := by
        rw [here]
        rfl
      refine (fill_proper ready' (by omega)).seq ready' fun more filled fills ready'' => ?_
      obtain ⟨fill, chunk, _, moved, longer, _⟩ := fill_eq_ok ready'.sane fills
      split_ifs with goes_on
      · refine inductionHypothesis ready'' ?_
        have some_more := List.length_pos_iff.mpr (longer goes_on)
        have moved_lengths := congrArg List.length moved
        have same := congrArg List.length fill.unread
        rw [List.length_append] at moved_lengths same
        rw [source] at moved_lengths
        simp only [List.length_nil] at same
        omega
      · exact .fail (.nameless (by decide +kernel))
    | cons octet rest =>
      show Proper beyond where_ document taken ((if octet = 0x22 then advance where_ 1
        else if octet ≠ 0x5C then _ else _ : StreamStep Unit) taken)
      split_ifs with quote other
      · exact advance_proper ready' (by rw [here]; exact Nat.succ_pos _)
      · exact .fail (.nameless (by decide +kernel))
      · refine (escape_proper ready').seq ready' fun _ escaped escapes ready'' => ?_
        obtain ⟨piece, one⟩ := escape_eq_ok ready'.sane (not_not.mp other ▸ here) escapes
        refine inductionHypothesis ready'' ?_
        have shorter := congrArg List.length one.unread
        have positive : 0 < piece.text.length := by cases piece <;> simp [Piece.text]
        rw [List.length_append] at shorter
        have fewer := one.fewer
        rw [source] at fewer
        omega

theorem string_proper (ready : stream.Ready document) :
    Proper beyond where_ document stream (string where_ stream) := by
  refine (expect_proper ready).seq ready fun _ between _ ready' => ?_
  refine Proper.seq ready' (.pure _ ready') ?_
  rintro _ _ ⟨⟩ _
  exact stringLoop_proper ready' (Nat.lt_succ_self _)

/-! ### Values -/

/-- What `_json_number` refuses a number with. -/
theorem buildNumber_refuses {number : Number} {e : Exc}
    (raised : buildNumber py number = .error e) (fetched : e.isFetchError = true) :
    e.message.take 5 ≠ str "not '" := by
  unfold buildNumber at raised
  split_ifs at raised
  · have limited := map_eq_error raised
    unfold intOf at limited
    dsimp only at limited
    split_ifs at limited
    cases limited
    cases fetched
  · rcases bind_eq_error (map_eq_error raised) with unbuilt | ⟨value, _, refused⟩
    · unfold decimalOf at unbuilt
      split_ifs at unbuilt
      cases unbuilt
      cases fetched
    · split_ifs at refused
      · cases refused
        decide +kernel
      · cases refused
        nofun

theorem unreadable_refusal (cause : Exc) (after : Stream) :
    Refusal beyond where_ document after (unreadable where_ cause) := by
  unfold unreadable
  split_ifs
  · have split : str ": a reply nested too deeply to parse" =
        str ": " ++ str "a reply nested too deeply to parse" := by decide +kernel
    rw [split, ← List.append_assoc]
    exact .nameless (by decide +kernel)
  · have split : str ": a reply the json parser refused (" =
        str ": " ++ str "a reply the json parser refused (" := by decide +kernel
    rw [split, ← List.append_assoc where_, List.append_assoc (where_ ++ str ": "),
      List.append_assoc (where_ ++ str ": ")]
    exact .nameless nofun

theorem assertJsonNumber_refusal {number : Number} {e : Exc} (after : Stream)
    (raised : assertJsonNumber py where_ number = .error e) :
    Refusal beyond where_ document after e := by
  unfold assertJsonNumber at raised
  split at raised
  · cases raised
  · next cause built =>
    split_ifs at raised with fetched
    · cases raised
      exact .nameless (buildNumber_refuses built fetched)
    · cases raised
      exact unreadable_refusal cause after

theorem scalar_proper (ready : stream.Ready document) :
    Proper beyond where_ document stream (scalar py where_ stream) := by
  refine (ensure_proper ready le_rfl).seq ready fun _ ahead _ ready' => ?_
  refine Proper.seq ready' (.pure _ ready') ?_
  rintro _ _ ⟨⟩ _
  dsimp only
  cases literal : matchLiteral ahead.here with
  | some found =>
    obtain ⟨which, rest⟩ := found
    have fits := congrArg List.length (matchLiteral_sound literal)
    exact advance_proper ready' (by rw [fits, List.length_append]; omega)
  | none =>
    cases matched : matchNumber ahead.here with
    | none => exact .fail (.nameless (by decide +kernel))
    | some found =>
      obtain ⟨number, rest⟩ := found
      have fits := congrArg List.length (matchNumber_sound matched)
      dsimp only
      split_ifs
      · exact .fail (.nameless nofun)
      · have lifted : Proper beyond where_ document ahead
            (lift (assertJsonNumber py where_ number) ahead) := by
          cases outcome : assertJsonNumber py where_ number with
          | ok => exact .pure _ ready'
          | error e => exact .fail (assertJsonNumber_refusal ahead outcome)
        refine lifted.seq ready' ?_
        intro _ between lifts _
        obtain ⟨_, rfl⟩ := Prod.mk.inj lifts
        exact advance_proper ready' (by rw [fits, List.length_append]; omega)

theorem memberName_proper (ready : stream.Ready document) :
    Proper beyond where_ document stream (memberName where_ stream) :=
  (string_proper ready).seq ready fun _ _ _ ready' => expect_proper ready'

theorem slotHead_proper (kind : Kind) (ready : stream.Ready document) :
    Proper beyond where_ document stream (slotHead where_ kind stream) := by
  cases kind with
  | array => exact .pure _ ready
  | object => exact memberName_proper ready

/-- An octet past white space is consumed, and the refusal of it names where it was. -/
theorem take_proper {α : Type} {rest : Nat → StreamStep α} (ready : stream.Ready document)
    (others : ∀ octet between, between.Ready document →
      (∀ expected, octet ≠ expected → Refusal beyond where_ document between
        (misplaced where_ expected (between.position - 1))) →
      stream.position < between.position → Proper beyond where_ document between (rest octet between)) :
    Proper beyond where_ document stream ((do
      let octet ← nextOctet where_
      advance where_ 1
      rest octet : StreamStep α) stream) := by
  refine (nextOctet_proper ready).seq ready fun octet ahead finds ready' => ?_
  obtain ⟨_, more, passes, here, _⟩ := nextOctet_eq_ok ready.sane finds
  refine (advance_proper ready' (by rw [here]; exact Nat.succ_pos _)).seq ready'
    fun _ moved takes ready'' => ?_
  have one := (@advance_eq_ok where_ ahead moved ready'.sane [octet] more here takes).1
  have position : moved.position = ahead.position + 1 := one.position
  have earlier := passes.position
  refine others octet moved ready'' (fun expected other => ?_) (by omega)
  rw [position, Nat.add_sub_cancel]
  exact .misplaced (ready'.octet here) other (by omega)

theorem nextIn_proper {open_ : List Kind} (ready : stream.Ready document) :
    Proper beyond where_ document stream (nextIn where_ open_ stream) := by
  induction open_ generalizing stream with
  | nil => exact .pure _ ready
  | cons kind rest inductionHypothesis =>
    rw [nextIn]
    refine take_proper ready fun octet moved ready' refuses _ => ?_
    split_ifs with closes comma
    · exact inductionHypothesis ready'
    · exact Proper.seq ready' (.pure _ ready') (by rintro _ _ ⟨⟩ _; exact .fail (refuses _ comma))
    · exact (slotHead_proper kind ready').seq ready' fun _ _ _ ready'' => .pure _ ready''

theorem skipHead_proper {open_ : List Kind} (ready : stream.Ready document) :
    Proper beyond where_ document stream (skipHead py where_ open_ stream) := by
  refine (nextOctet_proper ready).seq ready fun octet ahead finds ready' => ?_
  obtain ⟨_, more, _, here, _⟩ := nextOctet_eq_ok ready.sane finds
  cases kindOf octet with
  | some kind =>
    dsimp only
    split_ifs
    · exact .fail (.nameless nofun)
    refine (advance_proper ready' (by rw [here]; exact Nat.succ_pos _)).seq ready'
      fun _ entered _ ready'' => ?_
    refine (nextOctet_proper ready'').seq ready'' fun first inside looks ready₃ => ?_
    obtain ⟨_, later, _, behind, _⟩ := nextOctet_eq_ok ready''.sane looks
    split_ifs
    · exact (slotHead_proper kind ready₃).seq ready₃ fun _ _ _ ready₄ => .pure _ ready₄
    · exact (advance_proper ready₃ (by rw [behind]; exact Nat.succ_pos _)).seq ready₃
        fun _ _ _ ready₄ => .pure _ ready₄
  | none =>
    have leaves : Proper beyond where_ document ahead (leaf py where_ octet ahead) := by
      unfold leaf
      split_ifs
      · exact string_proper ready'
      · exact scalar_proper ready'
    exact leaves.seq ready' fun _ _ _ ready'' => .pure _ ready''

theorem skipLoop_proper {fuel : Nat} {open_ : List Kind} (ready : stream.Ready document)
    (few : open_.length ≤ maxStreamDepth) (enough : stream.unread.length < fuel) :
    Proper beyond where_ document stream (skipLoop py where_ fuel open_ stream) := by
  induction fuel generalizing stream open_ with
  | zero => cases enough
  | succ fuel inductionHypothesis =>
    rw [skipLoop_succ]
    refine (skipHead_proper ready).seq ready fun found headed heads ready' => ?_
    obtain ⟨fewer, text, consumed, positive, _⟩ := skipHead_eq_ok ready.sane few heads
    have shorter := congrArg List.length consumed.unread
    rw [List.length_append] at shorter
    cases found with
    | some entered => exact inductionHypothesis ready' (fewer _ rfl) (by omega)
    | none =>
      refine (nextIn_proper ready').seq ready' fun found' stepped steps ready'' => ?_
      obtain ⟨fewer', more, consumed', _⟩ := @nextIn_eq_ok py _ _ _ _ _ ready'.sane few steps
      have shorter' := congrArg List.length consumed'.unread
      rw [List.length_append] at shorter'
      cases found' with
      | some entered => exact inductionHypothesis ready'' (fewer' _ rfl) (by omega)
      | none => exact .pure _ ready''

theorem skip_proper (ready : stream.Ready document) :
    Proper beyond where_ document stream (skip py where_ stream) :=
  skipLoop_proper ready (Nat.zero_le _) (by unfold Stream.rounds; omega)

/-! ### Keeping -/

theorem Stream.Ready.keeping (ready : stream.Ready document) (limit : Nat) (soft : Bool) :
    (stream.keeping limit soft).Ready document :=
  ready.still (.aside stream _ _ _ _) (.aside stream _ _ _ _) (Stream.sane_keeping ready.sane)

theorem Stream.Ready.unkept (ready : stream.Ready document) : stream.unkept.Ready document :=
  ready.still (.aside stream _ _ _ _) (.aside stream _ _ _ _) ⟨ready.sane.ended, nofun⟩

/-- What was consumed decodes, from an ASCII octet to one. -/
theorem Stream.Ready.decode {text : Bytes} (ready : stream.Ready document)
    (ready' : after.Ready document) (consumes : Stream.Consumes stream text after)
    (begins : ∀ code ∈ text.head?, code < 0x80) (ends : EndsAscii text) :
    ∃ chars, Utf8.decode false text = some chars := by
  obtain ⟨consumed, length, whole, _⟩ := ready.held
  obtain ⟨consumed', length', whole', codes, ran⟩ := ready'.held
  obtain ⟨front, octet, rfl, ascii⟩ := ends
  have same : consumed' ++ after.unread = (consumed ++ (front ++ [octet])) ++ after.unread := by
    rw [List.append_assoc, ← consumes.unread, ← whole, whole']
  obtain rfl := List.append_cancel_right same
  exact Utf8.decode_slice begins ascii ran

theorem Refusal.unkept {e : Exc} (refusal : Refusal beyond where_ document after e) :
    Refusal beyond where_ document after.unkept e := by
  cases refusal with
  | misplaced here other near => exact .misplaced here other near
  | nameless other => exact .nameless other
  | other raised => exact .other raised

/-- A step done while a value is kept, and what is done with that value, from where white space
ended. -/
theorem keeping_proper {α β : Type} {limit : Nat} {soft : Bool} {step : StreamStep α}
    {rest : α → StreamStep β} (ready : stream.Ready document)
    (inner : ∀ between : Stream, (between.keeping limit soft).Ready document →
      Proper beyond where_ document (between.keeping limit soft) (step (between.keeping limit soft)))
    (others : ∀ (between later : Stream) (answer : α), between.Sane → NoBlank between.unread →
      (between.keeping limit soft).Ready document → later.Ready document →
      step (between.keeping limit soft) = (.ok answer, later) →
        Proper beyond where_ document later.unkept (rest answer later.unkept)) :
    Proper beyond where_ document stream ((do
      keep where_ limit soft
      let answer ← ensuring step Stream.unkept
      rest answer : StreamStep β) stream) := by
  have looks := @nextOctet_proper beyond where_ document stream ready
  rcases ran : nextOctet where_ stream with ⟨e | octet, between⟩
  · rw [ran] at looks
    have failed : keep where_ limit soft stream = (.error e, between) := seq_of_error ran
    rw [seq_of_error failed]
    exact looks.failed
  have ready' := looks.ready ready ran
  rw [ran] at looks
  have keeps : keep where_ limit soft stream = (.ok (), between.keeping limit soft) := seq_of_ok ran
  obtain ⟨_, _, _, here, solid⟩ := nextOctet_eq_ok ready.sane ran
  have begins : NoBlank between.unread := by
    rw [Stream.unread, here]
    exact noBlank_cons solid
  have front {broken : Prop} :
      Stream.Moves where_ broken stream (between.keeping limit soft) :=
    (looks.moves.mono (by rintro ⟨⟩)).trans (.aside between _ _ _ _)
  have steps := inner between (ready'.keeping limit soft)
  rw [seq_of_ok keeps]
  rcases stepped : step (between.keeping limit soft) with ⟨e | answer, later⟩
  · rw [stepped] at steps
    have failed : ensuring step Stream.unkept (between.keeping limit soft) =
        (.error e, later.unkept) := by rw [ensuring, stepped]
    rw [seq_of_error failed]
    refine ⟨?_, by rintro _ ⟨⟩, fun _ => rfl, ?_⟩
    · refine (front.trans (steps.moves.mono ?_)).trans (.aside later _ _ _ _)
      intro lost
      rw [Except.error.inj lost]
    · rintro _ ⟨⟩
      exact (steps.refuses _ rfl).unkept
  · have ready'' := steps.ready (ready'.keeping limit soft) stepped
    have last := others between later answer ready'.sane begins (ready'.keeping limit soft) ready''
      stepped
    rw [stepped] at steps
    rw [seq_of_ok (ensuring_of_ok stepped)]
    have back {broken : Prop} : Stream.Moves where_ broken stream later.unkept :=
      (front.trans (steps.moves.mono (by rintro ⟨⟩))).trans (.aside later _ _ _ _)
    exact ⟨back.trans last.moves, last.sane, fun _ => last.unkept rfl, last.refuses⟩

theorem value_proper {limit : Int}
    (below : limit < 0 →
      beyond (.btcRpcValueError (str "negative json value limit: " ++ intText limit)))
    (shallow : py.nesting < maxStreamDepth → beyond tooDeep) (ready : stream.Ready document) :
    Proper beyond where_ document stream (value py where_ limit stream) := by
  unfold value
  split_ifs with negative
  · exact .fail (.other (below negative))
  refine keeping_proper ready (fun between ready' => ?_) ?_
  · exact (skip_proper ready').seq ready' fun _ _ _ ready'' => .pure _ ready''
  intro between later kept sane solid ready' ready'' ran
  obtain ⟨_, skipped, skips, reads⟩ := seq_eq_ok ran
  cases reads
  obtain ⟨tree, consumed, streams, depth, _, text⟩ := skip_keeping_eq_ok sane solid skips
  have numbers := streams.mono fun _ found => found.1
  obtain ⟨code, more, begins, first⟩ := tree.text_eq_cons
  obtain ⟨chars, decoded⟩ := ready'.decode ready'' consumed.toConsumes
    (by rw [begins]; rintro _ ⟨⟩; exact first.ascii) tree.endsAscii
  rw [text]
  show Proper beyond where_ document later.unkept (keptValue py tree.text, later.unkept)
  cases outcome : keptValue py tree.text with
  | ok answer => exact .pure _ ready''.unkept
  | error e =>
    refine .fail ?_
    obtain ⟨codes, encodes, _, same⟩ := @keptValue_text py tree chars decoded
    rw [same] at outcome
    rw [build_tooDeep codes (encodes.numbers.mp numbers) outcome]
    refine .other (shallow (lt_of_not_ge fun deep => ?_))
    obtain ⟨answer, built⟩ := (build_isOk py codes py.nesting).mpr
      ⟨encodes.depth ▸ depth.trans deep, encodes.numbers.mp numbers⟩
    cases built.symm.trans outcome

theorem name_proper (ready : stream.Ready document) :
    Proper beyond where_ document stream (name py where_ stream) := by
  refine keeping_proper ready (fun between ready' => ?_) ?_
  · exact (string_proper ready').seq ready' fun _ _ _ ready'' => .pure _ ready''
  intro between later kept sane solid ready' ready'' ran
  obtain ⟨_, named, names, reads⟩ := seq_eq_ok ran
  cases reads
  obtain ⟨pieces, consumed, text⟩ := string_keeping_eq_ok sane solid names
  obtain ⟨chars, decoded⟩ := ready'.decode ready'' consumed.toConsumes
    (by rintro _ ⟨⟩; decide) (endsAscii_quoted pieces)
  obtain ⟨found, named⟩ := @exists_nameIs py pieces chars decoded
  rw [text]
  show Proper beyond where_ document later.unkept (keptName py _, later.unkept)
  rw [keptName_eq_ok.mpr named]
  exact .pure _ ready''.unkept

/-! ### Entering, going on, leaving -/

theorem slot_proper {kind : Kind} (ready : stream.Ready document) :
    Proper beyond where_ document stream (slot py where_ kind stream) := by
  cases kind with
  | array => exact .pure _ ready
  | object =>
    refine (name_proper ready).seq ready fun _ _ _ ready' => ?_
    exact (expect_proper ready').seq ready' fun _ _ _ ready'' => .pure _ ready''

theorem change_moved_proper {delta : Int} (ready : stream.Ready document) :
    Proper beyond where_ document stream ((change (Stream.moved delta) : StreamStep Unit) stream) :=
  ⟨.aside stream _ _ _ _, fun _ _ => ⟨ready.sane.ended, ready.sane.kept⟩, id, nofun⟩

theorem enter_proper {kind : Kind} (ready : stream.Ready document) :
    Proper beyond where_ document stream (enter py where_ kind stream) := by
  refine (expect_proper ready).seq ready fun _ entered _ ready' => ?_
  refine (nextOctet_proper ready').seq ready' fun octet ahead looks ready'' => ?_
  obtain ⟨_, rest, _, here, _⟩ := nextOctet_eq_ok ready'.sane looks
  split_ifs
  · exact (advance_proper ready'' (by rw [here]; exact Nat.succ_pos _)).seq ready''
      fun _ _ _ ready₃ => .pure _ ready₃
  · refine (change_moved_proper ready'').seq ready'' fun _ _ _ ready₃ => ?_
    exact (slot_proper ready₃).seq ready₃ fun _ _ _ ready₄ => .pure _ ready₄

theorem resume_proper {kind : Kind} (ready : stream.Ready document) :
    Proper beyond where_ document stream (resume py where_ kind stream) := by
  refine take_proper ready fun octet moved ready' refuses _ => ?_
  split_ifs with closes comma
  · exact (change_moved_proper ready').seq ready' fun _ _ _ ready'' => .pure _ ready''
  · exact Proper.seq ready' (.pure _ ready') (by rintro _ _ ⟨⟩ _; exact .fail (refuses _ comma))
  · exact (slot_proper ready').seq ready' fun _ _ _ ready'' => .pure _ ready''

theorem end_proper (ready : stream.Ready document) :
    Proper beyond where_ document stream (end_ where_ stream) := by
  refine (atEnd_proper ready).seq ready fun ended _ _ ready' => ?_
  cases ended with
  | true => exact .pure _ ready'
  | false => exact .fail (.nameless (by decide +kernel))

end Reading

/-! ### Calls -/

/-- What a walk does to a stream: a method of it, or a resumption of an iterator over a container,
the first or a later one. -/
inductive StreamCall
  | peek
  | skip
  | value (limit : Int)
  | enter (kind : Kind)
  | resume (kind : Kind)
  | end_

/-- What a call answers. -/
inductive Answer
  | octet (octet : Nat)
  | done
  | value (json : Json)
  | yielded (found : Option (Option Str))
deriving DecidableEq

section Calls

variable (py : Interpreter) (where_ : Str)

def StreamCall.perform : StreamCall → StreamStep Answer
  | .peek => do return .octet (← BitcoinCoreRpc.peek where_)
  | .skip => do
    BitcoinCoreRpc.skip py where_
    return .done
  | .value limit => do return .value (← BitcoinCoreRpc.value py where_ limit)
  | .enter kind => do return .yielded (← BitcoinCoreRpc.enter py where_ kind)
  | .resume kind => do return .yielded (← BitcoinCoreRpc.resume py where_ kind)
  | .end_ => do
    BitcoinCoreRpc.end_ where_
    return .done

/-- Calls in a row, each completed or refused. -/
def performAll : List StreamCall → Stream → Stream
  | [], stream => stream
  | call :: later, stream => performAll later (call.perform py where_ stream).2

/-- One of the calls was refused octets that are not UTF-8. -/
def Broken : List StreamCall → Stream → Prop
  | [], _ => False
  | call :: later, stream =>
    (call.perform py where_ stream).1 = .error (notUtf8 where_) ∨
      Broken later (call.perform py where_ stream).2

end Calls

section Runs

variable {beyond : Exc → Prop} {py : Interpreter} {where_ : Str} {document : Bytes} {stream : Stream}

theorem perform_proper (call : StreamCall) (ready : stream.Ready document) :
    Proper (Unfit py) where_ document stream (call.perform py where_ stream) := by
  cases call with
  | peek => exact (nextOctet_proper ready).seq ready fun _ _ _ ready' => .pure _ ready'
  | skip => exact (skip_proper ready).seq ready fun _ _ _ ready' => .pure _ ready'
  | value =>
    exact (value_proper .negative .tooDeep ready).seq ready fun _ _ _ ready' => .pure _ ready'
  | enter => exact (enter_proper ready).seq ready fun _ _ _ ready' => .pure _ ready'
  | resume => exact (resume_proper ready).seq ready fun _ _ _ ready' => .pure _ ready'
  | end_ => exact (end_proper ready).seq ready fun _ _ _ ready' => .pure _ ready'

/-- A call leaves a stream of the same document, unless it lost octets of it. -/
theorem perform_leaves (call : StreamCall) (ready : stream.Ready document)
    (unkept : stream.kept = none) :
    ∃ document', (call.perform py where_ stream).2.Ready document' ∧
      (call.perform py where_ stream).2.kept = none ∧
      ((call.perform py where_ stream).1 ≠ .error (notUtf8 where_) → document' = document) := by
  have proper := @perform_proper py where_ document stream call ready
  have keeps := Stream.keeps_chain proper.moves.chain
  have unkept' := proper.unkept unkept
  obtain ⟨text, follows⟩ := proper.moves.follows
  have sane : (call.perform py where_ stream).2.Sane :=
    ⟨keeps.ended ready.sane.ended, fun kept held => nomatch unkept'.symm.trans held⟩
  obtain ⟨document', ready', same⟩ := ready.moved keeps follows sane
  exact ⟨document', ready', unkept', same⟩

theorem performAll_leaves (calls : List StreamCall) (ready : stream.Ready document)
    (unkept : stream.kept = none) :
    ∃ document', (performAll py where_ calls stream).Ready document' ∧
      (performAll py where_ calls stream).kept = none ∧
      Relation.ReflTransGen (Move where_) stream (performAll py where_ calls stream) ∧
      (¬Broken py where_ calls stream → document' = document) := by
  induction calls generalizing stream document with
  | nil => exact ⟨document, ready, unkept, .refl, fun _ => rfl⟩
  | cons call later inductionHypothesis =>
    obtain ⟨document', ready', unkept', same⟩ := @perform_leaves py where_ _ _ call ready unkept
    obtain ⟨document'', ready'', unkept'', chain, same'⟩ := inductionHypothesis ready' unkept'
    refine ⟨document'', ready'', unkept'', ?_, fun whole => ?_⟩
    · exact (@perform_proper py where_ _ _ call ready).moves.chain.trans chain
    · rw [Broken, not_or] at whole
      rw [same' whole.2, same whole.1]

theorem Stream.Ready.new {source : List Arrival} (complete : Complete source) :
    (Stream.new source).Ready (contents source) where
  sane := ⟨nofun, nofun⟩
  complete := complete
  within := le_rfl
  held := ⟨[], rfl, rfl, [], rfl⟩

theorem refusal_misplaced {what : Str} {expected at_ : Nat}
    (same : refusal where_ what = misplaced where_ expected at_) :
    what = str "not '" ++ ([expected] ++ (str "' at octet " ++ (natText at_ ++ str " of the reply"))) := by
  have whole := List.append_cancel_left (Exc.fetchError.inj same)
  simpa only [List.append_assoc] using whole

theorem misplaced_inj {expected at_ expected' at_' : Nat}
    (same : misplaced where_ expected at_ = misplaced where_ expected' at_') :
    expected = expected' ∧ at_ = at_' := by
  have whole := refusal_misplaced same
  simp only [List.append_assoc] at whole
  obtain ⟨expecteds, rest⟩ := List.cons.inj (List.append_cancel_left whole)
  have numbers : str "' at octet " ++ (natText at_ ++ str " of the reply") =
      str "' at octet " ++ (natText at_' ++ str " of the reply") := rest
  have texts := List.append_cancel_right (List.append_cancel_left numbers)
  refine ⟨expecteds, ?_⟩
  rw [← digitsValue_decimalText at_, ← digitsValue_decimalText at_']
  exact congrArg digitsValue texts

/-- An offset a refusal names is that of an octet of the document, which is not the octet asked for,
and the stream stopped at it or past it. -/
theorem Refusal.offset {after : Stream} {e : Exc} {expected at_ : Nat}
    (refusal : Refusal (Unfit py) where_ document after e)
    (named : e = BitcoinCoreRpc.misplaced where_ expected at_) :
    ∃ found, document[at_]? = some found ∧ found ≠ expected ∧ at_ ≤ after.position ∧
      after.position ≤ at_ + 1 := by
  cases refusal with
  | misplaced here other near =>
    obtain ⟨rfl, rfl⟩ := misplaced_inj named
    exact ⟨_, here, other, near⟩
  | nameless other =>
    rw [refusal_misplaced named] at other
    exact absurd rfl other
  | other raised =>
    subst named
    generalize same : BitcoinCoreRpc.misplaced where_ expected at_ = e at raised
    cases raised <;> cases same

theorem Refusal.inTime {after : Stream} (refusal : Refusal (Unfit py) where_ document after outOfRounds) :
    False := by
  generalize same : outOfRounds = e at refusal
  cases refusal with
  | misplaced | nameless => cases same
  | other raised =>
    cases raised with
    | negative => cases same
    | tooDeep => exact absurd same (by decide +kernel)

/-- However a document is cut and whatever a walk did to its stream, refused or not, another
call goes from where the stream is by single fills and advances, and to its end. Along them the
position is in the buffer and never behind, the buffer within its bound, and a value kept within its
limit. As long as no octets were refused as not UTF-8 the document is what was consumed, what was
read and what is still to be read, and an offset a refusal names is that of the octet refused. -/
theorem performAll_conserves (py : Interpreter) (where_ : Str) {source : List Arrival}
    (complete : Complete source) (calls : List StreamCall) (call : StreamCall) :
    let stream := performAll py where_ calls (Stream.new source)
    let ran := call.perform py where_ stream
    (¬Broken py where_ calls (Stream.new source) →
      (contents source).take stream.position ++ stream.here ++ contents stream.source =
          contents source ∧
        stream.position ≤ (contents source).length ∧
        ∀ expected at_, ran.1 = .error (misplaced where_ expected at_) →
          ∃ found, (contents source)[at_]? = some found ∧ found ≠ expected ∧
            at_ ≤ ran.2.position ∧ ran.2.position ≤ at_ + 1) ∧
    ran.1 ≠ .error outOfRounds ∧
    Relation.ReflTransGen (Move where_) (Stream.new source) stream ∧
    Relation.ReflTransGen (Move where_) stream ran.2 ∧
    (∀ between after, Relation.ReflTransGen (Move where_) (Stream.new source) between →
      Move where_ between after → between.position ≤ after.position ∧
        after.pos ≤ after.buffer.length ∧ after.buffer.length ≤ readChunk + maxStreamNumber) ∧
    ∀ size between after, advance where_ size between = (.ok (), after) →
      ∀ kept, after.kept = some kept → kept.length ≤ after.keptLimit := by
  intro stream ran
  obtain ⟨document, ready, unkept, chain, same⟩ :=
    @performAll_leaves py where_ _ _ calls (.new complete) rfl
  have proper := @perform_proper py where_ _ _ call ready
  refine ⟨fun whole => ?_, fun raised => (proper.refuses _ raised).inTime, chain,
    proper.moves.chain, fun between after before move => ?_, fun size between after ran => ?_⟩
  · obtain rfl := same whole
    obtain ⟨consumed, length, split, _⟩ := ready.held
    refine ⟨?_, ?_, fun expected at_ raised => (proper.refuses _ raised).offset rfl⟩
    · have front : (contents source).take stream.position = consumed := by
        rw [split, ← length, List.take_left]
      rw [front, List.append_assoc]
      exact split.symm
    · rw [split, List.length_append, ← length]
      exact Nat.le_add_right _ _
  · have early := Stream.keeps_chain before
    have late := Stream.keeps_move move
    exact ⟨late.forward, late.within (early.within le_rfl), late.bounded (early.bounded (Nat.zero_le _))⟩
  · exact advance_kept ran

/-- An array whose item was not consumed, an octet at a time. -/
theorem performAll_conserves_item :
    let source := [.octets 0x5B [], .octets 0x31 [], .octets 0x5D []]
    let stream := performAll cpython [] [.enter .array] (Stream.new source)
    ∃ found, (contents source)[1]? = some found ∧ found ≠ 0x2C ∧
      1 ≤ ((StreamCall.resume .array).perform cpython [] stream).2.position ∧
        ((StreamCall.resume .array).perform cpython [] stream).2.position ≤ 1 + 1 :=
  ((performAll_conserves cpython [] (by
      intro arrival member e
      simp only [List.mem_cons, List.not_mem_nil, or_false] at member
      rcases member with rfl | rfl | rfl <;> nofun) [.enter .array] (.resume .array)).1
    (by unfold Broken Broken; decide +kernel)).2.2 0x2C 1 (by decide +kernel)

end Runs

end BitcoinCoreRpc
